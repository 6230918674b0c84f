import DTun.Node.Rendezvous.Symm.Turn

/-!
# The turn on the accepting side

The handlers of `RendezvousSymmAccSession` that have the turn. No assertion fails in them, the
ports of `ports_` are pinged one after the other, and each hands the turn to one other handler or
sends it to the other side.
-/

namespace DTun.Node.Rendezvous

namespace SymmAcc.Acc

open Symm

/-- To be started. -/
def starting (s : Acc) : List Turn :=
  if s.started then [] else if s.owner then [.request] else if s.ready then [.answer] else []

/-- To get ports. -/
def waiting (s : Acc) : List Turn :=
  if s.portReservation = some .queued then [if s.ready then .answer else .request] else []

/-- The turns of the accepting side. -/
def turns (s : Acc) : List Turn :=
  starting s ++ waiting s ++ List.replicate s.own.checkTimers Turn.answer ++
    List.replicate s.own.writes Turn.round ++ List.replicate s.own.nextTimers Turn.reply ++
    List.replicate s.own.finalTimers.length Turn.final

/-- Its socket is there and it has ports. -/
def Equipped (s : Acc) : Prop := s.HasPorts ∧ s.own.pingConn = true

/-- `k` rounds are over, out of three, and the next has not begun. -/
def Between (s : Acc) (pinged : List Nat) : Prop :=
  ∃ k < 3, s.own.stepIdx = (k : Nat) ∧ s.own.numPingSent = 0 ∧ pinged.length = k * windowSize

/-- What holds of the accepting side while the turn is somewhere. -/
def At (s : Acc) (pinged : List Nat) : Turn → Prop
  | .request => Between s pinged ∧ (s.portReservation = some .queued → s.owner = true)
  | .answer => Between s pinged ∧ (0 < s.own.checkTimers → Equipped s)
  | .round => Equipped s ∧ ∃ k < 3, s.own.stepIdx = (k : Nat) ∧
      s.own.numPingSent < windowSize ∧ pinged.length = k * windowSize + s.own.numPingSent + 1
  | .reply => Equipped s ∧ ∃ k : Nat, s.own.stepIdx = k ∧ s.own.numPingSent = 0 ∧
      pinged.length = k * windowSize
  | .final => Equipped s

/-- What always holds of the accepting side. -/
structure Ok (ports : List Nat) (s : Acc) : Prop where
  ports : s.own.ports = ports
  callback : s.started = true → s.callback = true
  unstarted : s.started = false → s.portReservation = none ∧ (s.owner = true → s.ready = false)
  hello : s.own.helloPending = true → s.own.masterSession = true
  reading : s.own.reading = true → s.own.pingConn = true

/-- The handler has passed the turn on: to one of its own handlers or to the other side. -/
structure Takes (ports pinged : List Nat) (t : Acc) (y : Turn) : Prop where
  stays : gone t = false
  ok : Ok ports t
  turn : turns t ++ t.acts.filterMap (turnOf .request) = [y]
  pings : pinged ++ t.acts.filterMap pingOf <+: ports
  now : At t (pinged ++ t.acts.filterMap pingOf) y
  final : t.acts.any isFinal = true → y = .final

/-- The turn can go on from `x` to `y` in a handler of the accepting side. -/
def Follows (x y : Turn) : Prop := (x = .request → y = .request) ∧ (x = .final → y = .final)

/-- How a handler of the accepting side leaves the session that has had the turn at `x`. -/
def Onward (ports pinged : List Nat) (x : Turn) (t : Acc) : Prop :=
  ∃ y, Follows x y ∧ Takes ports pinged t y

/-- A started session without a turn, its reservation apart. -/
structure Idle (s : Acc) : Prop where
  started : s.started = true
  checkTimers : s.own.checkTimers = 0
  writes : s.own.writes = 0
  nextTimers : s.own.nextTimers = 0
  finalTimers : s.own.finalTimers = []

variable {ports pinged : List Nat} {s t : Acc} {x y : Turn} {env : Env}

theorem length_turns (s : Acc) : (turns s).length = (starting s).length + (waiting s).length +
    s.own.checkTimers + s.own.writes + s.own.nextTimers + s.own.finalTimers.length := by
  simp only [turns, List.length_append, List.length_replicate]

theorem mem_turns_iff : x ∈ turns s ↔ x ∈ starting s ∨ x ∈ waiting s ∨
    (0 < s.own.checkTimers ∧ x = .answer) ∨ (0 < s.own.writes ∧ x = .round) ∨
    (0 < s.own.nextTimers ∧ x = .reply) ∨ (0 < s.own.finalTimers.length ∧ x = .final) := by
  simp only [turns, List.mem_append, List.mem_replicate, Nat.pos_iff_ne_zero, or_assoc]

theorem Idle.starting (h : Idle s) : starting s = [] := by rw [Acc.starting, if_pos h.started]

theorem Idle.turns (h : Idle s) : turns s = waiting s := by
  simp only [Acc.turns, h.starting, h.checkTimers, h.writes, h.nextTimers, h.finalTimers,
    List.length_nil, List.replicate_zero, List.append_nil, List.nil_append]

theorem waiting_of_hasPorts (h : s.HasPorts) : waiting s = [] := if_neg h.not_queued

theorem waiting_of_none (h : s.portReservation = none) : waiting s = [] :=
  if_neg (h ▸ (Option.some_ne_none _).symm)

/-- The turns of a session that is started and has its ports. -/
theorem turns_of_hasPorts (t : Acc) {a b c d : Nat} (hstarted : t.started = true)
    (hports : t.HasPorts) (hcheck : t.own.checkTimers = a) (hwrites : t.own.writes = b)
    (hnext : t.own.nextTimers = c) (hfinal : t.own.finalTimers.length = d) :
    turns t = List.replicate a Turn.answer ++ List.replicate b Turn.round ++
      List.replicate c Turn.reply ++ List.replicate d Turn.final := by
  rw [turns, starting, if_pos hstarted, waiting_of_hasPorts hports, hcheck, hwrites, hnext, hfinal]
  rfl

theorem ports_of_waiting {r : Reservation} (hr : s.portReservation = some r)
    (hwaiting : waiting s = []) : r.ports ≠ [] := by
  obtain ⟨granted⟩ := r
  rintro rfl
  exact List.cons_ne_nil _ _ ((if_pos hr).symm.trans hwaiting)

theorem Ok.started (h : Ok ports s) (hports : s.portReservation ≠ none) : s.started = true :=
  Bool.eq_true_of_not_eq_false fun hun => hports (h.unstarted hun).1

theorem Ok.started_of_hasPorts (h : Ok ports s) (hports : s.HasPorts) : s.started = true := by
  obtain ⟨r, hr, -⟩ := hports
  exact h.started (hr ▸ Option.some_ne_none r)

/-- The session in a handler that has the turn. -/
structure Holds (ports pinged : List Nat) (s : Acc) : Prop where
  ok : Ok ports s
  idle : Idle s
  acts : s.acts = []
  refused : s.refused = false
  pinged : pinged <+: ports

theorem Holds.callback (h : Holds ports pinged s) : s.callback = true :=
  h.ok.callback h.idle.started

theorem Holds.quiet (h : Holds ports pinged s) : ∀ a ∈ s.acts, a = .use := by
  rw [h.acts]
  exact fun a ha => absurd ha List.not_mem_nil

theorem Holds.absurd_unstarted (h : Holds ports pinged s) {p : Prop} (hun : s.started = false) :
    p :=
  Bool.noConfusion (hun.symm.trans h.idle.started)

/-- The acts of the handler are `acts`, with no ping but final ones. -/
theorem takes_of_acts {acts : List Act} (hacts : t.acts = acts) (hrefused : t.refused = false)
    (hok : Ok ports t) (hturn : turns t ++ acts.filterMap (turnOf .request) = [y])
    (hpinged : pinged <+: ports) (hnow : At t pinged y)
    (hdone : acts.any Act.isDone = false) (hpings : acts.filterMap pingOf = [])
    (hfinal : acts.any isFinal = false ∨ y = .final) :
    Takes ports pinged t y := by
  subst hacts
  refine ⟨?_, hok, hturn, ?_, ?_, ?_⟩
  · rw [gone, hdone, hrefused, Bool.or_false]
  · rw [hpings, List.append_nil]
    exact hpinged
  · rw [hpings, List.append_nil]
    exact hnow
  · exact fun hany => hfinal.resolve_left fun hnone => Bool.noConfusion (hnone.symm.trans hany)

/-- A request for ports waits in the allocator. -/
theorem Holds.takes_waiting (h : Holds ports pinged s) (hbetween : Between s pinged)
    (hy : y = if s.ready then .answer else .request) (howner : s.ready = false → s.owner = true) :
    Takes ports pinged s.reserveBestEffort y := by
  have hidle : Idle s.reserveBestEffort := ⟨h.idle.started, h.idle.checkTimers, h.idle.writes,
    h.idle.nextTimers, h.idle.finalTimers⟩
  refine takes_of_acts (t := s.reserveBestEffort) h.acts h.refused ?_ ?_ h.pinged ?_ rfl rfl
    (.inl rfl)
  · exact ⟨h.ok.ports, h.ok.callback, h.absurd_unstarted, h.ok.hello, h.ok.reading⟩
  · rw [hidle.turns, hy]
    exact List.append_nil _
  · rw [hy]
    cases hready : s.ready with
    | true => exact ⟨hbetween, fun hpos => absurd hpos (h.idle.checkTimers ▸ Nat.lt_irrefl 0)⟩
    | false => exact ⟨hbetween, fun _ => howner hready⟩

/-- READY for the other side. -/
theorem Holds.takes_ready (h : Holds ports pinged s) (hbetween : Between s pinged)
    (hwaiting : s.portReservation ≠ some .queued) :
    Takes ports pinged (s.act .ready) .request := by
  have hidle : Idle (s.act .ready) := ⟨h.idle.started, h.idle.checkTimers, h.idle.writes,
    h.idle.nextTimers, h.idle.finalTimers⟩
  have hacts : s.acts ++ [Act.ready] = [Act.ready] := by rw [h.acts]; rfl
  refine takes_of_acts (t := s.act .ready) hacts h.refused ?_ ?_ h.pinged ?_ rfl rfl (.inl rfl)
  · exact ⟨h.ok.ports, h.ok.callback, h.ok.unstarted, h.ok.hello, h.ok.reading⟩
  · have hnone : waiting (s.act .ready) = [] := if_neg hwaiting
    rw [hidle.turns, hnone]
    rfl
  · exact ⟨hbetween, fun hqueued => absurd hqueued hwaiting⟩

/-- A timer is posted to look whether the hello is out. -/
theorem takes_check (hacts : t.acts = [] ∨ t.acts = [.use, .hello]) (hrefused : t.refused = false)
    (hok : Ok ports t) (hidle : Idle t) (hpinged : pinged <+: ports) (hbetween : Between t pinged)
    (hequipped : Equipped t) : Takes ports pinged (postCheck t) .answer := by
  have hturns : turns (postCheck t) = [.answer] :=
    turns_of_hasPorts (postCheck t) hidle.started hequipped.1
      (congrArg (· + 1) hidle.checkTimers) hidle.writes hidle.nextTimers
      (congrArg List.length hidle.finalTimers)
  have hok' : Ok ports (postCheck t) :=
    ⟨hok.ports, hok.callback, hok.unstarted, hok.hello, hok.reading⟩
  rcases hacts with hacts | hacts
  · exact takes_of_acts hacts hrefused hok' (by rw [hturns]; rfl) hpinged
      ⟨hbetween, fun _ => hequipped⟩ rfl rfl (.inl rfl)
  · exact takes_of_acts hacts hrefused hok' (by rw [hturns]; rfl) hpinged
      ⟨hbetween, fun _ => hequipped⟩ rfl rfl (.inl rfl)

/-- The end of `start` and of `onPortReservation`: the ports are used and a socket is opened. -/
theorem Holds.takes_opened (h : Holds ports pinged s) (hbetween : Between s pinged)
    {r : Reservation} (hports : r.ports ≠ []) :
    Takes ports pinged (postCheck
      ((openSocket (Session.act { s with portReservation := some r } .use)).act .hello))
        .answer := by
  have hacts : s.acts ++ [Act.use] ++ [Act.hello] = [Act.use, Act.hello] := by rw [h.acts]; rfl
  refine takes_check (.inr hacts) h.refused ?_ ?_ h.pinged hbetween ⟨⟨r, rfl, hports⟩, rfl⟩
  · exact ⟨h.ok.ports, h.ok.callback, h.absurd_unstarted, fun _ => rfl, fun _ => rfl⟩
  · exact ⟨h.idle.started, h.idle.checkTimers, rfl, h.idle.nextTimers, h.idle.finalTimers⟩

/-- The reservation is written, nothing else. -/
theorem Holds.reserved (h : Holds ports pinged s) (r : Option Reservation) :
    Holds ports pinged { s with portReservation := r } :=
  ⟨⟨h.ok.ports, h.ok.callback, h.absurd_unstarted, h.ok.hello, h.ok.reading⟩,
    ⟨h.idle.started, h.idle.checkTimers, h.idle.writes, h.idle.nextTimers, h.idle.finalTimers⟩,
    h.acts, h.refused, h.pinged⟩

theorem Holds.readied (h : Holds ports pinged s) : Holds ports pinged { s with ready := true } :=
  ⟨⟨h.ok.ports, h.ok.callback, h.absurd_unstarted, h.ok.hello, h.ok.reading⟩,
    ⟨h.idle.started, h.idle.checkTimers, h.idle.writes, h.idle.nextTimers, h.idle.finalTimers⟩,
    h.acts, h.refused, h.pinged⟩

theorem Holds.quiet_use (h : Holds ports pinged s) : ∀ a ∈ s.acts ++ [Act.use], a = .use := by
  rw [h.acts]
  exact fun a ha => List.mem_singleton.mp ha

theorem follows_answer : Follows .answer y := ⟨by rintro ⟨⟩, by rintro ⟨⟩⟩

theorem Holds.passes_startHello (h : Holds ports pinged s) (hbetween : Between s pinged)
    (hports : s.HasPorts) : Passes (Onward ports pinged .answer) (startHello s env) := by
  refine .ite (fun _ => .refused h.quiet rfl) fun _ => .use hports fun r hr => ?_
  refine .ite (fun _ => .ok ?_) fun _ => .refused h.quiet_use rfl
  exact ⟨_, follows_answer, h.takes_opened hbetween hr⟩

/-- With `ready_` the session goes on to its pings. -/
theorem Holds.passes_onPortReservation (h : Holds ports pinged s) (hready : s.ready = true)
    (hbetween : Between s pinged) (hports : s.HasPorts) :
    Passes (Onward ports pinged .answer) (onPortReservation s env) := by
  refine .guard h.callback (.guard hready ?_)
  refine .ite (fun _ => .fail h.quiet) fun _ => .use hports fun r hr => ?_
  refine .ite (fun _ => .ok ?_) fun _ => .fail h.quiet_use
  exact ⟨_, follows_answer, h.takes_opened hbetween hr⟩

/-- Without it the owner tells the other side that it has its ports. -/
theorem Holds.passes_onPortReservation_owner (h : Holds ports pinged s) (hready : s.ready = false)
    (howner : s.owner = true) (hbetween : Between s pinged) (hports : s.HasPorts) :
    Passes (Onward ports pinged .request) (onPortReservation s env) := by
  refine .guard h.callback (.ite (fun _ => .require howner (.ok ?_)) fun hn => ?_)
  · exact ⟨_, ⟨id, id⟩, h.readied.takes_ready hbetween hports.not_queued⟩
  · exact absurd (congrArg not hready) hn

theorem Holds.passes_onGranted (h : Holds ports pinged s)
    {granted : List (Nat × PortAllocator.TimePoint)} (hgranted : granted ≠ [])
    (hbetween : Between s pinged) (howner : s.ready = false → s.owner = true)
    (hx : x = if s.ready then .answer else .request) :
    Passes (Onward ports pinged x) (onGranted s granted env) := by
  have hholds : Holds ports pinged (s.grant granted) := h.reserved _
  have hports : (s.grant granted).HasPorts := ⟨_, rfl, hgranted⟩
  cases hready : s.ready with
  | true =>
    obtain rfl : x = .answer := by rw [hx, hready, if_pos rfl]
    exact hholds.passes_onPortReservation hready hbetween hports
  | false =>
    obtain rfl : x = .request := by rw [hx, hready, if_neg Bool.false_ne_true]
    exact hholds.passes_onPortReservation_owner hready (howner hready) hbetween hports

/-- READY for a session that is started. -/
theorem Holds.passes_onReady (h : Holds ports pinged s) (hbetween : Between s pinged)
    (hwaiting : waiting s = []) : Passes (Onward ports pinged .answer) (onReady s env) := by
  refine .guard h.idle.started (.guard h.callback (.ite (fun hsome => ?_) fun _ => ?_))
  · obtain ⟨r, hr⟩ := Option.isSome_iff_exists.mp hsome
    have hports : r.ports ≠ [] := ports_of_waiting (s := s) hr hwaiting
    exact h.readied.passes_onPortReservation rfl hbetween ⟨r, hr, hports⟩
  · refine .ite (fun _ => .ok ?_) fun _ => .ite (fun _ => .fail h.quiet) fun hsome => ?_
    · exact ⟨_, follows_answer, h.readied.takes_waiting hbetween rfl Bool.noConfusion⟩
    · exact (h.readied.reserved _).passes_onPortReservation rfl hbetween
        (Session.reserve_hasPorts (Nat.succ_pos _) hsome)

/-- `start` of a session that has the turn: of the owner, or when READY has come. -/
theorem passes_start (hholds : Holds ports pinged { s with started := true, callback := true })
    (hbetween : Between s pinged) (hready : s.owner = true → s.ready = false)
    (hx : (s.owner = true ∧ x = .request) ∨ (s.owner = false ∧ s.ready = true ∧ x = .answer)) :
    Passes (Onward ports pinged x) (start s env) := by
  rcases hx with ⟨howner, rfl⟩ | ⟨howner, hr, rfl⟩
  · refine .ite (fun _ => ?_) fun hn => absurd howner hn
    refine .ite (fun _ => .ok ?_) fun _ => .ite (fun _ => .refused hholds.quiet rfl) fun hsome => ?_
    · refine ⟨.request, ⟨id, id⟩, hholds.takes_waiting hbetween ?_ fun _ => howner⟩
      show _ = if s.ready then _ else _
      rw [hready howner, if_neg Bool.false_ne_true]
    · have hports := Session.reserve_hasPorts (Nat.succ_pos _) hsome
      exact .ok ⟨.request, ⟨id, id⟩, (hholds.reserved _).takes_ready hbetween hports.not_queued⟩
  · refine .ite (fun hn => Bool.noConfusion (howner.symm.trans hn)) fun _ => .guard hr ?_
    refine .ite (fun _ => .ok ?_) fun _ => .ite (fun _ => .refused hholds.quiet rfl) fun hsome => ?_
    · refine ⟨.answer, follows_answer, hholds.takes_waiting hbetween ?_ ?_⟩
      · exact (if_pos hr).symm
      · exact fun hn => Bool.noConfusion (hn.symm.trans hr)
    · exact (hholds.reserved _).passes_startHello hbetween
        (Session.reserve_hasPorts (Nat.succ_pos _) hsome)

/-- `getCurrentPort` at a position that is not negative. -/
theorem passes_getCurrentPort {T : Acc → Prop} {i : Nat} (hpos : pos s = i) {k : Nat → AccRes}
    (hlt : i < s.own.ports.length → Passes T (k (s.own.ports.getD i 0)))
    (hge : s.own.ports.length ≤ i → Passes T (k 0)) : Passes T (getCurrentPort s k) := by
  refine .ite (fun hend => hge ?_) fun hin => .ite (fun hneg => ?_) fun _ => ?_
  · rw [hpos] at hend
    omega
  · rw [hpos] at hneg
    omega
  · rw [hpos] at hin ⊢
    exact hlt (by omega)

/-- The next port of `ports_` is pinged. -/
theorem concat_pinged (hpinged : pinged <+: ports) (hlt : pinged.length < ports.length) :
    pinged ++ [ports.getD pinged.length 0] <+: ports := by
  obtain ⟨rest, rfl⟩ := hpinged
  cases rest with
  | nil => exact absurd hlt (by simp)
  | cons port rest => exact ⟨rest, by simp⟩

theorem pos_eq {k : Nat} (hstep : s.own.stepIdx = k) :
    pos s = (k * windowSize + s.own.numPingSent : Nat) := by
  rw [pos, hstep]
  exact (Int.natCast_add _ _).symm ▸ congrArg (· + _) (Int.natCast_mul _ _).symm

/-- The fields that have to do with the turn, the round apart. -/
def pending (own : Fields) : List Nat × Nat × Nat × Nat × List Nat :=
  (own.ports, own.checkTimers, own.writes, own.nextTimers, own.finalTimers)

/-- Other fields are written. -/
theorem Holds.set (h : Holds ports pinged s) (own : Fields)
    (hhello : own.helloPending = true → own.masterSession = true)
    (hreading : own.reading = true → own.pingConn = true) (hsame : pending own = pending s.own) :
    Holds ports pinged (s.set own) := by
  simp only [pending, Prod.mk.injEq] at hsame
  obtain ⟨hports, hcheck, hwrites, hnext, hfinal⟩ := hsame
  exact ⟨⟨hports.trans h.ok.ports, h.ok.callback, h.ok.unstarted, hhello, hreading⟩,
    ⟨h.idle.started, hcheck.trans h.idle.checkTimers, hwrites.trans h.idle.writes,
      hnext.trans h.idle.nextTimers, hfinal.trans h.idle.finalTimers⟩,
    h.acts, h.refused, h.pinged⟩

/-- After a ping, with the reservation that `use` has left. -/
def afterPing (s : Acc) (port : Nat) (r : Reservation) : Acc :=
  Session.act { Session.act (s.set { s.own with writes := s.own.writes + 1 })
    (.ping s.own.destIp port false) with portReservation := some r } .use

theorem Holds.turns_afterPing (h : Holds ports pinged s) {port : Nat} {r : Reservation}
    (hr : r.ports ≠ []) : turns (afterPing s port r) = [.round] :=
  turns_of_hasPorts (afterPing s port r) h.idle.started ⟨r, rfl, hr⟩ h.idle.checkTimers
    (congrArg (· + 1) h.idle.writes) h.idle.nextTimers (congrArg List.length h.idle.finalTimers)

theorem Holds.takes_ping (h : Holds ports pinged s) (hsize : ports.length = 3 * windowSize)
    (hconn : s.own.pingConn = true) {k : Nat} (hk : k < 3) (hstep : s.own.stepIdx = k)
    (hsent : s.own.numPingSent < windowSize)
    (hlength : pinged.length = k * windowSize + s.own.numPingSent) {r : Reservation}
    (hr : r.ports ≠ []) :
    Takes ports pinged (afterPing s (ports.getD pinged.length 0) r) .round := by
  have hlt : pinged.length < ports.length := by
    rw [hlength, hsize]
    unfold windowSize at *
    omega
  have hacts : (afterPing s (ports.getD pinged.length 0) r).acts =
      [.ping s.own.destIp (ports.getD pinged.length 0) false, .use] := by
    show s.acts ++ [_] ++ [_] = _
    rw [h.acts]
    rfl
  constructor
  · rw [gone, hacts]
    exact h.refused
  · exact ⟨h.ok.ports, h.ok.callback, h.absurd_unstarted, h.ok.hello, h.ok.reading⟩
  · rw [h.turns_afterPing hr, hacts]
    rfl
  · rw [hacts]
    exact concat_pinged h.pinged hlt
  · rw [hacts]
    refine ⟨⟨⟨r, rfl, hr⟩, hconn⟩, k, hk, hstep, hsent, ?_⟩
    show (pinged ++ [_]).length = k * windowSize + s.own.numPingSent + 1
    rw [List.length_append, hlength]
    rfl
  · rw [hacts]
    exact fun hfinal => Bool.noConfusion hfinal

/-- `getCurrentPort` gives the next port, and it is pinged. -/
theorem Holds.passes_ping (h : Holds ports pinged s) (env : Env)
    (hsize : ports.length = 3 * windowSize) (hequipped : Equipped s) {k : Nat} (hk : k < 3)
    (hstep : s.own.stepIdx = k) (hsent : s.own.numPingSent < windowSize)
    (hlength : pinged.length = k * windowSize + s.own.numPingSent) (hfollows : Follows x .round)
    {f : Nat → AccRes} (hf : ∀ port, port ∈ ports → f port = ping s port env) :
    Passes (Onward ports pinged x) (getCurrentPort s f) := by
  have hlt : pinged.length < ports.length := by
    rw [hlength, hsize]
    unfold windowSize at *
    omega
  have hpos : pos s = (pinged.length : Nat) := by rw [pos_eq hstep, hlength]
  have hget : s.own.ports.getD pinged.length 0 = ports.getD pinged.length 0 := by rw [h.ok.ports]
  have hmem : ports.getD pinged.length 0 ∈ ports := by
    rw [List.getD_eq_getElem?_getD, List.getElem?_eq_getElem hlt, Option.getD_some]
    exact List.getElem_mem hlt
  refine passes_getCurrentPort hpos (fun _ => ?_) fun hge => absurd (h.ok.ports ▸ hlt) hge.not_gt
  rw [hget, hf _ hmem]
  refine .require hequipped.2 (.use_last hequipped.1 fun r hr => ⟨.round, hfollows, ?_⟩)
  exact h.takes_ping hsize hequipped.2 hk hstep hsent hlength hr

/-- NEXT for the other side. -/
theorem Holds.takes_next (h : Holds ports pinged s) (hat : At s pinged .reply) :
    Takes ports pinged (s.act .next) .reply := by
  have hidle : Idle (s.act .next) := ⟨h.idle.started, h.idle.checkTimers, h.idle.writes,
    h.idle.nextTimers, h.idle.finalTimers⟩
  have hacts : s.acts ++ [Act.next] = [Act.next] := by rw [h.acts]; rfl
  refine takes_of_acts (t := s.act .next) hacts h.refused ?_ ?_ h.pinged hat rfl rfl (.inl rfl)
  · exact ⟨h.ok.ports, h.ok.callback, h.ok.unstarted, h.ok.hello, h.ok.reading⟩
  · have hwaiting : waiting (s.act .next) = [] := waiting_of_hasPorts hat.1.1
    rw [hidle.turns, hwaiting]
    rfl

theorem passes_onPingSend (hsize : ports.length = 3 * windowSize)
    (h : Holds ports pinged (s.set { s.own with writes := s.own.writes - 1 }))
    (hat : At s pinged .round) {err : Int} :
    Passes (Onward ports pinged .round) (onPingSend s err env) := by
  obtain ⟨hequipped, k, hk, hstep, hsent, hlength⟩ := hat
  have hfollows (y : Turn) : Follows .round y := ⟨by rintro ⟨⟩, by rintro ⟨⟩⟩
  refine .guard h.callback (.ite (fun _ => .fail h.quiet) fun _ =>
    .ite (fun hlt => ?_) fun hge => ?_)
  · have hholds := h.set { s.own with
      writes := s.own.writes - 1, numPingSent := s.own.numPingSent + 1 } h.ok.hello h.ok.reading rfl
    have hnext := hlength.trans (Nat.add_assoc _ _ _)
    exact hholds.passes_ping env hsize hequipped hk hstep hlt hnext (hfollows _) fun _ _ => rfl
  · have hholds := h.set { s.own with
      writes := s.own.writes - 1, stepIdx := s.own.stepIdx + 1, numPingSent := 0 }
      h.ok.hello h.ok.reading rfl
    refine .ok ⟨.reply, hfollows _, hholds.takes_next ⟨hequipped, k + 1, ?_, rfl, ?_⟩⟩
    · exact congrArg (· + 1) hstep
    · have hlast : ¬s.own.numPingSent + 1 < windowSize := hge
      rw [hlength, Nat.succ_mul]
      omega

/-- The first ping of a round, once the hello is out. -/
theorem passes_onCheckStartTimeout (hsize : ports.length = 3 * windowSize) (hzero : 0 ∉ ports)
    (h : Holds ports pinged (s.set { s.own with checkTimers := s.own.checkTimers - 1 }))
    (hbetween : Between s pinged) (hequipped : Equipped s) {canReuse : Bool} :
    Passes (Onward ports pinged .answer) (onCheckStartTimeout s canReuse env) := by
  obtain ⟨k, hk, hstep, hsent, hlength⟩ := hbetween
  refine .guard h.callback (.ite (fun _ => .require hequipped.2 ?_) fun _ => .ok ?_)
  · have hholds := h.set { s.own with
      checkTimers := s.own.checkTimers - 1, reading := true } h.ok.hello (fun _ => hequipped.2) rfl
    have hfirst : s.own.numPingSent < windowSize := hsent.symm ▸ Nat.succ_pos _
    have hnext : pinged.length = k * windowSize + s.own.numPingSent := by
      rw [hlength, hsent, Nat.add_zero]
    refine hholds.passes_ping env hsize hequipped hk hstep hfirst hnext follows_answer ?_
    intro port hport
    have hne : port ≠ 0 := fun hnil => hzero (hnil ▸ hport)
    rw [Session.require_ok hne]
    rfl
  · exact ⟨.answer, follows_answer, takes_check (.inl h.acts) h.refused h.ok h.idle h.pinged
      ⟨k, hk, hstep, hsent, hlength⟩ hequipped⟩

/-- NEXT has come: a timer is posted to wait for the other side's pings. -/
theorem Holds.passes_onNext (h : Holds ports pinged s) (hat : At s pinged .reply) :
    Passes (Onward ports pinged .reply) (onNext s) := by
  refine .guard h.callback (.ok ⟨.reply, ⟨by rintro ⟨⟩, by rintro ⟨⟩⟩, ?_⟩)
  refine takes_of_acts (t := s.set { s.own with nextTimers := s.own.nextTimers + 1 }) h.acts
    h.refused ?_ ?_ h.pinged hat rfl rfl (.inl rfl)
  · exact ⟨h.ok.ports, h.ok.callback, h.ok.unstarted, h.ok.hello, h.ok.reading⟩
  · apply (List.append_nil _).trans
    apply turns_of_hasPorts _ (a := 0) (b := 0) (c := 1) (d := 0)
    · exact h.idle.started
    · exact hat.1.1
    · exact h.idle.checkTimers
    · exact h.idle.writes
    · exact congrArg (· + 1) h.idle.nextTimers
    · exact congrArg List.length h.idle.finalTimers

/-- The wait is over. Either a port of the other side is known, or the ports are given up for
another round, or all rounds are over. -/
theorem passes_onNextTimeout (hsize : ports.length = 3 * windowSize)
    (h : Holds ports pinged (s.set { s.own with
      nextTimers := s.own.nextTimers - 1, masterSession := false, masterHandle := false
      helloPending := false })) (hat : At s pinged .reply) :
    Passes (Onward ports pinged .reply) (onNextTimeout s) := by
  obtain ⟨hequipped, k, hstep, hsent, hlength⟩ := hat
  have hfollows (y : Turn) : Follows .reply y := ⟨by rintro ⟨⟩, by rintro ⟨⟩⟩
  refine .guard h.callback (.ite (fun _ => .ok ⟨.final, hfollows _, ?_⟩) fun _ => ?_)
  · refine takes_of_acts h.acts h.refused ?_ ?_ h.pinged hequipped rfl rfl (.inl rfl)
    · exact ⟨h.ok.ports, h.ok.callback, h.ok.unstarted, h.ok.hello, h.ok.reading⟩
    · apply (List.append_nil _).trans
      apply turns_of_hasPorts _ (a := 0) (b := 0) (c := 0) (d := 1)
      · exact h.idle.started
      · exact hequipped.1
      · exact h.idle.checkTimers
      · exact h.idle.writes
      · exact h.idle.nextTimers
      · exact congrArg (fun l => (l ++ [3]).length) h.idle.finalTimers
  · have hwrites : s.own.writes = 0 := h.idle.writes
    have hholds := (h.set { s.own with
      nextTimers := s.own.nextTimers - 1, masterSession := false, masterHandle := false
      helloPending := false, pingConn := false, reading := false, writes := 0 }
      Bool.noConfusion Bool.noConfusion (by rw [← hwrites]; rfl)).reserved none
    refine passes_getCurrentPort (i := k * windowSize) ?_ (fun hlt => ?_) fun _ => ?_
    · have hpos : pos s = _ := pos_eq hstep
      rw [hsent, Nat.add_zero] at hpos
      exact hpos
    · refine .ite (fun _ => .fail h.quiet) fun _ => .ok ⟨.request, hfollows _, ?_⟩
      refine hholds.takes_ready ⟨k, ?_, hstep, hsent, hlength⟩ (Option.some_ne_none _).symm
      have hk : k * windowSize < s.own.ports.length := hlt
      rw [show s.own.ports = ports from h.ok.ports, hsize] at hk
      exact Nat.lt_of_mul_lt_mul_right hk
    · exact .ite (fun _ => .fail h.quiet) fun hn => absurd rfl hn

theorem passes_onSendFinalTimeout {cnt : Nat}
    (h : Holds ports pinged (s.set { s.own with finalTimers := s.own.finalTimers.erase cnt }))
    (hequipped : Equipped s) :
    Passes (Onward ports pinged .final) (onSendFinalTimeout s cnt env) := by
  refine .guard h.callback (.ite (fun _ => ?_) fun _ => .require hequipped.2 ?_)
  · exact .complete hequipped.1 h.quiet fun _ => hequipped.2
  · refine .use hequipped.1 fun r hr => .ok ⟨.final, ⟨by rintro ⟨⟩, fun _ => rfl⟩, ?_⟩
    have hacts : s.acts ++ [Act.ping s.own.destIp s.own.destDiscoveredPort true] ++ [Act.use] =
        [Act.ping s.own.destIp s.own.destDiscoveredPort true, Act.use] := by
      rw [show s.acts = [] from h.acts]
      rfl
    refine takes_of_acts hacts h.refused ?_ ?_ h.pinged ⟨⟨r, rfl, hr⟩, hequipped.2⟩ rfl rfl
      (.inr rfl)
    · exact ⟨h.ok.ports, h.ok.callback, h.absurd_unstarted, h.ok.hello, h.ok.reading⟩
    · apply (List.append_nil _).trans
      apply turns_of_hasPorts _ (a := 0) (b := 0) (c := 0) (d := 1)
      · exact h.idle.started
      · exact ⟨r, rfl, hr⟩
      · exact h.idle.checkTimers
      · exact h.idle.writes
      · exact h.idle.nextTimers
      · exact congrArg (fun l => (l ++ [cnt - 1]).length) h.idle.finalTimers

/-- The session between two handlers. -/
structure Kept (ports pinged : List Nat) (s : Acc) : Prop where
  ok : Ok ports s
  acts : s.acts = []
  refused : s.refused = false
  pinged : pinged <+: ports

theorem Kept.holds (h : Kept ports pinged s) (hstarted : s.started = true) (own : Fields)
    (hhello : own.helloPending = true → own.masterSession = true)
    (hidle : own.checkTimers + own.writes + own.nextTimers + own.finalTimers.length = 0)
    (hports : own.ports = s.own.ports) (hreading : own.reading = s.own.reading)
    (hconn : own.pingConn = s.own.pingConn) : Holds ports pinged (s.set own) := by
  refine ⟨⟨hports.trans h.ok.ports, h.ok.callback, h.ok.unstarted, hhello, ?_⟩, ?_, h.acts,
    h.refused, h.pinged⟩
  · intro hread
    exact hconn.trans (h.ok.reading (hreading.symm.trans hread))
  · have hlength : own.finalTimers.length = 0 := by omega
    exact ⟨hstarted, show own.checkTimers = 0 by omega, show own.writes = 0 by omega,
      show own.nextTimers = 0 by omega, List.length_eq_zero_iff.mp hlength⟩

/-- A message has the turn. -/
theorem Kept.holds_idle (h : Kept ports pinged s) (hstarted : s.started = true)
    (hturns : turns s = []) : Holds ports pinged s := by
  have hlength := congrArg List.length hturns
  rw [length_turns, List.length_nil] at hlength
  exact h.holds hstarted s.own h.ok.hello (by omega) rfl rfl rfl

section

variable (h : Kept ports pinged s) (hone : (turns s).length ≤ 1)

include h hone

theorem Kept.holds_check (hequipped : Equipped s) (hpos : 0 < s.own.checkTimers) :
    Holds ports pinged (s.set { s.own with checkTimers := s.own.checkTimers - 1 }) := by
  rw [length_turns] at hone
  refine h.holds (h.ok.started_of_hasPorts hequipped.1) _ h.ok.hello ?_ rfl rfl rfl
  show s.own.checkTimers - 1 + s.own.writes + s.own.nextTimers + s.own.finalTimers.length = 0
  omega

theorem Kept.holds_write (hequipped : Equipped s) (hpos : 0 < s.own.writes) :
    Holds ports pinged (s.set { s.own with writes := s.own.writes - 1 }) := by
  rw [length_turns] at hone
  refine h.holds (h.ok.started_of_hasPorts hequipped.1) _ h.ok.hello ?_ rfl rfl rfl
  show s.own.checkTimers + (s.own.writes - 1) + s.own.nextTimers + s.own.finalTimers.length = 0
  omega

theorem Kept.holds_next (hequipped : Equipped s) (hpos : 0 < s.own.nextTimers) :
    Holds ports pinged (s.set { s.own with
      nextTimers := s.own.nextTimers - 1, masterSession := false, masterHandle := false
      helloPending := false }) := by
  rw [length_turns] at hone
  refine h.holds (h.ok.started_of_hasPorts hequipped.1) _ Bool.noConfusion ?_ rfl rfl rfl
  show s.own.checkTimers + s.own.writes + (s.own.nextTimers - 1) + s.own.finalTimers.length = 0
  omega

theorem Kept.holds_final (hequipped : Equipped s) {cnt : Nat} (hmem : cnt ∈ s.own.finalTimers) :
    Holds ports pinged (s.set { s.own with finalTimers := s.own.finalTimers.erase cnt }) := by
  rw [length_turns] at hone
  have hlength := List.length_erase_of_mem hmem
  have hpos := List.length_pos_of_mem hmem
  refine h.holds (h.ok.started_of_hasPorts hequipped.1) _ h.ok.hello ?_ rfl rfl rfl
  show s.own.checkTimers + s.own.writes + s.own.nextTimers +
    (s.own.finalTimers.erase cnt).length = 0
  omega

theorem Kept.holds_waiting (hqueued : s.portReservation = some .queued) :
    Holds ports pinged s := by
  have hwaiting : (waiting s).length = 1 := by rw [waiting, if_pos hqueued]; rfl
  rw [length_turns] at hone
  refine h.holds (h.ok.started (hqueued ▸ Option.some_ne_none _)) s.own h.ok.hello ?_ rfl rfl rfl
  omega

/-- The session is about to be started. -/
theorem Kept.holds_starting (hmem : x ∈ starting s) :
    Holds ports pinged { s with started := true, callback := true } := by
  have hpos := List.length_pos_of_mem hmem
  rw [length_turns] at hone
  have hkept : Kept ports pinged { s with started := true, callback := true } :=
    ⟨⟨h.ok.ports, fun _ => rfl, Bool.noConfusion, h.ok.hello, h.ok.reading⟩, h.acts, h.refused,
      h.pinged⟩
  refine hkept.holds rfl s.own h.ok.hello ?_ rfl rfl rfl
  omega

end

/-- The session with the turn is started. -/
theorem Kept.passes_start (h : Kept ports pinged s) (hone : (turns s).length ≤ 1)
    (hstarted : s.started = false) (hmem : x ∈ starting s) (hat : At s pinged x) :
    Passes (Onward ports pinged x) (start s env) := by
  have hholds := h.holds_starting hone hmem
  rw [starting, hstarted, if_neg Bool.false_ne_true] at hmem
  cases howner : s.owner with
  | true =>
    rw [howner, if_pos rfl, List.mem_singleton] at hmem
    subst hmem
    exact Acc.passes_start hholds hat.1 (h.ok.unstarted hstarted).2 (.inl ⟨howner, rfl⟩)
  | false =>
    rw [howner, if_neg Bool.false_ne_true] at hmem
    cases hready : s.ready with
    | true =>
      rw [hready, if_pos rfl, List.mem_singleton] at hmem
      subst hmem
      exact Acc.passes_start hholds hat.1 (h.ok.unstarted hstarted).2 (.inr ⟨howner, hready, rfl⟩)
    | false =>
      rw [hready, if_neg Bool.false_ne_true] at hmem
      exact absurd hmem List.not_mem_nil

theorem Kept.passes_granted (h : Kept ports pinged s) (hone : (turns s).length ≤ 1)
    (hqueued : s.portReservation = some .queued)
    {granted : List (Nat × PortAllocator.TimePoint)} (hgranted : granted ≠ [])
    (hat : At s pinged (if s.ready then .answer else .request)) :
    Passes (Onward ports pinged (if s.ready then .answer else .request))
      (onGranted s granted env) := by
  have hholds := h.holds_waiting hone hqueued
  cases hready : s.ready with
  | true =>
    rw [hready, if_pos rfl] at hat
    exact hholds.passes_onGranted hgranted hat.1 (fun hn => Bool.noConfusion (hn.symm.trans hready))
      (by rw [hready])
  | false =>
    rw [hready, if_neg Bool.false_ne_true] at hat
    exact hholds.passes_onGranted hgranted hat.1 (fun _ => hat.2 hqueued) (by rw [hready])

/-- READY comes before the session is started. -/
theorem Kept.takes_unstarted (h : Kept ports pinged s) (hstarted : s.started = false)
    (hturns : turns s = []) (hbetween : Between s pinged) :
    Takes ports pinged { s with ready := true } .answer := by
  have hlength := congrArg List.length hturns
  rw [length_turns, List.length_nil] at hlength
  have howner : s.owner = false := by
    refine Bool.eq_false_of_not_eq_true fun howner => ?_
    have hstarting : starting s = [.request] := by
      rw [starting, hstarted, howner, if_neg Bool.false_ne_true, if_pos rfl]
    rw [hstarting, List.length_singleton] at hlength
    omega
  have hcheck : s.own.checkTimers = 0 := by omega
  have hnone : s.portReservation = none := (h.ok.unstarted hstarted).1
  refine takes_of_acts (t := { s with ready := true }) h.acts h.refused ?_ ?_ h.pinged ?_ rfl rfl
    (.inl rfl)
  · refine ⟨h.ok.ports, h.ok.callback, fun _ => ⟨hnone, fun ho => ?_⟩, h.ok.hello, h.ok.reading⟩
    exact Bool.noConfusion (howner.symm.trans ho)
  · have hstarting : starting { s with ready := true } = [.answer] := by
      show (if s.started then _ else if s.owner then _ else if true then _ else _) = _
      rw [hstarted, howner]
      rfl
    have hwaiting : waiting { s with ready := true } = [] := waiting_of_none hnone
    have hfinal : s.own.finalTimers.length = 0 := by omega
    rw [turns, hstarting, hwaiting, hcheck, show s.own.writes = 0 by omega,
      show s.own.nextTimers = 0 by omega, hfinal]
    rfl
  · exact ⟨hbetween, fun hpos => absurd hpos (hcheck ▸ Nat.lt_irrefl 0)⟩

/-- READY comes with the turn. -/
theorem Kept.passes_ready (h : Kept ports pinged s) (hturns : turns s = [])
    (hbetween : Between s pinged) : Passes (Onward ports pinged .answer) (onMsg s .ready env) := by
  cases hstarted : s.started with
  | true =>
    have hwaiting : waiting s = [] := by
      rw [turns, List.append_assoc, List.append_assoc, List.append_assoc] at hturns
      exact (List.append_eq_nil_iff.mp (List.append_eq_nil_iff.mp hturns).1).2
    exact (h.holds_idle hstarted hturns).passes_onReady hbetween hwaiting
  | false =>
    refine .ite (fun _ => .ok ?_) fun hn => absurd (congrArg not hstarted) hn
    exact ⟨_, follows_answer, h.takes_unstarted hstarted hturns hbetween⟩

/-- NEXT comes with the turn. -/
theorem Kept.passes_next (h : Kept ports pinged s) (hturns : turns s = [])
    (hat : At s pinged .reply) : Passes (Onward ports pinged .reply) (onMsg s .next env) :=
  (h.holds_idle (h.ok.started_of_hasPorts hat.1.1) hturns).passes_onNext hat

/-- The handler leaves the session as it was, as far as the turn is concerned. -/
structure Stays (ports : List Nat) (s t : Acc) : Prop where
  acts : t.acts = []
  refused : t.refused = false
  ok : Ok ports t
  turns : turns t = turns s
  now : ∀ {pinged : List Nat} {y : Turn}, At s pinged y → At t pinged y

/-- Where the session is in its rounds. -/
def progress (own : Fields) : Int × Nat × Bool := (own.stepIdx, own.numPingSent, own.pingConn)

theorem Kept.stays_set (h : Kept ports pinged s) (own : Fields)
    (hhello : own.helloPending = true → own.masterSession = true)
    (hreading : own.reading = true → own.pingConn = true) (hsame : pending own = pending s.own)
    (hprogress : progress own = progress s.own) : Stays ports s (s.set own) := by
  simp only [pending, progress, Prod.mk.injEq] at hsame hprogress
  obtain ⟨hports, hcheck, hwrites, hnext, hfinal⟩ := hsame
  obtain ⟨hstep, hsent, hconn⟩ := hprogress
  refine ⟨h.acts, h.refused,
    ⟨hports.trans h.ok.ports, h.ok.callback, h.ok.unstarted, hhello, hreading⟩, ?_, ?_⟩
  · show starting s ++ waiting s ++ List.replicate own.checkTimers _ ++
      List.replicate own.writes _ ++ List.replicate own.nextTimers _ ++
      List.replicate own.finalTimers.length _ = _
    rw [hcheck, hwrites, hnext, hfinal]
    rfl
  · intro pinged y hat
    cases y <;> simpa only [At, Between, Equipped, Session.set, Session.HasPorts, hstep, hsent,
      hconn, hcheck] using hat

theorem Kept.quiet (h : Kept ports pinged s) : ∀ a ∈ s.acts, a = .use := by
  rw [h.acts]
  exact fun a ha => absurd ha List.not_mem_nil

theorem Kept.stays_onHelloSend (h : Kept ports pinged s) (hpending : s.own.helloPending = true)
    {err : Int} : Passes (Stays ports s) (onHelloSend s err) := by
  refine .ite (fun _ => .require (h.ok.hello hpending) ?_) fun _ => ?_
  · refine .ite (fun _ => .ok ?_) fun _ => .ok ?_
    · exact h.stays_set { s.own with helloPending := false } Bool.noConfusion h.ok.reading rfl rfl
    · exact h.stays_set { s.own with helloPending := false, masterHandle := true }
        Bool.noConfusion h.ok.reading rfl rfl
  · refine .ite (fun _ => .ok ?_) fun _ => .fail h.quiet
    exact h.stays_set { s.own with helloPending := false } Bool.noConfusion h.ok.reading rfl rfl

theorem Kept.stays_onRecvPing (h : Kept ports pinged s) (hreading : s.own.reading = true)
    {err : Int} {bytes : List UInt8} {ip port : Nat} :
    Passes (Stays ports s) (onRecvPing s err bytes ip port) := by
  have hconn := h.ok.reading hreading
  have hset := h.stays_set { s.own with reading := false } h.ok.hello Bool.noConfusion rfl rfl
  refine .ite (fun _ => .ok hset) fun _ => .ite (fun _ => .fail h.quiet) fun _ => ?_
  refine .ite (fun _ => .ok hset) fun _ => .require hconn (.ok ?_)
  exact h.stays_set { s.own with
    reading := true
    destDiscoveredPort := if bytes = pingBytes 0xDD ∧ ip = s.own.destIp then port
      else s.own.destDiscoveredPort } h.ok.hello (fun _ => hconn) rfl rfl

/-- The other side is to be ready first. -/
theorem Kept.stays_start (h : Kept ports pinged s) (hstarted : s.started = false)
    (hstarting : starting s = []) : Passes (Stays ports s) (start s env) := by
  have hwaits : s.owner = false ∧ s.ready = false := by
    rw [starting, hstarted, if_neg Bool.false_ne_true] at hstarting
    cases howner : s.owner <;> cases hready : s.ready <;> simp_all
  refine .ite (fun ho => Bool.noConfusion (hwaits.1.symm.trans ho)) fun _ => .ite (fun _ => .ok ?_)
    fun hn => absurd (congrArg not hwaits.2) hn
  refine ⟨h.acts, h.refused, ⟨h.ok.ports, fun _ => rfl, Bool.noConfusion, h.ok.hello, h.ok.reading⟩,
    ?_, ?_⟩
  · rw [turns, turns, hstarting]
    rfl
  · intro pinged y hat
    cases y <;> exact hat

end SymmAcc.Acc

end DTun.Node.Rendezvous
