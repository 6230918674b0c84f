import DTun.Node.Rendezvous.Symm.Turn

/-!
# The turn on the connecting side

The handlers of `RendezvousSymmConnSession` that have the turn: READY is answered once there are
ports, and NEXT once all sockets have sent a ping.
-/

namespace DTun.Node.Rendezvous

namespace SymmConn.Conn

open Symm

/-- To be started. -/
def starting (s : Conn) : List Turn :=
  if s.started then [] else if s.owner then [.request] else if s.ready then [.request] else []

/-- To get ports. -/
def waiting (s : Conn) : List Turn := if s.portReservation = some .queued then [.request] else []

/-- The turns of the connecting side. -/
def turns (s : Conn) : List Turn :=
  starting s ++ waiting s ++ List.replicate s.own.writes .reply

/-- What always holds of the connecting side. -/
structure Ok (s : Conn) : Prop where
  callback : s.started = true → s.callback = true
  unstarted : s.started = false → s.portReservation = none
  pingConns : s.started = true → s.own.pingConns = windowSize
  owner : s.portReservation = some .queued → s.ready = false → s.owner = true

/-- The handler has passed the turn on: to one of its own handlers or to the other side. -/
structure Takes (t : Conn) (y : Turn) : Prop where
  stays : gone t = false
  ok : Ok t
  turn : turns t ++ t.acts.filterMap (turnOf .answer) = [y]
  ports : y ≠ .request → t.HasPorts

/-- How a handler of the connecting side leaves the session that has had the turn at `x`: from a
request an answer may come, and from a reply only a reply. -/
def Onward (x : Turn) (t : Conn) : Prop :=
  ∃ y, (y = x ∨ x = .request ∧ y = .answer) ∧ Takes t y

variable {s t : Conn} {x y : Turn} {env : Env}

theorem length_turns (s : Conn) :
    (turns s).length = (starting s).length + (waiting s).length + s.own.writes := by
  simp only [turns, List.length_append, List.length_replicate]

theorem mem_turns_iff : x ∈ turns s ↔ x ∈ starting s ∨ x ∈ waiting s ∨
    (0 < s.own.writes ∧ x = .reply) := by
  simp only [turns, List.mem_append, List.mem_replicate, Nat.pos_iff_ne_zero, or_assoc]

theorem waiting_of_hasPorts (h : s.HasPorts) : waiting s = [] := if_neg h.not_queued

theorem turns_of_started (t : Conn) {b : Nat} (hstarted : t.started = true)
    (hwrites : t.own.writes = b) : turns t = waiting t ++ List.replicate b .reply := by
  rw [turns, starting, if_pos hstarted, hwrites, List.nil_append]

theorem Ok.started (h : Ok s) (hports : s.portReservation ≠ none) : s.started = true :=
  Bool.eq_true_of_not_eq_false fun hun => hports (h.unstarted hun)

theorem Ok.started_of_hasPorts (h : Ok s) (hports : s.HasPorts) : s.started = true := by
  obtain ⟨r, hr, -⟩ := hports
  exact h.started (hr ▸ Option.some_ne_none r)

/-- The session in a handler that has the turn. -/
structure Holds (s : Conn) : Prop where
  started : s.started = true
  callback : s.callback = true
  pingConns : s.own.pingConns = windowSize
  writes : s.own.writes = 0
  acts : s.acts = []
  refused : s.refused = false

theorem Holds.quiet (h : Holds s) : ∀ a ∈ s.acts, a = .use := by
  rw [h.acts]
  exact fun a ha => absurd ha List.not_mem_nil

theorem Holds.absurd_unstarted (h : Holds s) {p : Prop} (hun : s.started = false) : p :=
  Bool.noConfusion (hun.symm.trans h.started)

theorem Holds.reserved (h : Holds s) (r : Option Reservation) :
    Holds { s with portReservation := r } :=
  ⟨h.started, h.callback, h.pingConns, h.writes, h.acts, h.refused⟩

theorem Holds.readied (h : Holds s) : Holds { s with ready := true } :=
  ⟨h.started, h.callback, h.pingConns, h.writes, h.acts, h.refused⟩

/-- A request for ports waits in the allocator. -/
theorem Holds.takes_waiting (h : Holds s) (howner : s.ready = false → s.owner = true) :
    Takes s.reserveBestEffort .request := by
  have hacts : s.reserveBestEffort.acts = [] := h.acts
  refine ⟨?_, ⟨fun _ => h.callback, h.absurd_unstarted, fun _ => h.pingConns, fun _ => howner⟩, ?_,
    fun hn => absurd rfl hn⟩
  · rw [gone, hacts]
    exact h.refused
  · rw [hacts, turns_of_started s.reserveBestEffort h.started h.writes]
    rfl

/-- A message for the other side, with ports. -/
theorem Holds.takes_sent (h : Holds s) (hports : s.HasPorts) {a : Act}
    (hturn : turnOf .answer a = some y) : Takes (s.act a) y := by
  have hacts : (s.act a).acts = [a] := congrArg (· ++ [a]) h.acts
  have hwaiting : waiting (s.act a) = [] := waiting_of_hasPorts hports
  refine ⟨?_, ⟨fun _ => h.callback, h.absurd_unstarted, fun _ => h.pingConns, ?_⟩, ?_,
    fun _ => hports⟩
  · rw [gone, hacts]
    cases a with
    | done => exact absurd hturn (Option.some_ne_none y).symm
    | _ => exact h.refused
  · exact fun hqueued => absurd hqueued hports.not_queued
  · rw [hacts, turns_of_started (s.act a) h.started h.writes, hwaiting]
    exact List.filterMap_cons_some hturn

theorem onward_request {y : Turn} (hy : y = .request ∨ y = .answer) (h : Takes t y) :
    Onward .request t :=
  ⟨y, hy.imp id fun hanswer => ⟨rfl, hanswer⟩, h⟩

theorem Holds.passes_startReady (h : Holds s) : Passes (Onward .request) (startReady s env) := by
  refine .ite (fun _ => .refused h.quiet rfl) fun hsome => .ok ?_
  have hports : (s.reserve windowSize env).HasPorts :=
    Session.reserve_hasPorts (Nat.succ_pos _) hsome
  exact onward_request (.inr rfl) ((h.reserved _).takes_sent hports rfl)

theorem Holds.passes_onPortReservation (h : Holds s) (hports : s.HasPorts)
    (howner : s.ready = false → s.owner = true) :
    Passes (Onward .request) (onPortReservation s) := by
  refine .guard h.callback (.ite (fun hready => ?_) fun _ => .ok ?_)
  · refine .require (howner (by simpa using hready)) (.ok ?_)
    exact onward_request (.inr rfl) (h.readied.takes_sent hports rfl)
  · exact onward_request (.inr rfl) (h.takes_sent hports rfl)

theorem Holds.passes_onReady (h : Holds s) : Passes (Onward .request) (onReady s env) := by
  refine .guard h.started (.guard h.callback (.ite (fun _ => .ok ?_) fun _ => ?_))
  · exact onward_request (.inl rfl) (h.readied.takes_waiting Bool.noConfusion)
  · refine .ite (fun _ => .fail h.quiet) fun hsome => ?_
    exact (h.readied.reserved _).passes_onPortReservation
      (Session.reserve_hasPorts (Nat.succ_pos _) hsome) Bool.noConfusion

/-- `start` of a session that has the turn: of the owner, or when READY has come. -/
theorem passes_start (h : Holds { s with
      started := true, callback := true, own := { s.own with pingConns := windowSize } })
    (hx : s.owner = true ∨ s.ready = true) : Passes (Onward .request) (start s env) := by
  have hturn : s.ready = false → s.owner = true := fun hready =>
    hx.resolve_right fun hr => Bool.noConfusion (hready.symm.trans hr)
  refine .ite (fun _ => .refused h.quiet rfl) fun _ => .ite (fun _ => ?_) fun howner => ?_
  · refine .ite (fun _ => .ok ?_) fun _ => h.passes_startReady
    exact onward_request (.inl rfl) (h.takes_waiting hturn)
  · refine .guard (hx.resolve_left howner) (.ite (fun _ => .ok ?_) fun _ => h.passes_startReady)
    exact onward_request (.inl rfl) (h.takes_waiting hturn)

/-- After a ping, with the reservation that `use` has left. -/
def afterPing (s : Conn) (r : Reservation) : Conn :=
  Session.act { Session.act (s.set { s.own with writes := s.own.writes + 1 })
    (.ping s.own.destIp s.own.destPort false) with portReservation := some r } .use

theorem Holds.takes_ping (h : Holds s) {r : Reservation} (hr : r.ports ≠ []) :
    Takes (afterPing s r) .reply := by
  have hports : (afterPing s r).HasPorts := ⟨r, rfl, hr⟩
  have hacts : (afterPing s r).acts = [.ping s.own.destIp s.own.destPort false, .use] := by
    show s.acts ++ [_] ++ [_] = _
    rw [h.acts]
    rfl
  refine ⟨?_, ⟨fun _ => h.callback, h.absurd_unstarted, fun _ => h.pingConns, ?_⟩, ?_,
    fun _ => hports⟩
  · rw [gone, hacts]
    exact h.refused
  · exact fun hqueued => absurd hqueued hports.not_queued
  · rw [hacts, turns_of_started (afterPing s r) h.started (congrArg (· + 1) h.writes),
      waiting_of_hasPorts hports]
    rfl

/-- A ping from the next socket. -/
theorem Holds.passes_ping (h : Holds s) (hports : s.HasPorts) {i : Nat} (hi : i < windowSize) :
    Passes (Onward .reply) (ping s i env) :=
  .require (h.pingConns.symm ▸ hi)
    (.use_last hports fun _ hr => ⟨.reply, .inl rfl, h.takes_ping hr⟩)

/-- NEXT has come. -/
theorem Holds.passes_onNext (h : Holds s) (hports : s.HasPorts) :
    Passes (Onward .reply) (onNext s env) := by
  have hholds : Holds (s.set { s.own with numPingSent := 0 }) :=
    ⟨h.started, h.callback, h.pingConns, h.writes, h.acts, h.refused⟩
  exact .guard h.callback (hholds.passes_ping hports (Nat.succ_pos _))

theorem passes_onPingSend (h : Holds (s.set { s.own with writes := s.own.writes - 1 }))
    (hports : s.HasPorts) {err : Int} : Passes (Onward .reply) (onPingSend s err env) := by
  have hholds : Holds (s.set { s.own with
      writes := s.own.writes - 1, numPingSent := s.own.numPingSent + 1 }) :=
    ⟨h.started, h.callback, h.pingConns, h.writes, h.acts, h.refused⟩
  refine .guard h.callback (.ite (fun _ => .fail h.quiet) fun _ => .ite (fun hlt => ?_) fun _ => ?_)
  · have hi : s.own.numPingSent + 1 < s.own.pingConns := hlt
    rw [show s.own.pingConns = windowSize from h.pingConns] at hi
    exact hholds.passes_ping hports hi
  · exact .ok ⟨.reply, .inl rfl, hholds.takes_sent hports rfl⟩

theorem passes_onGranted (h : Holds s) {granted : List (Nat × PortAllocator.TimePoint)}
    (hgranted : granted ≠ []) (howner : s.ready = false → s.owner = true) :
    Passes (Onward .request) (onGranted s granted) :=
  (h.reserved _).passes_onPortReservation ⟨_, rfl, hgranted⟩ howner

/-- The session between two handlers. -/
structure Kept (s : Conn) : Prop where
  ok : Ok s
  acts : s.acts = []
  refused : s.refused = false

theorem Kept.holds (h : Kept s) (hstarted : s.started = true) (hwrites : s.own.writes = 0) :
    Holds s :=
  ⟨hstarted, h.ok.callback hstarted, h.ok.pingConns hstarted, hwrites, h.acts, h.refused⟩

/-- A message has the turn. -/
theorem Kept.holds_idle (h : Kept s) (hstarted : s.started = true) (hturns : turns s = []) :
    Holds s := by
  have hlength := congrArg List.length hturns
  rw [length_turns, List.length_nil] at hlength
  exact h.holds hstarted (by omega)

section

variable (h : Kept s) (hone : (turns s).length ≤ 1)

include h hone

theorem Kept.holds_write (hports : s.HasPorts) (hpos : 0 < s.own.writes) :
    Holds (s.set { s.own with writes := s.own.writes - 1 }) := by
  rw [length_turns] at hone
  have hstarted := h.ok.started_of_hasPorts hports
  refine ⟨hstarted, h.ok.callback hstarted, h.ok.pingConns hstarted, ?_, h.acts, h.refused⟩
  show s.own.writes - 1 = 0
  omega

theorem Kept.holds_waiting (hqueued : s.portReservation = some .queued) : Holds s := by
  have hwaiting : (waiting s).length = 1 := by rw [waiting, if_pos hqueued]; rfl
  rw [length_turns] at hone
  exact h.holds (h.ok.started (hqueued ▸ Option.some_ne_none _)) (by omega)

/-- The session is about to be started. -/
theorem Kept.holds_starting (hmem : x ∈ starting s) : Holds { s with
    started := true, callback := true, own := { s.own with pingConns := windowSize } } := by
  have hpos := List.length_pos_of_mem hmem
  rw [length_turns] at hone
  exact ⟨rfl, rfl, rfl, show s.own.writes = 0 by omega, h.acts, h.refused⟩

end

/-- The session with the turn is started. -/
theorem Kept.passes_start (h : Kept s) (hone : (turns s).length ≤ 1)
    (hmem : .request ∈ starting s) : Passes (Onward .request) (start s env) := by
  refine Conn.passes_start (h.holds_starting hone hmem) ?_
  rw [starting] at hmem
  cases howner : s.owner with
  | true => exact .inl rfl
  | false =>
    cases hready : s.ready with
    | true => exact .inr rfl
    | false =>
      rw [howner, hready, if_neg Bool.false_ne_true, if_neg Bool.false_ne_true, ite_self] at hmem
      exact absurd hmem List.not_mem_nil

/-- READY comes before the session is started. -/
theorem Kept.takes_unstarted (h : Kept s) (hstarted : s.started = false) (hturns : turns s = []) :
    Takes { s with ready := true } .request := by
  have hlength := congrArg List.length hturns
  rw [length_turns, List.length_nil] at hlength
  have hnone : s.portReservation = none := h.ok.unstarted hstarted
  refine ⟨?_, ⟨h.ok.callback, h.ok.unstarted, h.ok.pingConns, ?_⟩, ?_, fun hn => absurd rfl hn⟩
  · show (s.acts.any _ || s.refused) = false
    rw [h.acts]
    exact h.refused
  · exact fun _ hready => Bool.noConfusion hready
  · have hstarting : starting { s with ready := true } = [.request] := by
      show (if s.started then _ else if s.owner then _ else if true then _ else _) = _
      rw [hstarted]
      cases s.owner <;> rfl
    have hwaiting : waiting { s with ready := true } = [] :=
      if_neg (hnone ▸ (Option.some_ne_none _).symm)
    rw [turns, hstarting, hwaiting, show s.own.writes = 0 by omega]
    show _ ++ s.acts.filterMap _ = _
    rw [h.acts]
    rfl

/-- READY comes with the turn. -/
theorem Kept.passes_ready (h : Kept s) (hturns : turns s = []) :
    Passes (Onward .request) (onMsg s .ready env) := by
  cases hstarted : s.started with
  | true => exact (h.holds_idle hstarted hturns).passes_onReady
  | false =>
    refine .ite (fun _ => .ok ?_) fun hn => absurd (congrArg not hstarted) hn
    exact onward_request (.inl rfl) (h.takes_unstarted hstarted hturns)

/-- NEXT comes with the turn. -/
theorem Kept.passes_next (h : Kept s) (hturns : turns s = []) (hports : s.HasPorts) :
    Passes (Onward .reply) (onMsg s .next env) :=
  (h.holds_idle (h.ok.started_of_hasPorts hports) hturns).passes_onNext hports

/-- The handler leaves the session as it was, as far as the turn is concerned. -/
structure Stays (s t : Conn) : Prop where
  acts : t.acts = []
  refused : t.refused = false
  ok : Ok t
  turns : turns t = turns s
  ports : s.HasPorts → t.HasPorts

theorem Kept.stays_set (h : Kept s) (own : Fields)
    (hpingConns : own.pingConns = s.own.pingConns) (hwrites : own.writes = s.own.writes) :
    Stays s (s.set own) := by
  refine ⟨h.acts, h.refused, ⟨h.ok.callback, h.ok.unstarted, ?_, h.ok.owner⟩, ?_, id⟩
  · exact fun hstarted => hpingConns.trans (h.ok.pingConns hstarted)
  · exact congrArg (fun m => starting s ++ waiting s ++ List.replicate m .reply) hwrites

theorem Kept.quiet (h : Kept s) : ∀ a ∈ s.acts, a = .use := by
  rw [h.acts]
  exact fun a ha => absurd ha List.not_mem_nil

theorem Kept.stays_onEstablishedTimeout (h : Kept s) :
    Passes (Stays s) (onEstablishedTimeout s) :=
  .ite (fun _ => .ok (h.stays_set _ rfl rfl)) fun _ => .fail h.quiet

/-- The final ping finds the session with its ports. -/
theorem Kept.stays_onRecvPing (h : Kept s) {err : Int} {bytes : List UInt8} {ip connIdx : Nat}
    (hidx : connIdx < s.own.pingConns) (hfinal : bytes = pingBytes 0xEE → s.HasPorts) :
    Passes (Stays s) (onRecvPing s err bytes ip connIdx) := by
  have hstays : Stays s s := h.stays_set s.own rfl rfl
  refine .ite (fun _ => .ok hstays) fun _ => .ite (fun _ => .fail h.quiet) fun _ => ?_
  refine .ite (fun hping => .complete (hfinal hping.1) h.quiet fun _ => hidx) fun _ => ?_
  rw [Session.require_ok hidx]
  exact .ok hstays

/-- The other side is to be ready first. -/
theorem Kept.stays_start (h : Kept s) (hstarted : s.started = false) (hstarting : starting s = []) :
    Passes (Stays s) (start s env) := by
  have hwaits : s.owner = false ∧ s.ready = false := by
    rw [starting, hstarted, if_neg Bool.false_ne_true] at hstarting
    cases howner : s.owner <;> cases hready : s.ready <;> simp_all
  refine .ite (fun _ => .refused h.quiet rfl) fun _ => ?_
  refine .ite (fun ho => Bool.noConfusion (hwaits.1.symm.trans ho)) fun _ => .ite (fun _ => .ok ?_)
    fun hn => absurd (congrArg not hwaits.2) hn
  refine ⟨h.acts, h.refused, ⟨fun _ => rfl, Bool.noConfusion, fun _ => rfl, h.ok.owner⟩, ?_, id⟩
  rw [turns, turns, hstarting]
  rfl

end SymmConn.Conn

end DTun.Node.Rendezvous
