import DTun.Node.FastSession.Steps
import DTun.Node.FastSession.Turns

/-!
# The handlers of both sides

Each handler of a session keeps the turns. Most leave alone what a turn depends on, or end
the session with an error (`Routine`). The others move the turn on: the owner asks, the peer
opens its socket, the owner is told the address and opens its own, the owner gives it up.
-/

namespace DTun.Node.FastSession

/-- What a handler leaves alone unless it takes a turn. -/
structure Kept (s s' : Session) : Prop where
  owner : s'.owner = s.owner
  bestEffort : s'.bestEffort = s.bestEffort
  started : s'.started = s.started
  ready : s'.ready = s.ready
  callback : s'.callback = s.callback
  stepIdx : s'.stepIdx = s.stepIdx
  reservation : s'.portReservation = s.portReservation
  next : s'.portReservationNext = s.portReservationNext
  pingConn : s'.pingConn = s.pingConn
  timers : s'.checkTimers + s'.pingTimers ≤ s.checkTimers + s.pingTimers
  writes : s'.writes ≤ s.writes ∨ 0 < s.pingTimers

/-- Nothing that a turn depends on has changed. -/
structure Same (s s' : Session) : Prop extends Kept s s' where
  dest : s'.dest = s.dest

/-- A handler that takes no turn: it sends at most `NEXT` or a ping. -/
structure Idles (s : Session) (out : Out) : Prop where
  sent : ∀ m ∈ out.sent, m = .next
  hello : out.hello = none
  ping : ∀ q, out.ping = some q → s.pingConn = some q.1 ∧ s.dest = some q.2
  kept : out.done = none → Kept s out.sess

/-- It ends the session at most with an error. -/
structure Routine (s : Session) (out : Out) : Prop extends Idles s out where
  dest : out.done = none → out.sess.dest = s.dest
  failed : out.done ≠ some true

variable {s s' : Session} {env : Env}

theorem Same.refl (s : Session) : Same s s :=
  ⟨⟨rfl, rfl, rfl, rfl, rfl, rfl, rfl, rfl, rfl, Nat.le_refl _, Or.inl (Nat.le_refl _)⟩, rfl⟩

theorem OwnerOk.same (h : OwnerOk s) (hs : Same s s') : OwnerOk s' := by
  have htimers := hs.timers
  have hone := h.timers
  refine ⟨?_, ?_, ?_, ?_, ?_, ?_, by omega, ?_, ?_⟩
  · rw [hs.owner, h.owner]
  · rw [hs.callback, hs.started, h.callback]
  · rw [hs.started, hs.reservation]
    exact h.idle
  · rw [hs.ready, hs.reservation]
    exact h.waiting
  · rw [hs.pingConn, hs.started, hs.ready, hs.dest, hs.reservation]
    exact h.socket
  · rw [hs.pingConn, hs.dest]
    exact h.distinct
  · rw [hs.pingConn]
    exact fun hpos => h.posted (by omega)
  · rw [hs.next, hs.pingConn]
    intro hn
    obtain ⟨hopen, hzero⟩ := h.next hn
    exact ⟨hopen, by omega⟩

/-- Without a socket nothing is posted and no next reservation is asked for. -/
theorem OwnerOk.closed (h : OwnerOk s) (hnone : s.pingConn = none) :
    s.portReservationNext = .null ∧ s.checkTimers + s.pingTimers = 0 := by
  have hopen : ¬ s.pingConn.isSome = true := by simp [hnone]
  constructor
  · exact Decidable.not_not.mp fun hn => hopen (h.next hn).1
  · exact Nat.eq_zero_of_not_pos fun hpos => hopen (h.posted hpos)

theorem OwnerOk.of_closed (howner : s.owner = true) (hcallback : s.callback = s.started)
    (hidle : s.started = false → s.portReservation = .null)
    (hwaiting : s.portReservation ≠ .granted → s.ready = false) (hnone : s.pingConn = none)
    (hnext : s.portReservationNext = .null) (htimers : s.checkTimers + s.pingTimers = 0) :
    OwnerOk s := by
  refine ⟨howner, hcallback, hidle, hwaiting, ?_, ?_, by omega, by omega, ?_⟩
  · simp [hnone]
  · simp [hnone]
  · exact fun hn => absurd hnext hn

theorem OwnerOk.open (h : OwnerOk s) (hnone : s.pingConn = none) (hstarted : s.started = true)
    (hready : s.ready = true) (hgranted : s.portReservation = .granted) {addr x : Addr}
    (hdest : s.dest = some addr) (hne : x ≠ addr) :
    OwnerOk { s with
      pingConn := some x, reading := false, writes := 0, helloPending := true
      checkTimers := s.checkTimers + 1 } := by
  obtain ⟨hnext, htimers⟩ := h.closed hnone
  refine ⟨h.owner, h.callback, h.idle, h.waiting, ?_, ?_, by dsimp only; omega, fun _ => rfl, ?_⟩
  · exact fun _ => ⟨hstarted, hready, by rw [hdest]; rfl, hgranted⟩
  · rintro _ ⟨⟩ hx
    exact hne (Option.some.inj (hx.symm.trans hdest))
  · exact fun hn => absurd hnext hn

theorem PeerOk.same (h : PeerOk s) (hs : Same s s') : PeerOk s' := by
  refine ⟨?_, ?_, ?_, ?_, ?_, ?_⟩
  · rw [hs.owner, h.owner]
  · rw [hs.callback, hs.started, h.callback]
  · rw [hs.started, hs.reservation]
    exact h.idle
  · rw [hs.pingConn, hs.started, hs.reservation]
    exact h.socket
  · rw [hs.dest, hs.started]
    exact h.dest
  · rw [hs.next, h.next]

theorem PeerOk.of_closed (howner : s.owner = false) (hstarted : s.started = true)
    (hcallback : s.callback = true) (hnone : s.pingConn = none)
    (hnext : s.portReservationNext = .null) : PeerOk s := by
  refine ⟨howner, hcallback.trans hstarted.symm, ?_, ?_, fun _ => hstarted, hnext⟩
  · exact fun hf => by cases hstarted.symm.trans hf
  · simp [hnone]

theorem Idles.of_kept (h : Kept s s') : Idles s { sess := s' } :=
  ⟨nofun, rfl, nofun, fun _ => h⟩

theorem Routine.same {out : Out} (h : Routine s out) (hd : out.done = none) : Same s out.sess :=
  { h.kept hd with dest := h.dest hd }

theorem Routine.of_same (h : Same s s') : Routine s { sess := s' } :=
  ⟨.of_kept h.toKept, fun _ => h.dest, nofun⟩

theorem Routine.of_fail (s t : Session) : Routine s t.fail :=
  ⟨⟨nofun, rfl, nofun, nofun⟩, nofun, nofun⟩

theorem Session.pingOf_eq {q : Addr × Addr} (h : s.pingOf = some q) :
    s.pingConn = some q.1 ∧ s.dest = some q.2 := by
  unfold Session.pingOf at h
  split at h
  · rename_i src dst hsrc hdst
    cases h
    exact ⟨hsrc, hdst⟩
  · cases h

theorem onHelloSend_routine (s : Session) (ok : Bool) : Routine s (s.onHelloSend ok) := by
  have hsame : ∀ b, Same s { s with helloPending := false, masterHandle := b } :=
    fun b => { Same.refl s with }
  simp only [Session.onHelloSend]
  split
  · exact .of_same (hsame _)
  · split
    · exact .of_same (hsame _)
    · exact .of_fail s _

theorem onPingSend_routine (s : Session) (ok : Bool) : Routine s (s.onPingSend ok) := by
  have hsame : Same s { s with writes := s.writes - 1 } :=
    { Same.refl s with writes := Or.inl (Nat.sub_le _ _) }
  simp only [Session.onPingSend]
  split
  · exact .of_same hsame
  · split
    · exact ⟨⟨fun _ hm => List.mem_singleton.mp hm, rfl, nofun, fun _ => hsame.toKept⟩,
        fun _ => rfl, nofun⟩
    · exact .of_fail s _

theorem onNext_routine (s : Session) : Routine s s.onNext :=
  .of_same { Same.refl s with }

theorem onCheckStartTimeout_routine (canReuse : Bool) (h : 0 < s.checkTimers) :
    Routine s (s.onCheckStartTimeout canReuse) := by
  simp only [Session.onCheckStartTimeout]
  split
  · exact .of_same { Same.refl s with timers := by dsimp only; omega }
  · split
    · exact .of_same { Same.refl s with timers := by dsimp only; omega }
    · exact .of_same { Same.refl s with timers := by dsimp only; omega }

/-- A ping is not accepted, or the read has failed. -/
theorem onRecvPing_routine {src : Option Addr}
    (h : s.callback = false ∨ s.dest.isNone = true ∨ src = none ∨ src ≠ s.dest) :
    Routine s (s.onRecvPing src) := by
  simp only [Session.onRecvPing]
  split
  · exact .of_same { Same.refl s with }
  · rename_i hopen
    split
    · exact .of_fail s s
    · split
      · rename_i heq
        simp_all
      · exact .of_same (.refl s)

theorem onRecvPing_idles (s : Session) (src : Option Addr) : Idles s (s.onRecvPing src) := by
  simp only [Session.onRecvPing]
  split
  · exact .of_kept { Same.refl s with }
  · split
    · exact (Routine.of_fail s s).toIdles
    · split
      · exact ⟨nofun, rfl, nofun, nofun⟩
      · exact .of_kept (Same.refl s).toKept

/-- A ping timeout at which the owner does not go on to the next attempt. -/
theorem onPingTimeout_routine (h : 0 < s.pingTimers)
    (hgo : s.callback = true → s.next = true → s.owner = true → s.ttl = 64 →
      s.stepIdx = 2 ∨ (s.bestEffort = false ∧ env.ports = false)) :
    Routine s (s.onPingTimeout env) := by
  have hend : s.LastPing → s.stepIdx = 2 ∨ (s.bestEffort = false ∧ env.ports = false) :=
    fun hlast => hgo hlast.callback hlast.next hlast.owner hlast.ttl
  have hping : ∀ q, s.pingOf = some q → s.pingConn = some q.1 ∧ s.dest = some q.2 :=
    fun q => Session.pingOf_eq
  have hcases := onPingTimeout_cases s env
  generalize s.onPingTimeout env = out at hcases ⊢
  cases hcases with
  | ended => exact .of_same { Same.refl s with timers := by dsimp only; omega }
  | waits => exact .of_same { Same.refl s with timers := by dsimp only; omega }
  | pings =>
    refine ⟨⟨nofun, rfl, hping, fun _ => ?_⟩, fun _ => rfl, nofun⟩
    exact { Same.refl s with timers := by dsimp only; omega, writes := Or.inr h }
  | gaveUp => exact ⟨⟨nofun, rfl, hping, nofun⟩, nofun, nofun⟩
  | queued hlast hstep hbest =>
    obtain ⟨hnot, -⟩ := (hend hlast).resolve_left hstep
    cases hbest.symm.trans hnot
  | granted hlast hstep _ hports =>
    obtain ⟨-, hnot⟩ := (hend hlast).resolve_left hstep
    cases hports.symm.trans hnot
  | refused => exact ⟨⟨nofun, rfl, hping, nofun⟩, nofun, nofun⟩

/-- Opening a socket fails, or gives a socket from which `HELLO_FAST` is sent. -/
theorem openSocket_cases (s : Session) (env : Env) :
    (∃ t, s.openSocket env = Session.fail t) ∨
    ∃ addr, env.socket = some addr ∧ s.openSocket env =
      { sess := { s with
          pingConn := some addr, reading := false, writes := 0, helloPending := true
          checkTimers := s.checkTimers + 1 }
        hello := some addr } := by
  simp only [Session.openSocket]
  split
  · exact Or.inl ⟨_, rfl⟩
  · rename_i addr haddr
    split
    · exact Or.inr ⟨addr, haddr, rfl⟩
    · exact Or.inl ⟨_, rfl⟩

/-- After `READY` a started peer has no socket. -/
theorem onReady_restart (h : PeerOk s) (hstarted : s.started = true) {t : Session}
    (hagain : s.readied = t) :
    t.owner = false ∧ t.started = true ∧ t.callback = true ∧ t.ready = true ∧
      t.pingConn = none ∧ t.portReservationNext = .null := by
  subst hagain
  rw [Session.readied]
  split
  · exact ⟨h.owner, hstarted, h.callback.trans hstarted, rfl, rfl, h.next⟩
  · rename_i hnull
    refine ⟨h.owner, hstarted, h.callback.trans hstarted, rfl, ?_, h.next⟩
    refine Option.not_isSome_iff_eq_none.mp fun hopen => ?_
    simp [h.owner, (h.socket hopen).2] at hnull

theorem onPortReservation_next (hcallback : s.callback = true) (hready : s.ready = true)
    (howner : s.owner = true) (hnext : s.portReservationNext = .granted) :
    s.onPortReservation env = s.nextAttempt := by
  simp [Session.onPortReservation, hcallback, hready, howner, hnext]

namespace State

variable {n n' : State} {i : Side} {out : Out}

/-- Side `i` may report success. -/
def CanReport (n : State) : Side → Prop
  | .owner => n.readies = 0 ∧ ∀ p, n.sess .peer = some p → p.Usable
  | .peer => ∀ o, n.sess .owner = some o → o.Usable

/-- A session that is over leaves nothing behind but its report. -/
theorem Inv.over (h : n.Inv) (hs : n.sess i = some s) {b : Bool} {ms : List Up}
    {ps : List (Addr × Addr)} (hready : .ready ∉ ms)
    (hreport : n.conn = true → .close true ∈ ms → n.CanReport i) :
    (n.put i { rSess := none, established := b } ms [] ps).Inv := by
  have hturn := h.turn
  cases i with
  | owner =>
    refine h.put_owner hs
      { ok := fun _ hn => by cases hn
        hello := fun _ hq => by cases hq
        turn := ?_
        unasked := fun _ hn => by cases hn
        answered := fun _ hn => by cases hn
        pinged := fun _ _ _ hn => by cases hn
        established := fun _ hn => by cases hn
        report := fun hc hm => ⟨rfl, (hreport hc hm).1, hready, (hreport hc hm).2⟩
        usable := fun _ _ hn => by cases hn }
    rw [List.count_eq_zero_of_not_mem hready, Option.any_none, if_neg Bool.false_ne_true]
    omega
  | peer =>
    refine h.put_peer
      { ok := fun _ hn => by cases hn
        noReady := hready
        turn := ?_
        unasked := fun _ _ _ => rfl
        answered := fun _ _ hn => by cases hn
        pinged := fun _ _ _ _ _ _ _ _ hn => by cases hn
        established := fun _ hn => by cases hn
        report := hreport
        usable := fun _ _ hn => by cases hn }
    rw [List.countP_nil, Option.any_none, if_neg Bool.false_ne_true]
    omega

/-- The status of an entry whose session is still there. -/
theorem Inv.failing (h : n.Inv) (hs : n.sess i = some s) {b : Bool}
    (hb : b = (n.entry.get i).established) (hconn : n.conn = true) : Up.close b ≠ .close true := by
  rintro ⟨⟩
  rw [h.established i s hs hb.symm] at hconn
  cases hconn

/-- The entry of the side with another session in it. -/
def entryWith (n : State) (i : Side) (s : Session) : Entry :=
  { n.entry.get i with rSess := some s }

/-- The owner keeps its socket, its destination and its reservation. -/
theorem Inv.keep_owner (h : n.Inv) (hs : n.sess .owner = some s) (hok : OwnerOk s')
    (hconn : s'.pingConn = s.pingConn) (hdest : s'.dest = s.dest)
    (hrsv : s'.portReservation = s.portReservation)
    {ms : List Up} {ps : List (Addr × Addr)} (hms : ∀ m ∈ ms, m = .next)
    (hps : ∀ q ∈ ps, s.pingConn = some q.1 ∧ s.dest = some q.2) :
    (n.put .owner (n.entryWith .owner s') ms [] ps).Inv := by
  have hcount : ms.count .ready = 0 :=
    List.count_eq_zero_of_not_mem fun hm => Up.noConfusion (hms _ hm)
  have hopen : (if (some s').any (fun o => o.pingConn.isSome) then 1 else 0) = n.opened := by
    rw [opened, hs, Option.any_some, Option.any_some, hconn]
  have hturn := h.turn
  refine h.put_owner hs
    { ok := ?_, hello := (fun _ hq => by cases hq), turn := ?_, unasked := ?_, answered := ?_,
      pinged := ?_, established := ?_, report := ?_, usable := ?_ }
  · rintro _ ⟨⟩
    exact hok
  · rw [hcount, entryWith, hopen]
    omega
  · rintro _ ⟨⟩ hg
    rw [hcount, entryWith, hopen]
    have := h.unasked s hs (hrsv ▸ hg)
    omega
  · rintro _ ⟨⟩ hx
    refine h.answered ?_
    have : n.opened = 1 := by rw [← hopen, Option.any_some, hx, if_pos rfl]
    omega
  · rintro _ x y ⟨⟩ hx hy hm
    rw [hconn] at hx
    rw [hdest] at hy
    rcases List.mem_append.mp hm with hold | hnew
    · exact h.pinged s x y hs hx hy hold
    · -- its own ping, which does not come from the address it goes to
      exact absurd (hps _ hnew).2 ((h.owner s hs).distinct x hx)
  · rintro _ ⟨⟩ he
    exact h.established .owner s hs he
  · exact fun _ hm => Up.noConfusion (hms _ hm)
  · rintro hr _ ⟨⟩
    rw [Session.Usable, hconn, hdest, hrsv]
    exact h.peerReport hr s hs

/-- The peer keeps its socket and its reservation. -/
theorem Inv.keep_peer (h : n.Inv) (hs : n.sess .peer = some s) (hok : PeerOk s')
    (hconn : s'.pingConn = s.pingConn) (hdest : s.dest.isSome = true → s'.dest.isSome = true)
    (hrsv : s'.portReservation = s.portReservation) (hstarted : s'.started = s.started)
    (hready : s'.ready = s.ready) {ms : List Up} {ps : List (Addr × Addr)}
    (hms : ∀ m ∈ ms, m = .next) (hps : ∀ q ∈ ps, s.pingConn = some q.1 ∧ s.dest = some q.2) :
    (n.put .peer (n.entryWith .peer s') ms [] ps).Inv := by
  have hprep : (if (some s').any Session.preparing then 1 else 0) = n.preparing := by
    rw [preparing, hs, Option.any_some, Option.any_some, Session.preparing, Session.preparing,
      hstarted, hready, hrsv]
  have hturn := h.turn
  refine h.put_peer
    { ok := ?_, noReady := ?_, turn := ?_, unasked := ?_, answered := ?_, pinged := ?_,
      established := ?_, report := ?_, usable := ?_ }
  · rintro _ ⟨⟩
    exact hok
  · exact fun hm => Up.noConfusion (hms _ hm)
  · rw [entryWith, hprep, List.countP_nil]
    omega
  · intro o ho hg
    rw [entryWith, hprep, List.countP_nil]
    have := h.unasked o ho hg
    omega
  · rintro hpos _ ⟨⟩
    rw [hconn]
    exact h.answered hpos s hs
  · rintro o x y ho hx hy hm _ ⟨⟩
    rcases List.mem_append.mp hm with hold | hnew
    · exact hdest (h.pinged o x y ho hx hy hold s hs)
    · exact hdest (by rw [(hps _ hnew).2]; rfl)
  · rintro _ ⟨⟩ he
    exact h.established .peer s hs he
  · exact fun _ hm => Up.noConfusion (hms _ hm)
  · rintro hr _ ⟨⟩
    obtain ⟨hd, hc, hg⟩ := (h.ownerReport hr).2.2 s hs
    exact ⟨hdest hd, by rw [hconn]; exact hc, hrsv.trans hg⟩

theorem Inv.routine (h : n.Inv) (hs : n.sess i = some s) (hr : Routine s out) :
    (n.act i env out).Inv := by
  have hps : ∀ q ∈ out.ping.toList, s.pingConn = some q.1 ∧ s.dest = some q.2 :=
    fun q hq => hr.ping q (Option.mem_toList.mp hq)
  cases hdone : out.done with
  | some ok =>
    cases ok with
    | true => exact absurd hdone hr.failed
    | false =>
      rw [act_of_some hdone, hr.hello]
      refine h.over hs ?_ ?_
      · intro hm
        rcases List.mem_append.mp hm with hm | hm
        · exact Up.noConfusion (hr.sent _ hm)
        · simp at hm
      · intro hconn hm
        rcases List.mem_append.mp hm with hm | hm
        · exact Up.noConfusion (hr.sent _ hm)
        · simp only [Bool.false_and, Bool.false_eq_true, if_false, List.mem_singleton] at hm
          exact absurd hm.symm (h.failing hs rfl hconn)
  | none =>
    have hsame := hr.same hdone
    rw [act_of_none hdone, hr.hello]
    cases i with
    | owner =>
      exact h.keep_owner hs ((h.owner s hs).same hsame) hsame.pingConn hsame.dest
        hsame.reservation hr.sent hps
    | peer =>
      exact h.keep_peer hs ((h.peer s hs).same hsame) hsame.pingConn
        (fun hd => by rw [hsame.dest]; exact hd) hsame.reservation hsame.started hsame.ready
        hr.sent hps

theorem Inv.fail (h : n.Inv) (hs : n.sess i = some s) (t : Session) :
    (n.act i env t.fail).Inv :=
  h.routine hs (.of_fail s t)

/-- A session that has succeeded. The socket may turn out not to be usable in the end, which
is reported as a failure. -/
theorem Inv.succeed (h : n.Inv) (hs : n.sess i = some s) (hcan : n.conn = true → n.CanReport i) :
    (n.act i env { sess := s', done := some true }).Inv := by
  rw [act_of_some rfl]
  refine h.over hs ?_ fun hc _ => hcan hc
  rw [List.nil_append]
  split
  · split <;> simp
  · simp

/-- Without a socket of the owner the peer has not reported. -/
theorem Inv.unreported (h : n.Inv) (hs : n.sess .owner = some s) (hnone : s.pingConn = none) :
    ¬ n.Reported .peer := by
  intro hr
  have hopen := (h.peerReport hr s hs).2.1
  rw [hnone] at hopen
  cases hopen

/-- The owner has no socket, and it may be its turn to send `READY`. -/
theorem Inv.ask (h : n.Inv) (hs : n.sess .owner = some s)
    (hzero : n.readies + n.preparing + n.helloes + n.fasts = 0) (hnot : ¬ n.Reported .peer)
    (hok : OwnerOk s') (hnone : s'.pingConn = none) {ms : List Up} {ps : List (Addr × Addr)}
    (hms : ms = [] ∨ ms = [.ready] ∧ s'.portReservation = .granted) :
    (n.put .owner (n.entryWith .owner s') ms [] ps).Inv := by
  have hclosed : (n.entryWith .owner s').rSess.any (fun o => o.pingConn.isSome) = false := by
    rw [entryWith, Option.any_some, hnone, Option.isSome_none]
  refine h.put_owner hs
    { ok := ?_, hello := (fun _ hq => by cases hq), turn := ?_, unasked := ?_, answered := ?_,
      pinged := ?_, established := ?_, report := ?_, usable := ?_ }
  · rintro _ ⟨⟩
    exact hok
  · rw [hclosed, if_neg Bool.false_ne_true]
    rcases hms with rfl | ⟨rfl, -⟩
    · rw [List.count_nil]
      omega
    · rw [List.count_singleton_self]
      omega
  · rintro _ ⟨⟩ hg
    rcases hms with rfl | ⟨-, hg'⟩
    · rw [hclosed, if_neg Bool.false_ne_true, List.count_nil]
      omega
    · exact absurd hg' hg
  · rintro _ ⟨⟩ hx
    rw [hnone] at hx
    cases hx
  · rintro _ x y ⟨⟩ hx
    rw [hnone] at hx
    cases hx
  · rintro _ ⟨⟩ he
    exact h.established .owner s hs he
  · intro _ hm
    rcases hms with rfl | ⟨rfl, -⟩
    · cases hm
    · exact Up.noConfusion (List.mem_singleton.mp hm)
  · exact fun hr => absurd hr hnot

/-- Before its reservation is granted the owner has no socket and no turn is taken. -/
theorem Inv.waiting (h : n.Inv) (hs : n.sess .owner = some s) (hg : s.portReservation ≠ .granted) :
    s.pingConn = none ∧ n.readies + n.preparing + n.helloes + n.fasts = 0 := by
  have hzero := h.unasked s hs hg
  refine ⟨Option.not_isSome_iff_eq_none.mp fun hopen => ?_, by omega⟩
  exact hg ((h.owner s hs).socket hopen).2.2.2

theorem Inv.start_owner (h : n.Inv) (hs : n.sess .owner = some s) (hstart : s.started = false)
    (hout : s.start env = some out) : (n.act .owner env out).Inv := by
  have hok := h.owner s hs
  have hg : s.portReservation ≠ .granted := by rw [hok.idle hstart]; decide
  obtain ⟨hnone, hzero⟩ := h.waiting hs hg
  obtain ⟨hnext, htimers⟩ := hok.closed hnone
  have hstarted : ∀ r, OwnerOk { s with started := true, callback := true, portReservation := r } :=
    fun r => .of_closed hok.owner rfl nofun (fun _ => hok.waiting hg) hnone hnext htimers
  cases start_cases hout with
  | queued =>
    rw [act_of_none rfl]
    exact h.ask hs hzero (h.unreported hs hnone) (hstarted .queued) hnone (Or.inl rfl)
  | granted =>
    rw [act_of_none rfl]
    exact h.ask hs hzero (h.unreported hs hnone) (hstarted .granted) hnone (Or.inr ⟨rfl, rfl⟩)
  | waits howner => cases howner.symm.trans hok.owner
  | answerQueued howner => cases howner.symm.trans hok.owner
  | opens howner => cases howner.symm.trans hok.owner

theorem Inv.granted_owner (h : n.Inv) (hs : n.sess .owner = some s)
    (hq : s.portReservation = .queued) :
    (n.act .owner env
      (Session.onPortReservation { s with portReservation := .granted } env)).Inv := by
  have hok := h.owner s hs
  have hg : s.portReservation ≠ .granted := by rw [hq]; decide
  obtain ⟨hnone, hzero⟩ := h.waiting hs hg
  obtain ⟨hnext, htimers⟩ := hok.closed hnone
  have hstarted : s.started = true := Bool.not_eq_false _ ▸ fun hf => by
    rw [hok.idle hf] at hq
    cases hq
  have hcallback : s.callback = true := hok.callback.trans hstarted
  simp only [Session.onPortReservation, hcallback, hok.waiting hg, hok.owner, Bool.not_true,
    Bool.not_false, Bool.false_eq_true, if_true, if_false]
  rw [act_of_none rfl]
  have hasks : OwnerOk { s with
      owner := true, callback := true, ready := true, portReservation := .granted } :=
    .of_closed rfl hstarted.symm (fun hf => by cases hstarted.symm.trans hf)
      (fun hg' => absurd rfl hg') hnone hnext htimers
  exact h.ask hs hzero (h.unreported hs hnone) hasks hnone (Or.inr ⟨rfl, rfl⟩)

/-- The owner goes on to the next attempt. -/
theorem Inv.giveUp (h : n.Inv) (hs : n.sess .owner = some s) (hopen : s.pingConn.isSome = true)
    (hnot : ¬ n.Reported .peer) {t : Session} (hstarted : t.started = true)
    (hcallback : t.callback = true) (howner : t.owner = true)
    (htimers : t.checkTimers + t.pingTimers = 0) (hnext : t.portReservationNext = .granted)
    (ping : Option (Addr × Addr)) :
    (n.act .owner env { t.nextAttempt with ping := ping }).Inv := by
  have hturn := h.turn
  have hone : n.opened = 1 := by rw [opened, hs, Option.any_some, hopen, if_pos rfl]
  have hok : OwnerOk t.nextAttempt.sess :=
    .of_closed howner (hcallback.trans hstarted.symm) (fun hf => by cases hstarted.symm.trans hf)
      (fun hg => absurd hnext hg) rfl rfl htimers
  rw [act_of_none rfl]
  exact h.ask hs (by omega) hnot hok rfl (Or.inr ⟨rfl, hnext⟩)

theorem Inv.grantedNext_owner (h : n.Inv) (hs : n.sess .owner = some s)
    (hq : s.portReservationNext = .queued) (hnot : ¬ n.Reported .peer) :
    (n.act .owner env
      (Session.onPortReservation { s with portReservationNext := .granted } env)).Inv := by
  have hok := h.owner s hs
  obtain ⟨hopen, htimers⟩ := hok.next (by rw [hq]; decide)
  obtain ⟨hstarted, hready, -⟩ := hok.socket hopen
  have hcallback := hok.callback.trans hstarted
  rw [onPortReservation_next]
  · apply h.giveUp hs hopen hnot _ _ _ _ _ none
    exacts [hstarted, hcallback, hok.owner, htimers, rfl]
  exacts [hcallback, hready, hok.owner, rfl]

theorem Inv.pingTimeout_owner (h : n.Inv) (hs : n.sess .owner = some s) (htimer : 0 < s.pingTimers)
    (hnot : s.next = true → s.ttl = 64 → s.stepIdx ≠ 2 → s.bestEffort = false →
      env.ports = true → ¬ n.Reported .peer) :
    (n.act .owner env (s.onPingTimeout env)).Inv := by
  have hok := h.owner s hs
  have hone := hok.timers
  have hopen := hok.posted (by omega)
  obtain ⟨hstarted, hready, hdest, hgranted⟩ := hok.socket hopen
  have hroutine : (s.LastPing → s.stepIdx = 2 ∨ (s.bestEffort = false ∧ env.ports = false)) →
      (n.act .owner env (s.onPingTimeout env)).Inv := fun hgo =>
    h.routine hs (onPingTimeout_routine htimer fun hc hn ho ht => hgo ⟨hc, hn, ho, ht⟩)
  have hcases := onPingTimeout_cases s env
  generalize s.onPingTimeout env = out at hcases hroutine ⊢
  cases hcases with
  | ended hc => exact hroutine fun hlast => by cases hc.symm.trans hlast.callback
  | waits _ hn => exact hroutine fun hlast => by cases hn.symm.trans hlast.next
  | pings _ _ hmore => exact hroutine fun hlast => absurd hlast hmore
  | gaveUp _ hstep => exact hroutine fun _ => .inl hstep
  | refused _ _ hbest hports => exact hroutine fun _ => .inr ⟨hbest, hports⟩
  | queued hlast =>
    rw [act_of_none rfl]
    apply h.keep_owner hs
    · exact ⟨hok.owner, hok.callback, hok.idle, hok.waiting, hok.socket, hok.distinct,
        by dsimp only [Session.pinged]; omega, fun _ => hopen,
        fun _ => ⟨hopen, by dsimp only [Session.pinged]; omega⟩⟩
    · rfl
    · rfl
    · rfl
    · exact fun _ hm => by cases hm
    · exact fun q hq => Session.pingOf_eq (Option.mem_toList.mp hq)
  | granted hlast hstep hbest hports =>
    have hzero : (s.pinged .granted).checkTimers + (s.pinged .granted).pingTimers = 0 := by
      dsimp only [Session.pinged]
      omega
    rw [onPortReservation_next (s := s.pinged .granted) hlast.callback hready hlast.owner rfl]
    exact h.giveUp hs hopen (hnot hlast.next hlast.ttl hstep hbest hports)
      (t := s.pinged .granted) hstarted hlast.callback hlast.owner hzero rfl s.pingOf

/-- The owner opens its socket. -/
theorem Inv.open_owner (h : n.Inv) (hs : n.sess .owner = some s) {t : Session} {addr : Addr}
    (hzero : n.readies + n.preparing + n.helloes + n.fasts + n.opened = 0)
    (hnot : ¬ n.Reported .peer)
    (hpeer : ∀ p, n.sess .peer = some p → p.pingConn.isSome = true)
    (hok : OwnerOk t) (hnone : t.pingConn = none) (hstarted : t.started = true)
    (hready : t.ready = true) (hgranted : t.portReservation = .granted)
    (hdest : t.dest = some addr)
    (hfresh : ∀ x, env.socket = some x → x ≠ addr ∧ (addr, x) ∉ n.pings) :
    (n.act .owner env (t.openSocket env)).Inv := by
  rcases openSocket_cases t env with ⟨u, hu⟩ | ⟨x, hx, hout⟩
  · rw [hu]
    exact h.fail hs u
  · rw [hout, act_of_none rfl]
    refine h.put_owner hs
      { ok := ?_, hello := ?_, turn := ?_, unasked := ?_, answered := ?_, pinged := ?_,
        established := ?_, report := (fun _ hm => by cases hm),
        usable := (fun hr => absurd hr hnot) }
    · rintro _ ⟨⟩
      exact hok.open hnone hstarted hready hgranted hdest (hfresh x hx).1
    · intro q hq
      simp only [Option.map_some, Option.toList_some, List.mem_singleton] at hq
      rw [hq]
    · rw [List.count_nil, Option.any_some, Option.isSome_some, if_pos rfl]
      omega
    · rintro _ ⟨⟩ hg
      exact absurd hgranted hg
    · exact fun _ _ _ => hpeer
    · rintro _ x' y' ⟨⟩ ⟨⟩ hy hm
      rw [Option.toList_none, List.append_nil] at hm
      obtain rfl : addr = y' := Option.some.inj (hdest.symm.trans hy)
      exact absurd hm (hfresh x hx).2
    · rintro _ ⟨⟩ he
      exact h.established .owner s hs he

/-- The owner is told the address of the peer. The address was the turn, so `n` is the state
without it. -/
theorem Inv.fast_owner (h : n.Inv) (hs : n.sess .owner = some s)
    (hzero : n.readies + n.preparing + n.helloes + n.fasts + n.opened = 0)
    (hgranted : s.portReservation = .granted)
    (hpeer : ∀ p, n.sess .peer = some p → p.pingConn.isSome = true) {addr : Addr}
    (hfresh : ∀ x, env.socket = some x → x ≠ addr ∧ (addr, x) ∉ n.pings) :
    (n.act .owner env (s.onFast addr env)).Inv := by
  have hok := h.owner s hs
  have hnone : s.pingConn = none := by
    refine Option.not_isSome_iff_eq_none.mp fun hopen => ?_
    have : n.opened = 1 := by rw [opened, hs, Option.any_some, hopen, if_pos rfl]
    omega
  obtain ⟨hnext, htimers⟩ := hok.closed hnone
  simp only [Session.onFast, hok.owner, if_true]
  split
  · exact h.routine hs (.of_same (.refl s))
  · rename_i hcallback
    have hcallback : s.callback = true := by simpa using hcallback
    have hstarted : s.started = true := hok.callback.symm.trans hcallback
    simp only [Session.onPortReservation, hcallback, hnext, Bool.not_true,
      Bool.false_eq_true, if_false, if_true, ne_eq, not_true_eq_false, decide_false,
      Bool.and_false]
    split
    · rw [act_of_none rfl]
      apply h.ask hs (by omega) (h.unreported hs hnone)
      · exact .of_closed rfl hstarted.symm (fun hf => by cases hstarted.symm.trans hf)
          (fun hg => absurd hgranted hg) hnone rfl htimers
      · exact hnone
      · exact Or.inr ⟨rfl, hgranted⟩
    · rename_i hready
      have hready : s.ready = true := by simpa using hready
      apply h.open_owner hs hzero (h.unreported hs hnone) hpeer
      · exact .of_closed rfl hstarted.symm (fun hf => by cases hstarted.symm.trans hf)
          (fun hg => absurd hgranted hg) hnone rfl htimers
      exacts [hnone, hstarted, hready, hgranted, rfl, hfresh]

/-- A ping is accepted only from the destination. -/
theorem Inv.recvPing (h : n.Inv) (hs : n.sess i = some s) {src : Addr}
    (hcan : s.dest = some src → n.CanReport i) :
    (n.act i env (s.onRecvPing (some src))).Inv := by
  by_cases hsrc : s.callback = false ∨ s.dest.isNone = true ∨ some src ≠ s.dest
  · exact h.routine hs (onRecvPing_routine (hsrc.imp id (Or.imp id Or.inr)))
  · simp only [not_or, Bool.not_eq_false, ne_eq, Decidable.not_not] at hsrc
    obtain ⟨hcallback, -, hdest⟩ := hsrc
    simp only [Session.onRecvPing, hcallback, ← hdest, Bool.not_true, Option.isNone_some,
      Bool.or_self, Bool.false_eq_true, if_false, if_true]
    exact h.succeed hs fun _ => hcan hdest.symm

/-- Once the owner has a ping of the peer, the peer has all it needs. -/
theorem Inv.canReport_owner (h : n.Inv) (hs : n.sess .owner = some s) {src addr : Addr}
    (hconn : s.pingConn = some addr) (hdest : s.dest = some src) (hping : (src, addr) ∈ n.pings) :
    n.CanReport .owner := by
  have hone : n.opened = 1 := by
    rw [opened, hs, Option.any_some, hconn, Option.isSome_some, if_pos rfl]
  have hturn := h.turn
  refine ⟨by omega, fun p hp => ?_⟩
  have hopen := h.answered (by omega) p hp
  exact ⟨h.pinged s addr src hs hconn hdest hping p hp, hopen, ((h.peer p hp).socket hopen).2⟩

/-- While the owner has its socket, it has all it needs. -/
theorem Inv.canReport_peer (h : n.Inv)
    (hopen : ∀ o, n.sess .owner = some o → o.pingConn.isSome = true) : n.CanReport .peer := by
  intro o ho
  obtain ⟨-, -, hdest, hgranted⟩ := (h.owner o ho).socket (hopen o ho)
  exact ⟨hdest, hopen o ho, hgranted⟩

/-- The peer takes the turn on, or starts, while nobody has its address. -/
theorem Inv.prepare (h : n.Inv) (hs : n.sess .peer = some s) (hnot : ¬ n.Reported .owner)
    (hzero : n.helloes + n.fasts + n.opened = 0) (hok : PeerOk s') {hs' : List (Side × Addr)}
    (hturn : n.readies + (if s'.preparing then 1 else 0) + hs'.countP (fun h => h.1 = .peer) ≤ 1)
    (hasked : ∀ o, n.sess .owner = some o → o.portReservation ≠ .granted →
      (if s'.preparing then 1 else 0) + hs'.countP (fun h => h.1 = .peer) = 0)
    (hopen : 0 < hs'.countP (fun h => h.1 = .peer) → s'.pingConn.isSome = true) :
    (n.put .peer (n.entryWith .peer s') [] hs' []).Inv := by
  refine h.put_peer
    { ok := ?_, noReady := List.not_mem_nil, turn := ?_, unasked := ?_, answered := ?_,
      pinged := ?_, established := ?_, report := (fun _ hm => by cases hm),
      usable := (fun hr => absurd hr hnot) }
  · rintro _ ⟨⟩
    exact hok
  · rw [entryWith, Option.any_some]
    omega
  · rw [entryWith, Option.any_some]
    exact hasked
  · rintro hpos _ ⟨⟩
    exact hopen (by omega)
  · intro o x y ho hx
    have : n.opened = 1 := by rw [opened, ho, Option.any_some, hx, Option.isSome_some, if_pos rfl]
    omega
  · rintro _ ⟨⟩ he
    exact h.established .peer s hs he

/-- The peer opens its socket. -/
theorem Inv.open_peer (h : n.Inv) (hs : n.sess .peer = some s) (hnot : ¬ n.Reported .owner)
    (hzero : n.readies + n.helloes + n.fasts + n.opened = 0)
    (hasked : ∀ o, n.sess .owner = some o → o.portReservation = .granted) {t : Session}
    (hok : PeerOk t) (hstarted : t.started = true) (hgranted : t.portReservation = .granted) :
    (n.act .peer env (t.openSocket env)).Inv := by
  rcases openSocket_cases t env with ⟨u, hu⟩ | ⟨x, hx, hout⟩
  · rw [hu]
    exact h.fail hs u
  · rw [hout, act_of_none rfl]
    apply h.prepare hs hnot (by omega)
    · exact ⟨hok.owner, hok.callback, hok.idle, fun _ => ⟨hstarted, hgranted⟩, hok.dest, hok.next⟩
    · simp [Session.preparing, hstarted, hgranted]
      omega
    · exact fun o ho hg => absurd (hasked o ho) hg
    · exact fun _ => rfl

/-- While a turn is taken the owner has its reservation. -/
theorem Inv.asked (h : n.Inv)
    (hpos : 0 < n.readies + n.preparing + n.helloes + n.fasts + n.opened) :
    ∀ o, n.sess .owner = some o → o.portReservation = .granted := by
  intro o ho
  refine Decidable.not_not.mp fun hg => ?_
  have := h.unasked o ho hg
  omega

/-- Before the peer has started it has no socket, so nobody has its address. -/
theorem Inv.unstarted (h : n.Inv) (hs : n.sess .peer = some s) (hstart : s.started = false) :
    ¬ n.Reported .owner ∧ n.helloes + n.fasts + n.opened = 0 := by
  have hclosed : ¬ s.pingConn.isSome = true := fun hopen => by
    rw [((h.peer s hs).socket hopen).1] at hstart
    cases hstart
  refine ⟨fun hr => hclosed ((h.ownerReport hr).2.2 s hs).2.1, ?_⟩
  exact Nat.eq_zero_of_not_pos fun hpos => hclosed (h.answered hpos s hs)

theorem Inv.start_peer (h : n.Inv) (hs : n.sess .peer = some s) (hstart : s.started = false)
    (hout : s.start env = some out) : (n.act .peer env out).Inv := by
  have hok := h.peer s hs
  obtain ⟨hnot, hzero⟩ := h.unstarted hs hstart
  have hturn := h.turn
  have hprep : n.preparing = if s.ready then 1 else 0 := by
    rw [preparing, hs, Option.any_some]
    simp [Session.preparing, hstart, hok.idle hstart]
  have hnone : s.pingConn = none := by
    refine Option.not_isSome_iff_eq_none.mp fun hopen => ?_
    cases (hok.socket hopen).1.symm.trans hstart
  have hstarted : ∀ r, PeerOk { s with started := true, callback := true, portReservation := r } :=
    fun r => .of_closed hok.owner rfl rfl hnone hok.next
  have hone : s.ready = true → n.preparing = 1 := fun hready => by rw [hprep, hready, if_pos rfl]
  have hasked : s.ready = true → ∀ o, n.sess .owner = some o → o.portReservation = .granted :=
    fun hready => h.asked (by rw [hone hready]; omega)
  cases start_cases hout with
  | queued howner => cases hok.owner.symm.trans howner
  | granted howner => cases hok.owner.symm.trans howner
  | waits _ hready =>
    rw [act_of_none rfl]
    apply h.prepare hs hnot hzero (hstarted s.portReservation)
    · simp [Session.preparing, hok.idle hstart]
      omega
    · exact fun _ _ _ => by simp [Session.preparing, hok.idle hstart]
    · intro hn
      cases hn
  | answerQueued _ hready =>
    have hpreparing := hone hready
    rw [act_of_none rfl]
    apply h.prepare hs hnot hzero (hstarted .queued)
    · simp [Session.preparing]
      omega
    · exact fun o ho hg => absurd (hasked hready o ho) hg
    · intro hn
      cases hn
  | opens _ hready hsocket =>
    have hpreparing := hone hready
    subst hsocket
    exact h.open_peer hs hnot (by omega) (hasked hready) (hstarted .granted) rfl rfl

theorem Inv.granted_peer (h : n.Inv) (hs : n.sess .peer = some s)
    (hq : s.portReservation = .queued) :
    (n.act .peer env
      (Session.onPortReservation { s with portReservation := .granted } env)).Inv := by
  have hok := h.peer s hs
  have hturn := h.turn
  have hprep : n.preparing = 1 := by
    rw [preparing, hs, Option.any_some]
    simp [Session.preparing, hq]
  have hasked := h.asked (by omega)
  have hnot : ¬ n.Reported .owner := fun hr =>
    by cases hq.symm.trans ((h.ownerReport hr).2.2 s hs).2.2
  have hnone : s.pingConn = none := by
    refine Option.not_isSome_iff_eq_none.mp fun hopen => ?_
    cases hq.symm.trans (hok.socket hopen).2
  have hstarted : s.started = true := by
    refine Bool.not_eq_false _ ▸ fun hf => ?_
    cases hq.symm.trans (hok.idle hf)
  have hcallback := hok.callback.trans hstarted
  have hgranted : PeerOk { s with portReservation := .granted } :=
    .of_closed hok.owner hstarted hcallback hnone hok.next
  simp only [Session.onPortReservation]
  rw [if_neg (by simp [hcallback])]
  split
  · rw [if_neg (by simp [hok.owner]), act_of_none rfl]
    apply h.prepare hs hnot (by omega) hgranted
    · simp [Session.preparing, hstarted]
      omega
    · exact fun o ho hg => absurd (hasked o ho) hg
    · intro hn
      cases hn
  · rw [if_neg (by simp [hok.owner])]
    exact h.open_peer hs hnot (by omega) hasked hgranted hstarted rfl

/-- The peer is asked. The request was the turn, so `n` is the state without it. -/
theorem Inv.ready_peer (h : n.Inv) (hs : n.sess .peer = some s) (hnot : ¬ n.Reported .owner)
    (hzero : n.readies + n.preparing + n.helloes + n.fasts + n.opened = 0)
    (hasked : ∀ o, n.sess .owner = some o → o.portReservation = .granted) :
    (n.act .peer env (s.onReady env)).Inv := by
  have hok := h.peer s hs
  have hclosed : ∀ t, s.started = true → s.readied = t →
      ∀ r, PeerOk { t with portReservation := r } := by
    intro t hstarted hagain r
    obtain ⟨howner, hstart, hcallback, -, hnone, hnext⟩ := onReady_restart hok hstarted hagain
    exact .of_closed howner hstart hcallback hnone hnext
  have hcases := onReady_cases s env
  generalize s.onReady env = out at hcases ⊢
  cases hcases with
  | early =>
    rw [act_of_none rfl]
    apply h.prepare hs hnot (by omega)
    · exact ⟨hok.owner, hok.callback, hok.idle, hok.socket, hok.dest, hok.next⟩
    · simp only [Option.map_none, Option.toList_none, List.countP_nil]
      split <;> omega
    · exact fun o ho hg => absurd (hasked o ho) hg
    · intro hn
      cases hn
  | queued hstarted hagain =>
    rw [act_of_none rfl]
    apply h.prepare hs hnot (by omega) (hclosed _ hstarted hagain .queued)
    · simp [Session.preparing]
      omega
    · exact fun o ho hg => absurd (hasked o ho) hg
    · intro hn
      cases hn
  | granted hstarted hagain =>
    obtain ⟨howner, hstart, hcallback, hready, -, -⟩ := onReady_restart hok hstarted hagain
    rw [onPortReservation_opens hcallback hready howner]
    exact h.open_peer hs hnot (by omega) hasked (hclosed _ hstarted hagain .granted) hstart rfl
  | refused => exact h.fail hs _

theorem Inv.fast_peer (h : n.Inv) (hs : n.sess .peer = some s) (addr : Addr) :
    (n.act .peer env (s.onFast addr env)).Inv := by
  have hok := h.peer s hs
  simp only [Session.onFast]
  split
  · exact h.routine hs (.of_same (.refl s))
  · rename_i hcallback
    have hstarted : s.started = true := hok.callback.symm.trans (by simpa using hcallback)
    rw [if_neg (by rw [hok.owner]; exact Bool.false_ne_true), act_of_none rfl]
    apply h.keep_peer hs
    · exact ⟨hok.owner, hok.callback, hok.idle, hok.socket, fun _ => hstarted, hok.next⟩
    exacts [rfl, fun _ => rfl, rfl, rfl, rfl, (fun _ hm => by cases hm), fun _ hq => by cases hq]

end State

end DTun.Node.FastSession
