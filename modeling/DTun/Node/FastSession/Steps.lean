import DTun.Node.FastSession.Model

/-!
# What a step of a fast rendezvous can be

`Handles` lists the handlers of a session with what has to hold for them to be called, and
`Step` the forms a step of both sides and the server can take. `step_cases` is the
inversion of `State.step`; a fact about every step is a case analysis over `Step`. The
handlers with many branches have inversions of their own.
-/

namespace DTun.Node.FastSession

/-- At the event, a session of side `i` runs a handler, after it has read a message if
there is one. -/
inductive Handles (i : Side) : Event → Option Down → Session → Env → Out → Prop
  | start {s : Session} {env : Env} {out : Out} (fresh : s.started = false)
      (starts : s.start env = some out) : Handles i (.start i env) none s env out
  | granted {s : Session} {next : Bool} {env : Env} {out : Out}
      (grants : s.onGranted next env = some out) : Handles i (.granted i next env) none s env out
  | helloSent {s : Session} {ok : Bool} (pending : s.helloPending = true) :
      Handles i (.helloSent i ok) none s {} (s.onHelloSend ok)
  | checkStart {s : Session} {canReuse : Bool} (posted : 0 < s.checkTimers) :
      Handles i (.checkStart i canReuse) none s {} (s.onCheckStartTimeout canReuse)
  | pingTimeout {s : Session} {env : Env} (posted : 0 < s.pingTimers) :
      Handles i (.pingTimeout i env) none s env (s.onPingTimeout env)
  | pingSent {s : Session} {ok : Bool} (pending : 0 < s.writes) :
      Handles i (.pingSent i ok) none s {} (s.onPingSend ok)
  | recvPing {s : Session} {src : Addr} {env : Env} (reading : s.reading = true) :
      Handles i (.recvPing i src env) none s env (s.onRecvPing (some src))
  | readError {s : Session} (reading : s.reading = true) :
      Handles i (.readError i) none s {} (s.onRecvPing none)
  | ready {s : Session} {env : Env} :
      Handles i (.deliver i env) (some .ready) s env (s.onReady env)
  | next {s : Session} {env : Env} : Handles i (.deliver i env) (some .next) s env s.onNext
  | fast {s : Session} {env : Env} {addr : Addr} :
      Handles i (.deliver i env) (some (.fast addr)) s env (s.onFast addr env)

section Branches

variable {s : Session} {env : Env}

/-- What `onPortReservation` can do. -/
inductive Reserved (s : Session) (env : Env) : Out → Prop
  | waits : Reserved s env { sess := s }
  | asks : Reserved s env { sess := { s with ready := true }, sent := [.ready] }
  | goesOn : Reserved s env s.nextAttempt
  | opens (ready : s.ready = true) (last : s.owner = false ∨ s.portReservationNext = .null) :
      Reserved s env (s.openSocket env)

theorem onPortReservation_cases (s : Session) (env : Env) :
    Reserved s env (s.onPortReservation env) := by
  simp only [Session.onPortReservation]
  split
  · exact .waits
  split
  · split
    · exact .asks
    · exact .waits
  split
  · exact .goesOn
  · rename_i hready hgo
    exact .opens (by simpa using hready) (by simpa [imp_iff_not_or] using hgo)

theorem onPortReservation_opens (hcallback : s.callback = true) (hready : s.ready = true)
    (howner : s.owner = false) (r : Reservation) :
    Session.onPortReservation { s with portReservation := r } env =
      Session.openSocket { s with portReservation := r } env := by
  simp [Session.onPortReservation, hcallback, hready, howner]

/-- What `start` can do when it returns true. -/
inductive Starts (s : Session) (env : Env) : Out → Prop
  | queued (owner : s.owner = true) (bestEffort : s.bestEffort = true) :
      Starts s env
        { sess := { s with started := true, callback := true, portReservation := .queued } }
  | granted (owner : s.owner = true) (bestEffort : s.bestEffort = false) :
      Starts s env
        { sess := { s with started := true, callback := true, portReservation := .granted }
          sent := [.ready] }
  | waits (owner : s.owner = false) (ready : s.ready = false) :
      Starts s env { sess := { s with started := true, callback := true } }
  | answerQueued (owner : s.owner = false) (ready : s.ready = true) :
      Starts s env
        { sess := { s with started := true, callback := true, portReservation := .queued } }
  | opens {out : Out} (owner : s.owner = false) (ready : s.ready = true)
      (socket : out = Session.openSocket
        { s with started := true, callback := true, portReservation := .granted } env)
      (done : out.done = none) : Starts s env out

theorem start_cases {out : Out} (hout : s.start env = some out) : Starts s env out := by
  simp only [Session.start] at hout
  split at hout
  · rename_i howner
    split at hout
    · rename_i hbest
      cases hout
      exact .queued howner hbest
    · rename_i hbest
      obtain ⟨-, ⟨⟩⟩ := Option.ite_none_right_eq_some.mp hout
      exact .granted howner (Bool.eq_false_iff.mpr hbest)
  · rename_i howner
    have howner := Bool.eq_false_iff.mpr howner
    split at hout
    · rename_i hready
      cases hout
      exact .waits howner (by simpa using hready)
    · rename_i hready
      have hready : s.ready = true := by simpa using hready
      split at hout
      · cases hout
        exact .answerQueued howner hready
      · obtain ⟨-, hout⟩ := Option.ite_none_right_eq_some.mp hout
        obtain ⟨hdone, ⟨⟩⟩ := Option.ite_none_left_eq_some.mp hout
        exact .opens howner hready rfl (by simpa using hdone)

theorem Starts.done {out : Out} (h : Starts s env out) : out.done = none := by
  cases h with
  | queued | granted | waits | answerQueued => rfl
  | opens _ _ _ hdone => exact hdone

/-- What `onGranted` does for a reservation that was queued. -/
inductive Granted (s : Session) (env : Env) : Bool → Out → Prop
  | first (queued : s.portReservation = .queued) :
      Granted s env false (Session.onPortReservation { s with portReservation := .granted } env)
  | next (queued : s.portReservationNext = .queued) :
      Granted s env true (Session.onPortReservation { s with portReservationNext := .granted } env)

theorem onGranted_cases {next : Bool} {out : Out} (hout : s.onGranted next env = some out) :
    Granted s env next out := by
  cases next with
  | true =>
    obtain ⟨hq, ⟨⟩⟩ := Option.ite_none_right_eq_some.mp hout
    exact .next hq
  | false =>
    obtain ⟨hq, ⟨⟩⟩ := Option.ite_none_right_eq_some.mp hout
    exact .first hq

/-- The session that has read `READY`: a peer that has ports starts anew. -/
def Session.readied (s : Session) : Session :=
  if !s.owner && s.portReservation ≠ .null then Session.restart { s with ready := true }
  else { s with ready := true }

/-- What `onReady` can do. -/
inductive Readies (s : Session) (env : Env) : Out → Prop
  | early (ended : (!s.started || !s.callback) = true) :
      Readies s env { sess := { s with ready := true } }
  | queued {t : Session} (started : s.started = true) (again : s.readied = t) :
      Readies s env { sess := { t with portReservation := .queued } }
  | granted {t : Session} (started : s.started = true) (again : s.readied = t) :
      Readies s env (Session.onPortReservation { t with portReservation := .granted } env)
  | refused {t : Session} : Readies s env (Session.fail { t with portReservation := .null })

theorem onReady_cases (s : Session) (env : Env) : Readies s env (s.onReady env) := by
  simp only [Session.onReady]
  split
  · rename_i hover
    exact .early hover
  · rename_i hover
    have hstarted : s.started = true := by
      simp only [Bool.or_eq_true, Bool.not_eq_true', not_or, Bool.not_eq_false] at hover
      exact hover.1
    generalize hagain : (if (!s.owner && decide (s.portReservation ≠ .null)) = true
      then Session.restart { s with ready := true } else { s with ready := true }) = t
    split
    · exact .queued hstarted hagain
    · split
      · exact .granted hstarted hagain
      · exact .refused

/-- The session after the owner's last ping, which posts no timer. -/
def Session.pinged (s : Session) (next : Reservation) : Session :=
  { s with
    pingTimers := s.pingTimers - 1, writes := s.writes + 1, next := false, ttl := s.ttl + 1
    portReservationNext := next }

/-- What a handler leaves behind that has sent a ping before. -/
def Out.withPing (out : Out) (ping : Option (Addr × Addr)) : Out := { out with ping := ping }

/-- The next ping is the owner's last one of an attempt. -/
structure Session.LastPing (s : Session) : Prop where
  callback : s.callback = true
  next : s.next = true
  owner : s.owner = true
  ttl : s.ttl = 64

/-- What `onPingTimeout` can do. After the owner's last ping the session ends, or the ports of
the next attempt are asked for. -/
inductive PingTimeout (s : Session) (env : Env) : Out → Prop
  | ended (callback : s.callback = false) :
      PingTimeout s env { sess := { s with pingTimers := s.pingTimers - 1 } }
  | waits (callback : s.callback = true) (next : s.next = false) :
      PingTimeout s env { sess := { s with pingTimers := s.pingTimers - 1 + 1 } }
  | pings (callback : s.callback = true) (next : s.next = true) (more : ¬ s.LastPing) :
      PingTimeout s env
        { sess := { s with
            pingTimers := s.pingTimers - 1 + 1, writes := s.writes + 1, next := false
            ttl := s.ttl + 1 }
          ping := s.pingOf }
  | gaveUp (last : s.LastPing) (stepIdx : s.stepIdx = 2) :
      PingTimeout s env ((s.pinged s.portReservationNext).fail.withPing s.pingOf)
  | queued (last : s.LastPing) (stepIdx : s.stepIdx ≠ 2) (bestEffort : s.bestEffort = true) :
      PingTimeout s env { sess := s.pinged .queued, ping := s.pingOf }
  | granted (last : s.LastPing) (stepIdx : s.stepIdx ≠ 2) (bestEffort : s.bestEffort = false)
      (ports : env.ports = true) :
      PingTimeout s env (((s.pinged .granted).onPortReservation env).withPing s.pingOf)
  | refused (last : s.LastPing) (stepIdx : s.stepIdx ≠ 2) (bestEffort : s.bestEffort = false)
      (ports : env.ports = false) :
      PingTimeout s env ((s.pinged .null).fail.withPing s.pingOf)

theorem onPingTimeout_cases (s : Session) (env : Env) :
    PingTimeout s env (s.onPingTimeout env) := by
  simp only [Session.onPingTimeout]
  split
  · rename_i hcallback
    exact .ended (by simpa using hcallback)
  · rename_i hcallback
    have hcallback : s.callback = true := by simpa using hcallback
    split
    · rename_i hnext
      exact .waits hcallback (by simpa using hnext)
    · rename_i hnext
      have hnext : s.next = true := by simpa using hnext
      split
      · rename_i hend
        simp only [Bool.and_eq_true, decide_eq_true_eq] at hend
        have hlast : s.LastPing := ⟨hcallback, hnext, hend.1, by omega⟩
        split
        · rename_i hstep
          exact .gaveUp hlast hstep
        · rename_i hstep
          split
          · rename_i hbest
            exact .queued hlast hstep hbest
          · rename_i hbest
            have hbest := Bool.eq_false_iff.mpr hbest
            split
            · rename_i hports
              exact .granted hlast hstep hbest hports
            · rename_i hports
              exact .refused hlast hstep hbest (Bool.eq_false_iff.mpr hports)
      · rename_i hend
        refine .pings hcallback hnext fun hlast => hend ?_
        rw [hlast.owner, hlast.ttl]
        rfl

end Branches

namespace State

/-- The session of a side is gone, and the side sends `ms`. -/
def leave (n : State) (i : Side) (ms : List Up) : State :=
  { n with
    entry := n.entry.set i { n.entry.get i with rSess := none }
    up := n.up.set i (n.up.get i ++ ms) }

def markEstablished (n : State) (i : Side) : State :=
  { n with entry := n.entry.set i { n.entry.get i with established := true } }

inductive Step (n : State) : Event → State → Prop
  | acts {i : Side} {e : Event} {s : Session} {env : Env} {out : Out} (sess : n.sess i = some s)
      (handles : Handles i e none s env out) : Step n e (n.act i env out)
  | reads {i : Side} {env : Env} {msg : Down} {rest : List Down} {s : Session} {out : Out}
      (down : n.down.get i = msg :: rest) (sess : n.sess i = some s)
      (pending : (n.entry.get i).established = false)
      (handles : Handles i (.deliver i env) (some msg) s env out) :
      Step n (.deliver i env) (act { n with down := n.down.set i rest } i env out)
  | ignores {i : Side} {env : Env} {msg : Down} {rest : List Down}
      (down : n.down.get i = msg :: rest)
      (ended : n.sess i = none ∨ (n.entry.get i).established = true) :
      Step n (.deliver i env) { n with down := n.down.set i rest }
  | established {i : Side} {env : Env} {rest : List Down} {s : Session}
      (down : n.down.get i = .status true :: rest) (sess : n.sess i = some s) :
      Step n (.deliver i env)
        (act (markEstablished { n with down := n.down.set i rest } i) i env s.onEstablished)
  | failed {i : Side} {env : Env} {rest : List Down} {s : Session}
      (down : n.down.get i = .status false :: rest) (sess : n.sess i = some s) :
      Step n (.deliver i env) (leave { n with down := n.down.set i rest } i [])
  | refused {i : Side} {env : Env} {s : Session} (sess : n.sess i = some s) :
      Step n (.start i env) (n.leave i [.close false])
  | closed {established : Bool} {s : Session} (sess : n.sess .owner = some s) :
      Step n .closeConnection (n.leave .owner (if established then [] else [.close false]))
  | dropped {i : Side} {msg : Up} {rest : List Up} (up : n.up.get i = msg :: rest)
      (gone : n.conn = false) : Step n (.serve i) { n with up := n.up.set i rest }
  | relayed {i : Side} {msg : Up} {rest : List Up} (up : n.up.get i = msg :: rest)
      (conn : n.conn = true) :
      Step n (.serve i) (relay { n with up := n.up.set i rest } i msg)
  | helloes {k : Nat} {i : Side} {addr : Addr} (hello : n.hellos[k]? = some (i, addr)) :
      Step n (.serveHello k) { n with
        hellos := n.hellos.eraseIdx k
        down := if n.conn then n.down.set i.other (n.down.get i.other ++ [.fast addr])
          else n.down }
  | losesHello {k : Nat} : Step n (.loseHello k) { n with hellos := n.hellos.eraseIdx k }
  | losesPing {k : Nat} : Step n (.losePing k) { n with pings := n.pings.eraseIdx k }
  | disconnects {i : Side} : Step n (.disconnect i) { n with
      conn := false
      down := if n.conn then n.down.set i.other (n.down.get i.other ++ [.status false])
        else n.down }

variable {n n' : State} {e : Event}

theorem leave_nil {i : Side} :
    n.leave i [] = { n with entry := n.entry.set i { n.entry.get i with rSess := none } } := by
  cases i <;> simp [leave]

theorem step_deliver {i : Side} {env : Env} (h : n.step (.deliver i env) = some n') :
    n.Step (.deliver i env) n' := by
  rw [step] at h
  split at h
  · cases h
  · rename_i msg rest hdown
    cases h
    unfold recv
    split
    · rename_i hnone
      exact .ignores hdown (Or.inl hnone)
    · rename_i s hsess
      cases msg with
      | ready =>
        dsimp only
        split
        · rename_i hest
          exact .ignores hdown (Or.inr hest)
        · rename_i hest
          exact .reads hdown hsess (Bool.eq_false_iff.mpr hest) .ready
      | next =>
        dsimp only
        split
        · rename_i hest
          exact .ignores hdown (Or.inr hest)
        · rename_i hest
          exact .reads hdown hsess (Bool.eq_false_iff.mpr hest) .next
      | fast addr =>
        dsimp only
        split
        · rename_i hest
          exact .ignores hdown (Or.inr hest)
        · rename_i hest
          exact .reads hdown hsess (Bool.eq_false_iff.mpr hest) .fast
      | status ok =>
        cases ok with
        | true => exact .established hdown hsess
        | false =>
          have hfailed : n.Step (.deliver i env) _ := .failed hdown hsess
          rw [leave_nil] at hfailed
          exact hfailed

theorem step_cases (h : n.step e = some n') : n.Step e n' := by
  cases e with
  | start i env =>
    obtain ⟨s, hsess, h⟩ := Option.bind_eq_some_iff.mp h
    split at h
    · cases h
    · rename_i hfresh
      split at h
      · rename_i out hout
        cases h
        exact .acts hsess (.start (Bool.eq_false_iff.mpr hfresh) hout)
      · cases h
        exact .refused hsess
  | granted i next env =>
    obtain ⟨s, hsess, h⟩ := Option.bind_eq_some_iff.mp h
    obtain ⟨out, hout, rfl⟩ := Option.map_eq_some_iff.mp h
    exact .acts hsess (.granted hout)
  | helloSent i ok =>
    obtain ⟨s, hsess, h⟩ := Option.bind_eq_some_iff.mp h
    obtain ⟨hguard, ⟨⟩⟩ := Option.ite_none_right_eq_some.mp h
    exact .acts hsess (.helloSent hguard)
  | checkStart i canReuse =>
    obtain ⟨s, hsess, h⟩ := Option.bind_eq_some_iff.mp h
    obtain ⟨hguard, ⟨⟩⟩ := Option.ite_none_right_eq_some.mp h
    exact .acts hsess (.checkStart hguard)
  | pingTimeout i env =>
    obtain ⟨s, hsess, h⟩ := Option.bind_eq_some_iff.mp h
    obtain ⟨hguard, ⟨⟩⟩ := Option.ite_none_right_eq_some.mp h
    exact .acts hsess (.pingTimeout hguard)
  | pingSent i ok =>
    obtain ⟨s, hsess, h⟩ := Option.bind_eq_some_iff.mp h
    obtain ⟨hguard, ⟨⟩⟩ := Option.ite_none_right_eq_some.mp h
    exact .acts hsess (.pingSent hguard)
  | recvPing i src env =>
    obtain ⟨s, hsess, h⟩ := Option.bind_eq_some_iff.mp h
    obtain ⟨addr, -, h⟩ := Option.bind_eq_some_iff.mp h
    obtain ⟨hguard, ⟨⟩⟩ := Option.ite_none_right_eq_some.mp h
    exact .acts hsess (.recvPing hguard.1)
  | readError i =>
    obtain ⟨s, hsess, h⟩ := Option.bind_eq_some_iff.mp h
    obtain ⟨hguard, ⟨⟩⟩ := Option.ite_none_right_eq_some.mp h
    exact .acts hsess (.readError hguard)
  | deliver i env => exact step_deliver h
  | closeConnection =>
    obtain ⟨s, hsess, rfl⟩ := Option.map_eq_some_iff.mp h
    exact .closed hsess
  | serve i =>
    rw [step] at h
    split at h
    · cases h
    · rename_i msg rest hup
      cases h
      by_cases hconn : n.conn = true
      · exact .relayed hup hconn
      · unfold relay
        rw [if_neg hconn]
        exact .dropped hup (Bool.eq_false_iff.mpr hconn)
  | serveHello k =>
    obtain ⟨⟨i, addr⟩, hk, rfl⟩ := Option.map_eq_some_iff.mp h
    exact .helloes hk
  | loseHello k =>
    cases h
    exact .losesHello
  | losePing k =>
    cases h
    exact .losesPing
  | disconnect i =>
    cases h
    exact .disconnects

end State

end DTun.Node.FastSession
