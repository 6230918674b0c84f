import DTun.Node.FastSession.Handlers

/-!
# `ESTABLISHED` meets a usable session

`onEstablished` relies on a destination, a socket and a reservation while `callback_` is
set. That is so in every run in which the owner keeps its socket while the peer's success
is on its way, the peer accepts no ping once the owner has given its socket up, and a new
socket of the owner does not meet pings meant for an earlier one. In general it is not: at
TTL 65 the owner drops its socket without knowing whether its last pings have arrived.
-/

namespace DTun.Node.FastSession

open Lib.Runs

namespace State

variable {n n' : State} {e : Event}

instance (n : State) (i : Side) : Decidable (n.Reported i) :=
  inferInstanceAs (Decidable (_ ∨ _))

/-- The owner leaves its socket and goes on to the next attempt. -/
def givesUp (n : State) : Event → Bool
  | .granted .owner true _ => true
  | .pingTimeout .owner env => (n.sess .owner).any fun s =>
    s.next && s.ttl = 64 && s.stepIdx ≠ 2 && !s.bestEffort && env.ports
  | _ => false

/-- The peer gets a ping from its destination. -/
def accepts (n : State) : Event → Bool
  | .recvPing .peer src _ => (n.sess .peer).any fun s => s.dest = some src
  | _ => false

/-- The owner is told the peer's address and has a socket for it: both addresses. -/
def opens (n : State) : Event → Option (Addr × Addr)
  | .deliver .owner env =>
    match env.socket, n.down.owner with
    | some x, .fast addr :: _ => some (addr, x)
    | _, _ => none
  | _ => none

/-- The condition on a step and the state before it. -/
structure Orderly (n : State) (e : Event) : Prop where
  givesUp : n.givesUp e = true → ¬ n.Reported .peer
  accepts : n.accepts e = true → ∀ o ∈ n.sess .owner, o.pingConn.isSome = true
  opens : ∀ q ∈ n.opens e, q.1 ≠ q.2 ∧ q ∉ n.pings

instance (n : State) (e : Event) : Decidable (n.Orderly e) :=
  decidable_of_iff ((n.givesUp e = true → ¬ n.Reported .peer) ∧
      (n.accepts e = true → ∀ o ∈ n.sess .owner, o.pingConn.isSome = true) ∧
      ∀ q ∈ n.opens e, q.1 ≠ q.2 ∧ ∀ p ∈ n.pings, p ≠ q)
    ⟨fun h => ⟨h.1, h.2.1, fun q hq =>
        ⟨(h.2.2 q hq).1, fun hm => (h.2.2 q hq).2 q hm rfl⟩⟩,
      fun h => ⟨h.givesUp, h.accepts, fun q hq =>
        ⟨(h.opens q hq).1, fun _ hp heq => (h.opens q hq).2 (heq ▸ hp)⟩⟩⟩

/-- A session is dropped without success. -/
theorem Inv.leaves (h : n.Inv) {i : Side} {s : Session} (hs : n.sess i = some s) {ms : List Up}
    (hms : ∀ m ∈ ms, m = .close false) : (n.leave i ms).Inv := by
  have hover : (n.put i { n.entry.get i with rSess := none } ms [] []).Inv :=
    h.over hs (fun hm => Up.noConfusion (hms _ hm)) fun _ hm => by cases hms _ hm
  simpa only [put, leave, List.append_nil] using hover

theorem Inv.step_recvPing (h : n.Inv) {i : Side} {src : Addr} {env : Env}
    (hok : n.Orderly (.recvPing i src env)) (hs : n.step (.recvPing i src env) = some n') :
    n'.Inv := by
  obtain ⟨s, hsess, hs⟩ := Option.bind_eq_some_iff.mp hs
  obtain ⟨addr, haddr, hs⟩ := Option.bind_eq_some_iff.mp hs
  split at hs
  · rename_i hping
    cases hs
    refine h.recvPing hsess fun hdest => ?_
    cases i with
    | owner => exact h.canReport_owner hsess haddr hdest hping.2
    | peer =>
      refine h.canReport_peer fun o ho => hok.accepts ?_ o ho
      simp [accepts, hsess, hdest]
  · cases hs

/-- The status only counts while the server has the connection. -/
theorem Inv.markEstablished (h : n.Inv) (i : Side) (hconn : n.conn = false) :
    (n.markEstablished i).Inv := by
  cases i <;>
    exact ⟨h.owner, h.peer, h.turn, h.unasked, h.answered, h.pinged, h.noReady, h.closed,
      fun _ _ _ _ => hconn, h.ownerReport, h.peerReport⟩

theorem Inv.deliver_established (h : n.Inv) {i : Side} {s : Session} (hs : n.sess i = some s)
    {env : Env} (hconn : n.conn = false) : (n.act i env s.onEstablished).Inv := by
  simp only [Session.onEstablished]
  split
  · exact h.succeed hs fun hc => by cases hconn.symm.trans hc
  · exact h.routine hs (.of_same (.refl s))

/-- `READY` is the turn, and it is with the peer now. -/
theorem Inv.deliver_ready (h : n.Inv) {rest : List Down} {s : Session} {env : Env}
    (hdown : n.down.peer = .ready :: rest) (hs : n.sess .peer = some s) :
    Inv (act { n with down := n.down.set .peer rest } .peer env (s.onReady env)) := by
  have hpop := h.popDown (i := .peer) hdown
  have hturn := h.turn
  have hreadies : n.readies =
      State.readies { n with down := n.down.set .peer rest } + 1 := by
    simp only [readies, hdown, Pair.set_peer, List.count_cons_self]
    omega
  refine hpop.ready_peer hs ?_ ?_ (h.asked (by omega))
  · intro hr
    have hold : n.Reported .owner := hr.imp id fun hm => by
      change Down.status true ∈ n.down.peer
      rw [hdown]
      exact List.mem_cons_of_mem _ hm
    have := (h.ownerReport hold).2.1
    omega
  · change _ + n.preparing + n.helloes + n.fasts + n.opened = 0
    omega

/-- The peer's address is the turn, and it is with the owner now. -/
theorem Inv.deliver_fast (h : n.Inv) {rest : List Down} {s : Session} {env : Env} {addr : Addr}
    (hok : n.Orderly (.deliver .owner env)) (hdown : n.down.owner = .fast addr :: rest)
    (hs : n.sess .owner = some s) :
    Inv (act { n with down := n.down.set .owner rest } .owner env (s.onFast addr env)) := by
  have hpop := h.popDown (i := .owner) hdown
  have hturn := h.turn
  have hfasts : n.fasts = State.fasts { n with down := n.down.set .owner rest } + 1 := by
    simp only [fasts, hdown, Pair.set_owner]
    exact List.countP_cons_of_pos rfl
  refine hpop.fast_owner hs ?_ (h.asked (by omega) s hs) (h.answered (by omega)) fun x hx => ?_
  · change n.readies + n.preparing + n.helloes + _ + n.opened = 0
    omega
  · have hopens : n.opens (.deliver .owner env) = some (addr, x) := by
      simp only [opens, hx, hdown]
    obtain ⟨hne, hping⟩ := hok.opens _ hopens
    exact ⟨hne.symm, hping⟩

theorem Inv.acts (h : n.Inv) (hok : n.Orderly e) {i : Side} {s : Session} {env : Env} {out : Out}
    (hsess : n.sess i = some s) (hh : Handles i e none s env out)
    (hs : n.step e = some (n.act i env out)) : (n.act i env out).Inv := by
  cases hh with
  | start hstart hout =>
    cases i with
    | owner => exact h.start_owner hsess hstart hout
    | peer => exact h.start_peer hsess hstart hout
  | granted hout =>
    cases onGranted_cases hout with
    | first hq =>
      cases i with
      | owner => exact h.granted_owner hsess hq
      | peer => exact h.granted_peer hsess hq
    | next hq =>
      cases i with
      | owner => exact h.grantedNext_owner hsess hq (hok.givesUp rfl)
      | peer => cases hq.symm.trans (h.peer s hsess).next
  | helloSent => exact h.routine hsess (onHelloSend_routine s _)
  | checkStart hposted => exact h.routine hsess (onCheckStartTimeout_routine _ hposted)
  | pingTimeout hposted =>
    cases i with
    | owner =>
      refine h.pingTimeout_owner hsess hposted fun hnext httl hstep hbest hports => hok.givesUp ?_
      simp [givesUp, hsess, hnext, httl, hstep, hbest, hports]
    | peer =>
      refine h.routine hsess (onPingTimeout_routine hposted fun _ _ howner => ?_)
      cases howner.symm.trans (h.peer s hsess).owner
  | pingSent => exact h.routine hsess (onPingSend_routine s _)
  | recvPing => exact h.step_recvPing hok hs
  | readError => exact h.routine hsess (onRecvPing_routine (Or.inr (Or.inr (Or.inl rfl))))

theorem Inv.reads (h : n.Inv) {i : Side} {msg : Down} {rest : List Down} {s : Session} {env : Env}
    {out : Out} (hok : n.Orderly (.deliver i env)) (hdown : n.down.get i = msg :: rest)
    (hsess : n.sess i = some s) (hh : Handles i (.deliver i env) (some msg) s env out) :
    (act { n with down := n.down.set i rest } i env out).Inv := by
  cases hh with
  | ready =>
    cases i with
    | owner => exact absurd (by rw [← Pair.get_owner, hdown]; exact List.mem_cons_self) h.noReady.2
    | peer => exact h.deliver_ready hdown hsess
  | next => exact (h.popDown hdown).routine hsess (onNext_routine s)
  | fast =>
    cases i with
    | owner => exact h.deliver_fast hok hdown hsess
    | peer => exact (h.popDown hdown).fast_peer hsess _

theorem Inv.step (h : n.Inv) (hok : n.Orderly e) (hs : n.step e = some n') : n'.Inv := by
  cases step_cases hs with
  | acts hsess hh => exact h.acts hok hsess hh hs
  | reads hdown hsess _ hh => exact h.reads hok hdown hsess hh
  | ignores hdown => exact h.popDown hdown
  | @established i _ _ _ hdown hsess =>
    have hconn : n.conn = false := by
      cases i with
      | owner => exact h.closed (Or.inl (by rw [← Pair.get_owner, hdown]; simp))
      | peer => exact h.closed (Or.inr (by rw [← Pair.get_peer, hdown]; simp))
    refine ((h.popDown hdown).markEstablished i hconn).deliver_established ?_ hconn
    cases i <;> exact hsess
  | failed hdown hsess =>
    exact (h.popDown hdown).leaves hsess fun _ hm => absurd hm List.not_mem_nil
  | refused hsess => exact h.leaves hsess fun _ hm => List.mem_singleton.mp hm
  | closed hsess =>
    refine h.leaves hsess fun m hm => ?_
    split at hm
    · cases hm
    · exact List.mem_singleton.mp hm
  | dropped hup => exact h.popUp hup
  | relayed hup hconn => exact h.relays hup hconn
  | helloes hk => exact h.servesHello hk
  | losesHello => exact h.loseHello _
  | losesPing => exact h.losePing _
  | disconnects => exact h.disconnect _

theorem Run.inv {bestEffort : Bool} {es : List Event} (hrun : Run bestEffort es n)
    (hok : Along step Orderly (init bestEffort) es) : n.Inv :=
  exec_invariant_along (fun _ _ _ h hp hs => h.step hp hs) (inv_init bestEffort) hok hrun

/-- A report of success is in flight only towards a session that can use it. -/
theorem Inv.usable (h : n.Inv) {i : Side} {s : Session} (hmsg : .status true ∈ n.down.get i)
    (hs : n.sess i = some s) : s.Usable := by
  cases i with
  | owner => exact h.peerReport (Or.inr hmsg) s hs
  | peer => exact (h.ownerReport (Or.inr hmsg)).2.2 s hs

end State

/-- Whenever `ESTABLISHED` is the next message of a side whose `callback_` is set, the side has
a destination, a socket and a reservation. -/
theorem established_usable {bestEffort : Bool} {es : List Event} {n : State}
    (hrun : State.Run bestEffort es n)
    (hok : Along State.step State.Orderly (State.init bestEffort) es)
    {i : Side} {s : Session} {rest : List Down} (hmsg : n.down.get i = .status true :: rest)
    (hs : n.sess i = some s) : s.callback = true → s.Usable :=
  fun _ => (hrun.inv hok).usable (by rw [hmsg]; exact List.mem_cons_self) hs

/-- Both sides start, learn each other's address and begin to ping. The owner's first `READY`
is sent before `ready_` is set, so that it is sent a second time. -/
def meeting : List Event :=
  [.start .owner {}, .start .peer {}, .serve .owner, .deliver .peer { socket := some 20 },
    .serveHello 0, .deliver .owner {}, .serve .owner, .deliver .peer { socket := some 21 },
    .serveHello 0, .deliver .owner { socket := some 10 }, .serveHello 0, .deliver .peer {},
    .helloSent .owner true, .helloSent .peer true, .checkStart .owner true, .checkStart .peer true]

/-- Both sides send a ping, and each tells the other to go on. -/
def pingRound : List Event :=
  [.pingTimeout .owner {}, .pingSent .owner true, .serve .owner, .deliver .peer {},
    .pingTimeout .peer {}, .pingSent .peer true, .serve .peer, .deliver .owner {}]

/-- The peer gets a ping of the owner and reports success. -/
def pinged : List Event := [.pingTimeout .owner {}, .recvPing .peer 10 {}, .serve .peer]

/-- The peer reports while the owner still has its socket. -/
theorem established_usable_ping : ∃ n s, State.Run false (meeting ++ pinged) n ∧
    n.down.get .owner = [.status true] ∧ n.sess .owner = some s ∧ s.callback = true ∧
    s.Usable := by
  have hok : Along State.step State.Orderly (State.init false) (meeting ++ pinged) := by
    decide +kernel
  have hex : ∃ n, State.Run false (meeting ++ pinged) n ∧ n.down.get .owner = [.status true] ∧
      ∃ s ∈ n.sess .owner, s.callback = true := exec_check (by decide +kernel)
  obtain ⟨n, hrun, hmsg, s, hs, hcallback⟩ := hex
  exact ⟨n, s, hrun, hmsg, hs, hcallback, established_usable hrun hok hmsg hs hcallback⟩

/-- All pings of the first attempt are slow. One of the owner's arrives when the owner has
just dropped its socket, and the peer reports success. -/
theorem established_unusable : ∃ n s,
    State.Run false (meeting ++ (List.replicate 62 pingRound).flatten ++ pinged) n ∧
    n.down.get .owner = [.status true] ∧ n.sess .owner = some s ∧ s.callback = true ∧
    s.pingConn = none ∧ ¬ s.Usable := by
  have hex : ∃ n, State.Run false (meeting ++ (List.replicate 62 pingRound).flatten ++ pinged) n ∧
      n.down.get .owner = [.status true] ∧
      ∃ s ∈ n.sess .owner, s.callback = true ∧ s.pingConn = none := exec_check (by decide +kernel)
  obtain ⟨n, hrun, hmsg, s, hs, hcallback, hnone⟩ := hex
  refine ⟨n, s, hrun, hmsg, hs, hcallback, hnone, fun hu => ?_⟩
  have hopen := hu.2.1
  rw [hnone] at hopen
  cases hopen

end DTun.Node.FastSession
