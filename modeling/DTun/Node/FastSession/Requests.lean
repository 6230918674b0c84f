import DTun.Node.FastSession.Lockstep

/-!
# What the attempts of a fast rendezvous cost

The `READY`s of the owner and the reservations of both sides are counted along a run, and
compared with the step indices. With best-effort reservations every attempt costs one
`READY` and one reservation on each side. Without, the owner's `start` asks the peer before
it has set `ready_`, so that the address of the peer makes it ask a second time: from then
on the peer is one attempt ahead.
-/

namespace DTun.Node.FastSession

open Lib.Runs

/-- Ports are only asked for by `start`, `onPingTimeout` and `onMsg`. -/
def Event.mayReserve : Event → Bool
  | .start .. => true
  | .pingTimeout .. => true
  | .deliver .. => true
  | _ => false

namespace State

variable {n n' : State} {i : Side} {e : Event} {s s' : Session}

/-- What the owner sends at the event. -/
def ownerSends (n : State) (e : Event) : List Up :=
  (n.step e).elim [] fun n' => n'.up.owner.drop n.up.owner.length

/-- The calls of `reserveFastPorts` and `reserveFastPortsBestEffort` of a side. -/
def reserves (i : Side) (n : State) (e : Event) : List Unit :=
  match n.sess i, e with
  | some s, .start j _ => if j = i then .replicate (s.reserves e none) () else []
  | some s, .pingTimeout j _ => if j = i then .replicate (s.reserves e none) () else []
  | some s, .deliver j _ =>
    if j = i ∧ (n.entry.get i).established = false then
      .replicate (s.reserves e (n.down.get i).head?) ()
    else []
  | _, _ => []

/-- How many `READY`s the owner has sent in the run. -/
def readiesSent (n : State) (es : List Event) : Nat := (trace step ownerSends n es).count .ready

/-- How many reservations the side has asked for in the run. -/
def reservations (n : State) (i : Side) (es : List Event) : Nat :=
  (trace step (reserves i) n es).length

/-- What a step does to the session of side `i`, if it is still there. -/
inductive Fate (n : State) (i : Side) (e : Event) (n' : State) : Session → Prop
  /-- Nothing, and the side sends nothing and asks for no ports. -/
  | same {s : Session} (sess : n.sess i = some s) (up : (n'.up.get i).Sublist (n.up.get i))
      (reserves : n.reserves i e = []) : Fate n i e n' s
  /-- A handler runs. -/
  | acts {s : Session} {m : Option Down} {ds : List Down} {env : Env} {out : Out}
      (sess : n.sess i = some s) (read : n.down.get i = m.toList ++ ds)
      (handles : Handles i e m s env out) (goes : out.done = none)
      (up : n'.up.get i = n.up.get i ++ out.sent)
      (reserves : (n.reserves i e).length = s.reserves e m) : Fate n i e n' out.sess

theorem reserves_self {env : Env} {out : Out} (hs : n.sess i = some s)
    (hh : Handles i e none s env out) : (n.reserves i e).length = s.reserves e none := by
  cases hh <;> simp [reserves, hs, Session.reserves]

theorem reserves_other {j : Side} {m : Option Down} {env : Env} {out : Out} (hj : j ≠ i)
    (hh : Handles j e m s env out) : n.reserves i e = [] := by
  cases hh <;> cases hsess : n.sess i <;> simp [reserves, hj, hsess]

theorem sess_act_self {env : Env} {out : Out} (h : (n.act i env out).sess i = some s') :
    out.done = none ∧ s' = out.sess ∧ (n.act i env out).up.get i = n.up.get i ++ out.sent := by
  cases hd : out.done with
  | none =>
    rw [act_of_none hd] at h ⊢
    refine ⟨rfl, ?_, Pair.get_set _ _ _⟩
    simp only [sess, put, Pair.get_set, Option.some.injEq] at h
    exact h.symm
  | some ok =>
    rw [act_of_some hd] at h
    simp only [sess, put, Pair.get_set] at h
    cases h

theorem act_other {j : Side} {env : Env} {out : Out} (hj : j ≠ i) :
    (n.act j env out).sess i = n.sess i ∧ (n.act j env out).up.get i = n.up.get i := by
  cases hd : out.done with
  | none =>
    rw [act_of_none hd]
    cases i <;> cases j <;>
      first
      | exact absurd rfl hj
      | exact ⟨rfl, rfl⟩
  | some ok =>
    rw [act_of_some hd]
    cases i <;> cases j <;>
      first
      | exact absurd rfl hj
      | exact ⟨rfl, rfl⟩

theorem leave_other {j : Side} {ms : List Up} (hj : j ≠ i) :
    (n.leave j ms).sess i = n.sess i ∧ (n.leave j ms).up.get i = n.up.get i := by
  cases i <;> cases j <;>
    first
    | exact absurd rfl hj
    | exact ⟨rfl, rfl⟩

theorem leave_self {ms : List Up} : (n.leave i ms).sess i = none := by
  cases i <;> rfl

/-- The server reads a message. -/
theorem relay_same {j : Side} {msg : Up} :
    (n.relay j msg).sess i = n.sess i ∧ (n.relay j msg).up = n.up := by
  unfold relay
  split
  · cases msg <;> exact ⟨rfl, rfl⟩
  · exact ⟨rfl, rfl⟩

theorem reserves_deliver {j : Side} {env : Env} (h : j ≠ i) :
    n.reserves i (.deliver j env) = [] := by
  cases hsess : n.sess i <;> simp [reserves, hsess, h]

theorem reserves_nil (h : e.mayReserve = false) : n.reserves i e = [] := by
  unfold reserves
  split <;>
    first
    | cases h
    | rfl

theorem deliver_other {j : Side} {env : Env} (hj : j ≠ i)
    (hs : n.step (.deliver j env) = some n') : n'.sess i = n.sess i ∧ n'.up.get i = n.up.get i := by
  cases step_deliver hs with
  | reads => exact act_other hj
  | ignores => exact ⟨rfl, rfl⟩
  | established =>
    refine ⟨(act_other hj).1.trans ?_, (act_other hj).2⟩
    cases i <;> cases j <;>
      first
      | exact absurd rfl hj
      | rfl
  | failed => exact leave_other hj
  | acts _ hh => cases hh

/-- A side that reads a message of the server. -/
theorem fate_deliver {env : Env} (hs : n.step (.deliver i env) = some n')
    (hs' : n'.sess i = some s') : n.Fate i (.deliver i env) n' s' := by
  cases step_deliver hs with
  | reads hdown hsess hpending hh =>
    obtain ⟨hd, rfl, hup⟩ := sess_act_self hs'
    refine .acts hsess (m := some _) hdown hh hd hup ?_
    simp [reserves, hsess, hpending, hdown]
  | ignores hdown hover =>
    refine .same hs' (.refl _) ?_
    rcases hover with hnone | hest
    · simp [reserves, hnone]
    · cases hsess : n.sess i <;> simp [reserves, hsess, hest]
  | established hdown hsess =>
    obtain ⟨hd, rfl, hup⟩ := sess_act_self hs'
    unfold Session.onEstablished at hd hup ⊢
    split at hd
    · cases hd
    · rename_i hcallback
      rw [if_neg hcallback] at hup ⊢
      refine .same hsess ?_ (by simp [reserves, hsess, hdown, Session.reserves])
      rw [hup, List.append_nil]
      exact .refl _
  | failed hdown => cases leave_self.symm.trans hs'
  | acts hsess hh => cases hh

theorem step_fate (hs : n.step e = some n') (hs' : n'.sess i = some s') : n.Fate i e n' s' := by
  have hother : n'.sess i = n.sess i ∧ (n'.up.get i).Sublist (n.up.get i) →
      n.reserves i e = [] → n.Fate i e n' s' :=
    fun hsame hres => .same (hsame.1 ▸ hs') hsame.2 hres
  by_cases hdeliver : ∃ j env, e = .deliver j env
  · obtain ⟨j, env, rfl⟩ := hdeliver
    by_cases hj : j = i
    · subst hj
      exact fate_deliver hs hs'
    · obtain ⟨hsame, hup⟩ := deliver_other hj hs
      exact hother ⟨hsame, hup ▸ .refl _⟩ (reserves_deliver hj)
  cases step_cases hs with
  | @acts j _ _ _ _ hsess hh =>
    by_cases hj : j = i
    · subst hj
      obtain ⟨hd, rfl, hup⟩ := sess_act_self hs'
      exact .acts hsess (m := none) rfl hh hd hup (reserves_self hsess hh)
    · obtain ⟨hsame, hup⟩ := act_other (n := n) hj
      exact hother ⟨hsame, hup ▸ .refl _⟩ (reserves_other hj hh)
  | @refused j _ =>
    by_cases hj : j = i
    · subst hj
      cases leave_self.symm.trans hs'
    · obtain ⟨hsame, hup⟩ := leave_other (n := n) hj
      refine hother ⟨hsame, hup ▸ .refl _⟩ ?_
      cases hsess : n.sess i <;> simp [reserves, hsess, hj]
  | closed =>
    by_cases hj : Side.owner = i
    · subst hj
      cases leave_self.symm.trans hs'
    · obtain ⟨hsame, hup⟩ := leave_other (n := n) hj
      exact hother ⟨hsame, hup ▸ .refl _⟩ (reserves_nil rfl)
  | dropped hup =>
    exact hother ⟨rfl, sublist_set (hup ▸ List.sublist_cons_self _ _) i⟩ (reserves_nil rfl)
  | relayed hup =>
    refine hother ⟨relay_same.1, ?_⟩ (reserves_nil rfl)
    rw [relay_same (i := i).2]
    exact sublist_set (hup ▸ List.sublist_cons_self _ _) i
  | helloes => exact hother ⟨rfl, .refl _⟩ (reserves_nil rfl)
  | losesHello => exact hother ⟨rfl, .refl _⟩ (reserves_nil rfl)
  | losesPing => exact hother ⟨rfl, .refl _⟩ (reserves_nil rfl)
  | disconnects => exact hother ⟨rfl, .refl _⟩ (reserves_nil rfl)
  | reads => exact absurd ⟨_, _, rfl⟩ hdeliver
  | ignores => exact absurd ⟨_, _, rfl⟩ hdeliver
  | established => exact absurd ⟨_, _, rfl⟩ hdeliver
  | failed => exact absurd ⟨_, _, rfl⟩ hdeliver

/-- Sessions do not come back. -/
theorem step_none (hs : n.step e = some n') (h : n.sess i = none) : n'.sess i = none := by
  refine Option.eq_none_iff_forall_ne_some.mpr fun s' hs' => ?_
  cases step_fate hs hs' with
  | same hsess => cases h.symm.trans hsess
  | acts hsess => cases h.symm.trans hsess

theorem ownerSends_eq (hs : n.step e = some n') :
    n.ownerSends e = n'.up.owner.drop n.up.owner.length := by
  rw [ownerSends, hs, Option.elim_some]

/-- The owner along a step. -/
theorem Turn.step_owner (h : n.Turn) (hs : n.step e = some n') (hs' : n'.sess .owner = some s') :
    ∃ s, n.sess .owner = some s ∧ s'.bestEffort = s.bestEffort ∧
      s'.asked = s.asked + (n.ownerSends e).count .ready ∧
      s'.reserved = s.reserved + (n.reserves .owner e).length := by
  rw [ownerSends_eq hs]
  cases step_fate hs hs' with
  | same hsess hup hres =>
    have hlen : n'.up.owner.length ≤ n.up.owner.length := hup.length_le
    refine ⟨s', hsess, rfl, ?_, by rw [hres]; rfl⟩
    rw [List.drop_eq_nil_of_le hlen]
    rfl
  | acts hsess hread hh hd hup hres =>
    have hasks := h.owner_asks hsess hread hh hd
    refine ⟨_, hsess, hasks.bestEffort, ?_, by rw [hres]; exact hasks.reserved⟩
    rw [show n'.up.owner = n.up.owner ++ _ from hup, List.drop_left]
    exact hasks.asked

/-- The peer along a step. -/
theorem Turn.step_peer (h : n.Turn) (hs : n.step e = some n') (hs' : n'.sess .peer = some s') :
    ∃ s, n.sess .peer = some s ∧ s'.reserved = s.reserved + (n.reserves .peer e).length := by
  cases step_fate hs hs' with
  | same hsess hup hres => exact ⟨s', hsess, by rw [hres]; rfl⟩
  | acts hsess hread hh hd hup hres =>
    refine ⟨_, hsess, ?_⟩
    rw [hres]
    exact (h.peer_answers hsess hread hh hd).reserved

variable {bestEffort : Bool} {es : List Event}

theorem readiesSent_snoc (h : Run bestEffort es n) (e : Event) :
    (init bestEffort).readiesSent (es ++ [e]) =
      (init bestEffort).readiesSent es + (n.ownerSends e).count .ready := by
  rw [readiesSent, readiesSent, trace_snoc _ h, List.count_append]

theorem reservations_snoc (h : Run bestEffort es n) (i : Side) (e : Event) :
    (init bestEffort).reservations i (es ++ [e]) =
      (init bestEffort).reservations i es + (n.reserves i e).length := by
  rw [reservations, reservations, trace_snoc _ h, List.length_append]

/-- The counts of a run, as the fields of the owner's session tell them. -/
theorem Run.owner_counts (h : Run bestEffort es n) :
    ∀ o, n.sess .owner = some o → o.bestEffort = bestEffort ∧
      (init bestEffort).readiesSent es = o.asked ∧
      (init bestEffort).reservations .owner es = o.reserved := by
  refine exec_induction (motive := fun es n => ∀ o, n.sess .owner = some o →
    o.bestEffort = bestEffort ∧ (init bestEffort).readiesSent es = o.asked ∧
      (init bestEffort).reservations .owner es = o.reserved) ?_ ?_ h
  · rintro _ ⟨⟩
    refine ⟨rfl, ?_, rfl⟩
    cases bestEffort <;> rfl
  · intro es m e n' hm ih hs o' ho'
    obtain ⟨o, ho, hbest, hasked, hres⟩ := (Run.turn hm).step_owner hs ho'
    obtain ⟨ihbest, ihasked, ihres⟩ := ih o ho
    rw [readiesSent_snoc hm, reservations_snoc hm, ihasked, ihres]
    exact ⟨hbest.trans ihbest, hasked.symm, hres.symm⟩

theorem Run.peer_counts (h : Run bestEffort es n) :
    ∀ p, n.sess .peer = some p → (init bestEffort).reservations .peer es = p.reserved := by
  refine exec_induction (motive := fun es n => ∀ p, n.sess .peer = some p →
    (init bestEffort).reservations .peer es = p.reserved) ?_ ?_ h
  · rintro _ ⟨⟩
    rfl
  · intro es m e n' hm ih hs p' hp'
    obtain ⟨p, hp, hres⟩ := (Run.turn hm).step_peer hs hp'
    rw [reservations_snoc hm, ih p hp, hres]

end State

theorem openSocket_sent (s : Session) (env : Env) : (s.openSocket env).sent = [] := by
  rcases openSocket_cases s env with ⟨t, ht⟩ | ⟨x, -, hout⟩
  · rw [ht]
    rfl
  · rw [hout]

theorem onPortReservation_sent (s : Session) (env : Env) (b : Bool) :
    .close b ∉ (s.onPortReservation env).sent := by
  have hcases := onPortReservation_cases s env
  generalize s.onPortReservation env = out at hcases ⊢
  cases hcases with
  | waits => exact List.not_mem_nil
  | asks | goesOn => simp [Session.nextAttempt]
  | opens =>
    rw [openSocket_sent]
    exact List.not_mem_nil

/-- While the session goes on, it sends no `CONN_CLOSE`. -/
theorem Handles.sent {i : Side} {e : Event} {m : Option Down} {s : Session} {env : Env} {out : Out}
    (hh : Handles i e m s env out) (b : Bool) : .close b ∉ out.sent := by
  cases hh with
  | start _ hout =>
    cases start_cases hout with
    | queued | waits | answerQueued => exact List.not_mem_nil
    | granted => simp
    | opens _ _ hsocket =>
      rw [hsocket, openSocket_sent]
      exact List.not_mem_nil
  | granted hout =>
    cases onGranted_cases hout with
    | first | next => exact onPortReservation_sent _ _ b
  | helloSent => exact fun hm => by cases (onHelloSend_routine _ _).sent _ hm
  | checkStart hposted => exact fun hm => by cases (onCheckStartTimeout_routine _ hposted).sent _ hm
  | pingTimeout =>
    have hcases := onPingTimeout_cases s env
    generalize s.onPingTimeout env = out at hcases ⊢
    cases hcases with
    | ended | waits | pings | gaveUp | queued | refused => exact List.not_mem_nil
    | granted => exact onPortReservation_sent _ _ b
  | pingSent => exact fun hm => by cases (onPingSend_routine _ _).sent _ hm
  | recvPing =>
    simp only [Session.onRecvPing]
    split
    · exact List.not_mem_nil
    · split <;> exact List.not_mem_nil
  | readError =>
    simp only [Session.onRecvPing]
    split <;> exact List.not_mem_nil
  | ready =>
    have hcases := onReady_cases s env
    generalize s.onReady env = out at hcases ⊢
    cases hcases with
    | early | queued | refused => exact List.not_mem_nil
    | granted => exact onPortReservation_sent _ _ b
  | next => exact List.not_mem_nil
  | fast =>
    simp only [Session.onFast]
    split
    · exact List.not_mem_nil
    · split
      · exact onPortReservation_sent _ _ b
      · exact List.not_mem_nil

namespace State

variable {n n' : State} {i : Side} {e : Event} {bestEffort : Bool} {es : List Event}

/-- A side reports the end of the rendezvous only when its session is over, and the server
gives up the connection only when it has such a report. -/
structure Served (n : State) : Prop where
  reported : ∀ i b, .close b ∈ n.up.get i → n.sess i = none
  conn : n.conn = false → ∃ i, n.sess i = none

theorem act_conn {env : Env} {out : Out} : (n.act i env out).conn = n.conn := by
  unfold act
  split <;> rfl

/-- The server gives up the connection when it reads a report or loses a side. -/
theorem step_conn (hs : n.step e = some n') (hc : n'.conn = false) :
    n.conn = false ∨ (∃ i b, .close b ∈ n.up.get i) ∨ ∃ i, e = .disconnect i := by
  cases step_cases hs with
  | acts => exact Or.inl (act_conn.symm.trans hc)
  | reads =>
    rw [act_conn] at hc
    exact Or.inl hc
  | ignores => exact Or.inl hc
  | established =>
    rw [act_conn] at hc
    exact Or.inl hc
  | failed => exact Or.inl hc
  | refused => exact Or.inl hc
  | closed => exact Or.inl hc
  | dropped _ hgone => exact Or.inl hgone
  | @relayed j msg _ hup hconn =>
    cases msg with
    | close b => exact Or.inr (Or.inl ⟨j, b, by rw [hup]; exact List.mem_cons_self⟩)
    | ready => simp [relay, hconn] at hc
    | next => simp [relay, hconn] at hc
  | helloes => exact Or.inl hc
  | losesHello => exact Or.inl hc
  | losesPing => exact Or.inl hc
  | disconnects => exact Or.inr (Or.inr ⟨_, rfl⟩)

theorem Served.step (h : n.Served) (hs : n.step e = some n') (he : ∀ i, e ≠ .disconnect i) :
    n'.Served := by
  constructor
  · intro i b hm
    refine Option.eq_none_iff_forall_ne_some.mpr fun s' hs' => ?_
    cases step_fate hs hs' with
    | same hsess hup => cases (h.reported i b (hup.subset hm)).symm.trans hsess
    | acts hsess _ hh _ hup =>
      rw [hup] at hm
      rcases List.mem_append.mp hm with hm | hm
      · cases (h.reported i b hm).symm.trans hsess
      · exact hh.sent b hm
  · intro hc
    rcases step_conn hs hc with hold | ⟨i, b, hm⟩ | ⟨i, hi⟩
    · obtain ⟨i, hnone⟩ := h.conn hold
      exact ⟨i, step_none hs hnone⟩
    · exact ⟨i, step_none hs (h.reported i b hm)⟩
    · exact absurd hi (he i)

theorem Run.served (h : Run bestEffort es n) (hes : ∀ i, .disconnect i ∉ es) : n.Served := by
  have hinit : (init bestEffort).Served := by
    refine ⟨?_, nofun⟩
    intro i b hm
    cases i <;> cases hm
  refine exec_invariant_along (P := fun _ e => ∀ i, e ≠ .disconnect i)
    (fun _ _ _ ha hp hb => ha.step hb hp) hinit ?_ h
  exact along_of_forall fun e he _ i hi => hes i (hi ▸ he)

/-- Each attempt has cost one `READY` and one reservation of each side, and the sides are at
the same attempt. The owner asks for the ports of the next attempt before it gives up the
one it is at. -/
structure InStep (n : State) (es : List Event) (o p : Session) : Prop where
  readies : n.readiesSent es = o.stepIdx + 1 ∨
    (n.readiesSent es = 0 ∧ o.portReservation ≠ .granted)
  stepIdx : p.stepIdx = o.stepIdx
  owner : n.reservations .owner es =
    o.stepIdx + 1 + (if o.portReservationNext = .null then 0 else 1)
  peer : n.reservations .peer es = n.readiesSent es

/-- What a started peer has read tells at which attempt it is. -/
theorem Answerer.stepIdx_eq {p : Session} (h : Answerer p) (hstarted : p.started = true) :
    p.stepIdx = p.got - 1 ∧ p.reserved = p.got := by
  by_cases hnull : p.portReservation = .null
  · simp [Session.got, Session.reserved, hstarted, hnull, h.idle hnull, h.next]
  · simp [Session.got, Session.reserved, hstarted, hnull, h.next]

theorem Run.inStep (h : Run true es n) (hes : ∀ i, .disconnect i ∉ es) (hready : n.readies = 0)
    {o p : Session} (ho : n.sess .owner = some o) (hp : n.sess .peer = some p)
    (hos : o.started = true) (hps : p.started = true) : InStep (init true) es o p := by
  have hturn := Run.turn h
  have hask := hturn.owner o ho
  obtain ⟨hbest, hasked, hres⟩ := Run.owner_counts h o ho
  have hconn : n.conn = true := by
    refine Bool.not_eq_false _ ▸ fun hc => ?_
    obtain ⟨i, hi⟩ := (Run.served h hes).conn hc
    cases i with
    | owner => cases hi.symm.trans ho
    | peer => cases hi.symm.trans hp
  have hcount := hturn.count hconn o p ho hp
  obtain ⟨hidx, hpres⟩ := Answerer.stepIdx_eq (hturn.peer p hp) hps
  have hsum : o.asked = o.stepIdx + o.ready.toNat := by simp [Session.asked, hbest]
  have hnull : o.portReservation ≠ .null := fun hn => by cases hos.symm.trans (hask.idle.mpr hn)
  refine ⟨?_, ?_, ?_, ?_⟩
  · rw [hasked, hsum]
    cases hr : o.ready with
    | true => exact Or.inl rfl
    | false =>
      refine Or.inr ⟨by rw [hask.first hr]; rfl, fun hg => ?_⟩
      cases hr.symm.trans (hask.granted hbest hg)
  · rw [hidx]
    cases hr : o.ready with
    | true =>
      rw [hr, Bool.toNat_true] at hsum
      omega
    | false =>
      rw [hr, hask.first hr, Bool.toNat_false] at hsum
      rw [hask.first hr]
      omega
  · rw [hres, Session.reserved, if_neg hnull]
  · rw [Run.peer_counts h p hp, hpres, hasked]
    omega

/-- Without best-effort reservations: both sides start, the owner has asked, the peer answers,
and the owner asks again. -/
def twice : List Event :=
  [.start .owner {}, .start .peer {}, .serve .owner, .deliver .peer { socket := some 1 },
    .serveHello 0, .deliver .owner {}, .serve .owner, .deliver .peer { socket := some 2 }]

theorem twice_connected (i : Side) : .disconnect i ∉ twice := by
  cases i <;> decide

theorem run_twice : ∃ n, Run false twice n ∧ n.readies = 0 ∧
    (n.sess .owner).any (fun o => o.started && o.stepIdx = 0) = true ∧
    (n.sess .peer).any (fun p => p.started && p.stepIdx = 1) = true :=
  exec_check (by decide +kernel)

theorem twice_out_of_step : ∃ n o p, Run false twice n ∧ n.readies = 0 ∧
    n.sess .owner = some o ∧ n.sess .peer = some p ∧ o.started = true ∧ p.started = true ∧
    o.stepIdx = 0 ∧ p.stepIdx = 1 := by
  obtain ⟨n, hrun, hready, howner, hpeer⟩ := run_twice
  obtain ⟨o, ho, ho'⟩ := (Option.any_eq_true _ _).mp howner
  obtain ⟨p, hp, hp'⟩ := (Option.any_eq_true _ _).mp hpeer
  simp only [Bool.and_eq_true, decide_eq_true_eq] at ho' hp'
  exact ⟨n, o, p, hrun, hready, ho, hp, ho'.1, hp'.1, ho'.2, hp'.2⟩

/-- Whenever no `READY` is in flight the two sides are in step, in all runs in which the server
loses no side, exactly with best-effort reservations. -/
theorem attempts_in_step_iff (bestEffort : Bool) :
    (∀ es n o p, Run bestEffort es n → (∀ i, .disconnect i ∉ es) → n.readies = 0 →
      n.sess .owner = some o → n.sess .peer = some p → o.started = true → p.started = true →
      InStep (init bestEffort) es o p) ↔ bestEffort = true := by
  constructor
  · intro hall
    refine Bool.not_eq_false _ ▸ fun hf => ?_
    subst hf
    obtain ⟨n, o, p, hrun, hready, ho, hp, hos, hps, hoi, hpi⟩ := twice_out_of_step
    have hidx := (hall twice n o p hrun twice_connected hready ho hp hos hps).stepIdx
    omega
  · rintro rfl es n o p hrun hes hready ho hp hos hps
    exact Run.inStep hrun hes hready ho hp hos hps

/-- The owner has sent two `READY`s for its first attempt, and the peer is at its second. -/
theorem attempt_asked_twice :
    ∃ es n o p, Run false es n ∧ (∀ i, .disconnect i ∉ es) ∧ n.readies = 0 ∧
      n.sess .owner = some o ∧ n.sess .peer = some p ∧ o.started = true ∧ p.started = true ∧
      o.stepIdx = 0 ∧ (init false).readiesSent es = 2 ∧ p.stepIdx = 1 ∧
      ¬ InStep (init false) es o p := by
  obtain ⟨n, o, p, hrun, hready, ho, hp, hos, hps, hoi, hpi⟩ := twice_out_of_step
  refine ⟨twice, n, o, p, hrun, twice_connected, hready, ho, hp, hos, hps, hoi, by decide +kernel,
    hpi, fun hstep => ?_⟩
  have hidx := hstep.stepIdx
  omega

end State

end DTun.Node.FastSession
