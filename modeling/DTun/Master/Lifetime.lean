import DTun.Master.Server

/-!
# The life of a connection at the server

What the server does about one connection id, seen from outside: which events make, keep
and end its entry in `conns_`, and what is sent about it meanwhile. `Life` is the whole law
for one step; it holds of every step of every run, whatever the sessions send and however
often they change their id and type.
-/

namespace DTun.Master.Server

open DTun.Lib DTun.Lib.Runs

variable {st st' : Server} {s : Nat} {c connId : ConnId} {e : Event} {es : List Event}
  {sends : Sends}

/-- The connection that a message is about. -/
def subject : DownMsg → Option ConnId
  | .probe _ _ => none
  | .conn connId _ _ _ _ _ _ => some connId
  | .connStatus connId _ _ _ => some connId
  | .fast connId _ _ => some connId
  | .symm connId _ _ => some connId
  | .ready connId => some connId
  | .next connId => some connId

/-- What is sent about `c`. -/
def about (c : ConnId) (sends : Sends) : Sends := sends.filter (fun x => subject x.2 = some c)

/-- The endpoints of `c`, if it has an entry. -/
def ends (st : Server) (c : ConnId) : Option (Nat × Nat) :=
  (st.conns.find? c).map fun conn => (conn.srcSess, conn.dstSess)

/-- `READY`, `NEXT` or `CONN_CLOSE` about `c`. -/
def Concerns (c : ConnId) (m : UpMsg) : Prop :=
  m = .ready c ∨ m = .next c ∨ ∃ established, m = .connClose c established

/-- A step together with what is sent. -/
def stepSends (st : Server) : Event → Option (Server × Sends)
  | .accept s peerIp peerPort =>
    if st.alive s then none else some (onAccept st s peerIp peerPort, [])
  | .msg s m => some (recv st s m)
  | .error s => some (onSessionError st s)

theorem step_eq (st : Server) (e : Event) : step st e = (stepSends st e).map Prod.fst := by
  cases e with
  | accept s peerIp peerPort =>
    rw [step, stepSends]
    split <;> rfl
  | msg s m => rfl
  | error s => rfl

/-- One step in the life of `c`: the endpoints before, the event, what is sent about `c`, and
the endpoints after. `nodeId` gives the node ids of the sessions before the step. -/
inductive Life (nodeId : Nat → Nat) (c : ConnId) :
    Option (Nat × Nat) → Event → Sends → Option (Nat × Nat) → Prop where
  /-- Without an entry nothing is sent. -/
  | absent {e : Event} : Life nodeId c none e [] none
  /-- A session may ask for a connection only under its own node id. -/
  | created {s d dstNodeId ip port srcIp dstIp serial : Nat} {bestEffort : Bool}
      {srcMode dstMode : RMode} (hnode : nodeId s = c.nodeId) (hne : s ≠ d) :
    Life nodeId c none (.msg s (.connCreate c dstNodeId ip port bestEffort))
      [(s, .connStatus c .pending srcMode dstIp),
        (d, .conn c ip port dstMode srcIp bestEffort serial)]
      (some (s, d))
  /-- The error reply to the session's own request. -/
  | refused {ends : Option (Nat × Nat)} {s dstNodeId ip port code : Nat} {bestEffort : Bool}
      {mode : RMode} :
    Life nodeId c ends (.msg s (.connCreate c dstNodeId ip port bestEffort))
      [(s, .connStatus c (.err code) mode 0)] ends
  /-- The entry stays: nothing but signals for the rendezvous sessions, to the endpoints. -/
  | kept {a b : Nat} {e : Event} {sends : Sends}
      (hto : ∀ x ∈ sends, (x.1 = a ∨ x.1 = b) ∧ x.2.isSignal = true) :
    Life nodeId c (some (a, b)) e sends (some (a, b))
  /-- One endpoint closes the connection, the other one is told. -/
  | closed {a b s p : Nat} {established : Bool} {mode : RMode}
      (hends : (s = a ∧ p = b) ∨ (s = b ∧ p = a)) (hne : p ≠ s) :
    Life nodeId c (some (a, b)) (.msg s (.connClose c established))
      [(p, .connStatus c (if established then .established else Status.errCanceled) mode 0)] none
  /-- One endpoint is lost, or replaced by a new session of its node; the other one is told. -/
  | lost {a b s p : Nat} {e : Event} {mode : RMode}
      (hends : (s = a ∧ p = b) ∨ (s = b ∧ p = a)) (hne : p ≠ s)
      (hcause : e = .error s ∨
        ∃ t ip port, t ≠ s ∧ e = .msg t (.hello (nodeId s) ip port)) :
    Life nodeId c (some (a, b)) e [(p, .connStatus c .errCanceled mode 0)] none

def EndsDiffer (st : Server) : Prop :=
  ∀ c conn, st.conns.find? c = some conn → conn.srcSess ≠ conn.dstSess

theorem onMessage_endsDiffer (h : EndsDiffer st) (s : Nat) (m : UpMsg) :
    EndsDiffer (onMessage st s m).1 := by
  have hserved := onMessage_served st s m
  generalize (onMessage st s m).1 = st', (onMessage st s m).2 = sends at hserved ⊢
  cases hserved with
  | greeted => exact h
  | replaced => exact fun c conn hc => h c conn ((OrderedMap.find?_filter_eq_some _ _).mp hc).1
  | side => exact h
  | refused => exact h
  | created hnode hne _ hdst =>
    intro c conn hc
    simp only [OrderedMap.find?_insert] at hc
    split at hc
    · obtain rfl := Option.some.inj hc
      intro hsame
      obtain ⟨_, hid, _⟩ := findPersistentSession_some hdst
      dsimp only at hsame
      rw [← hsame] at hid
      exact hne (hid.symm.trans hnode)
    · exact h c conn hc
  | closed =>
    intro c conn hc
    simp only [OrderedMap.find?_erase] at hc
    split at hc
    · cases hc
    · exact h c conn hc
  | missed => exact h
  | relayed => exact h

theorem step_endsDiffer (h : EndsDiffer st) (hs : step st e = some st') : EndsDiffer st' := by
  cases e with
  | accept s peerIp peerPort =>
    obtain ⟨_, he⟩ := Option.ite_none_left_eq_some.mp hs
    obtain rfl := Option.some.inj he
    exact h
  | msg s m =>
    obtain rfl := Option.some.inj hs
    unfold recv
    split
    · exact onMessage_endsDiffer h s m
    · exact h
  | error s =>
    obtain rfl := Option.some.inj hs
    exact fun c conn hc => h c conn ((onSessionError_spec st s).2.2.1 c conn hc)

theorem endsDiffer_of_run (hrun : Run es st) : EndsDiffer st :=
  exec_invariant (fun _ _ _ hi hs => step_endsDiffer hi hs) (fun _ _ hc => by cases hc) hrun

theorem about_eq_nil (h : ∀ x ∈ sends, subject x.2 ≠ some c) : about c sends = [] := by
  rw [about, List.filter_eq_nil_iff]
  exact fun x hx => by simpa using h x hx

theorem about_eq_self (h : ∀ x ∈ sends, subject x.2 = some c) : about c sends = sends := by
  rw [about, List.filter_eq_self]
  exact fun x hx => by simpa using h x hx

/-- `removeSession` sends one message about each entry of the session. -/
theorem about_cancel (st : Server) (s : Nat) (c : ConnId) :
    about c (st.conns.entries.flatMap (cancelSend s)) =
      (st.conns.find? c).elim [] fun conn => cancelSend s (c, conn) := by
  have hsubject : ∀ en : ConnId × Conn, ∀ x ∈ cancelSend s en, subject x.2 = some en.1 := by
    intro en x hx
    simp only [cancelSend] at hx
    split at hx
    · rw [List.mem_singleton.mp hx]
      rfl
    split at hx
    · rw [List.mem_singleton.mp hx]
      rfl
    · cases hx
  have hfilter : ∀ en : ConnId × Conn, about c (cancelSend s en) =
      if en.1 = c then cancelSend s en else [] := by
    intro en
    split
    · rename_i heq
      exact about_eq_self fun x hx => heq ▸ hsubject en x hx
    · rename_i hne
      exact about_eq_nil fun x hx hx' => hne (Option.some.inj ((hsubject en x hx).symm.trans hx'))
  have hentries : ∀ l : List (ConnId × Conn), about c (l.flatMap (cancelSend s)) =
      (l.filter (fun en => decide (en.1 = c))).flatMap (cancelSend s) := by
    intro l
    induction l with
    | nil => rfl
    | cons en rest ih =>
      have happend : about c ((en :: rest).flatMap (cancelSend s)) =
          about c (cancelSend s en) ++ about c (rest.flatMap (cancelSend s)) := by
        rw [List.flatMap_cons, about, List.filter_append]
        rfl
      rw [happend, hfilter, ih]
      by_cases hk : en.1 = c
      · rw [if_pos hk, List.filter_cons_of_pos (by simp [hk]), List.flatMap_cons]
      · rw [if_neg hk, List.filter_cons_of_neg (by simp [hk]), List.nil_append]
  rw [hentries, OrderedMap.filter_entries_key _ c decide_eq_true_iff]
  cases st.conns.find? c with
  | none => rfl
  | some conn => simp

/-- A step that does not touch the entry and sends only signals about it, to its ends. -/
theorem Life.of_frame {nodeId : Nat → Nat} (hends : st'.ends c = st.ends c)
    (hto : ∀ x ∈ about c sends, ∃ conn, st.conns.find? c = some conn ∧ conn.has x.1 = true ∧
      x.2.isSignal = true) :
    Life nodeId c (st.ends c) e (about c sends) (st'.ends c) := by
  rw [hends]
  cases hfind : st.conns.find? c with
  | none =>
    have hnil : about c sends = [] := by
      refine List.eq_nil_iff_forall_not_mem.mpr fun x hx => ?_
      obtain ⟨conn, hconn, _⟩ := hto x hx
      cases hfind.symm.trans hconn
    rw [hnil, ends, hfind]
    exact .absent
  | some conn =>
    rw [ends, hfind]
    refine .kept fun x hx => ?_
    obtain ⟨conn', hconn', hhas, hsignal⟩ := hto x hx
    obtain rfl := Option.some.inj (hfind.symm.trans hconn')
    exact ⟨(has_iff.mp hhas).imp Eq.symm Eq.symm, hsignal⟩

theorem Life.of_silent {nodeId : Nat → Nat} (hends : st'.ends c = st.ends c)
    (hnil : about c sends = []) : Life nodeId c (st.ends c) e (about c sends) (st'.ends c) := by
  refine .of_frame hends fun x hx => ?_
  rw [hnil] at hx
  cases hx

/-- One signal about `connId` to one of its ends. -/
theorem Life.of_signal {nodeId : Nat → Nat} {conn : Conn} {p : Nat} {msg : DownMsg}
    (hends : st'.ends c = st.ends c) (hconn : st.conns.find? connId = some conn)
    (hp : conn.has p = true) (hsubject : subject msg = some connId)
    (hsignal : msg.isSignal = true) :
    Life nodeId c (st.ends c) e (about c [(p, msg)]) (st'.ends c) := by
  refine .of_frame hends fun x hx => ?_
  obtain ⟨hx, hc⟩ := List.mem_filter.mp hx
  obtain rfl := List.mem_singleton.mp hx
  obtain rfl : connId = c := Option.some.inj (hsubject.symm.trans (of_decide_eq_true hc))
  exact ⟨conn, hconn, hp, hsignal⟩

/-- A persistent session is removed. -/
theorem Life.of_removed {nodeId : Nat → Nat} {other : Nat} (hdiffer : EndsDiffer st)
    (hcause : e = .error other ∨
      ∃ t ip port, t ≠ other ∧ e = .msg t (.hello (nodeId other) ip port)) :
    Life nodeId c (st.ends c) e (about c (st.conns.entries.flatMap (cancelSend other)))
      (((st.conns.filter fun _ conn => !conn.has other).find? c).map
        fun conn => (conn.srcSess, conn.dstSess)) := by
  rw [about_cancel, OrderedMap.find?_filter]
  cases hfind : st.conns.find? c with
  | none =>
    rw [ends, hfind]
    exact .absent
  | some conn =>
    have hne := hdiffer c conn hfind
    rw [ends, hfind]
    simp only [Option.elim_some, Option.map_some, cancelSend, Option.filter_some]
    by_cases hsrc : conn.srcSess = other
    · rw [if_pos hsrc, if_neg (by simp [Conn.has, hsrc])]
      exact .lost (Or.inl ⟨hsrc.symm, rfl⟩) (hsrc ▸ hne.symm) hcause
    · rw [if_neg hsrc]
      by_cases hdst : conn.dstSess = other
      · rw [if_pos hdst, if_neg (by simp [Conn.has, hdst])]
        exact .lost (Or.inr ⟨hdst.symm, rfl⟩) (hdst ▸ hne) hcause
      · rw [if_neg hdst, if_pos (by simp [Conn.has, hsrc, hdst])]
        exact .kept (fun _ hx => by cases hx)

theorem onMessage_life (hdiffer : EndsDiffer st) (s : Nat) (m : UpMsg) (c : ConnId) :
    Life (fun t => (st.session t).nodeId) c (st.ends c) (.msg s m) (about c (onMessage st s m).2)
      ((onMessage st s m).1.ends c) := by
  cases m with
  | hello nodeId ip port =>
    simp only [onMessage]
    generalize hsess : ({ st.session s with type := _, nodeId := _, symm := _ } : Session) = sess
    have hnode : sess.nodeId = nodeId := by rw [← hsess]
    rcases onSessionStartPersistent_cases (st.setSession s sess) s with
      heq | ⟨other, _, hne, hsame, hpers, heq⟩
    · rw [heq]
      exact .of_silent rfl rfl
    · rw [heq, removeSession_persistent hpers]
      simp only [setSession, Function.update_of_ne hne, Function.update_self] at hsame
      refine Life.of_removed hdiffer (Or.inr ⟨s, ip, port, hne.symm, ?_⟩)
      rw [hsame, hnode]
  | helloProbe => exact .of_silent rfl rfl
  | helloFast nodeId connId =>
    simp only [onMessage, onSessionHelloFast]
    rcases relayHello_cases (st.setSession s { st.session s with type := .fast, nodeId := nodeId })
      s connId .fast with heq | ⟨conn, p, ip, port, hconn, hp, heq⟩
    · rw [heq]
      exact .of_silent rfl rfl
    · rw [heq]
      exact .of_signal rfl hconn hp rfl rfl
  | helloSymm nodeId connId =>
    simp only [onMessage, onSessionHelloSymm]
    rcases relayHello_cases (st.setSession s { st.session s with type := .symm, nodeId := nodeId })
      s connId .symm with heq | ⟨conn, p, ip, port, hconn, hp, heq⟩
    · rw [heq]
      exact .of_silent rfl rfl
    · rw [heq]
      exact .of_signal rfl hconn hp rfl rfl
  | connCreate connId dstNodeId ip port bestEffort =>
    simp only [onMessage]
    by_cases hc : connId = c
    · subst hc
      rcases onSessionConnCreate_cases st s connId dstNodeId ip port bestEffort with
        ⟨code, heq⟩ | ⟨d, srcMode, dstMode, hnode, hdst, hnone, hfind, -, -, heq⟩
      · rw [heq, about_eq_self (by simp [subject])]
        exact .refused
      · rw [heq, about_eq_self (by simp [subject]), ends, ends, hnone, OrderedMap.find?_insert_self]
        refine .created hnode ?_
        rintro rfl
        exact hdst ((findPersistentSession_some hfind).2.1.symm.trans hnode)
    · rcases onSessionConnCreate_cases st s connId dstNodeId ip port bestEffort with
        ⟨code, heq⟩ | ⟨d, srcMode, dstMode, _, _, _, _, -, -, heq⟩
      · rw [heq]
        exact .of_silent rfl (about_eq_nil (by simpa [subject] using hc))
      · rw [heq]
        refine .of_silent ?_ (about_eq_nil (by simpa [subject] using hc))
        rw [ends, ends, OrderedMap.find?_insert_of_ne _ (Ne.symm hc)]
  | connClose connId established =>
    simp only [onMessage]
    rcases onSessionConnClose_cases st s connId established with
      ⟨_, heq⟩ | ⟨conn, peer, mode, hconn, hpeer, heq⟩
    · rw [heq]
      exact .of_silent rfl rfl
    · rw [heq]
      by_cases hc : connId = c
      · subst hc
        have hne := hdiffer connId conn hconn
        rw [about_eq_self (by simp [subject]), ends, ends, hconn, OrderedMap.find?_erase_self]
        refine .closed hpeer ?_
        rcases hpeer with ⟨rfl, rfl⟩ | ⟨rfl, rfl⟩
        · exact hne.symm
        · exact hne
      · refine .of_silent ?_ (about_eq_nil (by simpa [subject] using hc))
        rw [ends, ends, OrderedMap.find?_erase_of_ne _ (Ne.symm hc)]
  | ready connId =>
    simp only [onMessage, onSessionReady]
    rcases relay_cases st s connId (.ready connId) with heq | ⟨conn, p, hconn, _, hp, heq⟩
    · rw [heq]
      exact .of_silent rfl rfl
    · rw [heq]
      exact .of_signal rfl hconn hp rfl rfl
  | next connId =>
    simp only [onMessage, onSessionNext]
    rcases relay_cases st s connId (.next connId) with heq | ⟨conn, p, hconn, _, hp, heq⟩
    · rw [heq]
      exact .of_silent rfl rfl
    · rw [heq]
      exact .of_signal rfl hconn hp rfl rfl

theorem stepSends_life (hdiffer : EndsDiffer st) (hs : stepSends st e = some (st', sends))
    (c : ConnId) :
    Life (fun t => (st.session t).nodeId) c (st.ends c) e (about c sends) (st'.ends c) := by
  cases e with
  | accept s peerIp peerPort =>
    obtain ⟨_, he⟩ := Option.ite_none_left_eq_some.mp hs
    cases he
    exact .of_silent rfl rfl
  | msg s m =>
    simp only [stepSends, recv, Option.some.injEq] at hs
    split at hs
    · have hlife := onMessage_life hdiffer s m c
      rw [hs] at hlife
      exact hlife
    · cases hs
      exact .of_silent rfl rfl
  | error s =>
    simp only [stepSends, onSessionError, Option.some.injEq] at hs
    split at hs
    · by_cases htype : (st.session s).type = .persistent
      · rw [removeSession_persistent htype] at hs
        cases hs
        exact Life.of_removed hdiffer (Or.inl rfl)
      · rw [removeSession_other htype] at hs
        cases hs
        exact .of_silent rfl rfl
    · cases hs
      exact .of_silent rfl rfl

/-- A session that is no endpoint cannot meddle with a connection. -/
theorem stranger_ignored {m : UpMsg} (hm : Concerns c m)
    (hstranger : ∀ conn, st.conns.find? c = some conn → conn.has s = false) :
    recv st s m = (st, []) := by
  have hrelay : ∀ msg, relay st s c msg = [] := by
    intro msg
    rcases relay_cases st s c msg with hnil | ⟨conn, p, hconn, hhas, _, _⟩
    · exact hnil
    · cases hhas.symm.trans (hstranger conn hconn)
  unfold recv
  split
  · rcases hm with rfl | rfl | ⟨established, rfl⟩
    · exact congrArg (Prod.mk st) (hrelay _)
    · exact congrArg (Prod.mk st) (hrelay _)
    · rcases onSessionConnClose_cases st s c established with
        ⟨_, heq⟩ | ⟨conn, peer, mode, hconn, hpeer, _⟩
      · exact heq
      · have hhas : conn.has s = true :=
          has_iff.mpr (hpeer.imp (fun h => h.1.symm) fun h => h.1.symm)
        cases hhas.symm.trans (hstranger conn hconn)
  · rfl

/-- In every run of the server, every step obeys the law of every connection, and `READY`,
`NEXT` and `CONN_CLOSE` of a session that is no endpoint do nothing at all. -/
theorem connection_lifetime (hrun : Run es st) (hstep : stepSends st e = some (st', sends))
    (c : ConnId) :
    Life (fun t => (st.session t).nodeId) c (st.ends c) e (about c sends) (st'.ends c) ∧
    ∀ s m, e = .msg s m → Concerns c m →
      (∀ a b, st.ends c = some (a, b) → s ≠ a ∧ s ≠ b) → st' = st ∧ sends = [] := by
  refine ⟨stepSends_life (endsDiffer_of_run hrun) hstep c, ?_⟩
  rintro s m rfl hm hends
  have hignored : recv st s m = (st, []) := by
    refine stranger_ignored hm fun conn hconn => ?_
    obtain ⟨hsrc, hdst⟩ := hends conn.srcSess conn.dstSess (by rw [ends, hconn]; rfl)
    simp [Conn.has, Ne.symm hsrc, Ne.symm hdst]
  simp only [stepSends, hignored, Option.some.injEq, Prod.mk.injEq] at hstep
  exact ⟨hstep.1.symm, hstep.2.symm⟩

/-- A connection is made and its source fails: the destination is told once. -/
theorem connection_lifetime_lost :
    ∃ st st' sends, Run [.accept 1 10 100, .accept 2 20 200, .msg 1 (.hello 1 0 0),
        .msg 2 (.hello 2 0 0), .msg 1 (.connCreate ⟨1, 1⟩ 2 0 0 false)] st ∧
      stepSends st (.error 1) = some (st', sends) ∧ st.ends ⟨1, 1⟩ = some (1, 2) ∧
      about ⟨1, 1⟩ sends = [(2, .connStatus ⟨1, 1⟩ .errCanceled .fast 0)] ∧
      Life (fun t => (st.session t).nodeId) ⟨1, 1⟩ (st.ends ⟨1, 1⟩) (.error 1)
        (about ⟨1, 1⟩ sends) (st'.ends ⟨1, 1⟩) := by
  obtain ⟨st, hst, hends, hsends⟩ : ∃ st, Run [.accept 1 10 100, .accept 2 20 200,
      .msg 1 (.hello 1 0 0), .msg 2 (.hello 2 0 0),
      .msg 1 (.connCreate ⟨1, 1⟩ 2 0 0 false)] st ∧ st.ends ⟨1, 1⟩ = some (1, 2) ∧
      about ⟨1, 1⟩ (onSessionError st 1).2 = [(2, .connStatus ⟨1, 1⟩ .errCanceled .fast 0)] :=
    exec_check (by decide)
  exact ⟨st, _, _, hst, rfl, hends, hsends, (connection_lifetime hst rfl ⟨1, 1⟩).1⟩

end DTun.Master.Server
