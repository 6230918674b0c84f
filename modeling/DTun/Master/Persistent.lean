import DTun.Master.Server

/-!
# One persistent session per node

`onSessionStartPersistent` removes the first other persistent session of the node that it
meets and then stops. That is enough because there is never more than one: sessions may say
`HELLO`, `HELLO_FAST`, `HELLO_SYMM` and `HELLO_PROBE` as often as they like and with any
node id. So the pointer order of `sessions_` does not show in `findPersistentSession`.
-/

namespace DTun.Master.Server

open DTun.Lib DTun.Lib.Runs

variable {st st' : Server} {s : Nat} {e : Event} {es : List Event}

/-- Session `s` is the persistent session of node `nodeId`, as far as it says itself. -/
def Serves (st : Server) (nodeId s : Nat) : Prop :=
  (st.session s).nodeId = nodeId ∧ (st.session s).type = .persistent

instance (st : Server) (nodeId s : Nat) : Decidable (st.Serves nodeId s) :=
  inferInstanceAs (Decidable (_ ∧ _))

def PersistentUnique (st : Server) : Prop :=
  ∀ nodeId, ∀ s ∈ st.sessions, ∀ t ∈ st.sessions,
    st.Serves nodeId s → st.Serves nodeId t → s = t

/-- No new persistent session. -/
theorem PersistentUnique.of_old (h : PersistentUnique st)
    (hold : ∀ t ∈ st'.sessions, (st'.session t).type = .persistent →
      t ∈ st.sessions ∧ st'.session t = st.session t) : PersistentUnique st' := by
  intro nodeId s hs t ht hss hst
  obtain ⟨hs', hseq⟩ := hold s hs hss.2
  obtain ⟨ht', hteq⟩ := hold t ht hst.2
  refine h nodeId s hs' t ht' ?_ ?_
  · rw [Serves, ← hseq]
    exact hss
  · rw [Serves, ← hteq]
    exact hst

theorem removeSession_session (st : Server) (s : Nat) :
    (removeSession st s).1.session = st.session := by
  unfold removeSession
  split <;> rfl

theorem removeSession_unique (h : PersistentUnique st) (s : Nat) :
    PersistentUnique (removeSession st s).1 := by
  refine h.of_old fun t ht _ => ?_
  rw [removeSession_sessions] at ht
  exact ⟨(List.mem_filter.mp ht).1, by rw [removeSession_session]⟩

/-- Only session `s` has changed, and no other session has its node id. -/
theorem PersistentUnique.of_single (h : PersistentUnique st)
    (hold : ∀ t ∈ st'.sessions, t ≠ s → t ∈ st.sessions ∧ st'.session t = st.session t)
    (hgone : ∀ t ∈ st'.sessions, t ≠ s → ¬ st'.Serves (st'.session s).nodeId t) :
    PersistentUnique st' := by
  intro nodeId a ha b hb hsa hsb
  by_cases has : a = s <;> by_cases hbs : b = s
  · rw [has, hbs]
  · subst has
    rw [← hsa.1] at hsb
    exact absurd hsb (hgone b hb hbs)
  · subst hbs
    rw [← hsb.1] at hsa
    exact absurd hsa (hgone a ha has)
  · obtain ⟨ha', haeq⟩ := hold a ha has
    obtain ⟨hb', hbeq⟩ := hold b hb hbs
    refine h nodeId a ha' b hb' ?_ ?_
    · rw [Serves, ← haeq]
      exact hsa
    · rw [Serves, ← hbeq]
      exact hsb

/-- After `HELLO` the session is the only one of its node. -/
theorem onSessionStartPersistent_unique (h : PersistentUnique st) (s : Nat) (sess : Session) :
    PersistentUnique (onSessionStartPersistent (st.setSession s sess) s).1 := by
  have hother : ∀ {t}, t ≠ s → (st.setSession s sess).session t = st.session t :=
    fun hne => Function.update_of_ne hne _ _
  unfold onSessionStartPersistent
  split
  · rename_i other hfind
    have hp := List.find?_some hfind
    simp only [decide_eq_true_eq] at hp
    obtain ⟨hnode, htype, hne⟩ := hp
    rw [removeSession_persistent htype]
    refine h.of_single (fun t ht hts => ⟨(List.mem_filter.mp ht).1, hother hts⟩) ?_
    intro t ht hts hserves
    -- the node had one session before, and that is the one removed
    have hsame : t = other := by
      refine h ((st.setSession s sess).session s).nodeId t (List.mem_filter.mp ht).1 other
        (List.mem_of_find?_eq_some hfind) ?_ ?_
      · rw [Serves, ← hother hts]
        exact hserves
      · rw [Serves, ← hother hne]
        exact ⟨hnode, htype⟩
    simpa [hsame] using (List.mem_filter.mp ht).2
  · rename_i hfind
    refine h.of_single (fun t ht hts => ⟨ht, hother hts⟩) ?_
    intro t ht hts hserves
    have hnot := List.find?_eq_none.mp hfind t ht
    simp only [decide_eq_true_eq] at hnot
    exact hnot ⟨hserves.1, hserves.2, hts⟩

/-- A session that is not persistent now. -/
theorem setSession_unique (h : PersistentUnique st) {sess : Session}
    (htype : sess.type ≠ .persistent) : PersistentUnique (st.setSession s sess) := by
  refine h.of_old fun t ht hpers => ?_
  have hne : t ≠ s := by
    rintro rfl
    simp only [setSession, Function.update_self] at hpers
    exact htype hpers
  exact ⟨ht, Function.update_of_ne hne _ _⟩

theorem onMessage_unique (h : PersistentUnique st) (s : Nat) (m : UpMsg) :
    PersistentUnique (onMessage st s m).1 := by
  cases m with
  | hello nodeId ip port => exact onSessionStartPersistent_unique h s _
  | helloProbe => exact setSession_unique h (by simp)
  | helloFast nodeId connId => exact setSession_unique h (by simp)
  | helloSymm nodeId connId => exact setSession_unique h (by simp)
  | connCreate connId dstNodeId ip port bestEffort =>
    rcases onSessionConnCreate_cases st s connId dstNodeId ip port bestEffort with
      ⟨code, heq⟩ | ⟨d, srcMode, dstMode, _, _, _, _, -, -, heq⟩
    · rw [onMessage, heq]
      exact h
    · rw [onMessage, heq]
      exact h
  | connClose connId established =>
    rcases onSessionConnClose_cases st s connId established with
      ⟨_, heq⟩ | ⟨conn, peer, mode, _, _, heq⟩
    · rw [onMessage, heq]
      exact h
    · rw [onMessage, heq]
      exact h
  | ready connId => exact h
  | next connId => exact h

theorem step_unique (h : PersistentUnique st) (hs : step st e = some st') :
    PersistentUnique st' := by
  cases e with
  | accept s peerIp peerPort =>
    obtain ⟨_, he⟩ := Option.ite_none_left_eq_some.mp hs
    obtain rfl := Option.some.inj he
    refine h.of_old fun t ht hpers => ?_
    have hne : t ≠ s := by
      rintro rfl
      simp [onAccept, setSession] at hpers
    exact ⟨((List.mem_orderedInsert _).mp ht).resolve_left hne, onAccept_session_of_ne hne⟩
  | msg s m =>
    obtain rfl := Option.some.inj hs
    unfold recv
    split
    · exact onMessage_unique h s m
    · exact h
  | error s =>
    obtain rfl := Option.some.inj hs
    unfold onSessionError
    split
    · exact removeSession_unique h s
    · exact h

/-- A session that serves a node is found, in whatever order the sessions are searched. -/
theorem PersistentUnique.find_eq (h : PersistentUnique st) (nodeId : Nat) {order : List Nat}
    (hperm : order.Perm st.sessions) :
    order.find? (fun s => st.Serves nodeId s) = st.findPersistentSession nodeId := by
  cases hfind : st.findPersistentSession nodeId with
  | none =>
    rw [List.find?_eq_none]
    intro s hs
    exact List.find?_eq_none.mp hfind s (hperm.mem_iff.mp hs)
  | some a =>
    obtain ⟨hmem, hserves⟩ := findPersistentSession_some hfind
    cases hb : order.find? (fun s => st.Serves nodeId s) with
    | none =>
      refine absurd ?_ (List.find?_eq_none.mp hb a (hperm.mem_iff.mpr hmem))
      exact decide_eq_true hserves
    | some b =>
      have hbserves : st.Serves nodeId b := by simpa using List.find?_some hb
      have hbmem := hperm.mem_iff.mp (List.mem_of_find?_eq_some hb)
      rw [h nodeId b hbmem a hmem hbserves hserves]

/-- For every run of the server: two persistent sessions of one node are the same, and
`findPersistentSession` answers the same in whatever order it goes through `sessions_`. -/
theorem persistent_sessions_unique (hrun : Run es st) :
    (∀ s ∈ st.sessions, ∀ t ∈ st.sessions, (st.session s).type = .persistent →
      (st.session t).type = .persistent → (st.session s).nodeId = (st.session t).nodeId → s = t) ∧
    ∀ (nodeId : Nat) (order : List Nat), order.Perm st.sessions →
      order.find? (fun s => (st.session s).nodeId = nodeId ∧ (st.session s).type = .persistent) =
        st.findPersistentSession nodeId := by
  have h0 : PersistentUnique init := fun _ _ hs => by cases hs
  have h : PersistentUnique st := exec_invariant (fun _ _ _ hi hs => step_unique hi hs) h0 hrun
  refine ⟨fun s hs t ht hps hpt hnode => ?_, fun nodeId order hperm => h.find_eq nodeId hperm⟩
  exact h _ s hs t ht ⟨rfl, hps⟩ ⟨hnode.symm, hpt⟩

/-- Session 2 takes over the node id of session 1. -/
theorem persistent_sessions_unique_takeover :
    ∃ st, Run [.accept 1 10 100, .accept 2 20 200, .msg 1 (.hello 7 0 0),
        .msg 2 (.hello 7 0 0)] st ∧
      st.sessions = [2] ∧
      (∀ s ∈ st.sessions, ∀ t ∈ st.sessions, (st.session s).type = .persistent →
        (st.session t).type = .persistent → (st.session s).nodeId = (st.session t).nodeId →
        s = t) := by
  exact exec_check_and (by decide) fun _ hrun _ => (persistent_sessions_unique hrun).1

end DTun.Master.Server
