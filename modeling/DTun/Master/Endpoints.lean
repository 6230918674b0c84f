import DTun.Master.Server

/-!
# Connections and their endpoints

`conns_` should refer only to sessions that are still in `sessions_`. `removeSession`
closes the connections of a session only if it is persistent at that moment, while nothing
ties the right to create a connection to the session's type, and a later `HELLO_*` changes
the type. So the property holds along a run exactly when every session error hits a
session that is persistent or no endpoint.
-/

namespace DTun.Master.Server

open DTun.Lib DTun.Lib.Runs

variable {st st' : Server} {s : Nat} {e : Event} {es : List Event}

/-- Both endpoints of every connection are in `sessions_`. -/
def EndpointsIn (st : Server) : Prop :=
  ∀ c conn, st.conns.find? c = some conn →
    conn.srcSess ∈ st.sessions ∧ conn.dstSess ∈ st.sessions

/-- A session error hits a session that is persistent or an endpoint of nothing. -/
def ErrorOk (st : Server) : Event → Prop
  | .error s => (st.session s).type = .persistent ∨
      ∀ c conn, st.conns.find? c = some conn → conn.has s = false
  | _ => True

instance (st : Server) : (e : Event) → Decidable (ErrorOk st e)
  | .error s =>
    decidable_of_iff ((st.session s).type = .persistent ∨ ¬ st.conns.any (fun _ conn => conn.has s))
      (by simp [ErrorOk, OrderedMap.any_iff])
  | .accept _ _ _ | .msg _ _ => inferInstanceAs (Decidable True)

theorem EndpointsIn.mem_of_alive (h : EndpointsIn st) (ha : st.alive s = true) :
    s ∈ st.sessions := by
  rcases alive_iff.mp ha with hs | ⟨c, conn, hc, hhas⟩
  · exact hs
  · obtain ⟨hsrc, hdst⟩ := h c conn hc
    rcases has_iff.mp hhas with rfl | rfl
    · exact hsrc
    · exact hdst

/-- Removing a session keeps the property when no remaining connection has it. -/
theorem EndpointsIn.filter (h : EndpointsIn st) {conns : OrderedMap ConnId Conn}
    (hsub : ∀ c conn, conns.find? c = some conn →
      st.conns.find? c = some conn ∧ conn.has s = false) :
    EndpointsIn { st with sessions := st.sessions.filter (· ≠ s), conns := conns } := by
  intro c conn hc
  obtain ⟨hold, hhas⟩ := hsub c conn hc
  obtain ⟨hsrc, hdst⟩ := h c conn hold
  have hne : ¬ (conn.srcSess = s ∨ conn.dstSess = s) := by
    rw [← has_iff, hhas]
    exact Bool.false_ne_true
  exact ⟨List.mem_filter.mpr ⟨hsrc, by simpa using fun he => hne (Or.inl he)⟩,
    List.mem_filter.mpr ⟨hdst, by simpa using fun he => hne (Or.inr he)⟩⟩

theorem removeSession_endpoints (h : EndpointsIn st) (hok : ErrorOk st (.error s)) :
    EndpointsIn (removeSession st s).1 := by
  by_cases htype : (st.session s).type = .persistent
  · rw [removeSession_persistent htype]
    refine h.filter fun c conn hc => ?_
    rw [OrderedMap.find?_filter_eq_some] at hc
    exact ⟨hc.1, by simpa using hc.2⟩
  · rw [removeSession_other htype]
    exact h.filter fun c conn hc => ⟨hc, (hok.resolve_left htype) c conn hc⟩

theorem onMessage_endpoints (h : EndpointsIn st) (hs : s ∈ st.sessions) (m : UpMsg) :
    EndpointsIn (onMessage st s m).1 := by
  have hserved := onMessage_served st s m
  generalize (onMessage st s m).1 = st', (onMessage st s m).2 = sends at hserved ⊢
  cases hserved with
  | greeted => exact h
  | replaced =>
    -- the table of session objects is not part of the property
    refine h.filter fun c conn hc => ?_
    rw [OrderedMap.find?_filter_eq_some] at hc
    exact ⟨hc.1, by simpa using hc.2⟩
  | side => exact h
  | refused => exact h
  | created _ _ _ hdst =>
    intro c conn hc
    simp only [OrderedMap.find?_insert] at hc
    split at hc
    · obtain rfl := Option.some.inj hc
      exact ⟨hs, (findPersistentSession_some hdst).1⟩
    · exact h c conn hc
  | closed =>
    intro c conn hc
    simp only [OrderedMap.find?_erase] at hc
    split at hc
    · cases hc
    · exact h c conn hc
  | missed => exact h
  | relayed => exact h

theorem step_endpoints (h : EndpointsIn st) (hok : ErrorOk st e) (hs : step st e = some st') :
    EndpointsIn st' := by
  cases e with
  | accept s peerIp peerPort =>
    obtain ⟨_, he⟩ := Option.ite_none_left_eq_some.mp hs
    obtain rfl := Option.some.inj he
    intro c conn hc
    obtain ⟨hsrc, hdst⟩ := h c conn hc
    exact ⟨(List.mem_orderedInsert _).mpr (Or.inr hsrc),
      (List.mem_orderedInsert _).mpr (Or.inr hdst)⟩
  | msg s m =>
    obtain rfl := Option.some.inj hs
    unfold recv
    split
    · exact onMessage_endpoints h (h.mem_of_alive ‹_›) m
    · exact h
  | error s =>
    obtain rfl := Option.some.inj hs
    unfold onSessionError
    split
    · exact removeSession_endpoints h hok
    · exact h

/-- An error on an endpoint that is not persistent leaves its connection behind. -/
theorem step_orphans (hok : ¬ ErrorOk st e) (hs : step st e = some st') : ¬ EndpointsIn st' := by
  cases e with
  | accept => exact absurd trivial hok
  | msg => exact absurd trivial hok
  | error s =>
    obtain ⟨htype, hconn⟩ := not_or.mp hok
    simp only [not_forall, Bool.not_eq_false] at hconn
    obtain ⟨c, conn, hc, hhas⟩ := hconn
    have halive : st.alive s = true := alive_iff.mpr (Or.inr ⟨c, conn, hc, hhas⟩)
    obtain rfl := Option.some.inj hs
    simp only [onSessionError, halive, if_true, removeSession_other htype]
    intro hin
    obtain ⟨hsrc, hdst⟩ := hin c conn hc
    rcases has_iff.mp hhas with rfl | rfl
    · simpa using (List.mem_filter.mp hsrc).2
    · simpa using (List.mem_filter.mp hdst).2

/-- For every run of the server: after each of its events both endpoints of every
connection are in `sessions_` if and only if each session error among the events hits a
session that is then persistent or an endpoint of no connection. -/
theorem endpoints_live_iff (hrun : Run es st) :
    (∀ pre post m, es = pre ++ post → Run pre m → EndpointsIn m) ↔
      Along step ErrorOk init es := by
  have h0 : EndpointsIn init := by
    intro c conn hc
    cases hc
  refine invariant_iff_along (fun m e m' hm hstep => ⟨fun hm' => ?_, fun hok => ?_⟩) h0 hrun
  · by_contra hbad
    exact step_orphans hbad hstep hm'
  · exact step_endpoints hm hok hstep

/-- Three nodes with two connections. A session that has said nothing fails, and then a node. -/
def orderlyErrors : List Event :=
  [.accept 1 10 100, .accept 2 20 200, .accept 3 30 300, .accept 4 40 400, .msg 1 (.hello 1 0 0),
    .msg 2 (.hello 2 0 0), .msg 3 (.hello 3 0 0), .msg 1 (.connCreate ⟨1, 1⟩ 2 0 0 false),
    .msg 2 (.connCreate ⟨2, 1⟩ 3 0 0 false), .error 4, .error 1]

theorem endpoints_live_iff_orderly :
    ∃ st, Run orderlyErrors st ∧
      (st.conns.find? ⟨1, 1⟩ = none ∧ (st.conns.find? ⟨2, 1⟩).isSome = true) ∧
      ∀ pre post m, orderlyErrors = pre ++ post → Run pre m → EndpointsIn m := by
  exact exec_check_and (by decide +kernel) fun _ hrun _ =>
    (endpoints_live_iff hrun).mpr (by decide +kernel)

/-- A session that has not said `HELLO` has node id 0, and may create connections for it.
When it fails, the entry keeps a session that is gone. -/
theorem unknown_session_orphans :
    ∃ st, Run [.accept 1 10 100, .accept 2 20 200, .msg 2 (.hello 2 0 0),
        .msg 1 (.connCreate ⟨0, 1⟩ 2 0 0 false), .error 1] st ∧
      (∃ conn, st.conns.find? ⟨0, 1⟩ = some conn ∧ conn.srcSess ∉ st.sessions) ∧
      ¬ EndpointsIn st := by
  obtain ⟨st, hst, hbad⟩ : ∃ st, Run [.accept 1 10 100, .accept 2 20 200, .msg 2 (.hello 2 0 0),
      .msg 1 (.connCreate ⟨0, 1⟩ 2 0 0 false), .error 1] st ∧
      (st.conns.find? ⟨0, 1⟩ = some ⟨1, 2, .fast, .fast, 0⟩ ∧ 1 ∉ st.sessions) :=
    exec_check (by decide)
  exact ⟨st, hst, ⟨_, hbad.1, hbad.2⟩, fun h => hbad.2 (h _ _ hbad.1).1⟩

end DTun.Master.Server
