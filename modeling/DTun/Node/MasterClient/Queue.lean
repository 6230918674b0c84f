import DTun.Node.MasterClient.View

/-!
# Entries, tasks and the rendezvous queue

What holds of the client's view of one connection. `Owned` tells outgoing connections from
incoming ones: it needs only that the master does not offer the node a connection of its
own. `Accounted` ties the queue to the entries: a queued id is queued once and has an entry
that has not been started, and a proxy that is about to be stored meets only an entry whose
rendezvous has succeeded.
-/

namespace DTun.Node.MasterClient

variable {cl : Client} {c : ConnId} {ev : Event} {v v' : View} {sent : List UpMsg}

/-- `own` says that the connection is one of the node's own. -/
structure Owned (own : Prop) (v : View) : Prop where
  callback : ∀ e, v.entry = some e → (e.callback = true ↔ own)
  mode : ∀ e, v.entry = some e → e.mode = none → own
  proxySession : ∀ e, v.entry = some e → e.proxySession = true → ¬ own
  tasks : ∀ t ∈ v.tasks, t.isProxy = true → ¬ own

structure Accounted (v : View) : Prop where
  once : v.queued ≤ 1
  waiting : 0 < v.queued → ∃ e, v.entry = some e ∧ e.started = false ∧ ¬ e.Done
  held : ∀ e, v.entry = some e → e.keepalive = true ∨ e.proxySession = true → e.Done
  tasks : ∀ t ∈ v.tasks, t.isProxy = true → ∀ e, v.entry = some e → e.Done

/-- The master does not offer the node a connection of its own. -/
def OfferOk (cl : Client) : Event → Prop
  | .recv (.conn connId _ _ _ _ _ _) => connId.nodeId ≠ cl.nodeId
  | _ => True

/-- `registerConnection` does not draw the id `c` while it has an entry, and `c` is not
offered again while a proxy for it is being started. -/
def ReuseOk (cl : Client) (c : ConnId) : Event → Prop
  | .registerConnection _ _ => cl.nextId = c → cl.connStates.find? c = none
  | .recv (.conn connId _ _ _ _ _ _) =>
    connId = c → cl.connStates.find? c = none → ∀ t ∈ (cl.view c).tasks, t.isProxy = false
  | _ => True

/-- The same for every id. -/
def IdsFree (cl : Client) : Event → Prop
  | .registerConnection _ _ => cl.connStates.find? cl.nextId = none
  | .recv (.conn connId _ _ _ _ _ _) =>
    cl.connStates.find? connId = none → ∀ t ∈ (cl.view connId).tasks, t.isProxy = false
  | _ => True

instance (cl : Client) : (ev : Event) → Decidable (IdsFree cl ev)
  | .registerConnection _ _ =>
    inferInstanceAs (Decidable (cl.connStates.find? cl.nextId = none))
  | .recv (.conn connId _ _ _ _ _ _) =>
    inferInstanceAs (Decidable (cl.connStates.find? connId = none →
      ∀ t ∈ (cl.view connId).tasks, t.isProxy = false))
  | .recv (.connStatus ..) | .recv (.probe ..) | .recv (.fast ..) | .recv (.symm ..)
  | .recv (.ready ..) | .recv (.next ..) | .probed | .connected _ _ | .lost
  | .closeConnection _ | .rendezvous _ _ _ | .proxyDone _ | .run _ _ _ | .shutdown =>
    isTrue trivial

theorem IdsFree.reuseOk (h : IdsFree cl ev) (c : ConnId) : ReuseOk cl c ev := by
  cases ev with
  | registerConnection ip port =>
    rintro rfl
    exact h
  | recv msg =>
    cases msg with
    | conn connId =>
      rintro rfl
      exact h
    | _ => trivial
  | _ => trivial

/-- A fact about every entry of the view, when there is one entry. -/
theorem entry_some {P : ConnState → Prop} {e : ConnState} (h : P e) :
    ∀ e', some e = some e' → P e' := by
  rintro _ ⟨⟩
  exact h

theorem entry_none {P : ConnState → Prop} : ∀ e, none = some e → P e := by
  intro e he
  cases he

section Proxies

variable {P : Prop} {s : Task} {tasks ts : Multiset Task}

/-- A task that is not a proxy's changes nothing for those that are. -/
theorem proxies_cons (hs : s.isProxy = false) (h : ∀ t ∈ ts, t.isProxy = true → P) :
    ∀ t ∈ s ::ₘ ts, t.isProxy = true → P := by
  intro t ht hp
  rcases Multiset.mem_cons.mp ht with rfl | ht
  · rw [hs] at hp
    cases hp
  · exact h t ht hp

theorem proxies_tail (hts : tasks = s ::ₘ ts) (h : ∀ t ∈ tasks, t.isProxy = true → P) :
    ∀ t ∈ ts, t.isProxy = true → P := by
  intro t ht
  rw [hts] at h
  exact h t (Multiset.mem_cons_of_mem ht)

theorem proxies_invoke {b : Bool} {err : Nat} (h : ∀ t ∈ ts, t.isProxy = true → P) :
    ∀ t ∈ (if b then .invoke c err ::ₘ ts else ts), t.isProxy = true → P := by
  split
  · exact proxies_cons rfl h
  · exact h

/-- The tasks a session that calls back leaves, by itself or out of `onEstablished`. -/
theorem proxies_rest (hts : ts = tasks ∨ tasks = .established c ::ₘ ts)
    (h : ∀ t ∈ tasks, t.isProxy = true → P) : ∀ t ∈ ts, t.isProxy = true → P := by
  rcases hts with rfl | hts
  · exact h
  · exact proxies_tail hts h

end Proxies

theorem Owned.of_entry {own : Prop} (h : Owned own v) {e : ConnState} (he : v.entry = some e) :
    (e.callback = true ↔ own) ∧ (e.mode = none → own) ∧ (e.proxySession = true → ¬ own) :=
  ⟨h.callback e he, h.mode e he, h.proxySession e he⟩

theorem Move.owned (hm : Move cl c ev v v' sent) (hok : OfferOk cl ev)
    (h : Owned (c.nodeId = cl.nodeId) v) : Owned (c.nodeId = cl.nodeId) v' := by
  have hentry := fun e => h.of_entry (e := e)
  obtain ⟨hcb, hmode, hproxy, htasks⟩ := h
  cases hm with
  | other => exact ⟨hcb, hmode, hproxy, htasks⟩
  | dropped => exact ⟨hcb, hmode, hproxy, htasks⟩
  | registered hid =>
    subst hid
    exact ⟨by simp [Client.nextId], by simp [Client.nextId], by simp, htasks⟩
  | closeMissed => exact ⟨hcb, hmode, hproxy, proxies_cons rfl htasks⟩
  | closed => exact ⟨entry_none, entry_none, entry_none, proxies_cons rfl htasks⟩
  | requested => exact ⟨by simpa [OfferOk] using hok, by simp, by simp, htasks⟩
  | replied he =>
    obtain ⟨hcb, -, hproxy⟩ := hentry _ he
    exact ⟨entry_some hcb, by simp, entry_some hproxy, htasks⟩
  | reported he =>
    obtain ⟨hcb, hmode, hproxy⟩ := hentry _ he
    exact ⟨entry_some hcb, entry_some hmode, entry_some hproxy, proxies_cons rfl htasks⟩
  | refused he => exact ⟨entry_none, entry_none, entry_none, proxies_invoke htasks⟩
  | @succeeded _ _ e _ he hs hts =>
    obtain ⟨hcb, hmode, hproxy⟩ := hentry _ he
    refine ⟨entry_some hcb, entry_some hmode, entry_some hproxy, ?_⟩
    -- without a callback the connection is an incoming one
    cases hcall : e.callback with
    | true => exact proxies_cons rfl (proxies_rest hts htasks)
    | false =>
      intro _ _ _ hown
      rw [hcall] at hcb
      cases hcb.mpr hown
  | failed he hs hts =>
    exact ⟨entry_none, entry_none, entry_none, proxies_invoke (proxies_rest hts htasks)⟩
  | proxyDone => exact ⟨entry_none, entry_none, entry_none, htasks⟩
  | invoked hts => exact ⟨hcb, hmode, hproxy, proxies_tail hts htasks⟩
  | proxyStarted hts =>
    have hin := htasks _ (hts ▸ Multiset.mem_cons_self _ _) rfl
    exact ⟨hcb, hmode, hproxy, fun _ _ _ => hin⟩
  | proxyMissed _ hts => exact ⟨hcb, hmode, hproxy, proxies_tail hts htasks⟩
  | proxySet he hts =>
    obtain ⟨hcb, hmode, -⟩ := hentry _ he
    have hin := htasks _ (hts ▸ Multiset.mem_cons_self _ _) rfl
    exact ⟨entry_some hcb, entry_some hmode, fun _ _ _ => hin, fun _ _ _ => hin⟩
  | proxyFailed he hts =>
    exact ⟨entry_none, entry_none, entry_none, proxies_tail hts htasks⟩
  | notCalled hts => exact ⟨hcb, hmode, hproxy, proxies_tail hts htasks⟩
  | returned hts => exact ⟨hcb, hmode, hproxy, proxies_tail hts htasks⟩
  | create he =>
    obtain ⟨hcb, hmode, hproxy⟩ := hentry _ he
    exact ⟨entry_some hcb, entry_some hmode, entry_some hproxy, htasks⟩
  | started he =>
    obtain ⟨hcb, hmode, hproxy⟩ := hentry _ he
    exact ⟨entry_some hcb, entry_some hmode, entry_some hproxy, htasks⟩
  | startFailed he => exact ⟨entry_none, entry_none, entry_none, proxies_invoke htasks⟩

/-- A request is sent only for a connection of the node's own. -/
theorem Move.create_own (hm : Move cl c ev v v' sent) (h : Owned (c.nodeId = cl.nodeId) v)
    {c' : ConnId} {dst ip port : Nat} {bestEffort : Bool}
    (hmem : .connCreate c' dst ip port bestEffort ∈ sent) : c'.nodeId = cl.nodeId := by
  cases hm with
  | registered hid _ =>
    subst hid
    split at hmem
    · simp only [List.mem_singleton, UpMsg.connCreate.injEq] at hmem
      rw [hmem.1]
      rfl
    · cases hmem
  | create he _ hmode _ =>
    simp only [List.mem_singleton, UpMsg.connCreate.injEq] at hmem
    rw [hmem.1]
    exact h.mode _ he hmode
  | closed => split at hmem <;> simp at hmem
  | succeeded => split at hmem <;> simp at hmem
  | _ => simp at hmem

/-- An entry whose id is queued has neither started nor finished its rendezvous. -/
theorem Accounted.of_queued (h : Accounted v) {e : ConnState} (he : v.entry = some e)
    (hq : 0 < v.queued) : e.started = false ∧ ¬ e.Done := by
  obtain ⟨e', he', hstarted, hnot⟩ := h.waiting hq
  obtain rfl := Option.some.inj (he.symm.trans he')
  exact ⟨hstarted, hnot⟩

/-- Once the rendezvous has succeeded, or a proxy is on its way, the id is not queued. -/
theorem Accounted.queued_eq_zero (h : Accounted v) {e : ConnState} (he : v.entry = some e)
    (hdone : e.started = true ∨ e.Done) : v.queued = 0 := by
  by_contra hne
  obtain ⟨hstarted, hnot⟩ := h.of_queued he (Nat.pos_of_ne_zero hne)
  rcases hdone with hs | hd
  · rw [hs] at hstarted
    cases hstarted
  · exact hnot hd

theorem Accounted.queued_of_none (h : Accounted v) (he : v.entry = none) : v.queued = 0 := by
  by_contra hne
  obtain ⟨e, he', _⟩ := h.waiting (Nat.pos_of_ne_zero hne)
  rw [he] at he'
  cases he'

/-- Without an entry it is enough that the id is not queued. -/
theorem accounted_of_none (he : v.entry = none) (hq : v.queued = 0) : Accounted v where
  once := by omega
  waiting := by omega
  held := by
    rw [he]
    exact entry_none
  tasks := by
    rw [he]
    exact fun _ _ _ => entry_none

/-- With an entry that is done it is enough that the id is not queued. -/
theorem accounted_of_done {e : ConnState} (he : v.entry = some e) (hdone : e.Done)
    (hq : v.queued = 0) : Accounted v where
  once := by omega
  waiting := by omega
  held := by
    rw [he]
    exact entry_some fun _ => hdone
  tasks := by
    rw [he]
    exact fun _ _ _ => entry_some hdone

/-- An entry that is updated, with tasks that start no more proxies. -/
theorem Accounted.update (h : Accounted v) {e e' : ConnState} (he : v.entry = some e)
    (he' : v'.entry = some e') (hq : v'.queued = v.queued)
    (hwait : e.started = false → ¬ e.Done → e'.started = false ∧ ¬ e'.Done)
    (hheld : e'.keepalive = true ∨ e'.proxySession = true →
      e.keepalive = true ∨ e.proxySession = true) (hdone : e.Done → e'.Done)
    (htasks : ∀ P : Prop, (∀ t ∈ v.tasks, t.isProxy = true → P) →
      ∀ t ∈ v'.tasks, t.isProxy = true → P) : Accounted v' where
  once := hq ▸ h.once
  waiting := fun hpos => by
    obtain ⟨hstarted, hnot⟩ := h.of_queued he (hq ▸ hpos)
    exact ⟨e', he', hwait hstarted hnot⟩
  held := by
    rw [he']
    exact entry_some fun hh => hdone (h.held e he (hheld hh))
  tasks := by
    rw [he']
    exact htasks _ fun t ht hp => entry_some (hdone (h.tasks t ht hp e he))

theorem Move.accounted (hm : Move cl c ev v v' sent) (hv : v = cl.view c) (hok : ReuseOk cl c ev)
    (hown : Owned (c.nodeId = cl.nodeId) v) (h : Accounted v) : Accounted v' := by
  cases hm with
  | other => exact h
  | dropped he hn =>
    have hqueued := h.queued_of_none he
    exact accounted_of_none he (Nat.le_zero.mp (hqueued ▸ hn))
  | registered hid =>
    subst hv hid
    have hqueued := h.queued_of_none (hok rfl)
    refine ⟨by change _ + 1 ≤ 1; omega, fun _ => ⟨_, rfl, rfl, fun hdone => ?_⟩, by simp, ?_⟩
    · have hstatus := hdone.1
      split at hstatus <;> cases hstatus
    · -- no proxy is ever started for an id of the node's own
      exact fun t ht hp => absurd rfl (hown.tasks t ht hp)
  | closeMissed =>
    exact ⟨h.once, h.waiting, h.held, fun t ht hp => proxies_cons rfl h.tasks t ht hp⟩
  | closed => exact accounted_of_none rfl rfl
  | requested he =>
    subst hv
    have hqueued := h.queued_of_none he
    have hidle : ∀ t ∈ (cl.view c).tasks, t.isProxy = false := hok rfl he
    refine ⟨by change _ + 1 ≤ 1; omega, fun _ => ⟨_, rfl, rfl, fun hdone => ?_⟩, by simp, ?_⟩
    · cases hdone.2
    · intro t ht hp
      rw [hidle t ht] at hp
      cases hp
  | replied he =>
    exact h.update he rfl rfl (fun hs hd => ⟨hs, hd⟩) id id fun _ ht => ht
  | reported he hsess =>
    refine h.update he rfl rfl (fun hs _ => ⟨hs, fun hd => ?_⟩) id (fun hd => ⟨rfl, hd.2⟩)
      fun _ ht => proxies_cons rfl ht
    rw [hd.2] at hsess
    cases hsess
  | refused he => exact accounted_of_none rfl rfl
  | succeeded he hs => exact accounted_of_done rfl ⟨rfl, rfl⟩ (h.queued_eq_zero he (Or.inl hs))
  | failed he hs => exact accounted_of_none rfl (h.queued_eq_zero he (Or.inl hs))
  | proxyDone he hp =>
    have hdone : ConnState.Done _ := hp.elim (fun hp => h.held _ he (Or.inr hp))
      (fun hp => h.tasks _ hp rfl _ he)
    exact accounted_of_none rfl (h.queued_eq_zero he (Or.inr hdone))
  | invoked hts => exact ⟨h.once, h.waiting, h.held, proxies_tail hts h.tasks⟩
  | proxyStarted hts =>
    have hin := h.tasks _ (hts ▸ Multiset.mem_cons_self _ _) rfl
    exact ⟨h.once, h.waiting, h.held, fun _ _ _ => hin⟩
  | proxyMissed _ hts => exact ⟨h.once, h.waiting, h.held, proxies_tail hts h.tasks⟩
  | proxySet he hts =>
    have hdone := h.tasks _ (hts ▸ Multiset.mem_cons_self _ _) rfl _ he
    exact accounted_of_done rfl hdone (h.queued_eq_zero he (Or.inr hdone))
  | proxyFailed he hts =>
    have hdone := h.tasks _ (hts ▸ Multiset.mem_cons_self _ _) rfl _ he
    exact accounted_of_none rfl (h.queued_eq_zero he (Or.inr hdone))
  | notCalled hts => exact ⟨h.once, h.waiting, h.held, proxies_tail hts h.tasks⟩
  | returned hts => exact ⟨h.once, h.waiting, h.held, proxies_tail hts h.tasks⟩
  | create he hq hmode hstatus =>
    refine h.update he rfl rfl (fun hs _ => ⟨hs, fun hd => ?_⟩) id (fun hd => ?_) fun _ ht => ht
    · cases hd.1
    · rw [hd.1] at hstatus
      cases hstatus
  | @started _ _ e kind n he hq hmode =>
    have hnot := (h.of_queued he (by omega)).2
    have honce := h.once
    obtain rfl : n = 0 := by omega
    refine ⟨Nat.zero_le _, fun hpos => absurd hpos (Nat.lt_irrefl 0), ?_, ?_⟩
    · exact entry_some fun hh => absurd (h.held _ he hh) hnot
    · exact fun t ht hp => absurd (h.tasks t ht hp _ he) hnot
  | @startFailed _ _ e kind n he hq hmode =>
    have honce := h.once
    obtain rfl : n = 0 := by omega
    exact accounted_of_none rfl rfl

end DTun.Node.MasterClient
