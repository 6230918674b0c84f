import DTun.Node.PortAllocator.Spec

/-!
# Representation invariant of the port allocator

Three views of the same fact, the status of each port, the counter of each class and the
port list of each reservation, agree in every reachable state. Each way a step can change
the pool keeps the invariant; freeing and keeping alive are one argument, since both
shrink the list of one reservation and free what they drop.
-/

namespace DTun.Node.PortAllocator

open DTun.Lib.Runs

structure Inv (cfg : Config) (p : Pool) : Prop where
  set : SetOk cfg p.port p.ports
  count : ∀ k : PortKind, p.reservedPorts k = numWith cfg p.port k.status
  bound : ∀ k, p.reservedPorts k ≤ cfg.numPorts k
  held : ∀ r ids, p.reservation r = some ids →
    ids.Nodup ∧ ∃ k : PortKind, ∀ i ∈ ids, i < cfg.total ∧ (p.port i).status = k.status
  owner : ∀ i, i < cfg.total → (p.port i).status ≠ .free →
    ∃ r ids, p.reservation r = some ids ∧ i ∈ ids
  unique : ∀ r r' ids ids' i, p.reservation r = some ids → p.reservation r' = some ids' →
    i ∈ ids → i ∈ ids' → r = r'
  queued : ∀ k q, q ∈ p.requests k → p.reservation q.reservation = some []
  once : ((p.requests .symm ++ p.requests .fast).map Request.reservation).Nodup
  fresh : ∀ r, p.nextReservation ≤ r → p.reservation r = none

variable {cfg : Config} {p p' : Pool} {k : PortKind} {r now : Nat} {ids : List Nat}

theorem init_inv (cfg : Config) : Inv cfg (init cfg).toPool where
  set := init_setOk cfg
  count := by intro k; cases k <;> simp [init, numWith, PortKind.status]
  bound := by intro k; simp [init]
  held := by intro r ids h; cases h
  owner := by intro i _ h; exact absurd rfl h
  unique := by intro r r' ids ids' i h; cases h
  queued := by intro k q h; cases h
  once := by simp [init]
  fresh := fun _ _ => rfl

theorem PortKind.status_ne_free (k : PortKind) : k.status ≠ .free := by
  cases k <;> decide

theorem PortKind.status_injective : Function.Injective PortKind.status := by
  intro a b h
  cases a <;> cases b <;> first | rfl | cases h

/-- A listed port is not free. -/
theorem Inv.not_free (h : Inv cfg p) (hr : p.reservation r = some ids) {i : Nat} (hi : i ∈ ids) :
    (p.port i).status ≠ .free := by
  obtain ⟨_, k, hk⟩ := h.held r ids hr
  rw [(hk i hi).2]
  exact k.status_ne_free

theorem Inv.lt_total (h : Inv cfg p) (hr : p.reservation r = some ids) :
    ∀ i ∈ ids, i < cfg.total := by
  obtain ⟨_, k, hk⟩ := h.held r ids hr
  exact fun i hi => (hk i hi).1

/-- The queue a request waits in does not matter: its reservation is queued once. -/
theorem Inv.requests_nodup (h : Inv cfg p) (k : PortKind) :
    ((p.requests k).map Request.reservation).Nodup := by
  have hsub : ((p.requests k).map Request.reservation).Sublist
      ((p.requests .symm ++ p.requests .fast).map Request.reservation) := by
    refine List.Sublist.map _ ?_
    cases k
    · exact List.sublist_append_left _ _
    · exact List.sublist_append_right _ _
  exact h.once.sublist hsub

/-- A reservation that holds ports is not queued. -/
theorem Inv.holding_not_queued (h : Inv cfg p) (hr : p.reservation r = some ids) (hne : ids ≠ []) :
    ∀ k, ∀ q ∈ p.requests k, q.reservation ≠ r := by
  rintro k q hq rfl
  exact hne (Option.some.inj (hr.symm.trans (h.queued k q hq)))

/-- Taking requests out of the queues keeps the invariant. -/
theorem lessRequests_inv (h : Inv cfg p) {requests : PortKind → List Request}
    (hsub : ∀ k, (requests k).Sublist (p.requests k)) :
    Inv cfg { p with requests := requests } where
  set := h.set
  count := h.count
  bound := h.bound
  held := h.held
  owner := h.owner
  unique := h.unique
  queued := fun k q hq => h.queued k q ((hsub k).mem hq)
  once := h.once.sublist (((hsub .symm).append (hsub .fast)).map _)
  fresh := h.fresh

/-- Once the head of a queue is popped, its reservation is queued nowhere. -/
theorem Inv.popped_not_queued (h : Inv cfg p) {req : Request} {rest : List Request}
    (hreq : p.requests k = req :: rest) :
    ∀ k', ∀ q ∈ Function.update p.requests k rest k', q.reservation ≠ req.reservation := by
  have honce := h.once
  intro k' q hq he
  have hmem : ∀ l l' : List Request, (l ++ l').map Request.reservation =
      l.map Request.reservation ++ l'.map Request.reservation := fun l l' => List.map_append
  rw [hmem] at honce
  have hd := List.nodup_append'.mp honce
  cases k <;> cases k' <;> simp only [Function.update_self, ne_eq, reduceCtorEq, not_false_eq_true,
    Function.update_of_ne] at hq
  · rw [hreq, List.map_cons, List.nodup_cons] at hd
    exact hd.1.1 (he ▸ List.mem_map_of_mem hq)
  · rw [hreq, List.map_cons] at hd
    exact (List.disjoint_left.mp hd.2.2 (List.mem_cons_self)) (he ▸ List.mem_map_of_mem hq)
  · rw [hreq, List.map_cons] at hd
    exact List.disjoint_left.mp hd.2.2 (he ▸ List.mem_map_of_mem hq) (List.mem_cons_self)
  · rw [hreq, List.map_cons, List.nodup_cons] at hd
    exact hd.2.1.1 (he ▸ List.mem_map_of_mem hq)

theorem dropRequests_sublist (p : Pool) (r : Nat) (k : PortKind) :
    ((dropRequests p r).requests k).Sublist (p.requests k) :=
  List.eraseP_sublist

/-- After its request is dropped a reservation is queued nowhere. -/
theorem Inv.dropped_not_queued (h : Inv cfg p) (r : Nat) :
    ∀ k, ∀ q ∈ (dropRequests p r).requests k, q.reservation ≠ r := by
  intro k q hq he
  have hn := h.requests_nodup k
  subst he
  change q ∈ (p.requests k).eraseP (fun x => x.reservation == q.reservation) at hq
  generalize p.requests k = l at hn hq
  induction l with
  | nil => simp at hq
  | cons a l ih =>
    rw [List.map_cons, List.nodup_cons] at hn
    by_cases ha : a.reservation = q.reservation
    · rw [List.eraseP_cons_of_pos (by simp [ha])] at hq
      exact hn.1 (ha ▸ List.mem_map_of_mem hq)
    · rw [List.eraseP_cons_of_neg (by simp [ha])] at hq
      rcases List.mem_cons.mp hq with rfl | hq
      · exact ha rfl
      · exact ih hn.2 hq

theorem enqueue_inv (h : Inv cfg p) (k : PortKind) (n : Int) : Inv cfg (enqueue p k n) := by
  have hnew : ∀ r ids, p.reservation r = some ids → r ≠ p.nextReservation := by
    intro r ids hr he
    rw [h.fresh r (he ▸ le_refl _)] at hr
    cases hr
  have hold : ∀ r ids, (enqueue p k n).reservation r = some ids → ids = [] ∨
      p.reservation r = some ids := by
    intro r ids hr
    change Function.update p.reservation p.nextReservation (some []) r = some ids at hr
    by_cases he : r = p.nextReservation
    · subst he
      rw [Function.update_self] at hr
      exact Or.inl (Option.some.inj hr).symm
    · rw [Function.update_of_ne he] at hr
      exact Or.inr hr
  refine ⟨h.set, h.count, h.bound, ?_, ?_, ?_, ?_, ?_, ?_⟩
  · intro r ids hr
    rcases hold r ids hr with rfl | hr
    · exact ⟨List.nodup_nil, k, by simp⟩
    · exact h.held r ids hr
  · intro i hi hst
    obtain ⟨r, ids, hr, hmem⟩ := h.owner i hi hst
    exact ⟨r, ids, (Function.update_of_ne (hnew r ids hr) _ _).trans hr, hmem⟩
  · intro r r' ids ids' i hr hr' hi hi'
    rcases hold r ids hr with rfl | hr
    · cases hi
    · rcases hold r' ids' hr' with rfl | hr'
      · cases hi'
      · exact h.unique r r' ids ids' i hr hr' hi hi'
  · intro k' q hq
    have hcase : q ∈ p.requests k' ∨ q.reservation = p.nextReservation := by
      change q ∈ Function.update p.requests k _ k' at hq
      by_cases hk : k' = k
      · subst hk
        rw [Function.update_self, List.mem_append, List.mem_singleton] at hq
        exact hq.imp_right (congrArg Request.reservation)
      · rw [Function.update_of_ne hk] at hq
        exact Or.inl hq
    change Function.update p.reservation p.nextReservation (some []) q.reservation = some []
    rcases hcase with hq | hq
    · rw [Function.update_of_ne (hnew _ _ (h.queued k' q hq))]
      exact h.queued k' q hq
    · rw [hq, Function.update_self]
  · -- the new reservation is queued at the end of one of the two queues
    have hperm : (((enqueue p k n).requests .symm ++ (enqueue p k n).requests .fast).map
        Request.reservation).Perm
        (p.nextReservation :: (p.requests .symm ++ p.requests .fast).map Request.reservation) := by
      cases k
      · simp [enqueue, List.perm_middle]
      · simp only [enqueue, ne_eq, reduceCtorEq, not_false_eq_true,
          Function.update_of_ne, Function.update_self, List.map_append, List.map_cons, List.map_nil,
          ← List.append_assoc]
        exact List.perm_append_singleton _ _
    rw [hperm.nodup_iff, List.nodup_cons]
    refine ⟨?_, h.once⟩
    intro hmem
    obtain ⟨q, hq, he⟩ := List.mem_map.mp hmem
    rcases List.mem_append.mp hq with hq | hq
    · exact hnew _ _ (h.queued _ q hq) he
    · exact hnew _ _ (h.queued _ q hq) he
  · intro r hr
    change p.nextReservation + 1 ≤ r at hr
    change Function.update p.reservation p.nextReservation (some []) r = none
    rw [Function.update_of_ne (by omega)]
    exact h.fresh r (by omega)

theorem chosen_sublist (p : Pool) (now : Nat) (n : Int) : (chosen p now n).Sublist p.ports :=
  (List.take_sublist _ _).trans (eligible_sublist _ _ _)

theorem chosen_free {n : Int} {i : Nat} (hi : i ∈ chosen p now n) : (p.port i).status = .free :=
  eligible_free (List.mem_of_mem_take hi)

theorem chosen_due {n : Int} {i : Nat} (hi : i ∈ chosen p now n) :
    (p.port i).decayTime ≤ (now : TimePoint) :=
  eligible_due (List.mem_of_mem_take hi)

/-- Free ports go to a reservation that holds none and is not queued. -/
theorem assign_inv (h : Inv cfg p) (hn : ids.Nodup) (hlt : ∀ i ∈ ids, i < cfg.total)
    (hfree : ∀ i ∈ ids, (p.port i).status = .free)
    (hquota : p.reservedPorts k + ids.length ≤ cfg.numPorts k)
    (hempty : ∀ old, p.reservation r = some old → old = [])
    (hqueue : ∀ k, ∀ q ∈ p.requests k, q.reservation ≠ r)
    {n : Nat} (hnext : p.nextReservation ≤ n) (hr : r < n) :
    Inv cfg { assign p k r ids with nextReservation := n } := by
  have hne : ∀ i ∈ ids, (p.port i).status ≠ k.status := by
    intro i hi
    rw [hfree i hi]
    exact k.status_ne_free.symm
  -- a reservation that holds a port is either the new one or an old one without new ports
  have hcase : ∀ r' ids', Function.update p.reservation r (some ids) r' = some ids' →
      (r' = r ∧ ids' = ids) ∨ (p.reservation r' = some ids' ∧ ∀ i ∈ ids', i ∉ ids) := by
    intro r' ids' hr'
    by_cases he : r' = r
    · subst he
      rw [Function.update_self] at hr'
      exact Or.inl ⟨rfl, (Option.some.inj hr').symm⟩
    · rw [Function.update_of_ne he] at hr'
      exact Or.inr ⟨hr', fun i hi hi' => h.not_free hr' hi (hfree i hi')⟩
  refine ⟨h.set.congr (fun i => setStatus_decayTime _ _ _ _), ?_, ?_, ?_, ?_, ?_, ?_, h.once, ?_⟩
  · intro k'
    change Function.update p.reservedPorts k _ k' = numWith cfg (setStatus _ ids p.port) k'.status
    by_cases hk : k' = k
    · subst hk
      rw [Function.update_self, numWith_setStatus_self hn hlt hne, h.count k']
      push_cast
      omega
    · rw [Function.update_of_ne hk, numWith_setStatus_other, h.count k']
      · exact fun he => hk (PortKind.status_injective he).symm
      · intro i hi
        rw [hfree i hi]
        exact k'.status_ne_free.symm
  · intro k'
    change Function.update p.reservedPorts k _ k' ≤ _
    by_cases hk : k' = k
    · subst hk
      rw [Function.update_self]
      exact hquota
    · rw [Function.update_of_ne hk]
      exact h.bound k'
  · intro r' ids' hr'
    rcases hcase r' ids' hr' with ⟨_, rfl⟩ | ⟨hold, hdisj⟩
    · refine ⟨hn, k, fun i hi => ⟨hlt i hi, ?_⟩⟩
      exact (setStatus_status _ _ _ _).trans (if_pos hi)
    · obtain ⟨hnd, k', hk'⟩ := h.held r' ids' hold
      refine ⟨hnd, k', fun i hi => ⟨(hk' i hi).1, ?_⟩⟩
      exact ((setStatus_status _ _ _ _).trans (if_neg (hdisj i hi))).trans (hk' i hi).2
  · intro i hi hst
    by_cases hmem : i ∈ ids
    · exact ⟨r, ids, Function.update_self _ _ _, hmem⟩
    · have hst' : (p.port i).status ≠ .free := by
        intro he
        exact hst (((setStatus_status _ _ _ _).trans (if_neg hmem)).trans he)
      obtain ⟨r', ids', hr', hi'⟩ := h.owner i hi hst'
      have hrr : r' ≠ r := by
        rintro rfl
        rw [hempty ids' hr'] at hi'
        cases hi'
      exact ⟨r', ids', (Function.update_of_ne hrr _ _).trans hr', hi'⟩
  · intro r₁ r₂ ids₁ ids₂ i h₁ h₂ hi₁ hi₂
    rcases hcase r₁ ids₁ h₁ with ⟨rfl, rfl⟩ | ⟨ho₁, hd₁⟩
    · rcases hcase r₂ ids₂ h₂ with ⟨rfl, rfl⟩ | ⟨_, hd₂⟩
      · rfl
      · exact absurd hi₁ (hd₂ i hi₂)
    · rcases hcase r₂ ids₂ h₂ with ⟨rfl, rfl⟩ | ⟨ho₂, _⟩
      · exact absurd hi₂ (hd₁ i hi₁)
      · exact h.unique r₁ r₂ ids₁ ids₂ i ho₁ ho₂ hi₁ hi₂
  · intro k' q hq
    exact (Function.update_of_ne (hqueue k' q hq) _ _).trans (h.queued k' q hq)
  · intro r' hr'
    change n ≤ r' at hr'
    change Function.update p.reservation r _ r' = none
    rw [Function.update_of_ne (by omega)]
    exact h.fresh r' (by omega)

/-- The chosen ports satisfy what `assign_inv` asks of them. -/
theorem assign_chosen_inv (h : Inv cfg p) {n : Int} (hs : Served p now n)
    (hquota : n ≤ cfg.numPorts k - p.reservedPorts k)
    (hempty : ∀ old, p.reservation r = some old → old = [])
    (hqueue : ∀ k, ∀ q ∈ p.requests k, q.reservation ≠ r)
    {m : Nat} (hnext : p.nextReservation ≤ m) (hr : r < m) :
    Inv cfg { assign p k r (chosen p now n) with nextReservation := m } := by
  have hsub := chosen_sublist p now n
  refine assign_inv h (h.set.nodup.sublist hsub) (fun i hi => h.set.mem_iff.mp (hsub.mem hi))
    (fun i hi => chosen_free hi) ?_ hempty hqueue hnext hr
  rw [hs.length_chosen]
  omega

theorem granted_inv (h : Inv cfg p) (hg : Granted cfg p k now p') : Inv cfg p' := by
  obtain ⟨req, rest, hreq, hquota, hserved⟩ := hg
  have hsub : ∀ k', (Function.update p.requests k rest k').Sublist (p.requests k') := by
    intro k'
    by_cases hk : k' = k
    · subst hk
      rw [Function.update_self, hreq]
      exact List.sublist_cons_self _ _
    · rw [Function.update_of_ne hk]
  have hres : p.reservation req.reservation = some [] := h.queued k req (by simp [hreq])
  have hlt : req.reservation < p.nextReservation := by
    by_contra hge
    rw [h.fresh _ (not_lt.mp hge)] at hres
    cases hres
  exact assign_chosen_inv (lessRequests_inv h hsub) hserved hquota
    (fun old ho => (Option.some.inj (hres.symm.trans ho)).symm) (h.popped_not_queued hreq)
    (le_refl p.nextReservation) hlt

theorem kindOf_eq {i : Nat} {ids : List Nat}
    (h : ∀ j ∈ i :: ids, (p.port j).status = k.status) : kindOf p (i :: ids) = k := by
  unfold kindOf
  obtain ⟨j, hj⟩ : ∃ j, (i :: ids).getLast? = some j := by
    rw [List.getLast?_eq_some_getLast (List.cons_ne_nil i ids)]
    exact ⟨_, rfl⟩
  have hst := h j (List.mem_of_getLast? hj)
  rw [hj]
  cases k <;> simp [hst, PortKind.status]

/-- A reservation keeps a part of its ports and the rest becomes free. -/
theorem shrink_inv (h : Inv cfg p) (kept freed : List Nat)
    (hr : p.reservation r = some (kept ++ freed)) (hne : kept ++ freed ≠ [])
    (hk : ∀ i ∈ freed, (p.port i).status = k.status)
    (hset : SetOk cfg p'.port p'.ports)
    (hst : ∀ i, (p'.port i).status = if i ∈ freed then .free else (p.port i).status)
    (hcnt : p'.reservedPorts =
      Function.update p.reservedPorts k (p.reservedPorts k - freed.length))
    (hres : p'.reservation = Function.update p.reservation r (some kept))
    (hreq : p'.requests = p.requests) (hnext : p'.nextReservation = p.nextReservation) :
    Inv cfg p' := by
  obtain ⟨hnd, k₀, hk₀⟩ := h.held r _ hr
  obtain ⟨hndk, hndf, hdisj⟩ := List.nodup_append'.mp hnd
  have hnum : ∀ c, numWith cfg p'.port c = numWith cfg (setStatus .free freed p.port) c :=
    numWith_congr fun i => by rw [hst i, setStatus_status]
  -- what a reservation holds afterwards it held before, and none of it was freed
  have hcase : ∀ r' ids', p'.reservation r' = some ids' →
      ∃ old, p.reservation r' = some old ∧ ids'.Sublist old ∧ ∀ i ∈ ids', i ∉ freed := by
    intro r' ids' hr'
    rw [hres] at hr'
    by_cases he : r' = r
    · subst he
      rw [Function.update_self] at hr'
      obtain rfl := Option.some.inj hr'
      exact ⟨_, hr, List.sublist_append_left _ _, fun i hi => List.disjoint_left.mp hdisj hi⟩
    · rw [Function.update_of_ne he] at hr'
      refine ⟨ids', hr', List.Sublist.refl _, fun i hi hf => he ?_⟩
      exact h.unique r' r ids' _ i hr' hr hi (List.mem_append_right _ hf)
  have hcount : ∀ k' : PortKind, p'.reservedPorts k' = numWith cfg p'.port k'.status := by
    intro k'
    rw [hcnt, hnum]
    by_cases hkk : k' = k
    · subst hkk
      have hdrop := numWith_setStatus_drop k'.status_ne_free.symm hndf
        (fun i hi => (hk₀ i (List.mem_append_right _ hi)).1) hk
      rw [Function.update_self, h.count k', ← hdrop]
      push_cast
      omega
    · rw [Function.update_of_ne hkk, numWith_setStatus_other k'.status_ne_free.symm, h.count k']
      intro i hi he
      exact hkk (PortKind.status_injective (he.symm.trans (hk i hi)))
  refine ⟨hset, hcount, ?_, ?_, ?_, ?_, ?_, ?_, ?_⟩
  · intro k'
    rw [hcnt]
    by_cases hkk : k' = k
    · subst hkk
      rw [Function.update_self]
      have := h.bound k'
      omega
    · rw [Function.update_of_ne hkk]
      exact h.bound k'
  · intro r' ids' hr'
    obtain ⟨old, hold, hsub, hnf⟩ := hcase r' ids' hr'
    obtain ⟨hnd', k', hk'⟩ := h.held r' old hold
    refine ⟨hnd'.sublist hsub, k', fun i hi => ⟨(hk' i (hsub.mem hi)).1, ?_⟩⟩
    rw [hst i, if_neg (hnf i hi)]
    exact (hk' i (hsub.mem hi)).2
  · intro i hi hnf
    have hmem : i ∉ freed := by
      intro hf
      rw [hst i, if_pos hf] at hnf
      exact hnf rfl
    rw [hst i, if_neg hmem] at hnf
    obtain ⟨r', ids', hr', hi'⟩ := h.owner i hi hnf
    rw [hres]
    by_cases he : r' = r
    · subst he
      obtain rfl := Option.some.inj (hr.symm.trans hr')
      refine ⟨r', kept, Function.update_self _ _ _, ?_⟩
      exact (List.mem_append.mp hi').resolve_right hmem
    · exact ⟨r', ids', (Function.update_of_ne he _ _).trans hr', hi'⟩
  · intro r₁ r₂ ids₁ ids₂ i h₁ h₂ hi₁ hi₂
    obtain ⟨old₁, ho₁, hs₁, _⟩ := hcase r₁ ids₁ h₁
    obtain ⟨old₂, ho₂, hs₂, _⟩ := hcase r₂ ids₂ h₂
    exact h.unique r₁ r₂ old₁ old₂ i ho₁ ho₂ (hs₁.mem hi₁) (hs₂.mem hi₂)
  · intro k' q hq
    rw [hreq] at hq
    rw [hres, Function.update_of_ne (h.holding_not_queued hr hne k' q hq)]
    exact h.queued k' q hq
  · rw [hreq]
    exact h.once
  · intro r' hr'
    rw [hnext] at hr'
    have hrne : r' ≠ r := by
      rintro rfl
      rw [h.fresh r' hr'] at hr
      cases hr
    rw [hres, Function.update_of_ne hrne]
    exact h.fresh r' hr'

theorem keepFirst_inv (h : Inv cfg p) {kept : Nat} {others : List Nat}
    (hr : p.reservation r = some (kept :: others)) : Inv cfg (keepFirst p r kept others) := by
  obtain ⟨_, k, hk⟩ := h.held r _ hr
  have hkind : kindOf p (kept :: others) = k := kindOf_eq fun j hj => (hk j hj).2
  unfold keepFirst
  rw [hkind]
  refine shrink_inv h [kept] others hr (by simp) (fun i hi => (hk i (by simp [hi])).2) ?_ ?_ rfl
    rfl rfl rfl
  · refine rekey_setOk ?_ (hk kept (by simp)).1 ⊤
    exact h.set.congr fun i => setStatus_decayTime .free others p.port i
  · intro i
    exact (rekey_status _ _ _ i).trans (setStatus_status _ _ _ i)

theorem release_inv (h : Inv cfg p) (hr : p.reservation r = some ids) (hne : ids ≠ []) (t : Nat) :
    Inv cfg (release p r ids t).1 := by
  obtain ⟨_, k, hk⟩ := h.held r _ hr
  obtain ⟨i, rest, rfl⟩ := List.exists_cons_of_ne_nil hne
  have hkind : kindOf p (i :: rest) = k := kindOf_eq fun j hj => (hk j hj).2
  obtain ⟨hrel, _⟩ := release_spec h.set r (h.lt_total hr) t
  have hcnt := hrel.reservedPorts
  rw [hkind] at hcnt
  exact shrink_inv h [] (i :: rest) hr (by simp) (fun j hj => (hk j hj).2) hrel.set hrel.status
    hcnt hrel.reservation hrel.requests hrel.nextReservation

/-- A new decay time for some ports only moves them in the set. -/
theorem rekeyAll_inv (h : Inv cfg p) (hlt : ∀ i ∈ ids, i < cfg.total) (t : TimePoint) :
    Inv cfg (rekeyAll p ids t) := by
  obtain ⟨hset, hbooks, hst, _⟩ := rekeyAll_spec ids t h.set hlt
  refine ⟨hset, ?_, ?_, ?_, ?_, ?_, ?_, ?_, ?_⟩
  · intro k
    rw [hbooks.reservedPorts, numWith_congr hst]
    exact h.count k
  · rw [hbooks.reservedPorts]
    exact h.bound
  · simp only [hbooks.reservation, hst]
    exact h.held
  · simp only [hbooks.reservation, hst]
    exact h.owner
  · rw [hbooks.reservation]
    exact h.unique
  · rw [hbooks.reservation, hbooks.requests]
    exact h.queued
  · rw [hbooks.requests]
    exact h.once
  · rw [hbooks.reservation, hbooks.nextReservation]
    exact h.fresh

/-- An empty reservation that is not queued may go away. -/
theorem forget_inv (h : Inv cfg p) (hr : p.reservation r = some [])
    (hq : ∀ k, ∀ q ∈ p.requests k, q.reservation ≠ r) :
    Inv cfg { p with reservation := Function.update p.reservation r none } := by
  have hold : ∀ r' ids', Function.update p.reservation r none r' = some ids' →
      p.reservation r' = some ids' := by
    intro r' ids' hr'
    by_cases he : r' = r
    · subst he
      rw [Function.update_self] at hr'
      cases hr'
    · rwa [Function.update_of_ne he] at hr'
  refine ⟨h.set, h.count, h.bound, fun r' ids' hr' => h.held r' ids' (hold r' ids' hr'), ?_,
    fun r₁ r₂ ids₁ ids₂ i h₁ h₂ => h.unique r₁ r₂ ids₁ ids₂ i (hold _ _ h₁) (hold _ _ h₂), ?_,
    h.once, ?_⟩
  · intro i hi hst
    obtain ⟨r', ids', hr', hmem⟩ := h.owner i hi hst
    have hrne : r' ≠ r := by
      rintro rfl
      obtain rfl := Option.some.inj (hr.symm.trans hr')
      cases hmem
    exact ⟨r', ids', (Function.update_of_ne hrne _ _).trans hr', hmem⟩
  · intro k q hmem
    exact (Function.update_of_ne (hq k q hmem) _ _).trans (h.queued k q hmem)
  · intro r' hr'
    have hrne : r' ≠ r := by
      rintro rfl
      rw [h.fresh r' hr'] at hr
      cases hr
    exact (Function.update_of_ne hrne _ _).trans (h.fresh r' hr')

theorem PoolStep.inv {e : Event} {c : Nat} (h : Inv cfg p) (hs : PoolStep cfg p e c p') :
    Inv cfg p' := by
  cases hs with
  | same => exact h
  | reserve _ k n _ _ hquota hserved =>
    have hnone := h.fresh p.nextReservation (le_refl _)
    refine assign_chosen_inv h hserved hquota ?_ ?_ (Nat.le_succ _) (Nat.lt_succ_self _)
    · intro old hold
      rw [hnone] at hold
      cases hold
    · intro k q hq he
      have hq' := h.queued k q hq
      rw [he, hnone] at hq'
      cases hq'
  | grant _ _ _ _ _ hg => exact granted_inv h hg
  | enqueue _ k n => exact enqueue_inv h k n
  | use r _ i ids hr => exact rekeyAll_inv h (h.lt_total hr) _
  | keepalive r kept others _ hr => exact keepFirst_inv h hr
  | drop r => exact lessRequests_inv h (dropRequests_sublist p r)
  | release r _ ids hr hne => exact release_inv h hr hne _
  | forget r now _ q hs =>
    -- the destructor has cancelled the reservation, which left it empty and not queued
    rcases hs.cancel_cases with ⟨hr, rfl⟩ | ⟨ids, hr, hne, _, rfl⟩
    · exact forget_inv (lessRequests_inv h (dropRequests_sublist p r)) hr (h.dropped_not_queued r)
    · refine forget_inv (release_inv h hr hne (now + cfg.decay)) (Function.update_self _ _ _) ?_
      rw [(release_spec h.set r (h.lt_total hr) _).1.requests]
      exact h.holding_not_queued hr hne

theorem step_inv {s s' : State} {e : Event} (h : Inv cfg s.toPool) (hs : step cfg s e = some s') :
    Inv cfg s'.toPool :=
  (step_pool h.set.nodup hs).1.inv h

theorem run_inv {s : State} {es : List Event} (h : Run cfg es s) : Inv cfg s.toPool :=
  exec_invariant (I := fun s => Inv cfg s.toPool) (fun _ _ _ => step_inv) (init_inv cfg) h

/-- In every state reachable from the constructor: `ports_` is the set of all ports in
comparer order; each counter is the number of ports with its status and within its quota;
every port that is not free is listed by exactly one live reservation, and reservations
list only such ports, each once and all of one class; every queued request points to a
live reservation without ports, and no reservation is queued twice. -/
theorem allocator_invariant {s : State} {es : List Event} (h : Run cfg es s) :
    (s.ports.Perm (List.range cfg.total) ∧ s.ports.Pairwise (fun i j => comparer s.port i j)) ∧
    (∀ k : PortKind, s.reservedPorts k = numWith cfg s.port k.status ∧
      0 ≤ s.reservedPorts k ∧ s.reservedPorts k ≤ cfg.numPorts k) ∧
    (∀ i < cfg.total, (s.port i).status ≠ .free →
      ∃! r, ∃ ids, s.reservation r = some ids ∧ i ∈ ids) ∧
    (∀ r ids, s.reservation r = some ids →
      ids.Nodup ∧ ∃ k : PortKind, ∀ i ∈ ids, i < cfg.total ∧ (s.port i).status = k.status) ∧
    (∀ k, ∀ q ∈ s.requests k, s.reservation q.reservation = some []) ∧
    ((s.requests .symm ++ s.requests .fast).map Request.reservation).Nodup := by
  have hinv := run_inv h
  refine ⟨⟨hinv.set.perm, ?_⟩, ?_, ?_, hinv.held, hinv.queued, hinv.once⟩
  · exact hinv.set.sorted.imp fun hlt => (comparer_iff _ _ _).mpr hlt
  · intro k
    have hcount := hinv.count k
    exact ⟨hcount, by omega, hinv.bound k⟩
  · intro i hi hst
    obtain ⟨r, ids, hr, hmem⟩ := hinv.owner i hi hst
    refine ⟨r, ⟨ids, hr, hmem⟩, ?_⟩
    rintro r' ⟨ids', hr', hmem'⟩
    exact hinv.unique r' r ids' ids i hr' hr hmem' hmem

/-- A symmetric port in use and a fast request queued behind a full class. -/
theorem allocator_invariant_in_use :
    ∃ s, Run ⟨1, 1, 1⟩ [.reserveSymmPorts 1 0, .use 0 0, .reserveFastPortsBestEffort 2] s ∧
      (∃! r, ∃ ids, s.reservation r = some ids ∧ 0 ∈ ids) ∧
      ∀ q ∈ s.requests .fast, s.reservation q.reservation = some [] := by
  obtain ⟨s, hs, hst⟩ : ∃ s, Run ⟨1, 1, 1⟩
      [.reserveSymmPorts 1 0, .use 0 0, .reserveFastPortsBestEffort 2] s ∧
      (s.port 0).status ≠ .free := exec_check (by decide)
  have hinv := allocator_invariant hs
  exact ⟨s, hs, hinv.2.2.1 0 (by decide) hst, hinv.2.2.2.2.1 .fast⟩

end DTun.Node.PortAllocator
