import DTun.Node.PortAllocator.Invariant

/-!
# Wakeups of queued port requests

A queued request is retried only by a posted `onProcessRequests` or `onDecayTimeout`.
The allocator keeps the promise that one of them is posted whenever waiting alone would
make the head request grantable, except in two places: the re-arming scan reads the clock
after the two attempts it follows, and cancelling a queued head posts nothing. `Prompt`
is enough to keep both from losing a wakeup. It is not the weakest condition: it asks
about free ports and sizes of requests, not whether a request would have been granted. The
run at the end breaks the promise without it.
-/

namespace DTun.Node.PortAllocator

open DTun.Lib.Runs

variable {cfg : Config} {p p' : Pool} {s s' : State} {k : PortKind} {t t' : Nat}

/-- The free ports whose decay time is not after `now`. -/
def freeDue (cfg : Config) (port : Nat → PortState) (now : Nat) : Finset Nat :=
  (Finset.range cfg.total).filter
    (fun i => (port i).status = .free ∧ (port i).decayTime ≤ (now : TimePoint))

theorem mem_freeDue {port : Nat → PortState} {now i : Nat} :
    i ∈ freeDue cfg port now ↔
      i < cfg.total ∧ (port i).status = .free ∧ (port i).decayTime ≤ (now : TimePoint) := by
  simp [freeDue]

theorem eligible_length (h : SetOk cfg p.port p.ports) (now : Nat) :
    (eligible p.port now p.ports).length = (freeDue cfg p.port now).card := by
  have hn : (eligible p.port now p.ports).Nodup := h.nodup.sublist (eligible_sublist _ _ _)
  rw [← List.toFinset_card_of_nodup hn]
  congr 1
  ext i
  rw [List.mem_toFinset, mem_freeDue, eligible, takeWhile_due h.sorted, List.mem_filter,
    List.mem_filter, h.mem_iff]
  simp only [decide_eq_true_eq]
  tauto

/-- A pool with the same head request, no more quota and no more free decayed ports
grants no more. -/
theorem Grantable.of_less (h : SetOk cfg p.port p.ports) (h' : SetOk cfg p'.port p'.ports)
    (hq : (p'.requests k).head? = (p.requests k).head?)
    (hr : p.reservedPorts k ≤ p'.reservedPorts k)
    (hf : freeDue cfg p'.port t' ⊆ freeDue cfg p.port t)
    (hg : Grantable cfg p' k t') : Grantable cfg p k t := by
  obtain ⟨req, rest, hreq, hquota, hpos, hlen⟩ := hg
  rw [eligible_length h'] at hlen
  have hcard := Finset.card_le_card hf
  rw [hreq, List.head?_cons] at hq
  obtain ⟨rest', hreq'⟩ := List.head?_eq_some_iff.mp hq.symm
  refine ⟨req, rest', hreq', by omega, hpos, ?_⟩
  rw [eligible_length h]
  omega

/-- Once every finite decay time is behind the clock, time changes nothing. -/
theorem not_grantable_of_settled (h : SetOk cfg p.port p.ports)
    (hpast : ∀ i < cfg.total, (p.port i).status = .free → (p.port i).decayTime ≠ ⊤ →
      (p.port i).decayTime ≤ (t : TimePoint))
    (hno : ¬ Grantable cfg p k t) (t' : Nat) : ¬ Grantable cfg p k t' := by
  refine fun hg => hno (hg.of_less h h rfl (le_refl _) ?_)
  intro i hi
  obtain ⟨hlt, hfree, hdue⟩ := mem_freeDue.mp hi
  have hne := ne_top_of_le_ne_top (WithTop.natCast_ne_top _) hdue
  exact mem_freeDue.mpr ⟨hlt, hfree, hpast i hlt hfree hne⟩

/-- Waiting alone, from now on, makes the head request of class `k` grantable. -/
def Awaited (cfg : Config) (s : State) (k : PortKind) : Prop :=
  ∃ t, s.clock ≤ t ∧ Grantable cfg s.toPool k t

/-- The readings of a decay handler that is about to leave: at `refused k` it gave up the
queue of class `k` and `t₃` is the reading of the re-arming scan. No free port may decay between
them, unless a later decay time re-arms the timer or `onProcessRequests` is posted anyway. -/
def ReadingsOk (cfg : Config) (s : State) (refused : PortKind → Nat) (t₃ : Nat) : Prop :=
  0 < s.processPosted ∨
  (∃ i < cfg.total, (s.port i).decayTime ≠ ⊤ ∧ (t₃ : TimePoint) < (s.port i).decayTime) ∨
  ∀ k, s.requests k ≠ [] → ∀ i < cfg.total, (s.port i).status = .free →
    (s.port i).decayTime ≤ (t₃ : TimePoint) → (s.port i).decayTime ≤ (refused k : TimePoint)

/-- The reading with which each class was refused. -/
def readings (tSymm tFast : Nat) : PortKind → Nat
  | .symm => tSymm
  | .fast => tFast

/-- When the queued head `r` is cancelled, the request behind it asks for at least as many
ports, or a callback is posted, or the handler that is running still has that queue ahead
of it. -/
def CancelOk (s : State) (r : Nat) : Prop :=
  ∀ k q q' rest, s.requests k = q :: q' :: rest → q.reservation = r →
    (1 ≤ q.numPorts ∧ q.numPorts ≤ q'.numPorts) ∨ 0 < s.processPosted ∨ s.decayPosted ≠ [] ∨
    ∃ h, s.handler = some h ∧ (h.kind = .symm ∨ k = .fast)

/-- The condition on one step, in terms of the state before it and its readings. -/
def Prompt (cfg : Config) (s : State) : Event → Prop
  | .cancel r _ | .destroy r _ => CancelOk s r
  | .onDecayTimeout t₁ t₂ t₃ =>
    ¬ Grantable cfg s.toPool .symm t₁ → ¬ Grantable cfg s.toPool .fast t₂ →
      ReadingsOk cfg s (readings t₁ t₂) t₃
  | .resume t₁ t₂ t₃ => ∀ h, s.handler = some h → h.decay = true →
    match h.kind with
    | .symm => ¬ Grantable cfg s.toPool .symm t₁ → ¬ Grantable cfg s.toPool .fast t₂ →
        ReadingsOk cfg s (readings t₁ t₂) t₃
    | .fast => ¬ Grantable cfg s.toPool .fast t₂ →
        ReadingsOk cfg s (readings h.symmRefusedAt t₂) t₃
  | _ => True

instance (P : PortKind → Prop) [DecidablePred P] : Decidable (∀ k, P k) :=
  decidable_of_iff (P .symm ∧ P .fast)
    ⟨fun h k => by cases k <;> simp [h], fun h => ⟨h .symm, h .fast⟩⟩

instance (cfg : Config) (p : Pool) (k : PortKind) (now : Nat) :
    Decidable (Grantable cfg p k now) :=
  decidable_of_iff (∃ req ∈ (p.requests k).head?,
    req.numPorts ≤ cfg.numPorts k - p.reservedPorts k ∧
    1 ≤ req.numPorts ∧ req.numPorts ≤ (eligible p.port now p.ports).length) <| by
    cases h : p.requests k <;> simp [Grantable, Served, h]

instance (s : State) (r : Nat) : Decidable (CancelOk s r) :=
  decidable_of_iff (∀ k, ∀ q ∈ (s.requests k).head?, ∀ q' ∈ (s.requests k).tail.head?,
    q.reservation = r →
      (1 ≤ q.numPorts ∧ q.numPorts ≤ q'.numPorts) ∨ 0 < s.processPosted ∨ s.decayPosted ≠ [] ∨
      ∃ h ∈ s.handler, h.kind = .symm ∨ k = .fast) <| by
    refine forall_congr' fun k => ?_
    rcases s.requests k with _ | ⟨q, _ | ⟨q', rest⟩⟩ <;> simp

instance (cfg : Config) (s : State) (refused : PortKind → Nat) (t₃ : Nat) :
    Decidable (ReadingsOk cfg s refused t₃) :=
  inferInstanceAs (Decidable (_ ∨ _ ∨ _))

instance (cfg : Config) (s : State) : (e : Event) → Decidable (Prompt cfg s e)
  | .cancel r _ | .destroy r _ => inferInstanceAs (Decidable (CancelOk s r))
  | .onDecayTimeout _ _ _ => inferInstanceAs (Decidable (_ → _ → _))
  | .resume t₁ t₂ t₃ =>
    match hh : s.handler with
    | none => .isTrue (by simp [Prompt, hh])
    | some h =>
      match hk : h.kind with
      | .symm => decidable_of_iff (h.decay = true → ¬ Grantable cfg s.toPool .symm t₁ →
          ¬ Grantable cfg s.toPool .fast t₂ → ReadingsOk cfg s (readings t₁ t₂) t₃)
          (by simp [Prompt, hh, hk])
      | .fast => decidable_of_iff (h.decay = true → ¬ Grantable cfg s.toPool .fast t₂ →
          ReadingsOk cfg s (readings h.symmRefusedAt t₂) t₃) (by simp [Prompt, hh, hk])
  | .reserveSymmPorts _ _ | .reserveFastPorts _ _ | .reserveSymmPortsBestEffort _
  | .reserveFastPortsBestEffort _ | .use _ _ | .keepalive _ | .onProcessRequests _ _ =>
    inferInstanceAs (Decidable True)

/-- Class `k` is known to be refused at `t`, given the handler that is running: before and
after a handler every class at every time; once it is at the fast queue the symmetric
class, by the decay handler only at its own reading. -/
def Settled (h : Option Handler) (k : PortKind) (t : Nat) : Prop :=
  match h with
  | none => True
  | some h => h.kind = .fast ∧ k = .symm ∧ (h.decay = true → t = h.symmRefusedAt)

/-- The timer flag is true exactly while the timer is posted or its handler runs; while it
is false every finite decay time is in the past; and with nothing posted every settled
class is refused. -/
structure Timed (cfg : Config) (s : State) : Prop where
  one : s.decayPosted.length ≤ 1
  running : s.decayRunning = true ↔
    s.decayPosted ≠ [] ∨ ∃ h, s.handler = some h ∧ h.decay = true
  exclusive : s.decayPosted ≠ [] → ∀ h, s.handler = some h → h.decay = false
  quiet : s.decayRunning = false → ∀ i < cfg.total, (s.port i).decayTime ≠ ⊤ →
    (s.port i).decayTime ≤ (s.clock : TimePoint)
  wake : s.processPosted = 0 → s.decayPosted = [] →
    ∀ k t, Settled s.handler k t → ¬ Grantable cfg s.toPool k t

theorem init_timed (cfg : Config) : Timed cfg (init cfg) where
  one := Nat.zero_le _
  running := by simp [init]
  exclusive := by simp [init]
  quiet := fun _ _ _ _ => le_refl _
  wake := by
    rintro _ _ k t _ ⟨req, rest, hreq, _⟩
    cases hreq

/-- A step that leaves the timer and the handler alone keeps the invariant when it posts
`onProcessRequests` or grants no more, and gives no port a new finite decay time. -/
theorem Timed.pool_step (h : Timed cfg s) {c n : Nat} (hc : s.clock ≤ c)
    (hdt : ∀ i < cfg.total, (p.port i).decayTime ≠ ⊤ →
      (p.port i).decayTime = (s.port i).decayTime)
    (hg : n = 0 → s.processPosted = 0 ∧ (s.decayPosted = [] →
      ∀ k t, Settled s.handler k t → Grantable cfg p k t → Grantable cfg s.toPool k t)) :
    Timed cfg { s with toPool := p, clock := c, processPosted := n } where
  one := h.one
  running := h.running
  exclusive := h.exclusive
  quiet := by
    intro hrun i hi htop
    have heq := hdt i hi htop
    have hle := h.quiet hrun i hi (heq ▸ htop)
    exact (heq.trans_le hle).trans (Nat.cast_le.mpr hc)
  wake := fun hn hd k t hs hgr => h.wake (hg hn).1 hd k t hs ((hg hn).2 hd k t hs hgr)

/-- Starting the decay timer: it is posted now, or it was running already. -/
theorem startDecay_timed {now : Nat} (hone : s.decayPosted.length ≤ 1)
    (hrunning : s.decayRunning = true ↔
      s.decayPosted ≠ [] ∨ ∃ h, s.handler = some h ∧ h.decay = true)
    (hexcl : s.decayPosted ≠ [] → ∀ h, s.handler = some h → h.decay = false)
    (hwake : s.processPosted = 0 → s.decayPosted = [] →
      ∀ k t, Settled s.handler k t → ¬ Grantable cfg s.toPool k t) :
    Timed cfg (startDecay cfg s now) := by
  unfold startDecay
  by_cases hrun : s.decayRunning = true
  · rw [if_pos hrun]
    refine ⟨hone, hrunning, hexcl, ?_, hwake⟩
    intro hfalse
    rw [hrun] at hfalse
    cases hfalse
  · rw [if_neg hrun]
    obtain ⟨hnil, hno⟩ := not_or.mp (fun hor => hrun (hrunning.mpr hor))
    have hnil : s.decayPosted = [] := not_not.mp hnil
    refine ⟨by simp [hnil], by simp, ?_, by simp, by simp⟩
    intro _ h hh
    by_contra hd
    exact hno ⟨h, hh, by simpa using hd⟩

theorem freeDue_mono {port port' : Nat → PortState}
    (hst : ∀ i, (port' i).status = .free → (port i).status = .free)
    (hdt : ∀ i, (port' i).status = .free → (port' i).decayTime = (port i).decayTime) (t : Nat) :
    freeDue cfg port' t ⊆ freeDue cfg port t := by
  intro i hi
  obtain ⟨hlt, hfree, hdue⟩ := mem_freeDue.mp hi
  exact mem_freeDue.mpr ⟨hlt, hst i hfree, hdt i hfree ▸ hdue⟩

/-- Handing ports out leaves fewer of them and less quota. -/
theorem Grantable.of_assign (h : SetOk cfg p.port p.ports) {j : PortKind} {r : Nat}
    {ids : List Nat} {n : Nat}
    (hg : Grantable cfg { assign p j r ids with nextReservation := n } k t) :
    Grantable cfg p k t := by
  refine Grantable.of_less h ?_ ?_ ?_ ?_ hg
  · exact h.congr fun i => setStatus_decayTime j.status ids p.port i
  · rfl
  · change p.reservedPorts k ≤ Function.update p.reservedPorts j _ k
    by_cases hk : k = j
    · subst hk
      rw [Function.update_self]
      omega
    · rw [Function.update_of_ne hk]
  · refine freeDue_mono (fun i hi => ?_) (fun i _ => setStatus_decayTime _ _ _ _) t
    change (setStatus j.status ids p.port i).status = .free at hi
    rw [setStatus_status] at hi
    split at hi
    · exact absurd hi j.status_ne_free
    · exact hi

theorem Granted.symm_of_fast (h : SetOk cfg p.port p.ports) (hgr : Granted cfg p .fast t' p')
    (hg : Grantable cfg p' .symm t) : Grantable cfg p .symm t := by
  obtain ⟨req, rest, _, _, _⟩ := hgr
  have hrest : Grantable cfg (assign p .fast req.reservation (chosen p t' req.numPorts)) .symm t :=
    hg
  exact Grantable.of_assign h hrest

theorem reserveNow_timed (hinv : Inv cfg s.toPool) (h : Timed cfg s) {n : Int} {now : Nat}
    (hc : s.clock ≤ now) : Timed cfg (reserveNow cfg s k n now) := by
  rcases reserveNow_eq cfg s hinv.set.nodup k n now with ⟨_, _, heq⟩ | ⟨c, hcc, heq⟩
  · rw [heq]
    refine h.pool_step (n := s.processPosted) hc (fun i _ _ => setStatus_decayTime _ _ _ _) ?_
    exact fun hz => ⟨hz, fun _ k t _ hg => hg.of_assign hinv.set⟩
  · rw [heq]
    have hle : s.clock ≤ c := by rcases hcc with rfl | rfl <;> omega
    exact h.pool_step (p := s.toPool) (n := s.processPosted) hle (fun _ _ _ => rfl)
      (fun hz => ⟨hz, fun _ _ _ _ hg => hg⟩)

theorem reserveLater_timed (h : Timed cfg s) (k : PortKind) (n : Int) :
    Timed cfg (reserveLater s k n) :=
  h.pool_step (p := enqueue s.toPool k n) (le_refl _) (fun _ _ _ => rfl) (fun hz => by omega)

theorem keepaliveReservation_timed (h : Timed cfg s) (r kept : Nat) (others : List Nat) :
    Timed cfg (keepaliveReservation s r kept others) := by
  refine h.pool_step (p := keepFirst s.toPool r kept others) (le_refl _) ?_ (fun hz => by omega)
  intro i _ htop
  unfold keepFirst at htop ⊢
  rw [rekey_decayTime] at htop ⊢
  by_cases hi : i = kept
  · rw [if_pos hi] at htop
    exact absurd rfl htop
  · rw [if_neg hi]
    exact setStatus_decayTime _ _ _ _

theorem useReservation_timed (hinv : Inv cfg s.toPool) (h : Timed cfg s) {r now : Nat}
    {ids : List Nat} (hr : s.reservation r = some ids) :
    Timed cfg (useReservation cfg s ids now) := by
  refine startDecay_timed h.one h.running h.exclusive ?_
  intro hp hd k t hs hg
  obtain ⟨hset, hbooks, hst, hdt⟩ := rekeyAll_spec ids ((now + cfg.decay : Nat) : TimePoint)
    hinv.set (hinv.lt_total hr)
  refine h.wake hp hd k t hs (hg.of_less hinv.set hset ?_ ?_ ?_)
  · exact congrArg (fun q => (q k).head?) hbooks.requests
  · exact le_of_eq (congrFun hbooks.reservedPorts k).symm
  · refine freeDue_mono (fun i hi => (hst i).symm.trans hi) (fun i hi => ?_) t
    have hno : i ∉ ids := fun hmem => hinv.not_free hr hmem ((hst i).symm.trans hi)
    exact (hdt i).trans (if_neg hno)

/-- Dropping the request of `r` changes the head of a queue only when `r` is that head. -/
theorem dropRequests_head (p : Pool) (r : Nat) (k : PortKind) :
    ((dropRequests p r).requests k).head? = (p.requests k).head? ∨
    ∃ q rest, p.requests k = q :: rest ∧ q.reservation = r ∧
      (dropRequests p r).requests k = rest := by
  change ((p.requests k).eraseP _).head? = _ ∨ ∃ q rest, _ ∧ _ ∧ (p.requests k).eraseP _ = rest
  cases hq : p.requests k with
  | nil => exact Or.inl rfl
  | cons q rest =>
    by_cases hr : q.reservation = r
    · exact Or.inr ⟨q, rest, rfl, hr, List.eraseP_cons_of_pos (by simp [hr])⟩
    · rw [List.eraseP_cons_of_neg (by simp [hr])]
      exact Or.inl rfl

theorem dropRequests_timed (hinv : Inv cfg s.toPool) (h : Timed cfg s) {r : Nat}
    (hok : CancelOk s r) : Timed cfg { s with toPool := dropRequests s.toPool r } := by
  refine h.pool_step (n := s.processPosted) (le_refl _) (fun _ _ _ => rfl) ?_
  refine fun hz => ⟨hz, fun hd k t hs hg => ?_⟩
  rcases dropRequests_head s.toPool r k with hhead | ⟨q, rest, hq, hr, hrest⟩
  · have hset : SetOk cfg (dropRequests s.toPool r).port (dropRequests s.toPool r).ports := hinv.set
    exact hg.of_less hinv.set hset hhead (le_refl _) (Finset.Subset.refl _)
  · -- the request behind the head asks for no less, so it would have been granted as well
    obtain ⟨req, rest', hreq, hquota, hpos, hlen⟩ := hg
    rw [hrest] at hreq
    rw [hreq] at hq
    rcases hok k q req rest' hq hr with ⟨h1, hle⟩ | hp | hdp | ⟨hd, hh, hkind⟩
    · refine ⟨q, _, hq, ?_, h1, hle.trans hlen⟩
      exact hle.trans hquota
    · omega
    · exact absurd hd hdp
    · rw [hh] at hs
      obtain ⟨hfast, hsymm, _⟩ := hs
      rcases hkind with hk | hk
      · rw [hk] at hfast
        cases hfast
      · rw [hk] at hsymm
        cases hsymm

theorem freeReservation_timed (hinv : Inv cfg s.toPool) (h : Timed cfg s) {r now : Nat}
    {ids : List Nat} (hr : s.reservation r = some ids) (hc : s.clock ≤ now)
    (hok : CancelOk s r) : Timed cfg (freeReservation cfg s r ids now) := by
  unfold freeReservation
  by_cases hids : ids = []
  · rw [if_pos hids]
    exact dropRequests_timed hinv h hok
  · obtain ⟨hrel, hflag⟩ := release_spec hinv.set r (hinv.lt_total hr) (now + cfg.decay)
    simp only [if_neg hids]
    split
    · exact startDecay_timed h.one h.running h.exclusive (fun hz => by simp at hz)
    · rename_i hno
      refine h.pool_step hc (fun i _ _ => ?_) (fun hz => by omega)
      have hnot : ¬ (i ∈ ids ∧ (s.port i).decayTime = ⊤) := fun hi => hno (hflag.mpr ⟨i, hi⟩)
      exact (hrel.decayTime i).trans (if_neg hnot)

/-- Forgetting a reservation changes neither the ports nor the queues. -/
theorem forget_timed (h : Timed cfg s) (r : Nat) :
    Timed cfg { s with reservation := Function.update s.reservation r none } := by
  refine h.pool_step (p := { s.toPool with reservation := Function.update s.reservation r none })
    (n := s.processPosted) (le_refl _) (fun _ _ _ => rfl) ?_
  exact fun hz => ⟨hz, fun _ _ _ _ hg => hg⟩

/-- What holds at a loop head of a handler, whatever it has done so far. -/
structure Serving (cfg : Config) (s : State) (decay : Bool) : Prop where
  one : s.decayPosted.length ≤ 1
  timer : decay = true → s.decayRunning = true ∧ s.decayPosted = []
  other : decay = false → (s.decayRunning = true ↔ s.decayPosted ≠ [])
  quiet : s.decayRunning = false → ∀ i < cfg.total, (s.port i).decayTime ≠ ⊤ →
    (s.port i).decayTime ≤ (s.clock : TimePoint)

/-- After a grant the handler stands in the callback. -/
theorem Serving.granted {decay : Bool} (h : Serving cfg s decay)
    (hgr : Granted cfg s.toPool k t p) (hc : s.clock ≤ t) (t₁ : Nat)
    (hwake : k = .fast → s.processPosted = 0 → s.decayPosted = [] →
      ∀ t, (decay = true → t = t₁) → ¬ Grantable cfg p .symm t) :
    Timed cfg { s with toPool := p, handler := some ⟨decay, k, t₁⟩, clock := t } := by
  have hdt : ∀ i, (p.port i).decayTime = (s.port i).decayTime := by
    obtain ⟨req, rest, _, _, _⟩ := hgr
    exact fun i => setStatus_decayTime _ _ _ _
  refine ⟨h.one, ?_, ?_, ?_, ?_⟩
  · cases decay with
    | true => simp [h.timer rfl]
    | false => simp [h.other rfl]
  · intro hne hd hh
    obtain rfl := Option.some.inj hh
    by_contra hdec
    exact hne (h.timer (by simpa using hdec)).2
  · intro hrun i hi htop
    have hle := h.quiet hrun i hi (hdt i ▸ htop)
    exact ((hdt i).trans_le hle).trans (Nat.cast_le.mpr hc)
  · rintro hp hd k' t' ⟨hk, rfl, ht⟩
    exact hwake hk hp hd t' ht

/-- The re-arming scan either finds a later finite decay time or leaves none behind. -/
theorem rearm_cases (hset : SetOk cfg s.port s.ports) (t₃ : Nat) :
    (∃ due, rearm s t₃ = { s with
      decayRunning := true, decayPosted := s.decayPosted ++ [due], handler := none, clock := t₃ }) ∨
    ((∀ i < cfg.total, (s.port i).decayTime ≠ ⊤ → (s.port i).decayTime ≤ (t₃ : TimePoint)) ∧
      rearm s t₃ = { s with decayRunning := false, handler := none, clock := t₃ }) := by
  unfold rearm
  split
  · rename_i hnone
    right
    refine ⟨fun i hi htop => ?_, rfl⟩
    have hi' := List.find?_eq_none.mp hnone i (hset.mem_iff.mpr hi)
    simp only [decide_eq_true_eq, not_and, not_lt] at hi'
    exact hi' htop
  · exact Or.inl ⟨_, rfl⟩

/-- A decay handler that was refused twice leaves with the timer posted, or with nothing
to wait for. -/
theorem Serving.rearm (h : Serving cfg s true) (hset : SetOk cfg s.port s.ports)
    {refused : PortKind → Nat} {t₃ : Nat}
    (hno : s.processPosted = 0 → ∀ k, ¬ Grantable cfg s.toPool k (refused k))
    (hok : ReadingsOk cfg s refused t₃) : Timed cfg (rearm s t₃) := by
  obtain ⟨_, hnil⟩ := h.timer rfl
  rcases rearm_cases hset t₃ with ⟨due, heq⟩ | ⟨hpast, heq⟩
  · rw [heq]
    exact ⟨by simp [hnil], by simp, by simp, by simp, by simp⟩
  · rw [heq]
    refine ⟨h.one, by simp [hnil], by simp, fun _ => hpast, ?_⟩
    intro hp _ k t _ hg
    rcases hok with hpos | ⟨i, hi, htop, hlate⟩ | hall
    · exact absurd hp (by simpa using Nat.ne_of_gt hpos)
    · exact absurd (hpast i hi htop) (not_le.mpr hlate)
    · have hne : s.requests k ≠ [] := by
        obtain ⟨req, rest, hreq, _⟩ := hg
        rw [show s.requests k = req :: rest from hreq]
        exact List.cons_ne_nil _ _
      refine not_grantable_of_settled hset (fun i hi hfree htop => ?_) (hno hp k) t hg
      exact hall k hne i hi hfree (hpast i hi htop)

/-- With no timer posted every decay time is past, so a refusal is final. -/
theorem Serving.refused (h : Serving cfg s false) (hset : SetOk cfg s.port s.ports)
    (hd : s.decayPosted = []) {now : Nat} (hc : s.clock ≤ now)
    (hno : ¬ Grantable cfg s.toPool k now) (t : Nat) : ¬ Grantable cfg s.toPool k t := by
  have hrun : s.decayRunning = false := by
    by_contra hr
    exact (h.other rfl).mp (by simpa using hr) hd
  refine not_grantable_of_settled hset (fun i hi _ htop => ?_) hno t
  exact (h.quiet hrun i hi htop).trans (Nat.cast_le.mpr hc)

theorem runFast_timed {decay : Bool} {t₁ t₂ t₃ : Nat} (h : Serving cfg s decay)
    (hset : SetOk cfg s.port s.ports) (h₂ : s.clock ≤ t₂)
    (hsymm : s.processPosted = 0 → s.decayPosted = [] →
      ∀ t, (decay = true → t = t₁) → ¬ Grantable cfg s.toPool .symm t)
    (hok : decay = true → ¬ Grantable cfg s.toPool .fast t₂ →
      ReadingsOk cfg s (readings t₁ t₂) t₃) :
    Timed cfg (runFast cfg s decay t₁ t₂ t₃) := by
  rcases runFast_cases cfg s hset.nodup decay t₁ t₂ t₃ with ⟨p, hgr, heq⟩ | ⟨hno, heq⟩
  · rw [heq]
    refine h.granted hgr h₂ t₁ ?_
    exact fun _ hp hd t ht hg => hsymm hp hd t ht (hgr.symm_of_fast hset hg)
  · rw [heq]
    cases decay with
    | true =>
      refine h.rearm hset ?_ (hok rfl hno)
      intro hp k
      cases k with
      | symm => exact hsymm hp (h.timer rfl).2 t₁ (fun _ => rfl)
      | fast => exact hno
    | false =>
      refine ⟨h.one, by simpa using h.other rfl, by simp, ?_, ?_⟩
      · intro hrun i hi htop
        exact (h.quiet hrun i hi htop).trans (Nat.cast_le.mpr h₂)
      · intro hp hd k t _
        cases k with
        | symm => exact hsymm hp hd t (fun hf => by cases hf)
        | fast => exact h.refused hset hd h₂ hno t

theorem runSymm_timed {decay : Bool} {t₁ t₂ t₃ : Nat} (h : Serving cfg s decay)
    (hset : SetOk cfg s.port s.ports) (h₁ : s.clock ≤ t₁) (h₂ : t₁ ≤ t₂)
    (hok : decay = true → ¬ Grantable cfg s.toPool .symm t₁ → ¬ Grantable cfg s.toPool .fast t₂ →
      ReadingsOk cfg s (readings t₁ t₂) t₃) :
    Timed cfg (runSymm cfg s decay t₁ t₂ t₃) := by
  rcases runSymm_cases cfg s hset.nodup decay t₁ t₂ t₃ with ⟨p, hgr, heq⟩ | ⟨hno, heq⟩
  · rw [heq]
    exact h.granted hgr h₁ t₁ (fun hk => by cases hk)
  · rw [heq]
    refine runFast_timed h hset (h₁.trans h₂) ?_ (fun hd => hok hd hno)
    intro _ hd t ht
    cases decay with
    | true => rw [ht rfl]; exact hno
    | false => exact h.refused hset hd h₁ hno t

/-- A handler that stands in a callback is still serving. -/
theorem Timed.serving (h : Timed cfg s) {hd : Handler} (hh : s.handler = some hd) :
    Serving cfg s hd.decay := by
  refine ⟨h.one, ?_, ?_, h.quiet⟩
  · intro hdec
    refine ⟨h.running.mpr (Or.inr ⟨hd, hh, hdec⟩), ?_⟩
    by_contra hne
    rw [h.exclusive hne hd hh] at hdec
    cases hdec
  · intro hdec
    refine h.running.trans ⟨?_, Or.inl⟩
    rintro (hne | ⟨hd', hh', hdec'⟩)
    · exact hne
    · obtain rfl := Option.some.inj (hh.symm.trans hh')
      rw [hdec] at hdec'
      cases hdec'

theorem resume_timed (hinv : Inv cfg s.toPool) (h : Timed cfg s) {hd : Handler}
    (hh : s.handler = some hd) {t₁ t₂ t₃ : Nat} (h₁ : s.clock ≤ t₁) (h₂ : t₁ ≤ t₂)
    (hok : Prompt cfg s (.resume t₁ t₂ t₃)) : Timed cfg (resume cfg s hd t₁ t₂ t₃) := by
  have hserve := h.serving hh
  have hok := hok hd hh
  unfold resume
  cases hk : hd.kind with
  | symm =>
    rw [hk] at hok
    exact runSymm_timed hserve hinv.set h₁ h₂ hok
  | fast =>
    rw [hk] at hok
    refine runFast_timed hserve hinv.set (h₁.trans h₂) ?_ hok
    intro hp hnil t ht
    refine h.wake hp hnil .symm t ?_
    rw [hh]
    exact ⟨hk, rfl, ht⟩

theorem step_timed (hinv : Inv cfg s.toPool) (h : Timed cfg s) {e : Event}
    (hok : Prompt cfg s e) (hs : step cfg s e = some s') : Timed cfg s' := by
  cases e with
  | reserveSymmPorts n now =>
    obtain ⟨hc, he⟩ := Option.ite_none_right_eq_some.mp hs
    obtain rfl := Option.some.inj he
    exact reserveNow_timed hinv h hc
  | reserveFastPorts n now =>
    obtain ⟨hc, he⟩ := Option.ite_none_right_eq_some.mp hs
    obtain rfl := Option.some.inj he
    exact reserveNow_timed hinv h hc
  | reserveSymmPortsBestEffort n =>
    obtain rfl := Option.some.inj hs
    exact reserveLater_timed h .symm n
  | reserveFastPortsBestEffort n =>
    obtain rfl := Option.some.inj hs
    exact reserveLater_timed h .fast n
  | use r now =>
    simp only [step] at hs
    split at hs
    case h_1 i ids hr =>
      obtain ⟨_, he⟩ := Option.ite_none_right_eq_some.mp hs
      obtain rfl := Option.some.inj he
      exact useReservation_timed hinv h hr
    case h_2 => cases hs
  | keepalive r =>
    simp only [step] at hs
    split at hs
    case h_1 i ids _ =>
      obtain rfl := Option.some.inj hs
      exact keepaliveReservation_timed h r i ids
    case h_2 => cases hs
  | cancel r now =>
    simp only [step] at hs
    split at hs
    case h_1 ids hr =>
      obtain ⟨hc, he⟩ := Option.ite_none_right_eq_some.mp hs
      obtain rfl := Option.some.inj he
      exact freeReservation_timed hinv h hr hc hok
    case h_2 => cases hs
  | destroy r now =>
    simp only [step] at hs
    split at hs
    case h_1 ids hr =>
      obtain ⟨hc, he⟩ := Option.ite_none_right_eq_some.mp hs
      obtain rfl := Option.some.inj he
      exact forget_timed (freeReservation_timed hinv h hr hc hok) r
    case h_2 => cases hs
  | onProcessRequests t₁ t₂ =>
    obtain ⟨⟨hnone, _, h₁, h₂⟩, he⟩ := Option.ite_none_right_eq_some.mp hs
    obtain rfl := Option.some.inj he
    have hh : s.handler = none := by simpa using hnone
    have hserve : Serving cfg { s with processPosted := s.processPosted - 1 } false := by
      refine ⟨h.one, by simp, fun _ => ?_, h.quiet⟩
      simpa [hh] using h.running
    exact runSymm_timed hserve hinv.set h₁ h₂ (by simp)
  | onDecayTimeout t₁ t₂ t₃ =>
    simp only [step] at hs
    split at hs
    case h_1 due rest hposted =>
      obtain ⟨⟨_, _, h₁, h₂, _⟩, he⟩ := Option.ite_none_right_eq_some.mp hs
      obtain rfl := Option.some.inj he
      have hrest : rest = [] := by
        have hone := h.one
        rw [hposted, List.length_cons] at hone
        exact List.length_eq_zero_iff.mp (by omega)
      have hrun : s.decayRunning = true := h.running.mpr (Or.inl (by simp [hposted]))
      have hserve : Serving cfg { s with decayPosted := rest } true :=
        ⟨by simp [hrest], fun _ => ⟨hrun, hrest⟩, by simp, h.quiet⟩
      exact runSymm_timed hserve hinv.set h₁ h₂ (fun _ => hok)
    case h_2 => cases hs
  | resume t₁ t₂ t₃ =>
    simp only [step] at hs
    split at hs
    case h_1 hd hh =>
      obtain ⟨⟨h₁, h₂, _⟩, he⟩ := Option.ite_none_right_eq_some.mp hs
      obtain rfl := Option.some.inj he
      exact resume_timed hinv h hh h₁ h₂ hok
    case h_2 => cases hs

/-- Along prompt steps no wakeup is lost: in every state outside a handler in which waiting
alone would make a head request grantable, a callback that retries it is posted. -/
theorem no_lost_wakeup {es : List Event} (hrun : Run cfg es s)
    (hok : Along (step cfg) (Prompt cfg) (init cfg) es) (hquiet : s.handler = none)
    (hw : Awaited cfg s k) :
    0 < s.processPosted ∨ (s.decayRunning = true ∧ s.decayPosted ≠ []) := by
  have hinv : Inv cfg s.toPool ∧ Timed cfg s :=
    exec_invariant_along (I := fun s => Inv cfg s.toPool ∧ Timed cfg s)
      (fun _ _ _ hi hp hs => ⟨step_inv hi.1 hs, step_timed hi.1 hi.2 hp hs⟩)
      ⟨init_inv cfg, init_timed cfg⟩ hok hrun
  obtain ⟨_, htimed⟩ := hinv
  by_contra hnot
  obtain ⟨hp, hd⟩ := not_or.mp hnot
  have hnil : s.decayPosted = [] := by
    by_contra hne
    exact hd ⟨htimed.running.mpr (Or.inl hne), hne⟩
  obtain ⟨t, _, hg⟩ := hw
  refine htimed.wake (by omega) hnil k t ?_ hg
  rw [hquiet]
  trivial

/-- One millisecond of decay, two fast ports that were used and freed, and two requests for both of
them. The first request is cancelled, and the timer fires before the second port has decayed. -/
def cancelledHead : List Event :=
  [.reserveFastPorts 1 0, .reserveFastPorts 1 0, .use 0 0, .use 1 1500000,
    .cancel 0 1600000, .cancel 1 1600000, .reserveFastPortsBestEffort 2,
    .reserveFastPortsBestEffort 2, .onProcessRequests 1700000 1700000,
    .onProcessRequests 1700000 1700000, .onProcessRequests 1700000 1700000,
    .onProcessRequests 1700000 1700000, .cancel 2 1800000,
    .onDecayTimeout 2400000 2400000 2400000]

/-- The timer is posted again for the other request. -/
theorem no_lost_wakeup_queued :
    ∃ s, Run ⟨0, 2, 1⟩ cancelledHead s ∧ s.requests .fast = [⟨2, 3⟩] ∧ s.processPosted = 0 ∧
      (0 < s.processPosted ∨ (s.decayRunning = true ∧ s.decayPosted ≠ [])) := by
  obtain ⟨s, hs, hh, hq, hp, hc, hg⟩ : ∃ s, Run ⟨0, 2, 1⟩ cancelledHead s ∧
      (s.handler.isNone ∧ s.requests .fast = [⟨2, 3⟩] ∧ s.processPosted = 0 ∧
        s.clock = 2400000 ∧ Grantable ⟨0, 2, 1⟩ s.toPool .fast 2500000) :=
    exec_check (by decide +kernel)
  exact ⟨s, hs, hq, hp, no_lost_wakeup hs (by decide +kernel) (by simpa using hh)
    ⟨2500000, by omega, hg⟩⟩

/-- One millisecond of decay, two fast ports. Both are used, the second half a millisecond
before the timer of the first; both are freed and a request for both waits. The timer
fires before the second port has decayed, and the scan reads the clock after. -/
def lateScan : List Event :=
  [.reserveFastPorts 1 0, .reserveFastPorts 1 0, .use 0 0, .use 1 1500000,
    .cancel 0 1600000, .cancel 1 1600000, .reserveFastPortsBestEffort 2,
    .onProcessRequests 1700000 1700000, .onProcessRequests 1700000 1700000,
    .onProcessRequests 1700000 1700000, .onDecayTimeout 2400000 2499999 2500001]

/-- The request is then grantable and nothing will ever retry it. -/
theorem lateScan_loses_wakeup :
    ∃ s, Run ⟨0, 2, 1⟩ lateScan s ∧ s.handler = none ∧ s.requests .fast ≠ [] ∧
      Awaited ⟨0, 2, 1⟩ s .fast ∧ s.processPosted = 0 ∧ s.decayRunning = false ∧
      s.decayPosted = [] := by
  obtain ⟨s, hs, hh, hq, hc, hg, hrest⟩ : ∃ s, Run ⟨0, 2, 1⟩ lateScan s ∧
      (s.handler.isNone ∧ s.requests .fast ≠ [] ∧ s.clock = 2500001 ∧
        Grantable ⟨0, 2, 1⟩ s.toPool .fast 2500001 ∧ s.processPosted = 0 ∧
        s.decayRunning = false ∧ s.decayPosted = []) :=
    exec_check (by decide +kernel)
  exact ⟨s, hs, by simpa using hh, hq, ⟨2500001, by omega, hg⟩, hrest⟩

end DTun.Node.PortAllocator
