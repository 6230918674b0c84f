import DTun.Node.PortAllocator.Invariant

/-!
# A port is not handed out before its NAT mapping has decayed

The decay time of a port remembers every use of a reservation that held it, through any
number of reservations of either class: it is never moved below `u + decayTimeoutMs` for
a past use at `u`, and while the port is kept alive it is infinite. The events of the run
are the only history; the caller's discipline, no `use()` after `keepalive()`, is a
hypothesis on them.
-/

namespace DTun.Node.PortAllocator

open DTun.Lib.Runs

variable {cfg : Config} {p p' : Pool} {s s' : State} {e : Event} {es : List Event} {c r i : Nat}

/-- The second event uses the reservation that the first one keeps alive. -/
def UsesKept : Event → Event → Prop
  | .keepalive r, .use r' _ => r = r'
  | _, _ => False

/-- `use()` is not called on a reservation after its `keepalive()`. -/
def NoUseAfterKeepalive (es : List Event) : Prop :=
  es.Pairwise (fun a b => ¬ UsesKept a b)

/-- Reservation `r` listed port `i` at some point of the run. -/
def EverHeld (cfg : Config) (es : List Event) (r i : Nat) : Prop :=
  ∃ pre post s ids, es = pre ++ post ∧ Run cfg pre s ∧ s.reservation r = some ids ∧ i ∈ ids

/-- The event that took the kept port `i` of `r` back at time `f`, somewhere in `post`. -/
def FreedAt (cfg : Config) (pre post : List Event) (r i f : Nat) : Prop :=
  ∃ mid e tail s, post = mid ++ e :: tail ∧ (e = .cancel r f ∨ e = .destroy r f) ∧
    Run cfg (pre ++ mid) s ∧ s.reservation r = some [i]

/-- Not yet granted: either not made yet or still queued. -/
def Idle (p : Pool) (r : Nat) : Prop :=
  p.nextReservation ≤ r ∨ ∃ k, ∃ q ∈ p.requests k, q.reservation = r

theorem Inv.idle_empty (h : Inv cfg p) (hidle : Idle p r) {ids : List Nat}
    (hr : p.reservation r = some ids) : ids = [] := by
  rcases hidle with hfresh | ⟨k, q, hq, rfl⟩
  · rw [h.fresh r hfresh] at hr
    cases hr
  · exact (Option.some.inj ((h.queued k q hq).symm.trans hr)).symm

theorem keepFirst_decayTime (p : Pool) (r kept : Nat) (others : List Nat) (j : Nat) :
    ((keepFirst p r kept others).port j).decayTime =
      if j = kept then ⊤ else (p.port j).decayTime := by
  unfold keepFirst
  rw [rekey_decayTime]
  simp only [setStatus_decayTime]

theorem granted_decayTime {k : PortKind} {t : Nat} (h : Granted cfg p k t p') (j : Nat) :
    (p'.port j).decayTime = (p.port j).decayTime := by
  obtain ⟨req, rest, _, _, _⟩ := h
  exact setStatus_decayTime _ _ _ _

/-- A cancellation changes only the decay times of kept-alive ports of the reservation. -/
theorem cancel_decayTime (h : Inv cfg p) {now : Nat} (hs : PoolStep cfg p (.cancel r now) c p') :
    (∀ j, (p'.port j).decayTime = (p.port j).decayTime) ∨
    ∃ ids, p.reservation r = some ids ∧ c = now ∧ ∀ j, (p'.port j).decayTime =
      if j ∈ ids ∧ (p.port j).decayTime = ⊤ then ((c + cfg.decay : Nat) : TimePoint)
      else (p.port j).decayTime := by
  rcases hs.cancel_cases with ⟨_, rfl⟩ | ⟨ids, hr, _, rfl, rfl⟩
  · exact Or.inl fun _ => rfl
  · exact Or.inr ⟨ids, hr, rfl, (release_spec h.set r (h.lt_total hr) _).1.decayTime⟩

/-- No step moves a decay time below what a past use asks for. -/
theorem PoolStep.decayTime_ge (h : Inv cfg p) (hs : PoolStep cfg p e c p') {u : Nat} (hu : u ≤ c)
    (hle : ((u + cfg.decay : Nat) : TimePoint) ≤ (p.port i).decayTime) :
    ((u + cfg.decay : Nat) : TimePoint) ≤ (p'.port i).decayTime := by
  have hnow : ((u + cfg.decay : Nat) : TimePoint) ≤ ((c + cfg.decay : Nat) : TimePoint) :=
    Nat.cast_le.mpr (by omega)
  have hcancel : ∀ {r now : Nat} (q : Pool), PoolStep cfg p (.cancel r now) c q →
      ((u + cfg.decay : Nat) : TimePoint) ≤ (q.port i).decayTime := by
    intro r now q hq
    rcases cancel_decayTime h hq with hsame | ⟨ids, _, _, hdt⟩
    · rw [hsame]
      exact hle
    · rw [hdt]
      split
      · exact hnow
      · exact hle
  cases hs with
  | same => exact hle
  | reserve => exact hle.trans_eq (setStatus_decayTime _ _ _ _).symm
  | grant _ _ _ _ _ hg => exact hle.trans_eq (granted_decayTime hg i).symm
  | enqueue => exact hle
  | use r _ j ids hr =>
    rw [(rekeyAll_spec (j :: ids) _ h.set (h.lt_total hr)).2.2.2 i]
    split
    · exact hnow
    · exact hle
  | keepalive r kept others =>
    rw [keepFirst_decayTime]
    split
    · exact le_top
    · exact hle
  | drop r now _ hr => exact hle
  | release r _ ids hr hne => exact hcancel _ (PoolStep.release r _ ids hr hne)
  | forget r now _ q hq => exact hcancel q hq

/-- What a cancellation of `r` leaves of the reservations: `r` is empty, the others stay. -/
theorem cancel_reservation (h : Inv cfg p) {now : Nat} (hs : PoolStep cfg p (.cancel r now) c p') :
    (∀ ids, p'.reservation r = some ids → ids = []) ∧
    ∀ r' ≠ r, p'.reservation r' = p.reservation r' := by
  rcases hs.cancel_cases with ⟨hr, rfl⟩ | ⟨ids, hr, _, _, rfl⟩
  · exact ⟨fun ids hids => (Option.some.inj (hr.symm.trans hids)).symm, fun _ _ => rfl⟩
  · rw [(release_spec h.set r (h.lt_total hr) _).1.reservation]
    refine ⟨fun ids hids => ?_, fun r' hne => Function.update_of_ne hne _ _⟩
    rw [Function.update_self] at hids
    exact (Option.some.inj hids).symm

/-- A step gives a reservation ports only while it is idle; otherwise it leaves it alone,
shrinks it by `keepalive` or empties it. -/
theorem PoolStep.reservation_cases (h : Inv cfg p) (hs : PoolStep cfg p e c p') (r : Nat) :
    p'.reservation r = p.reservation r ∨
    (Idle p r ∧ e.target = none) ∨
    (∃ kept others, e = .keepalive r ∧ p.reservation r = some (kept :: others) ∧
      p'.reservation r = some [kept]) ∨
    ((∃ now, e = .cancel r now ∨ e = .destroy r now) ∧
      ∀ ids, p'.reservation r = some ids → ids = []) := by
  cases hs with
  | same => exact Or.inl rfl
  | reserve _ k n _ he =>
    by_cases hr : r = p.nextReservation
    · exact Or.inr (Or.inl ⟨Or.inl (le_of_eq hr.symm), he⟩)
    · exact Or.inl (Function.update_of_ne hr _ _)
  | grant _ k _ _ he hg =>
    obtain ⟨req, rest, hq, _, _⟩ := hg
    by_cases hr : r = req.reservation
    · exact Or.inr (Or.inl ⟨Or.inr ⟨k, req, by simp [hq], hr.symm⟩, he⟩)
    · exact Or.inl (Function.update_of_ne hr _ _)
  | enqueue _ k n _ he =>
    by_cases hr : r = p.nextReservation
    · exact Or.inr (Or.inl ⟨Or.inl (le_of_eq hr.symm), he⟩)
    · exact Or.inl (Function.update_of_ne hr _ _)
  | use r' _ j ids hr' =>
    have hbooks := (rekeyAll_spec (j :: ids) ((c + cfg.decay : Nat) : TimePoint) h.set
      (h.lt_total hr')).2.1
    exact Or.inl (congrFun hbooks.reservation r)
  | keepalive r' kept others _ hr' =>
    by_cases hr : r = r'
    · subst hr
      exact Or.inr (Or.inr (Or.inl ⟨kept, others, rfl, hr', Function.update_self _ _ _⟩))
    · exact Or.inl (Function.update_of_ne hr _ _)
  | drop r' now _ hr' => exact Or.inl rfl
  | release r' _ ids hr' hne =>
    obtain ⟨hempty, hother⟩ := cancel_reservation h (PoolStep.release r' c ids hr' hne)
    by_cases hr : r = r'
    · subst hr
      exact Or.inr (Or.inr (Or.inr ⟨⟨c, Or.inl rfl⟩, hempty⟩))
    · exact Or.inl (hother r hr)
  | forget r' now _ q hq =>
    obtain ⟨_, hother⟩ := cancel_reservation h hq
    by_cases hr : r = r'
    · subst hr
      refine Or.inr (Or.inr (Or.inr ⟨⟨now, Or.inr rfl⟩, fun ids hids => ?_⟩))
      cases (Function.update_self r none q.reservation).symm.trans hids
    · exact Or.inl ((Function.update_of_ne hr _ _).trans (hother r hr))

/-- Reservations become idle only by being made. -/
theorem PoolStep.idle (h : Inv cfg p) (hs : PoolStep cfg p e c p') (hidle : Idle p' r) :
    Idle p r := by
  have hcancel : ∀ {r' now : Nat} (q : Pool), PoolStep cfg p (.cancel r' now) c q →
      Idle q r → Idle p r := by
    intro r' now q hq hidle
    rcases hq.cancel_cases with ⟨_, rfl⟩ | ⟨ids, hr, _, _, rfl⟩
    · rcases hidle with hfresh | ⟨k, q, hmem, hq⟩
      · exact Or.inl hfresh
      · exact Or.inr ⟨k, q, (dropRequests_sublist p r' k).mem hmem, hq⟩
    · have hrel := (release_spec h.set r' (h.lt_total hr) (now + cfg.decay)).1
      unfold Idle at hidle
      rw [hrel.nextReservation, hrel.requests] at hidle
      exact hidle
  cases hs with
  | same => exact hidle
  | reserve =>
    rcases hidle with hfresh | hq
    · exact Or.inl (Nat.le_of_succ_le hfresh)
    · exact Or.inr hq
  | grant _ k _ _ _ hg =>
    obtain ⟨req, rest, hq, _, _⟩ := hg
    rcases hidle with hfresh | ⟨k', q, hmem, hr⟩
    · exact Or.inl hfresh
    · change q ∈ Function.update p.requests k rest k' at hmem
      refine Or.inr ⟨k', q, ?_, hr⟩
      by_cases hk : k' = k
      · subst hk
        rw [Function.update_self] at hmem
        rw [hq]
        exact List.mem_cons_of_mem _ hmem
      · rwa [Function.update_of_ne hk] at hmem
  | enqueue _ k n =>
    rcases hidle with hfresh | ⟨k', q, hmem, hr⟩
    · exact Or.inl (Nat.le_of_succ_le hfresh)
    · change q ∈ Function.update p.requests k (p.requests k ++ [⟨n, p.nextReservation⟩]) k' at hmem
      by_cases hk : k' = k
      · subst hk
        rw [Function.update_self, List.mem_append, List.mem_singleton] at hmem
        rcases hmem with hmem | rfl
        · exact Or.inr ⟨k', q, hmem, hr⟩
        · exact Or.inl (le_of_eq hr)
      · rw [Function.update_of_ne hk] at hmem
        exact Or.inr ⟨k', q, hmem, hr⟩
  | use r' _ j ids hr' =>
    have hbooks := (rekeyAll_spec (j :: ids) ((c + cfg.decay : Nat) : TimePoint) h.set
      (h.lt_total hr')).2.1
    unfold Idle at hidle
    rw [hbooks.nextReservation, hbooks.requests] at hidle
    exact hidle
  | keepalive => exact hidle
  | drop r' now _ hr => exact hcancel _ (PoolStep.drop r' now c hr) hidle
  | release r' _ ids hr hne => exact hcancel _ (PoolStep.release r' c ids hr hne) hidle
  | forget r' now _ q hq => exact hcancel q hq hidle

/-- `use` gives exactly the ports of its reservation the decay time of this use. -/
theorem PoolStep.use_spec (h : Inv cfg p) {now : Nat} (hs : PoolStep cfg p (.use r now) c p') :
    c = now ∧ ∃ ids, p.reservation r = some ids ∧ ids ≠ [] ∧ p'.reservation = p.reservation ∧
      ∀ j ∈ ids, (p'.port j).decayTime = ((now + cfg.decay : Nat) : TimePoint) := by
  cases hs with
  | use _ _ j ids hr =>
    obtain ⟨_, hbooks, _, hdt⟩ := rekeyAll_spec (j :: ids) ((c + cfg.decay : Nat) : TimePoint)
      h.set (h.lt_total hr)
    exact ⟨rfl, j :: ids, hr, List.cons_ne_nil _ _, hbooks.reservation,
      fun x hx => (hdt x).trans (if_pos hx)⟩
  | same _ _ he => cases he
  | reserve _ _ _ _ he => cases he
  | grant _ _ _ _ he => cases he
  | enqueue _ _ _ _ he => cases he

/-- A port that is kept alive stays so until its reservation is used or taken back. -/
theorem PoolStep.kept_cases (h : Inv cfg p) (hs : PoolStep cfg p e c p')
    (hr : p.reservation r = some [i]) (htop : (p.port i).decayTime = ⊤) :
    (p'.reservation r = some [i] ∧ (p'.port i).decayTime = ⊤) ∨ (∃ now, e = .use r now) ∨
    ((e = .cancel r c ∨ e = .destroy r c) ∧
      (p'.port i).decayTime = ((c + cfg.decay : Nat) : TimePoint)) := by
  have hbusy : ¬ Idle p r := fun hidle => by cases h.idle_empty hidle hr
  have hcancel : ∀ {r' now : Nat} (q : Pool), PoolStep cfg p (.cancel r' now) c q →
      (r' ≠ r ∧ q.reservation r = some [i] ∧ (q.port i).decayTime = ⊤) ∨
      (r' = r ∧ c = now ∧ (q.port i).decayTime = ((c + cfg.decay : Nat) : TimePoint)) := by
    intro r' now q hq
    by_cases hrr : r' = r
    · subst hrr
      rcases hq.cancel_cases with ⟨hr', _⟩ | ⟨ids, hr', _, rfl, rfl⟩
      · rw [hr] at hr'
        cases hr'
      · obtain rfl := Option.some.inj (hr.symm.trans hr')
        have hdt := (release_spec h.set r' (h.lt_total hr) (c + cfg.decay)).1.decayTime i
        exact Or.inr ⟨rfl, rfl, hdt.trans (if_pos ⟨List.mem_singleton_self i, htop⟩)⟩
    · refine Or.inl ⟨hrr, ((cancel_reservation h hq).2 r (Ne.symm hrr)).trans hr, ?_⟩
      rcases cancel_decayTime h hq with hsame | ⟨ids, hr', _, hdt⟩
      · exact (hsame i).trans htop
      · -- another reservation does not list the kept port
        have hno : i ∉ ids := fun hmem => hrr (h.unique r' r ids [i] i hr' hr hmem (by simp))
        rw [hdt i, if_neg (fun hand => hno hand.1)]
        exact htop
  have hres := hs.reservation_cases h r
  cases hs with
  | same => exact Or.inl ⟨hr, htop⟩
  | reserve _ k n _ he =>
    rcases hres with hsame | ⟨hidle, _⟩ | ⟨_, _, rfl, _⟩ | ⟨⟨_, rfl | rfl⟩, _⟩
    · exact Or.inl ⟨hsame.trans hr, (setStatus_decayTime _ _ _ _).trans htop⟩
    · exact absurd hidle hbusy
    all_goals cases he
  | grant _ k _ _ he hg =>
    rcases hres with hsame | ⟨hidle, _⟩ | ⟨_, _, rfl, _⟩ | ⟨⟨_, rfl | rfl⟩, _⟩
    · exact Or.inl ⟨hsame.trans hr, (granted_decayTime hg i).trans htop⟩
    · exact absurd hidle hbusy
    all_goals cases he
  | enqueue _ k n _ he =>
    rcases hres with hsame | ⟨hidle, _⟩ | ⟨_, _, rfl, _⟩ | ⟨⟨_, rfl | rfl⟩, _⟩
    · exact Or.inl ⟨hsame.trans hr, htop⟩
    · exact absurd hidle hbusy
    all_goals cases he
  | use r' _ j ids hr' =>
    obtain ⟨_, hbooks, _, hdt⟩ := rekeyAll_spec (j :: ids) ((c + cfg.decay : Nat) : TimePoint)
      h.set (h.lt_total hr')
    by_cases hrr : r' = r
    · exact Or.inr (Or.inl ⟨c, by rw [hrr]⟩)
    · have hno : i ∉ j :: ids := fun hmem => hrr (h.unique r' r _ [i] i hr' hr hmem (by simp))
      refine Or.inl ⟨(congrFun hbooks.reservation r).trans hr, ?_⟩
      exact ((hdt i).trans (if_neg hno)).trans htop
  | keepalive r' kept others _ hr' =>
    left
    rw [keepFirst_decayTime, htop, ite_self]
    refine ⟨?_, rfl⟩
    rcases hres with hsame | ⟨_, he⟩ | ⟨kept', others', _, hold, hnew⟩ | ⟨⟨_, he | he⟩, _⟩
    · exact hsame.trans hr
    · cases he
    · obtain ⟨rfl, _⟩ := List.cons.inj (Option.some.inj (hold.symm.trans hr))
      exact hnew
    all_goals cases he
  | drop r' now _ hr' =>
    rcases hcancel _ (PoolStep.drop r' now c hr') with ⟨_, hleft⟩ | ⟨rfl, rfl, hdt⟩
    · exact Or.inl hleft
    · exact Or.inr (Or.inr ⟨Or.inl rfl, hdt⟩)
  | release r' _ ids hr' hne =>
    rcases hcancel _ (PoolStep.release r' c ids hr' hne) with ⟨_, hleft⟩ | ⟨rfl, _, hdt⟩
    · exact Or.inl hleft
    · exact Or.inr (Or.inr ⟨Or.inl rfl, hdt⟩)
  | forget r' now _ q hq =>
    rcases hcancel q hq with ⟨hne, hleft, hdt⟩ | ⟨rfl, rfl, hdt⟩
    · exact Or.inl ⟨(Function.update_of_ne (Ne.symm hne) _ _).trans hleft, hdt⟩
    · exact Or.inr (Or.inr ⟨Or.inr rfl, hdt⟩)

/-- A port that goes from free to reserved had decayed. -/
theorem PoolStep.handed_out (h : Inv cfg p) (hs : PoolStep cfg p e c p')
    (hfree : (p.port i).status = .free) (htaken : (p'.port i).status ≠ .free) :
    (p.port i).decayTime ≤ (c : TimePoint) := by
  have hassign : ∀ {k : PortKind} {n : Int},
      (setStatus k.status (chosen p c n) p.port i).status ≠ .free →
      (p.port i).decayTime ≤ (c : TimePoint) := by
    intro k n hne
    rw [setStatus_status] at hne
    split at hne
    · exact chosen_due ‹_›
    · exact absurd hfree hne
  have hcancel : ∀ {r now : Nat} (q : Pool), PoolStep cfg p (.cancel r now) c q →
      (q.port i).status = .free := by
    intro r now q hq
    rcases hq.cancel_cases with ⟨_, rfl⟩ | ⟨ids, hr, _, _, rfl⟩
    · exact hfree
    · rw [(release_spec h.set r (h.lt_total hr) _).1.status i, hfree, ite_self]
  cases hs with
  | same => exact absurd hfree htaken
  | reserve => exact hassign htaken
  | grant _ _ _ _ _ hg =>
    obtain ⟨req, rest, _, _, _⟩ := hg
    exact hassign htaken
  | enqueue => exact absurd hfree htaken
  | use r _ j ids hr =>
    rw [(rekeyAll_spec (j :: ids) _ h.set (h.lt_total hr)).2.2.1 i] at htaken
    exact absurd hfree htaken
  | keepalive r kept others =>
    unfold keepFirst at htaken
    rw [rekey_status] at htaken
    have hst := setStatus_status .free others p.port i
    rw [hfree, ite_self] at hst
    exact absurd hst htaken
  | drop => exact absurd hfree htaken
  | release r _ ids hr hne =>
    exact absurd (hcancel _ (PoolStep.release r c ids hr hne)) htaken
  | forget r now _ q hq => exact absurd (hcancel q hq) htaken

theorem everHeld_snoc (hrun : Run cfg (es ++ [e]) s') :
    EverHeld cfg (es ++ [e]) r i ↔
      EverHeld cfg es r i ∨ ∃ ids, s'.reservation r = some ids ∧ i ∈ ids := by
  constructor
  · rintro ⟨pre, post, m, ids, hsplit, hm, hr, hi⟩
    rcases List.eq_nil_or_concat post with rfl | ⟨post', e', rfl⟩
    · rw [List.append_nil] at hsplit
      subst hsplit
      obtain rfl := Option.some.inj (hm.symm.trans hrun)
      exact Or.inr ⟨ids, hr, hi⟩
    · rw [List.concat_eq_append, ← List.append_assoc] at hsplit
      obtain ⟨rfl, _⟩ := List.append_inj' hsplit rfl
      exact Or.inl ⟨pre, post', m, ids, rfl, hm, hr, hi⟩
  · rintro (⟨pre, post, m, ids, rfl, hm, hr, hi⟩ | ⟨ids, hr, hi⟩)
    · exact ⟨pre, post ++ [e], m, ids, List.append_assoc _ _ _, hm, hr, hi⟩
    · exact ⟨es ++ [e], [], s', ids, (List.append_nil _).symm, hrun, hr, hi⟩

/-- What the pool remembers of the run so far. -/
structure Remembers (cfg : Config) (es : List Event) (s : State) : Prop where
  past : ∀ r u, Event.use r u ∈ es → u ≤ s.clock
  uses : ∀ i r u, EverHeld cfg es r i → Event.use r u ∈ es →
    ((u + cfg.decay : Nat) : TimePoint) ≤ (s.port i).decayTime
  whole : ∀ r ids i, s.reservation r = some ids → ids ≠ [] → EverHeld cfg es r i →
    i ∈ ids ∨ Event.keepalive r ∈ es
  idle : ∀ r, Idle s.toPool r → (∀ u, Event.use r u ∉ es) ∧ ∀ i, ¬ EverHeld cfg es r i
  kept : ∀ i pre post r m rest, es = pre ++ .keepalive r :: post → Run cfg pre m →
    m.reservation r = some (i :: rest) →
    (s.reservation r = some [i] ∧ (s.port i).decayTime = ⊤) ∨
    ∃ f, FreedAt cfg (pre ++ [.keepalive r]) post r i f ∧ f ≤ s.clock ∧
      ((f + cfg.decay : Nat) : TimePoint) ≤ (s.port i).decayTime

theorem init_remembers (cfg : Config) : Remembers cfg [] (init cfg) where
  past := by simp
  uses := by simp
  whole := by intro r ids i hr; cases hr
  idle := by
    refine fun r _ => ⟨by simp, ?_⟩
    rintro i ⟨pre, post, m, ids, hsplit, hm, hr, hi⟩
    obtain ⟨rfl, _⟩ := List.append_eq_nil_iff.mp hsplit.symm
    obtain rfl := Option.some.inj hm
    cases hr
  kept := by
    intro i pre post r m rest hsplit
    simp at hsplit

theorem NoUseAfterKeepalive.of_snoc (h : NoUseAfterKeepalive (es ++ [e])) :
    NoUseAfterKeepalive es :=
  (List.pairwise_append.mp h).1

/-- The discipline at the last event: a reservation that is used was not kept alive. -/
theorem NoUseAfterKeepalive.not_kept {now : Nat} (h : NoUseAfterKeepalive (es ++ [.use r now])) :
    Event.keepalive r ∉ es := by
  intro hmem
  exact (List.pairwise_append.mp h).2.2 _ hmem _ List.mem_cons_self rfl

section Step

variable (hrun : Run cfg es s) (hmem : Remembers cfg es s) (hs : step cfg s e = some s')

include hrun hmem hs

theorem uses_step (hdisc : NoUseAfterKeepalive (es ++ [e])) (i r u : Nat)
    (hheld : EverHeld cfg (es ++ [e]) r i) (huse : Event.use r u ∈ es ++ [e]) :
    ((u + cfg.decay : Nat) : TimePoint) ≤ (s'.port i).decayTime := by
  have hinv := run_inv hrun
  obtain ⟨hp, hc⟩ := step_pool hinv.set.nodup hs
  have hrun' : Run cfg (es ++ [e]) s' := exec_snoc_iff.mpr ⟨s, hrun, hs⟩
  rw [everHeld_snoc hrun'] at hheld
  rcases List.mem_append.mp huse with hold | hlast
  · have hheld' : EverHeld cfg es r i := by
      rcases hheld with hheld | ⟨ids, hr, hi⟩
      · exact hheld
      · -- the reservation was used before, so it was not idle and did not just get the port
        rcases hp.reservation_cases hinv r with
          hsame | ⟨hidle, _⟩ | ⟨kept, others, _, ho, hn⟩ | ⟨_, hn⟩
        · exact ⟨es, [], s, ids, (List.append_nil _).symm, hrun, hsame ▸ hr, hi⟩
        · exact absurd hold ((hmem.idle r hidle).1 u)
        · obtain rfl := Option.some.inj (hn.symm.trans hr)
          obtain rfl := List.mem_singleton.mp hi
          exact ⟨es, [], s, _, (List.append_nil _).symm, hrun, ho, List.mem_cons_self⟩
        · rw [hn ids hr] at hi
          cases hi
    exact hp.decayTime_ge hinv ((hmem.past r u hold).trans hc) (hmem.uses i r u hheld' hold)
  · obtain rfl := List.mem_singleton.mp hlast
    obtain ⟨_, ids, hr, hne, hres, hdt⟩ := hp.use_spec hinv
    have hi : i ∈ ids := by
      rcases hheld with hheld | ⟨ids', hr', hi⟩
      · exact (hmem.whole r ids i hr hne hheld).resolve_right hdisc.not_kept
      · rw [hres, hr] at hr'
        exact Option.some.inj hr' ▸ hi
    exact le_of_eq (hdt i hi).symm

theorem whole_step (r : Nat) (ids : List Nat) (i : Nat) (hr : s'.reservation r = some ids)
    (hne : ids ≠ []) (hheld : EverHeld cfg (es ++ [e]) r i) :
    i ∈ ids ∨ Event.keepalive r ∈ es ++ [e] := by
  have hinv := run_inv hrun
  obtain ⟨hp, _⟩ := step_pool hinv.set.nodup hs
  have hrun' : Run cfg (es ++ [e]) s' := exec_snoc_iff.mpr ⟨s, hrun, hs⟩
  rw [everHeld_snoc hrun'] at hheld
  rcases hheld with hheld | ⟨ids', hr', hi⟩
  · rcases hp.reservation_cases hinv r with hsame | ⟨hidle, _⟩ | ⟨_, _, rfl, _⟩ | ⟨_, hn⟩
    · rw [hsame] at hr
      exact (hmem.whole r ids i hr hne hheld).imp_right (List.mem_append_left _)
    · exact absurd hheld ((hmem.idle r hidle).2 i)
    · exact Or.inr (by simp)
    · exact absurd (hn ids hr) hne
  · exact Or.inl (Option.some.inj (hr'.symm.trans hr) ▸ hi)

theorem idle_step (r : Nat) (hidle : Idle s'.toPool r) :
    (∀ u, Event.use r u ∉ es ++ [e]) ∧ ∀ i, ¬ EverHeld cfg (es ++ [e]) r i := by
  have hinv := run_inv hrun
  obtain ⟨hp, _⟩ := step_pool hinv.set.nodup hs
  have hrun' : Run cfg (es ++ [e]) s' := exec_snoc_iff.mpr ⟨s, hrun, hs⟩
  have hbefore := hp.idle hinv hidle
  obtain ⟨hno, hnever⟩ := hmem.idle r hbefore
  constructor
  · intro u hu
    rcases List.mem_append.mp hu with hu | hu
    · exact hno u hu
    · obtain rfl := List.mem_singleton.mp hu
      obtain ⟨_, ids, hr, hne, _⟩ := hp.use_spec hinv
      exact hne (hinv.idle_empty hbefore hr)
  · intro i hheld
    rcases (everHeld_snoc hrun').mp hheld with hheld | ⟨ids, hr, hi⟩
    · exact hnever i hheld
    · rw [(run_inv hrun').idle_empty hidle hr] at hi
      cases hi

theorem kept_step (hdisc : NoUseAfterKeepalive (es ++ [e])) (i : Nat) (pre post : List Event)
    (r : Nat) (m : State) (rest : List Nat) (hsplit : es ++ [e] = pre ++ .keepalive r :: post)
    (hm : Run cfg pre m) (hr : m.reservation r = some (i :: rest)) :
    (s'.reservation r = some [i] ∧ (s'.port i).decayTime = ⊤) ∨
    ∃ f, FreedAt cfg (pre ++ [.keepalive r]) post r i f ∧ f ≤ s'.clock ∧
      ((f + cfg.decay : Nat) : TimePoint) ≤ (s'.port i).decayTime := by
  have hinv := run_inv hrun
  obtain ⟨hp, hc⟩ := step_pool hinv.set.nodup hs
  rcases List.eq_nil_or_concat post with rfl | ⟨post', e', rfl⟩
  · -- the port has just been kept
    obtain ⟨rfl, he⟩ := List.append_inj' hsplit rfl
    obtain rfl := List.cons.inj he |>.1
    obtain rfl := Option.some.inj (hm.symm.trans hrun)
    simp only [step, hr] at hs
    obtain rfl := Option.some.inj hs
    exact Or.inl ⟨Function.update_self _ _ _, (keepFirst_decayTime _ _ _ _ _).trans (if_pos rfl)⟩
  · rw [List.concat_eq_append, ← List.cons_append, ← List.append_assoc] at hsplit
    obtain ⟨rfl, he⟩ := List.append_inj' hsplit rfl
    obtain rfl := List.cons.inj he |>.1
    have hpre : pre ++ .keepalive r :: post' = pre ++ [.keepalive r] ++ post' := by simp
    rcases hmem.kept i pre post' r m rest rfl hm hr with ⟨hheld, htop⟩ | ⟨f, hf, hle, hdt⟩
    · rcases hp.kept_cases hinv hheld htop with hstill | ⟨now, rfl⟩ | ⟨hfree, hdt⟩
      · exact Or.inl hstill
      · exact absurd (by simp) (hdisc.not_kept (r := r))
      · refine Or.inr ⟨s'.clock,
          ⟨post', e, [], s, by simp, hfree, hpre ▸ hrun, hheld⟩, le_refl _, ?_⟩
        exact le_of_eq hdt.symm
    · obtain ⟨mid, e', tail, m', rfl, hrest⟩ := hf
      refine Or.inr ⟨f, ⟨mid, e', tail ++ [e], m', by simp, hrest⟩, hle.trans hc, ?_⟩
      exact hp.decayTime_ge hinv (hle.trans hc) hdt

theorem remembers_step (hdisc : NoUseAfterKeepalive (es ++ [e])) :
    Remembers cfg (es ++ [e]) s' := by
  have hinv := run_inv hrun
  obtain ⟨hp, hc⟩ := step_pool hinv.set.nodup hs
  refine ⟨?_, uses_step hrun hmem hs hdisc, whole_step hrun hmem hs, idle_step hrun hmem hs,
    kept_step hrun hmem hs hdisc⟩
  intro r u hu
  rcases List.mem_append.mp hu with hu | hu
  · exact (hmem.past r u hu).trans hc
  · obtain rfl := List.mem_singleton.mp hu
    exact le_of_eq (hp.use_spec hinv).1.symm

end Step

theorem run_remembers (hrun : Run cfg es s) (hdisc : NoUseAfterKeepalive es) :
    Remembers cfg es s := by
  have key := exec_induction (motive := fun es s => NoUseAfterKeepalive es → Remembers cfg es s)
    (fun _ => init_remembers cfg)
    (fun _ _ _ _ hrun ih hs hd => remembers_step hrun (ih hd.of_snoc) hs hd) hrun
  exact key hdisc

/-- Whenever a port goes from free to reserved, at the reading `s'.clock`: the decay
timeout has passed since every use of every reservation that ever held the port; and if
some reservation kept the port alive, that reservation has been freed since, at least the
decay timeout ago. -/
theorem decay_safety (hrun : Run cfg es s) (hdisc : NoUseAfterKeepalive es)
    (hs : step cfg s e = some s') (hfree : (s.port i).status = .free)
    (htaken : (s'.port i).status ≠ .free) :
    (∀ r u, EverHeld cfg es r i → Event.use r u ∈ es → u + cfg.decay ≤ s'.clock) ∧
    ∀ pre post r m rest, es = pre ++ .keepalive r :: post → Run cfg pre m →
      m.reservation r = some (i :: rest) →
      ∃ f, FreedAt cfg (pre ++ [.keepalive r]) post r i f ∧ f + cfg.decay ≤ s'.clock := by
  have hinv := run_inv hrun
  have hmem := run_remembers hrun hdisc
  have hdue := (step_pool hinv.set.nodup hs).1.handed_out hinv hfree htaken
  constructor
  · intro r u hheld huse
    exact Nat.cast_le.mp ((hmem.uses i r u hheld huse).trans hdue)
  · intro pre post r m rest hsplit hm hr
    rcases hmem.kept i pre post r m rest hsplit hm hr with ⟨_, htop⟩ | ⟨f, hf, _, hdt⟩
    · rw [htop] at hdue
      exact absurd hdue (not_le.mpr (WithTop.natCast_lt_top _))
    · exact ⟨f, hf, Nat.cast_le.mp (hdt.trans hdue)⟩

/-- One port, used, kept alive and freed: it is handed out again one timeout later. -/
def usedKeptFreed : List Event :=
  [.reserveFastPorts 1 0, .use 0 0, .keepalive 0, .cancel 0 100]

theorem decay_safety_usedKeptFreed :
    ∃ s s', Run ⟨0, 1, 1⟩ usedKeptFreed s ∧
      step ⟨0, 1, 1⟩ s (.reserveFastPorts 1 1000100) = some s' ∧
      (s.port 0).status = .free ∧ (s'.port 0).status ≠ .free ∧
      (∀ r u, EverHeld ⟨0, 1, 1⟩ usedKeptFreed r 0 → Event.use r u ∈ usedKeptFreed →
        u + 1000000 ≤ s'.clock) := by
  obtain ⟨s, hs, hfree, htaken⟩ : ∃ s, Run ⟨0, 1, 1⟩ usedKeptFreed s ∧
      ((s.port 0).status = .free ∧ ((step ⟨0, 1, 1⟩ s (.reserveFastPorts 1 1000100)).any
        (fun s' => decide ((s'.port 0).status ≠ .free))) = true) := exec_check (by decide)
  obtain ⟨s', hs', htaken⟩ := (Option.any_eq_true _ _).mp htaken
  have hdisc : NoUseAfterKeepalive usedKeptFreed := by
    simp [NoUseAfterKeepalive, usedKeptFreed, UsesKept]
  have htaken := of_decide_eq_true htaken
  exact ⟨s, s', hs, hs', hfree, htaken, (decay_safety hs hdisc hs' hfree htaken).1⟩

end DTun.Node.PortAllocator
