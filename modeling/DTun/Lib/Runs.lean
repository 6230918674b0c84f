import Mathlib.Data.List.Induction

/-!
# Finite runs of a guarded step function

A component is given by `step : σ → ε → Option σ`, which answers `none` when the
event is not enabled. `exec` runs a list of events, `Along` says that a condition
holds at every step of a run, and the rules below turn a fact about one step into
a fact about every run. `trace` is what can be seen along a run. `loop` is the other
shape of iteration, a `while` loop whose body answers `none` when it leaves. Nothing
here fixes the states or the events.
-/

namespace DTun.Lib.Runs

variable {σ ε : Type*} (step : σ → ε → Option σ)

/-- Run the events in order; a disabled event stops the run with `none`. -/
def exec : σ → List ε → Option σ
  | s, [] => some s
  | s, e :: es => (step s e).bind (exec · es)

/-- The condition `P` holds of the state and the event at every step of the run. -/
def Along (P : σ → ε → Prop) : σ → List ε → Prop
  | _, [] => True
  | s, e :: es => P s e ∧ ∀ s', step s e = some s' → Along P s' es

instance Along.instDecidable (P : σ → ε → Prop) [∀ s e, Decidable (P s e)] :
    ∀ s es, Decidable (Along step P s es)
  | _, [] => inferInstanceAs (Decidable True)
  | s, e :: es =>
    have : Decidable (∀ s', step s e = some s' → Along step P s' es) :=
      match step s e with
      | none => .isTrue (by simp)
      | some s' =>
        match Along.instDecidable P s' es with
        | .isTrue h => .isTrue (by rintro _ ⟨⟩; exact h)
        | .isFalse h => .isFalse fun hall => h (hall s' rfl)
    inferInstanceAs (Decidable (_ ∧ _))

variable {step} {P : σ → ε → Prop} {I : σ → Prop} {s s' : σ} {es : List ε}

@[simp] theorem exec_nil (s : σ) : exec step s [] = some s := rfl

@[simp] theorem exec_cons (s : σ) (e : ε) (es : List ε) :
    exec step s (e :: es) = (step s e).bind (exec step · es) := rfl

theorem exec_of_step {e : ε} {m : σ} (h : step s e = some m) (hrest : exec step m es = some s') :
    exec step s (e :: es) = some s' := by
  rw [exec_cons, h]
  exact hrest

theorem exec_append (s : σ) (es fs : List ε) :
    exec step s (es ++ fs) = (exec step s es).bind (exec step · fs) := by
  induction es generalizing s with
  | nil => rfl
  | cons e es ih =>
    rw [List.cons_append, exec_cons, exec_cons, Option.bind_assoc]
    congr 1
    exact funext ih

/-- A run that is evaluated: the check that ends it is a decidable property of its state. -/
theorem exec_check {p : σ → Prop} [DecidablePred p]
    (h : (exec step s es).any (fun s => decide (p s)) = true) :
    ∃ s', exec step s es = some s' ∧ p s' := by
  obtain ⟨s', hs, hp⟩ := (Option.any_eq_true _ _).mp h
  exact ⟨s', hs, of_decide_eq_true hp⟩

/-- The same, with what follows from the run and the check. -/
theorem exec_check_and {p q : σ → Prop} [DecidablePred p]
    (h : (exec step s es).any (fun s => decide (p s)) = true)
    (hq : ∀ s', exec step s es = some s' → p s' → q s') :
    ∃ s', exec step s es = some s' ∧ p s' ∧ q s' := by
  obtain ⟨s', hs, hp⟩ := exec_check h
  exact ⟨s', hs, hp, hq s' hs hp⟩

/-- A run of one more event is a run followed by one step. -/
theorem exec_snoc_iff {e : ε} :
    exec step s (es ++ [e]) = some s' ↔ ∃ m, exec step s es = some m ∧ step m e = some s' := by
  rw [exec_append, Option.bind_eq_some_iff]
  simp only [exec_cons, exec_nil, Option.bind_fun_some]

/-- Induction on a run from its end, for facts that mention the events so far. -/
theorem exec_induction {motive : List ε → σ → Prop} {init : σ} (nil : motive [] init)
    (snoc : ∀ es s e s', exec step init es = some s → motive es s → step s e = some s' →
      motive (es ++ [e]) s')
    (h : exec step init es = some s) : motive es s := by
  induction es using List.reverseRecOn generalizing s with
  | nil =>
    obtain rfl := Option.some.inj h
    exact nil
  | append_singleton es e ih =>
    obtain ⟨m, hm, hs⟩ := exec_snoc_iff.mp h
    exact snoc es m e s hm (ih hm) hs

/-- What one step preserves, every run preserves. -/
theorem exec_invariant (hstep : ∀ s e s', I s → step s e = some s' → I s') (h0 : I s)
    (h : exec step s es = some s') : I s' :=
  exec_induction (motive := fun _ s => I s) h0 (fun _ a e b _ ha hb => hstep a e b ha hb) h

/-- A condition that every event of the list meets in every state holds along the run. -/
theorem along_of_forall (h : ∀ e ∈ es, ∀ s, P s e) : Along step P s es := by
  induction es generalizing s with
  | nil => trivial
  | cons e es ih =>
    exact ⟨h e List.mem_cons_self s, fun s' _ => ih fun e he => h e (List.mem_cons_of_mem _ he)⟩

theorem along_append {fs : List ε} :
    Along step P s (es ++ fs) ↔
      Along step P s es ∧ ∀ m, exec step s es = some m → Along step P m fs := by
  induction es generalizing s with
  | nil => simp [Along]
  | cons e es ih =>
    simp only [List.cons_append, Along, exec_cons, Option.bind_eq_some_iff]
    constructor
    · rintro ⟨hp, hrest⟩
      refine ⟨⟨hp, fun m hm => (ih.mp (hrest m hm)).1⟩, ?_⟩
      rintro m ⟨a, ha, hm⟩
      exact (ih.mp (hrest a ha)).2 m hm
    · rintro ⟨⟨hp, hl⟩, hr⟩
      exact ⟨hp, fun a ha => ih.mpr ⟨hl a ha, fun m hm => hr m ⟨a, ha, hm⟩⟩⟩

/-- A condition along a run, in terms of the events and the states before them. -/
theorem along_iff : Along step P s es ↔
    ∀ pre e post m, es = pre ++ e :: post → exec step s pre = some m → P m e := by
  constructor
  · rintro h pre e post m rfl hm
    exact ((along_append.mp h).2 m hm).1
  · intro h
    induction es generalizing s with
    | nil => trivial
    | cons e es ih =>
      refine ⟨h [] e es s rfl rfl, fun s' hs => ih fun pre e' post m hsplit hm => ?_⟩
      refine h (e :: pre) e' post m (by rw [hsplit]; rfl) ?_
      rw [exec_cons, hs]
      exact hm

/-- The last step of a run along which `P` holds meets `P`. -/
theorem along_snoc {e : ε} {m : σ} (h : Along step P s (es ++ [e]))
    (hm : exec step s es = some m) : Along step P s es ∧ P m e :=
  ⟨(along_append.mp h).1, ((along_append.mp h).2 m hm).1⟩

/-- What a step preserves when it meets `P`, every run along which `P` holds preserves. -/
theorem exec_invariant_along (hstep : ∀ s e s', I s → P s e → step s e = some s' → I s')
    (h0 : I s) (hP : Along step P s es) (h : exec step s es = some s') : I s' := by
  have key := exec_induction (motive := fun es m => Along step P s es → I m) (fun _ => h0)
    (fun es a e b ha ih hb hal => by
      obtain ⟨hl, hp⟩ := along_snoc hal ha
      exact hstep a e b (ih hl) hp hb) h
  exact key hP

/-- Where a step with an event in `Q` preserves the invariant exactly when it meets `P`, the
invariant holds in every state of a run of such events exactly when `P` holds along it. -/
theorem invariant_iff_along_of {Q : ε → Prop}
    (hstep : ∀ s e s', Q e → I s → step s e = some s' → (I s' ↔ P s e)) (h0 : I s)
    (hQ : ∀ e ∈ es, Q e) (h : exec step s es = some s') :
    (∀ pre post m, es = pre ++ post → exec step s pre = some m → I m) ↔ Along step P s es := by
  constructor
  · intro hall
    refine along_iff.mpr fun pre e post m hsplit hm => ?_
    subst hsplit
    rw [exec_append, hm, Option.bind_some, exec_cons] at h
    obtain ⟨next, hnext, _⟩ := Option.bind_eq_some_iff.mp h
    have hI : I m := hall pre (e :: post) m rfl hm
    have hI' : I next := hall (pre ++ [e]) post next (by simp) (exec_snoc_iff.mpr ⟨m, hm, hnext⟩)
    exact (hstep m e next (hQ e (by simp)) hI hnext).mp hI'
  · rintro hP pre post m rfl hm
    have hboth : Along step (fun a e => P a e ∧ Q e) s pre := by
      refine along_iff.mpr fun pre' e post' a hsplit ha => ?_
      exact ⟨along_iff.mp (along_append.mp hP).1 pre' e post' a hsplit ha,
        hQ e (List.mem_append_left _ (by rw [hsplit]; simp))⟩
    exact exec_invariant_along (fun a e b ha hp hb => (hstep a e b hp.2 ha hb).mpr hp.1) h0 hboth hm

theorem invariant_iff_along (hstep : ∀ s e s', I s → step s e = some s' → (I s' ↔ P s e))
    (h0 : I s) (h : exec step s es = some s') :
    (∀ pre post m, es = pre ++ post → exec step s pre = some m → I m) ↔ Along step P s es :=
  invariant_iff_along_of (Q := fun _ => True) (fun a e b _ => hstep a e b) h0
    (fun _ _ => trivial) h

/-- Where `next` follows what `f` sees of the states, a condition on that can be checked without the
states. -/
theorem along_map {τ : Type*} {f : σ → τ} {next : τ → ε → τ} {P : τ → ε → Prop} {Q : ε → Prop}
    (hstep : ∀ s e s', Q e → step s e = some s' → f s' = next (f s) e) (hQ : ∀ e ∈ es, Q e)
    (h : exec step s es = some s') :
    Along step (fun s e => P (f s) e) s es ↔ Along (fun t e => some (next t e)) P (f s) es := by
  induction es generalizing s with
  | nil => exact Iff.rfl
  | cons e es ih =>
    obtain ⟨m, hm, hrest⟩ := Option.bind_eq_some_iff.mp h
    have htail := ih (fun e he => hQ e (List.mem_cons_of_mem _ he)) hrest
    have hnext := hstep s e m (hQ e List.mem_cons_self) hm
    simp only [Along, hm, Option.some.injEq, forall_eq', htail, hnext]

section Trace

variable {α : Type*} (f : σ → ε → List α)

variable (step) in
/-- What `f` sees at each step of a run, in order. -/
def trace : σ → List ε → List α
  | _, [] => []
  | s, e :: es => f s e ++ (step s e).elim [] (trace · es)

theorem trace_snoc {e : ε} {m : σ} (h : exec step s es = some m) :
    trace step f s (es ++ [e]) = trace step f s es ++ f m e := by
  induction es generalizing s with
  | nil =>
    obtain rfl := Option.some.inj h
    cases hs : step s e with
    | none => simp [trace, hs]
    | some s' => simp [trace, hs]
  | cons a es ih =>
    obtain ⟨s', hs, hm⟩ := Option.bind_eq_some_iff.mp h
    simp only [List.cons_append, trace, hs, Option.elim_some, ih hm, List.append_assoc]

end Trace

section Loop

variable (body : σ → Option σ)

/-- A `while` loop, at most `n` turns of it. -/
def loop : Nat → σ → σ
  | 0, s => s
  | n + 1, s =>
    match body s with
    | none => s
    | some s' => loop n s'

variable {body} {n : Nat}

theorem loop_of_none (h : body s = none) (n : Nat) : loop body n s = s := by
  cases n with
  | zero => rfl
  | succ n => rw [loop, h]

theorem loop_of_some (h : body s = some s') (n : Nat) : loop body (n + 1) s = loop body n s' := by
  rw [loop, h]

/-- What one turn preserves, the loop preserves. -/
theorem loop_invariant (hbody : ∀ s s', I s → body s = some s' → I s') (h0 : I s) (n : Nat) :
    I (loop body n s) := by
  induction n generalizing s with
  | zero => exact h0
  | succ n ih =>
    cases hs : body s with
    | none => rw [loop_of_none hs]; exact h0
    | some s' => rw [loop_of_some hs]; exact ih (hbody s s' h0 hs)

/-- With a measure that every turn lowers, enough turns leave the loop. -/
theorem loop_ends (measure : σ → Nat) (hlt : ∀ s s', body s = some s' → measure s' < measure s)
    (hn : measure s < n) : body (loop body n s) = none := by
  induction n generalizing s with
  | zero => omega
  | succ n ih =>
    cases hs : body s with
    | none => rw [loop_of_none hs]; exact hs
    | some s' =>
      rw [loop_of_some hs]
      have := hlt s s' hs
      exact ih (by omega)

end Loop

end DTun.Lib.Runs
