import DTun.Lib.Lists
import Mathlib.Order.Lattice
import Mathlib.Data.List.Pairwise

/-!
# Finite maps kept in key order

A `std::map`: a list of entries, strictly sorted by key, together with the proof that it
is. Proofs about a component use `find?` and its lemmas; iteration is over `entries`.
-/

namespace DTun.Lib

structure OrderedMap (K V : Type*) [LinearOrder K] where
  entries : List (K × V)
  sorted : entries.Pairwise (fun a b => a.1 < b.1)

namespace OrderedMap

variable {K V : Type*} [LinearOrder K]

/-- Sorted insertion, replacing the entry of an equal key. -/
def insertEntry (k : K) (v : V) : List (K × V) → List (K × V)
  | [] => [(k, v)]
  | e :: rest =>
    if k < e.1 then (k, v) :: e :: rest
    else if e.1 < k then e :: insertEntry k v rest
    else (k, v) :: rest

theorem mem_insertEntry {k : K} {v : V} {l : List (K × V)}
    (hl : l.Pairwise (fun a b => a.1 < b.1)) {a : K × V} :
    a ∈ insertEntry k v l ↔ a = (k, v) ∨ (a ∈ l ∧ a.1 ≠ k) := by
  induction l with
  | nil => simp [insertEntry]
  | cons e rest ih =>
    obtain ⟨he, hrest⟩ := List.pairwise_cons.mp hl
    rw [insertEntry]
    split_ifs with hlt hgt
    · -- the new key comes first, so it differs from all the others
      have hne : ∀ b ∈ e :: rest, b.1 ≠ k := by
        intro b hb
        rcases List.mem_cons.mp hb with rfl | hb
        · exact hlt.ne'
        · exact (hlt.trans (he b hb)).ne'
      rw [List.mem_cons]
      exact or_congr_right ⟨fun hb => ⟨hb, hne a hb⟩, And.left⟩
    · rw [List.mem_cons, ih hrest, List.mem_cons]
      constructor
      · rintro (rfl | rfl | ⟨ha, hne⟩)
        · exact Or.inr ⟨Or.inl rfl, hgt.ne⟩
        · exact Or.inl rfl
        · exact Or.inr ⟨Or.inr ha, hne⟩
      · rintro (rfl | ⟨rfl | ha, hne⟩)
        · exact Or.inr (Or.inl rfl)
        · exact Or.inl rfl
        · exact Or.inr (Or.inr ⟨ha, hne⟩)
    · have heq : e.1 = k := le_antisymm (not_lt.mp hlt) (not_lt.mp hgt)
      have hne : ∀ b ∈ rest, b.1 ≠ k := fun b hb => heq ▸ (he b hb).ne'
      rw [List.mem_cons, List.mem_cons]
      constructor
      · rintro (rfl | ha)
        · exact Or.inl rfl
        · exact Or.inr ⟨Or.inr ha, hne a ha⟩
      · rintro (rfl | ⟨rfl | ha, hak⟩)
        · exact Or.inl rfl
        · exact absurd heq hak
        · exact Or.inr ha

theorem sorted_insertEntry {k : K} {v : V} {l : List (K × V)}
    (hl : l.Pairwise (fun a b => a.1 < b.1)) :
    (insertEntry k v l).Pairwise (fun a b => a.1 < b.1) := by
  induction l with
  | nil => simp [insertEntry]
  | cons e rest ih =>
    obtain ⟨he, hrest⟩ := List.pairwise_cons.mp hl
    rw [insertEntry]
    split_ifs with hlt hgt
    · refine List.pairwise_cons.mpr ⟨fun b hb => ?_, hl⟩
      rcases List.mem_cons.mp hb with rfl | hb
      · exact hlt
      · exact hlt.trans (he b hb)
    · refine List.pairwise_cons.mpr ⟨fun b hb => ?_, ih hrest⟩
      rcases (mem_insertEntry hrest).mp hb with rfl | ⟨hb, _⟩
      · exact hgt
      · exact he b hb
    · have heq : e.1 = k := le_antisymm (not_lt.mp hlt) (not_lt.mp hgt)
      exact List.pairwise_cons.mpr ⟨fun b hb => heq ▸ he b hb, hrest⟩

def empty : OrderedMap K V := ⟨[], List.Pairwise.nil⟩

def find? (m : OrderedMap K V) (k : K) : Option V :=
  (m.entries.find? (fun e => decide (e.1 = k))).map Prod.snd

def insert (m : OrderedMap K V) (k : K) (v : V) : OrderedMap K V :=
  ⟨insertEntry k v m.entries, sorted_insertEntry m.sorted⟩

/-- Keep the entries that satisfy `p`. -/
def filter (m : OrderedMap K V) (p : K → V → Bool) : OrderedMap K V :=
  ⟨m.entries.filter (fun e => p e.1 e.2), m.sorted.sublist List.filter_sublist⟩

def erase (m : OrderedMap K V) (k : K) : OrderedMap K V := m.filter (fun k' _ => decide (k' ≠ k))

/-- Some entry satisfies `p`. -/
def any (m : OrderedMap K V) (p : K → V → Bool) : Bool := m.entries.any (fun e => p e.1 e.2)

variable (m : OrderedMap K V) {k k' : K} {v : V}

/-- The entries are the graph of `find?`. -/
theorem mem_entries_iff : (k, v) ∈ m.entries ↔ m.find? k = some v := by
  obtain ⟨l, hl⟩ := m
  induction l with
  | nil => simp [find?]
  | cons e rest ih =>
    obtain ⟨he, hrest⟩ := List.pairwise_cons.mp hl
    have hih := ih hrest
    simp only [find?] at hih ⊢
    by_cases hk : e.1 = k
    · have hnot : (k, v) ∉ rest := fun h => (he _ h).ne hk
      rw [List.find?_cons_of_pos (by simp [hk]), List.mem_cons]
      simp only [hnot, or_false, Option.map_some, Option.some.injEq]
      constructor
      · rintro rfl
        rfl
      · rintro rfl
        exact Prod.ext hk.symm rfl
    · rw [List.find?_cons_of_neg (by simp [hk]), List.mem_cons, ← hih]
      refine ⟨fun h => h.resolve_left ?_, Or.inr⟩
      rintro rfl
      exact hk rfl

@[simp] theorem find?_empty : (empty : OrderedMap K V).find? k = none := rfl

theorem find?_insert : (m.insert k v).find? k' = if k' = k then some v else m.find? k' := by
  refine Option.ext fun w => ?_
  rw [← mem_entries_iff]
  change (k', w) ∈ insertEntry k v m.entries ↔ _
  rw [mem_insertEntry m.sorted, m.mem_entries_iff]
  by_cases hk : k' = k
  · simp [hk, eq_comm]
  · simp [hk]

@[simp] theorem find?_insert_self : (m.insert k v).find? k = some v := by
  rw [find?_insert, if_pos rfl]

theorem find?_insert_of_ne (h : k' ≠ k) : (m.insert k v).find? k' = m.find? k' := by
  rw [find?_insert, if_neg h]

theorem find?_filter (p : K → V → Bool) : (m.filter p).find? k = (m.find? k).filter (p k) := by
  refine Option.ext fun w => ?_
  rw [← mem_entries_iff, Option.filter_eq_some_iff]
  change (k, w) ∈ m.entries.filter _ ↔ _
  rw [List.mem_filter, m.mem_entries_iff]

theorem find?_filter_eq_some (p : K → V → Bool) :
    (m.filter p).find? k = some v ↔ m.find? k = some v ∧ p k v = true := by
  rw [find?_filter, Option.filter_eq_some_iff]

theorem find?_erase : (m.erase k).find? k' = if k' = k then none else m.find? k' := by
  rw [erase, find?_filter]
  cases m.find? k' with
  | none => simp
  | some v => by_cases hk : k' = k <;> simp [Option.filter, hk]

@[simp] theorem find?_erase_self : (m.erase k).find? k = none := by
  rw [find?_erase, if_pos rfl]

theorem find?_erase_of_ne (h : k' ≠ k) : (m.erase k).find? k' = m.find? k' := by
  rw [find?_erase, if_neg h]

/-- What holds of every key still does when a key that has it is added. -/
theorem forall_key_insert {P : K → Prop} (h : ∀ k v, m.find? k = some v → P k) (hk : P k) :
    ∀ k' v', (m.insert k v).find? k' = some v' → P k' := by
  intro k' v' hf
  rw [find?_insert] at hf
  split at hf
  · rename_i heq
    exact heq ▸ hk
  · exact h k' v' hf

theorem find?_of_erase (h : (m.erase k).find? k' = some v) : m.find? k' = some v := by
  rw [find?_erase] at h
  split at h
  · cases h
  · exact h

/-- At most one entry has a given key. -/
theorem filter_entries_key (k : K) {p : K × V → Bool} (hp : ∀ {e}, p e = true ↔ e.1 = k) :
    m.entries.filter p = ((m.find? k).map (fun v => (k, v))).toList := by
  obtain ⟨l, hl⟩ := m
  induction l with
  | nil => rfl
  | cons e rest ih =>
    obtain ⟨he, hrest⟩ := List.pairwise_cons.mp hl
    have hih := ih hrest
    simp only [find?] at hih ⊢
    by_cases hk : e.1 = k
    · have hnone : rest.filter p = [] := by
        rw [List.filter_eq_nil_iff]
        intro b hb hbk
        exact (he b hb).ne (hk.trans (hp.mp hbk).symm)
      rw [List.filter_cons_of_pos (hp.mpr hk), hnone, List.find?_cons_of_pos (by simp [hk])]
      simp [← hk]
    · rw [List.filter_cons_of_neg (fun h => hk (hp.mp h)), List.find?_cons_of_neg (by simp [hk]),
        hih]

theorem any_iff (p : K → V → Bool) :
    m.any p = true ↔ ∃ k v, m.find? k = some v ∧ p k v = true := by
  rw [any, List.any_eq_true]
  constructor
  · rintro ⟨⟨k, v⟩, hmem, hp⟩
    exact ⟨k, v, m.mem_entries_iff.mp hmem, hp⟩
  · rintro ⟨k, v, hfind, hp⟩
    exact ⟨(k, v), m.mem_entries_iff.mpr hfind, hp⟩

/-- The entries decide the map. -/
theorem entries_isEmpty_iff : m.entries.isEmpty = true ↔ ∀ k, m.find? k = none := by
  rw [List.isEmpty_iff]
  constructor
  · intro h k
    rw [find?, h]
    rfl
  · intro h
    cases hm : m.entries with
    | nil => rfl
    | cons e rest =>
      have hmem : (e.1, e.2) ∈ m.entries := by rw [hm]; exact List.mem_cons_self
      rw [m.mem_entries_iff, h e.1] at hmem
      cases hmem

theorem ext_find? {m m' : OrderedMap K V} (h : ∀ k, m.find? k = m'.find? k) : m = m' := by
  have hmem : ∀ e, e ∈ m.entries ↔ e ∈ m'.entries := by
    rintro ⟨k, v⟩
    rw [mem_entries_iff, mem_entries_iff, h k]
  obtain ⟨l, hl⟩ := m
  obtain ⟨l', hl'⟩ := m'
  have hnodup : ∀ {l : List (K × V)}, l.Pairwise (fun a b => a.1 < b.1) → l.Nodup :=
    fun hl => hl.imp fun hlt heq => hlt.ne (congrArg Prod.fst heq)
  have hperm : l.Perm l' := (List.perm_ext_iff_of_nodup (hnodup hl) (hnodup hl')).mpr hmem
  have hll : l = l' := hperm.eq_of_pairwise (fun a b _ _ hab hba => absurd hab hba.not_gt) hl hl'
  subst hll
  rfl

/-- The entry with the least key. -/
def begin? (m : OrderedMap K V) : Option (K × V) := m.entries.head?

theorem begin?_eq_none (h : m.begin? = none) (k : K) : m.find? k = none := by
  rw [begin?, List.head?_eq_none_iff] at h
  rw [find?, h]
  rfl

theorem begin?_eq_some (h : m.begin? = some (k, v)) :
    m.find? k = some v ∧ ∀ k' v', m.find? k' = some v' → k ≤ k' := by
  obtain ⟨rest, hentries⟩ := List.head?_eq_some_iff.mp h
  refine ⟨m.mem_entries_iff.mp (by rw [hentries]; exact List.mem_cons_self), ?_⟩
  intro k' v' hfind
  have hmem := m.mem_entries_iff.mpr hfind
  have hsorted := m.sorted
  rw [hentries] at hmem hsorted
  rcases List.mem_cons.mp hmem with heq | hrest
  · exact le_of_eq (congrArg Prod.fst heq).symm
  · exact ((List.pairwise_cons.mp hsorted).1 _ hrest).le

/-- The first entry, in key order, whose value satisfies `p`. -/
def first? (m : OrderedMap K V) (p : V → Bool) : Option (K × V) := m.entries.find? (fun e => p e.2)

/-- Erase the first entry, in key order, whose value satisfies `p`. -/
def eraseFirst (m : OrderedMap K V) (p : V → Bool) : OrderedMap K V :=
  ⟨m.entries.eraseP (fun e => p e.2), m.sorted.sublist List.eraseP_sublist⟩

variable {p : V → Bool}

theorem first?_eq_some (h : m.first? p = some (k, v)) : m.find? k = some v ∧ p v = true := by
  have hp : p v = true := List.find?_some (p := fun e : K × V => p e.2) h
  exact ⟨m.mem_entries_iff.mp (List.mem_of_find?_eq_some h), hp⟩

theorem first?_eq_none (h : m.first? p = none) (hf : m.find? k = some v) : p v = false := by
  have := List.find?_eq_none.mp h (k, v) (m.mem_entries_iff.mpr hf)
  simpa using this

/-- How many entries have a value that satisfies `p`. -/
def countValues (m : OrderedMap K V) (p : V → Bool) : Nat := m.entries.countP (fun e => p e.2)

theorem find?_of_eraseFirst (h : (m.eraseFirst p).find? k = some v) : m.find? k = some v := by
  rw [← mem_entries_iff] at h ⊢
  exact List.mem_of_mem_eraseP h

/-- No entry with the property is left exactly when there was at most one. -/
theorem eraseFirst_clear_iff :
    (∀ k v, (m.eraseFirst p).find? k = some v → p v = false) ↔ m.countValues p ≤ 1 := by
  have hclear : (∀ k v, (m.eraseFirst p).find? k = some v → p v = false) ↔
      (m.eraseFirst p).countValues p = 0 := by
    rw [countValues, List.countP_eq_zero]
    constructor
    · rintro h ⟨k, v⟩ hmem
      simpa using h k v ((m.eraseFirst p).mem_entries_iff.mp hmem)
    · intro h k v hf
      simpa using h (k, v) ((m.eraseFirst p).mem_entries_iff.mpr hf)
  have hcount : (m.eraseFirst p).countValues p = m.countValues p - 1 := Lists.countP_eraseP _ _
  rw [hclear, hcount]
  omega

end OrderedMap

end DTun.Lib
