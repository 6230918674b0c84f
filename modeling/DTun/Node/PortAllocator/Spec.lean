import Mathlib.Data.Finset.Card
import Mathlib.Data.Finset.Range
import Mathlib.Data.List.TakeWhile
import Mathlib.Data.Nat.Cast.Order.Basic
import Mathlib.Data.Nat.Cast.WithTop
import DTun.Node.PortAllocator.Model

/-!
# What each allocator function does

One lemma or a few for each function of the model, so that the invariants never unfold
a loop. The scan of `reservePorts` is identified with the free ports of the decayed
prefix of `ports_`, in order; re-keying a port keeps the set a sorted permutation.
-/

namespace DTun.Node.PortAllocator

/-- The key by which `PortStateComparer` orders the ports. -/
def key (port : Nat → PortState) (i : Nat) : TimePoint ×ₗ Nat := toLex ((port i).decayTime, i)

theorem comparer_iff (port : Nat → PortState) (l r : Nat) :
    comparer port l r = true ↔ key port l < key port r := by
  unfold comparer key
  rw [Prod.Lex.toLex_lt_toLex]
  split_ifs with h₁ h₂
  · simp [h₁]
  · simp [h₁, h₂.ne']
  · have he : (port l).decayTime = (port r).decayTime := le_antisymm (not_lt.mp h₂) (not_lt.mp h₁)
    simp [he]

theorem not_comparer_iff (port : Nat → PortState) (l r : Nat) :
    ¬ comparer port r l = true ↔ key port l ≤ key port r := by
  rw [comparer_iff, not_lt]

theorem key_injective (port : Nat → PortState) : Function.Injective (key port) := by
  intro a b h
  have h' : ((port a).decayTime, a) = ((port b).decayTime, b) := toLex.injective h
  exact (Prod.mk.inj h').2

/-- `ports_` holds every port once, ordered by (decayTime, id). -/
structure SetOk (cfg : Config) (port : Nat → PortState) (ports : List Nat) : Prop where
  perm : ports.Perm (List.range cfg.total)
  sorted : ports.Pairwise (fun i j => key port i < key port j)

theorem SetOk.nodup {cfg : Config} {port : Nat → PortState} {ports : List Nat}
    (h : SetOk cfg port ports) : ports.Nodup :=
  h.perm.nodup_iff.mpr List.nodup_range

theorem SetOk.mem_iff {cfg : Config} {port : Nat → PortState} {ports : List Nat}
    (h : SetOk cfg port ports) {i : Nat} : i ∈ ports ↔ i < cfg.total := by
  rw [h.perm.mem_iff, List.mem_range]

/-- The order only reads the decay times. -/
theorem SetOk.congr {cfg : Config} {port port' : Nat → PortState} {ports : List Nat}
    (h : SetOk cfg port ports) (he : ∀ i, (port' i).decayTime = (port i).decayTime) :
    SetOk cfg port' ports := by
  have hk : key port' = key port := funext fun i => by simp [key, he i]
  exact ⟨h.perm, by rw [hk]; exact h.sorted⟩

theorem init_setOk (cfg : Config) : SetOk cfg (init cfg).port (init cfg).ports := by
  refine ⟨List.Perm.refl _, ?_⟩
  refine List.pairwise_lt_range.imp ?_
  intro a b hab
  simp [key, init, Prod.Lex.toLex_lt_toLex, hab]

theorem orderedInsert_sorted {port : Nat → PortState} {ports : List Nat} {i : Nat}
    (hs : ports.Pairwise (fun a b => key port a < key port b)) (hi : i ∉ ports) :
    (ports.orderedInsert (fun a b => ¬ comparer port b a) i).Pairwise
      (fun a b => key port a < key port b) := by
  have hle : ports.orderedInsert (fun a b => ¬ comparer port b a) i =
      ports.orderedInsert (fun a b => key port a ≤ key port b) i := by
    congr 1
    funext a b
    exact propext (not_comparer_iff port a b)
  rw [hle]
  have htot : Std.Total (fun a b => key port a ≤ key port b) := ⟨fun a b => le_total _ _⟩
  have htr : IsTrans Nat (fun a b => key port a ≤ key port b) := ⟨fun _ _ _ => le_trans⟩
  have hp := List.Pairwise.orderedInsert (r := fun a b => key port a ≤ key port b) i ports
    (hs.imp le_of_lt)
  have hn : (ports.orderedInsert (fun a b => key port a ≤ key port b) i).Nodup := by
    rw [(List.perm_orderedInsert _ i ports).nodup_iff, List.nodup_cons]
    exact ⟨hi, hs.imp (fun h he => h.ne (congrArg _ he))⟩
  refine (hp.and hn).imp ?_
  rintro a b ⟨hab, hne⟩
  exact lt_of_le_of_ne hab (fun h => hne (key_injective port h))

/-- Erase, change the key, insert: the set stays a sorted permutation. -/
theorem rekey_setOk {cfg : Config} {p : Pool} (h : SetOk cfg p.port p.ports) {i : Nat}
    (hi : i < cfg.total) (t : TimePoint) :
    SetOk cfg (rekey p i t).port (rekey p i t).ports := by
  have hmem : i ∈ p.ports := h.mem_iff.mpr hi
  have hout : i ∉ p.ports.erase i := h.nodup.not_mem_erase
  constructor
  · unfold rekey
    refine ((List.perm_orderedInsert _ i _).trans ?_).trans h.perm
    exact (List.perm_cons_erase hmem).symm
  · unfold rekey
    refine orderedInsert_sorted ?_ hout
    have hsub := h.sorted.sublist (List.erase_sublist (a := i))
    refine hsub.imp_of_mem ?_
    intro a b ha hb hab
    have ha' : a ≠ i := fun he => hout (he ▸ ha)
    have hb' : b ≠ i := fun he => hout (he ▸ hb)
    simpa [key, ha', hb'] using hab

theorem rekey_status (p : Pool) (i : Nat) (t : TimePoint) (j : Nat) :
    ((rekey p i t).port j).status = (p.port j).status := by
  unfold rekey
  by_cases hj : j = i
  · subst hj; simp
  · simp [hj]

theorem rekey_decayTime (p : Pool) (i : Nat) (t : TimePoint) (j : Nat) :
    ((rekey p i t).port j).decayTime = if j = i then t else (p.port j).decayTime := by
  unfold rekey
  by_cases hj : j = i
  · subst hj; simp
  · simp [hj]

/-- The queues, the counters and the reservations are the same in both pools. -/
structure SameBooks (p p' : Pool) : Prop where
  requests : p'.requests = p.requests
  reservedPorts : p'.reservedPorts = p.reservedPorts
  reservation : p'.reservation = p.reservation
  nextReservation : p'.nextReservation = p.nextReservation

theorem SameBooks.refl (p : Pool) : SameBooks p p := ⟨rfl, rfl, rfl, rfl⟩

/-- Re-keying a list of ports: the set stays ordered, the statuses and the books stay,
and exactly the listed ports get the new decay time. -/
theorem rekeyAll_spec {cfg : Config} (ids : List Nat) (t : TimePoint) :
    ∀ {p : Pool}, SetOk cfg p.port p.ports → (∀ i ∈ ids, i < cfg.total) →
      SetOk cfg (rekeyAll p ids t).port (rekeyAll p ids t).ports ∧
      SameBooks p (rekeyAll p ids t) ∧
      (∀ j, ((rekeyAll p ids t).port j).status = (p.port j).status) ∧
      ∀ j, ((rekeyAll p ids t).port j).decayTime = if j ∈ ids then t else (p.port j).decayTime := by
  induction ids with
  | nil => intro p h _; exact ⟨h, SameBooks.refl p, fun _ => rfl, fun _ => by simp [rekeyAll]⟩
  | cons i rest ih =>
    intro p h hlt
    obtain ⟨hset, hbooks, hst, hdt⟩ := ih (rekey_setOk h (hlt i (by simp)) t)
      (fun j hj => hlt j (by simp [hj]))
    change SetOk cfg (rekeyAll (rekey p i t) rest t).port (rekeyAll (rekey p i t) rest t).ports ∧
      SameBooks p (rekeyAll (rekey p i t) rest t) ∧
      (∀ j, ((rekeyAll (rekey p i t) rest t).port j).status = (p.port j).status) ∧
      ∀ j, ((rekeyAll (rekey p i t) rest t).port j).decayTime =
        if j ∈ i :: rest then t else (p.port j).decayTime
    refine ⟨hset, ⟨hbooks.1, hbooks.2, hbooks.3, hbooks.4⟩,
      fun j => (hst j).trans (rekey_status p i t j), fun j => ?_⟩
    rw [hdt j, rekey_decayTime]
    by_cases hj : j ∈ rest <;> by_cases hi : j = i <;> simp [hj, hi]

@[simp] theorem setStatus_nil (st : PortStatus) (port : Nat → PortState) :
    setStatus st [] port = port := by
  funext i; simp [setStatus]

@[simp] theorem setStatus_decayTime (st : PortStatus) (ids : List Nat) (port : Nat → PortState)
    (i : Nat) : (setStatus st ids port i).decayTime = (port i).decayTime := by
  unfold setStatus; split <;> rfl

theorem setStatus_status (st : PortStatus) (ids : List Nat) (port : Nat → PortState) (i : Nat) :
    (setStatus st ids port i).status = if i ∈ ids then st else (port i).status := by
  unfold setStatus; split <;> rfl

theorem setStatus_append (st : PortStatus) (a b : List Nat) (port : Nat → PortState) :
    setStatus st b (setStatus st a port) = setStatus st (a ++ b) port := by
  funext i
  by_cases ha : i ∈ a <;> by_cases hb : i ∈ b <;> simp [setStatus, ha, hb]

/-- Taking free ports and giving them back changes nothing. -/
theorem setStatus_restore {st : PortStatus} {ids : List Nat} {port : Nat → PortState}
    (h : ∀ i ∈ ids, (port i).status = .free) :
    setStatus .free ids (setStatus st ids port) = port := by
  funext i
  by_cases hi : i ∈ ids
  · have := h i hi
    cases hp : port i
    simp_all [setStatus]
  · simp [setStatus, hi]

/-- How many of the ports have a given status. -/
def numWith (cfg : Config) (port : Nat → PortState) (st : PortStatus) : Nat :=
  ((Finset.range cfg.total).filter (fun i => (port i).status = st)).card

theorem numWith_congr {cfg : Config} {port port' : Nat → PortState}
    (h : ∀ i, (port' i).status = (port i).status) (st : PortStatus) :
    numWith cfg port' st = numWith cfg port st := by
  simp only [numWith, h]

/-- Writing `st` into ports of another status adds them to the ones counted. -/
theorem numWith_setStatus_self {cfg : Config} {port : Nat → PortState} {st : PortStatus}
    {ids : List Nat} (hn : ids.Nodup) (hlt : ∀ i ∈ ids, i < cfg.total)
    (hne : ∀ i ∈ ids, (port i).status ≠ st) :
    numWith cfg (setStatus st ids port) st = numWith cfg port st + ids.length := by
  have hset : (Finset.range cfg.total).filter (fun i => (setStatus st ids port i).status = st) =
      (Finset.range cfg.total).filter (fun i => (port i).status = st) ∪ ids.toFinset := by
    ext i
    simp only [Finset.mem_filter, Finset.mem_range, Finset.mem_union, List.mem_toFinset,
      setStatus_status]
    by_cases hi : i ∈ ids
    · simp [hi, hlt i hi]
    · simp [hi]
  have hdisj : Disjoint ((Finset.range cfg.total).filter (fun i => (port i).status = st))
      ids.toFinset := by
    rw [Finset.disjoint_left]
    intro i hi hids
    exact hne i (List.mem_toFinset.mp hids) (Finset.mem_filter.mp hi).2
  rw [numWith, hset, Finset.card_union_of_disjoint hdisj, List.toFinset_card_of_nodup hn]
  rfl

/-- Writing another status over ports of status `c` removes them from the ones counted. -/
theorem numWith_setStatus_drop {cfg : Config} {port : Nat → PortState} {st c : PortStatus}
    {ids : List Nat} (hst : st ≠ c) (hn : ids.Nodup) (hlt : ∀ i ∈ ids, i < cfg.total)
    (hc : ∀ i ∈ ids, (port i).status = c) :
    numWith cfg (setStatus st ids port) c + ids.length = numWith cfg port c := by
  have hset : (Finset.range cfg.total).filter (fun i => (setStatus st ids port i).status = c) =
      (Finset.range cfg.total).filter (fun i => (port i).status = c) \ ids.toFinset := by
    ext i
    simp only [Finset.mem_filter, Finset.mem_range, Finset.mem_sdiff, List.mem_toFinset,
      setStatus_status]
    by_cases hi : i ∈ ids
    · simp [hi, hst]
    · simp [hi]
  have hsub : ids.toFinset ⊆ (Finset.range cfg.total).filter (fun i => (port i).status = c) := by
    intro i hi
    have hi' := List.mem_toFinset.mp hi
    exact Finset.mem_filter.mpr ⟨Finset.mem_range.mpr (hlt i hi'), hc i hi'⟩
  rw [numWith, hset, ← List.toFinset_card_of_nodup hn, Finset.card_sdiff_add_card_eq_card hsub]
  rfl

/-- Statuses other than the one written and the one overwritten keep their count. -/
theorem numWith_setStatus_other {cfg : Config} {port : Nat → PortState} {st c : PortStatus}
    {ids : List Nat} (hst : st ≠ c) (hc : ∀ i ∈ ids, (port i).status ≠ c) :
    numWith cfg (setStatus st ids port) c = numWith cfg port c := by
  unfold numWith
  congr 1
  ext i
  simp only [Finset.mem_filter, setStatus_status]
  by_cases hi : i ∈ ids
  · simp [hi, hst, hc i hi]
  · simp [hi]

/-- The loop frees the listed ports, gives the kept-alive ones among them the decay time
`t`, and reports whether there was one. -/
theorem freeLoop_spec {cfg : Config} (t : TimePoint) (ht : t ≠ ⊤) (ids : List Nat) :
    ∀ {p : Pool} (decay : Bool), SetOk cfg p.port p.ports → (∀ i ∈ ids, i < cfg.total) →
      SetOk cfg (freeLoop t ids (p, decay)).1.port (freeLoop t ids (p, decay)).1.ports ∧
      SameBooks p (freeLoop t ids (p, decay)).1 ∧
      (∀ j, ((freeLoop t ids (p, decay)).1.port j).status =
        if j ∈ ids then .free else (p.port j).status) ∧
      (∀ j, ((freeLoop t ids (p, decay)).1.port j).decayTime =
        if j ∈ ids ∧ (p.port j).decayTime = ⊤ then t else (p.port j).decayTime) ∧
      ((freeLoop t ids (p, decay)).2 = true ↔
        decay = true ∨ ∃ i ∈ ids, (p.port i).decayTime = ⊤) := by
  induction ids with
  | nil =>
    intro p decay h _
    exact ⟨h, SameBooks.refl p, fun j => by simp [freeLoop], fun j => by simp [freeLoop],
      by simp [freeLoop]⟩
  | cons i rest ih =>
    intro p decay h hlt
    have hset : SetOk cfg (setStatus .free [i] p.port) p.ports :=
      h.congr fun j => setStatus_decayTime _ _ _ _
    have hrest : ∀ j ∈ rest, j < cfg.total := fun j hj => hlt j (by simp [hj])
    by_cases htop : (p.port i).decayTime = ⊤
    · have hstep : freeLoop t (i :: rest) (p, decay) =
          freeLoop t rest (rekey { p with port := setStatus .free [i] p.port } i t, true) := by
        simp [freeLoop, htop]
      rw [hstep]
      obtain ⟨h₁, h₂, h₃, h₄, h₅⟩ := ih
        (p := rekey { p with port := setStatus .free [i] p.port } i t)
        true (rekey_setOk hset (hlt i (by simp)) t) hrest
      refine ⟨h₁, ⟨h₂.1, h₂.2, h₂.3, h₂.4⟩, fun j => ?_, fun j => ?_, ?_⟩
      · rw [h₃ j, rekey_status, setStatus_status]
        by_cases hj : j ∈ rest <;> by_cases hi : j = i <;> simp [hj, hi]
      · rw [h₄ j, rekey_decayTime]
        by_cases hi : j = i
        · subst hi; simp [ht, htop]
        · simp [hi]
      · rw [h₅]
        simp [htop]
    · have hstep : freeLoop t (i :: rest) (p, decay) =
          freeLoop t rest ({ p with port := setStatus .free [i] p.port }, decay) := by
        simp [freeLoop, htop]
      rw [hstep]
      obtain ⟨h₁, h₂, h₃, h₄, h₅⟩ := ih (p := { p with port := setStatus .free [i] p.port })
        decay hset hrest
      refine ⟨h₁, ⟨h₂.1, h₂.2, h₂.3, h₂.4⟩, fun j => ?_, fun j => ?_, ?_⟩
      · rw [h₃ j, setStatus_status]
        by_cases hj : j ∈ rest <;> by_cases hi : j = i <;> simp [hj, hi]
      · rw [h₄ j, setStatus_decayTime]
        by_cases hi : j = i
        · subst hi; simp [htop]
        · simp [hi]
      · rw [h₅]
        simp [htop]

/-- `release` frees the ports of one reservation, empties it and lowers its counter. -/
structure Released (cfg : Config) (p p' : Pool) (r : Nat) (ids : List Nat) (t : Nat) : Prop where
  set : SetOk cfg p'.port p'.ports
  status : ∀ j, (p'.port j).status = if j ∈ ids then .free else (p.port j).status
  decayTime : ∀ j, (p'.port j).decayTime =
    if j ∈ ids ∧ (p.port j).decayTime = ⊤ then (t : TimePoint) else (p.port j).decayTime
  requests : p'.requests = p.requests
  nextReservation : p'.nextReservation = p.nextReservation
  reservation : p'.reservation = Function.update p.reservation r (some [])
  reservedPorts : p'.reservedPorts = Function.update p.reservedPorts (kindOf p ids)
    (p.reservedPorts (kindOf p ids) - ids.length)

theorem release_spec {cfg : Config} {p : Pool} (h : SetOk cfg p.port p.ports) (r : Nat)
    {ids : List Nat} (hlt : ∀ i ∈ ids, i < cfg.total) (t : Nat) :
    Released cfg p (release p r ids t).1 r ids t ∧
      ((release p r ids t).2 = true ↔ ∃ i ∈ ids, (p.port i).decayTime = ⊤) := by
  obtain ⟨hset, hbooks, hst, hdt, hflag⟩ := freeLoop_spec (t : TimePoint) (WithTop.natCast_ne_top t)
    ids false h hlt
  refine ⟨⟨hset, hst, hdt, hbooks.requests, hbooks.nextReservation, ?_, ?_⟩, ?_⟩
  · simp only [release, hbooks.reservation]
  · simp only [release, hbooks.reservedPorts]
  · simpa [release] using hflag

/-- The free ports of the decayed prefix of `ports_`, in order. -/
def eligible (port : Nat → PortState) (now : Nat) (ports : List Nat) : List Nat :=
  (ports.takeWhile (fun i => decide ((port i).decayTime ≤ (now : TimePoint)))).filter
    (fun i => decide ((port i).status = .free))

/-- Marking a port that is not scanned any more does not change what is eligible. -/
theorem eligible_setStatus {st : PortStatus} {port : Nat → PortState} {now i : Nat}
    {ports : List Nat} (hi : i ∉ ports) :
    eligible (setStatus st [i] port) now ports = eligible port now ports := by
  unfold eligible
  simp only [setStatus_decayTime]
  refine List.filter_congr ?_
  intro j hj
  have hne : j ≠ i := fun he => hi (he ▸ (List.takeWhile_sublist _).mem hj)
  simp [setStatus_status, hne]

/-- How many more ports the scan takes before its counter meets `numPorts`; a counter
that starts beyond `numPorts` never meets it. -/
def scanned (numPorts : Int) (taken : Nat) (ids : List Nat) : List Nat :=
  if (taken : Int) ≤ numPorts then ids.take (numPorts - taken).toNat else ids

theorem reserveLoop_eq (st : PortStatus) (now : Nat) (numPorts : Int) (ports : List Nat)
    (hn : ports.Nodup) :
    ∀ (port : Nat → PortState) (states : List Nat),
      reserveLoop st now numPorts ports port states =
        (setStatus st (scanned numPorts states.length (eligible port now ports)) port,
          states ++ scanned numPorts states.length (eligible port now ports)) := by
  induction ports with
  | nil => intro port states; simp [reserveLoop, eligible, scanned]
  | cons i rest ih =>
    intro port states
    obtain ⟨hi, hrest⟩ := List.nodup_cons.mp hn
    rw [reserveLoop]
    split_ifs with hstop hfree
    · -- the scan ends here: either nothing is eligible or nothing more is wanted
      have hnil : scanned numPorts states.length (eligible port now (i :: rest)) = [] := by
        rcases hstop with hlate | hfull
        · simp [eligible, not_le.mpr hlate, scanned]
        · simp [scanned, hfull]
      rw [hnil]
      simp
    · obtain ⟨hdue, hmore⟩ := not_or.mp hstop
      have he : eligible port now (i :: rest) = i :: eligible port now rest := by
        simp [eligible, not_lt.mp hdue, hfree]
      have hs : scanned numPorts states.length (eligible port now (i :: rest)) =
          i :: scanned numPorts (states ++ [i]).length (eligible port now rest) := by
        rw [he]
        unfold scanned
        rw [List.length_append, List.length_singleton]
        by_cases hle : (states.length : Int) ≤ numPorts
        · have hlt : ((states.length + 1 : Nat) : Int) ≤ numPorts := by push_cast; omega
          have hnat : (numPorts - states.length).toNat =
              (numPorts - ((states.length + 1 : Nat) : Int)).toNat + 1 := by push_cast; omega
          rw [if_pos hle, if_pos hlt, hnat, List.take_succ_cons]
        · rw [if_neg hle, if_neg (by push_cast; omega)]
      rw [ih hrest, eligible_setStatus hi, hs, setStatus_append]
      simp
    · obtain ⟨hdue, hmore⟩ := not_or.mp hstop
      have he : eligible port now (i :: rest) = eligible port now rest := by
        simp [eligible, not_lt.mp hdue, hfree]
      rw [ih hrest, he]

theorem eligible_free {port : Nat → PortState} {now : Nat} {ports : List Nat} {i : Nat}
    (h : i ∈ eligible port now ports) : (port i).status = .free := by
  simpa using (List.mem_filter.mp h).2

theorem eligible_due {port : Nat → PortState} {now : Nat} {ports : List Nat} {i : Nat}
    (h : i ∈ eligible port now ports) : (port i).decayTime ≤ (now : TimePoint) := by
  have hm := (List.mem_filter.mp h).1
  simpa using List.mem_takeWhile_imp hm

theorem eligible_sublist (port : Nat → PortState) (now : Nat) (ports : List Nat) :
    (eligible port now ports).Sublist ports :=
  List.filter_sublist.trans (List.takeWhile_sublist _)

/-- In a list sorted by key, the decayed ports come first. -/
theorem takeWhile_due {port : Nat → PortState} {now : Nat} {ports : List Nat}
    (hs : ports.Pairwise (fun i j => key port i < key port j)) :
    ports.takeWhile (fun i => decide ((port i).decayTime ≤ (now : TimePoint))) =
      ports.filter (fun i => decide ((port i).decayTime ≤ (now : TimePoint))) := by
  induction ports with
  | nil => rfl
  | cons i rest ih =>
    obtain ⟨hi, hrest⟩ := List.pairwise_cons.mp hs
    by_cases hdue : (port i).decayTime ≤ (now : TimePoint)
    · simp [hdue, ih hrest]
    · have hlate : rest.filter (fun j => decide ((port j).decayTime ≤ (now : TimePoint))) = [] := by
        rw [List.filter_eq_nil_iff]
        intro j hj hd
        have hle : (port i).decayTime ≤ (port j).decayTime := by
          rcases Prod.Lex.toLex_lt_toLex.mp (hi j hj) with h | h
          · exact le_of_lt h
          · exact le_of_eq h.1
        exact hdue (le_trans hle (of_decide_eq_true hd))
      simp [hdue, hlate]

/-- A request can be served at `now`: it asks for a positive number of ports and that
many are eligible. -/
def Served (p : Pool) (now : Nat) (numPorts : Int) : Prop :=
  1 ≤ numPorts ∧ numPorts ≤ (eligible p.port now p.ports).length

/-- The ports a request for `numPorts` gets. -/
def chosen (p : Pool) (now : Nat) (numPorts : Int) : List Nat :=
  (eligible p.port now p.ports).take numPorts.toNat

theorem Served.length_chosen {p : Pool} {now : Nat} {numPorts : Int} (h : Served p now numPorts) :
    ((chosen p now numPorts).length : Int) = numPorts := by
  obtain ⟨h1, h2⟩ := h
  rw [chosen, List.length_take]
  omega

theorem Served.chosen_ne_nil {p : Pool} {now : Nat} {numPorts : Int} (h : Served p now numPorts) :
    chosen p now numPorts ≠ [] := by
  intro hnil
  have := h.length_chosen
  have h1 := h.1
  rw [hnil] at this
  simp only [List.length_nil] at this
  omega

/-- `reservePorts` either takes the first eligible ports, exactly as many as asked for,
or changes nothing. -/
theorem reservePorts_eq (p : Pool) (hn : p.ports.Nodup) (now : Nat) (numPorts : Int)
    (k : PortKind) :
    (Served p now numPorts ∧
      reservePorts p now numPorts k =
        ({ p with
            port := setStatus k.status (chosen p now numPorts) p.port
            reservedPorts := Function.update p.reservedPorts k (p.reservedPorts k + numPorts) },
          chosen p now numPorts)) ∨
    (¬ Served p now numPorts ∧ reservePorts p now numPorts k = (p, [])) := by
  set el := eligible p.port now p.ports with hel
  have hloop := reserveLoop_eq k.status now numPorts p.ports hn p.port []
  rw [List.length_nil, List.nil_append, ← hel] at hloop
  have hfree : ∀ i ∈ scanned numPorts 0 el, (p.port i).status = .free := by
    intro i hi
    unfold scanned at hi
    split_ifs at hi
    · exact eligible_free (List.mem_of_mem_take hi)
    · exact eligible_free hi
  unfold reservePorts Served chosen
  rw [hloop]
  simp only [← hel]
  by_cases hlen : ((scanned numPorts 0 el).length : Int) = numPorts
  · rw [if_neg (not_not.mpr hlen)]
    have hle : (0 : Int) ≤ numPorts := by omega
    have hsc : scanned numPorts 0 el = el.take numPorts.toNat := by simp [scanned, hle]
    rw [hsc] at hlen ⊢
    rw [List.length_take] at hlen
    rcases hle.eq_or_lt with hzero | hpos
    · right
      refine ⟨by omega, ?_⟩
      simp [← hzero]
    · left
      exact ⟨⟨by omega, by omega⟩, rfl⟩
  · right
    rw [if_pos hlen, setStatus_restore hfree]
    refine ⟨?_, rfl⟩
    rintro ⟨h1, h2⟩
    have hsc : scanned numPorts 0 el = el.take numPorts.toNat := by
      simp [scanned, show (0 : Int) ≤ numPorts by omega]
    rw [hsc, List.length_take] at hlen
    omega

/-- The head request of a queue can be granted at `now`: its class has the quota left and
`reservePorts` would find the ports. -/
def Grantable (cfg : Config) (p : Pool) (k : PortKind) (now : Nat) : Prop :=
  ∃ req rest, p.requests k = req :: rest ∧
    req.numPorts ≤ cfg.numPorts k - p.reservedPorts k ∧ Served p now req.numPorts

/-- Give `ids` to the reservation `r` in class `k`. -/
def assign (p : Pool) (k : PortKind) (r : Nat) (ids : List Nat) : Pool :=
  { p with
    port := setStatus k.status ids p.port
    reservedPorts := Function.update p.reservedPorts k (p.reservedPorts k + ids.length)
    reservation := Function.update p.reservation r (some ids) }

/-- The head request of class `k` is granted with the ports chosen at `now`. -/
inductive Granted (cfg : Config) (p : Pool) (k : PortKind) (now : Nat) : Pool → Prop where
  | mk (req : Request) (rest : List Request) (queue : p.requests k = req :: rest)
      (quota : req.numPorts ≤ cfg.numPorts k - p.reservedPorts k)
      (served : Served p now req.numPorts) :
      Granted cfg p k now
        { assign p k req.reservation (chosen p now req.numPorts) with
          requests := Function.update p.requests k rest }

/-- One turn of `processRequests` grants the head request exactly when it is grantable. -/
theorem tryGrant_eq (cfg : Config) (p : Pool) (hn : p.ports.Nodup) (k : PortKind) (now : Nat) :
    (∃ p', Granted cfg p k now p' ∧ tryGrant cfg p k now = (p', true)) ∨
    (¬ Grantable cfg p k now ∧ tryGrant cfg p k now = (p, false)) := by
  unfold tryGrant
  cases hreq : p.requests k with
  | nil =>
    right
    refine ⟨?_, rfl⟩
    rintro ⟨req, rest, he, _⟩
    rw [hreq] at he
    cases he
  | cons req rest =>
    simp only
    by_cases hquota : req.numPorts > cfg.numPorts k - p.reservedPorts k
    · right
      rw [if_pos hquota]
      refine ⟨?_, rfl⟩
      rintro ⟨req', rest', he, hq, _⟩
      obtain ⟨rfl, rfl⟩ := List.cons.inj (hreq.symm.trans he)
      omega
    · rw [if_neg hquota]
      rcases reservePorts_eq p hn now req.numPorts k with ⟨hserved, heq⟩ | ⟨hno, heq⟩
      · left
        refine ⟨_, Granted.mk req rest hreq (by omega) hserved, ?_⟩
        obtain ⟨i, is, hc⟩ := List.exists_cons_of_ne_nil hserved.chosen_ne_nil
        have hlen := hserved.length_chosen
        rw [hc] at hlen
        rw [heq, hc]
        simp only [assign, hlen]
      · right
        rw [heq]
        refine ⟨?_, rfl⟩
        rintro ⟨req', rest', he, _, hs⟩
        obtain ⟨rfl, rfl⟩ := List.cons.inj (hreq.symm.trans he)
        exact hno hs

/-- `reserveNow` makes a reservation when the request can be served within the quota and
changes nothing but the clock otherwise. -/
theorem reserveNow_eq (cfg : Config) (s : State) (hn : s.ports.Nodup) (k : PortKind)
    (numPorts : Int) (now : Nat) :
    (numPorts ≤ cfg.numPorts k - s.reservedPorts k ∧ Served s.toPool now numPorts ∧
      reserveNow cfg s k numPorts now =
        { s with
          toPool := { assign s.toPool k s.nextReservation (chosen s.toPool now numPorts) with
            nextReservation := s.nextReservation + 1 }
          clock := now }) ∨
    (∃ c, (c = s.clock ∨ c = now) ∧ reserveNow cfg s k numPorts now = { s with clock := c }) := by
  unfold reserveNow
  by_cases hquota : numPorts > cfg.numPorts k - s.reservedPorts k
  · right
    exact ⟨s.clock, Or.inl rfl, by rw [if_pos hquota]⟩
  · rw [if_neg hquota]
    rcases reservePorts_eq s.toPool hn now numPorts k with ⟨hserved, heq⟩ | ⟨_, heq⟩
    · left
      refine ⟨by omega, hserved, ?_⟩
      obtain ⟨i, is, hc⟩ := List.exists_cons_of_ne_nil hserved.chosen_ne_nil
      have hlen := hserved.length_chosen
      rw [hc] at hlen
      rw [heq, hc]
      simp only [assign, newReservation, hlen]
    · right
      exact ⟨now, Or.inr rfl, by rw [heq]⟩

/-- From the fast queue on a handler either grants its head or, having been refused at
`t₂`, leaves: the decay handler through the re-arming scan. -/
theorem runFast_cases (cfg : Config) (s : State) (hn : s.ports.Nodup) (decay : Bool)
    (t₁ t₂ t₃ : Nat) :
    (∃ p, Granted cfg s.toPool .fast t₂ p ∧ runFast cfg s decay t₁ t₂ t₃ =
      { s with toPool := p, handler := some ⟨decay, .fast, t₁⟩, clock := t₂ }) ∨
    (¬ Grantable cfg s.toPool .fast t₂ ∧ runFast cfg s decay t₁ t₂ t₃ =
      if decay then rearm s t₃ else { s with handler := none, clock := t₂ }) := by
  unfold runFast
  rcases tryGrant_eq cfg s.toPool hn .fast t₂ with ⟨p, hg, heq⟩ | ⟨hno, heq⟩
  · exact Or.inl ⟨p, hg, by rw [heq]⟩
  · exact Or.inr ⟨hno, by rw [heq]⟩

/-- From the symmetric queue on a handler either grants its head or moves to the fast
queue. -/
theorem runSymm_cases (cfg : Config) (s : State) (hn : s.ports.Nodup) (decay : Bool)
    (t₁ t₂ t₃ : Nat) :
    (∃ p, Granted cfg s.toPool .symm t₁ p ∧ runSymm cfg s decay t₁ t₂ t₃ =
      { s with toPool := p, handler := some ⟨decay, .symm, t₁⟩, clock := t₁ }) ∨
    (¬ Grantable cfg s.toPool .symm t₁ ∧
      runSymm cfg s decay t₁ t₂ t₃ = runFast cfg s decay t₁ t₂ t₃) := by
  unfold runSymm
  rcases tryGrant_eq cfg s.toPool hn .symm t₁ with ⟨p, hg, heq⟩ | ⟨hno, heq⟩
  · exact Or.inl ⟨p, hg, by rw [heq]⟩
  · exact Or.inr ⟨hno, by rw [heq]⟩

theorem rearm_pool (s : State) (now : Nat) : (rearm s now).toPool = s.toPool := by
  unfold rearm; split <;> rfl

theorem rearm_clock (s : State) (now : Nat) : (rearm s now).clock = now := by
  unfold rearm; split <;> rfl

/-- The reservation an event is called on. -/
def Event.target : Event → Option Nat
  | .use r _ | .keepalive r | .cancel r _ | .destroy r _ => some r
  | _ => none

/-- The change one event makes to the pool; `c` is the clock after it. Destroying a
reservation is cancelling it and then forgetting it. -/
inductive PoolStep (cfg : Config) (p : Pool) : Event → Nat → Pool → Prop where
  | same (e : Event) (c : Nat) (he : e.target = none) : PoolStep cfg p e c p
  | reserve (e : Event) (k : PortKind) (n : Int) (now : Nat) (he : e.target = none)
      (quota : n ≤ cfg.numPorts k - p.reservedPorts k) (served : Served p now n) :
      PoolStep cfg p e now
        { assign p k p.nextReservation (chosen p now n) with
          nextReservation := p.nextReservation + 1 }
  | grant (e : Event) (k : PortKind) (now : Nat) (p' : Pool) (he : e.target = none)
      (granted : Granted cfg p k now p') : PoolStep cfg p e now p'
  | enqueue (e : Event) (k : PortKind) (n : Int) (c : Nat) (he : e.target = none) :
      PoolStep cfg p e c (enqueue p k n)
  | use (r now i : Nat) (ids : List Nat) (held : p.reservation r = some (i :: ids)) :
      PoolStep cfg p (.use r now) now
        (rekeyAll p (i :: ids) ((now + cfg.decay : Nat) : TimePoint))
  | keepalive (r kept : Nat) (others : List Nat) (c : Nat)
      (held : p.reservation r = some (kept :: others)) :
      PoolStep cfg p (.keepalive r) c (keepFirst p r kept others)
  | drop (r now c : Nat) (empty : p.reservation r = some []) :
      PoolStep cfg p (.cancel r now) c (dropRequests p r)
  | release (r now : Nat) (ids : List Nat) (held : p.reservation r = some ids) (ne : ids ≠ []) :
      PoolStep cfg p (.cancel r now) now
        (release p r ids ((now + cfg.decay : Nat) : TimePoint)).1
  | forget (r now c : Nat) (p' : Pool) (cancelled : PoolStep cfg p (.cancel r now) c p') :
      PoolStep cfg p (.destroy r now) c
        { p' with reservation := Function.update p'.reservation r none }

/-- A cancellation drops the request of an empty reservation or takes its ports back. -/
theorem PoolStep.cancel_cases {cfg : Config} {p p' : Pool} {r now c : Nat}
    (h : PoolStep cfg p (.cancel r now) c p') :
    (p.reservation r = some [] ∧ p' = dropRequests p r) ∨
    (∃ ids, p.reservation r = some ids ∧ ids ≠ [] ∧ c = now ∧
      p' = (PortAllocator.release p r ids ((now + cfg.decay : Nat) : TimePoint)).1) := by
  cases h with
  | drop _ _ _ hr => exact Or.inl ⟨hr, rfl⟩
  | release _ _ ids hr hne => exact Or.inr ⟨ids, hr, hne, rfl, rfl⟩
  | same _ _ he => cases he
  | reserve _ _ _ _ he => cases he
  | grant _ _ _ _ he => cases he
  | enqueue _ _ _ _ he => cases he

theorem startDecay_pool (cfg : Config) (s : State) (now : Nat) :
    (startDecay cfg s now).toPool = s.toPool := by
  unfold startDecay; split <;> rfl

theorem startDecay_clock (cfg : Config) (s : State) (now : Nat) :
    (startDecay cfg s now).clock = s.clock := by
  unfold startDecay; split <;> rfl

theorem freeReservation_pool (cfg : Config) {s : State} {r now : Nat} {ids : List Nat}
    (hr : s.reservation r = some ids) (hc : s.clock ≤ now) :
    PoolStep cfg s.toPool (.cancel r now) (freeReservation cfg s r ids now).clock
      (freeReservation cfg s r ids now).toPool ∧
    s.clock ≤ (freeReservation cfg s r ids now).clock := by
  unfold freeReservation
  by_cases hids : ids = []
  · subst hids
    exact ⟨PoolStep.drop r now _ hr, le_refl _⟩
  · have hrel : PoolStep cfg s.toPool _ now _ := PoolStep.release r now ids hr hids
    simp only [if_neg hids]
    split
    · rw [startDecay_pool, startDecay_clock]
      exact ⟨hrel, hc⟩
    · exact ⟨hrel, hc⟩

theorem runFast_pool {cfg : Config} {s : State} (hn : s.ports.Nodup) {e : Event}
    (he : e.target = none) {decay : Bool} {t₁ t₂ t₃ : Nat} (h₂ : s.clock ≤ t₂) (h₃ : s.clock ≤ t₃) :
    PoolStep cfg s.toPool e (runFast cfg s decay t₁ t₂ t₃).clock
      (runFast cfg s decay t₁ t₂ t₃).toPool ∧
    s.clock ≤ (runFast cfg s decay t₁ t₂ t₃).clock := by
  rcases runFast_cases cfg s hn decay t₁ t₂ t₃ with ⟨p, hg, heq⟩ | ⟨_, heq⟩
  · rw [heq]
    exact ⟨PoolStep.grant e _ _ _ he hg, h₂⟩
  · rw [heq]
    split
    · rw [rearm_pool, rearm_clock]
      exact ⟨PoolStep.same e _ he, h₃⟩
    · exact ⟨PoolStep.same e _ he, h₂⟩

theorem runSymm_pool {cfg : Config} {s : State} (hn : s.ports.Nodup) {e : Event}
    (he : e.target = none) {decay : Bool} {t₁ t₂ t₃ : Nat} (h₁ : s.clock ≤ t₁)
    (h₂ : s.clock ≤ t₂) (h₃ : s.clock ≤ t₃) :
    PoolStep cfg s.toPool e (runSymm cfg s decay t₁ t₂ t₃).clock
      (runSymm cfg s decay t₁ t₂ t₃).toPool ∧
    s.clock ≤ (runSymm cfg s decay t₁ t₂ t₃).clock := by
  rcases runSymm_cases cfg s hn decay t₁ t₂ t₃ with ⟨p, hg, heq⟩ | ⟨_, heq⟩
  · rw [heq]
    exact ⟨PoolStep.grant e _ _ _ he hg, h₁⟩
  · rw [heq]
    exact runFast_pool hn he h₂ h₃

theorem reserveNow_pool {cfg : Config} {s : State} (hn : s.ports.Nodup) {e : Event}
    (he : e.target = none) {k : PortKind} {n : Int} {now : Nat} (hc : s.clock ≤ now) :
    PoolStep cfg s.toPool e (reserveNow cfg s k n now).clock (reserveNow cfg s k n now).toPool ∧
    s.clock ≤ (reserveNow cfg s k n now).clock := by
  rcases reserveNow_eq cfg s hn k n now with ⟨hq, hs, heq⟩ | ⟨c, hcc, heq⟩
  · rw [heq]
    exact ⟨PoolStep.reserve e k n now he hq hs, hc⟩
  · rw [heq]
    refine ⟨PoolStep.same e c he, ?_⟩
    rcases hcc with rfl | rfl
    · exact le_refl _
    · exact hc

/-- Every step changes the pool in one of the listed ways, and the clock never goes back. -/
theorem step_pool {cfg : Config} {s s' : State} {e : Event} (hn : s.ports.Nodup)
    (h : step cfg s e = some s') :
    PoolStep cfg s.toPool e s'.clock s'.toPool ∧ s.clock ≤ s'.clock := by
  cases e with
  | reserveSymmPorts n now =>
    obtain ⟨hc, he⟩ := Option.ite_none_right_eq_some.mp h
    obtain rfl := Option.some.inj he
    exact reserveNow_pool hn rfl hc
  | reserveFastPorts n now =>
    obtain ⟨hc, he⟩ := Option.ite_none_right_eq_some.mp h
    obtain rfl := Option.some.inj he
    exact reserveNow_pool hn rfl hc
  | reserveSymmPortsBestEffort n =>
    obtain rfl := Option.some.inj h
    exact ⟨PoolStep.enqueue _ _ _ _ rfl, le_refl _⟩
  | reserveFastPortsBestEffort n =>
    obtain rfl := Option.some.inj h
    exact ⟨PoolStep.enqueue _ _ _ _ rfl, le_refl _⟩
  | use r now =>
    simp only [step] at h
    split at h
    case h_1 i ids hr =>
      obtain ⟨hc, he⟩ := Option.ite_none_right_eq_some.mp h
      obtain rfl := Option.some.inj he
      rw [useReservation, startDecay_pool, startDecay_clock]
      exact ⟨PoolStep.use r now i ids hr, hc⟩
    case h_2 => cases h
  | keepalive r =>
    simp only [step] at h
    split at h
    case h_1 i ids hr =>
      obtain rfl := Option.some.inj h
      exact ⟨PoolStep.keepalive r i ids _ hr, le_refl _⟩
    case h_2 => cases h
  | cancel r now =>
    simp only [step] at h
    split at h
    case h_1 ids hr =>
      obtain ⟨hc, he⟩ := Option.ite_none_right_eq_some.mp h
      obtain rfl := Option.some.inj he
      exact freeReservation_pool cfg hr hc
    case h_2 => cases h
  | destroy r now =>
    simp only [step] at h
    split at h
    case h_1 ids hr =>
      obtain ⟨hc, he⟩ := Option.ite_none_right_eq_some.mp h
      obtain rfl := Option.some.inj he
      obtain ⟨hp, hle⟩ := freeReservation_pool cfg hr hc
      exact ⟨PoolStep.forget r now _ _ hp, hle⟩
    case h_2 => cases h
  | onProcessRequests t₁ t₂ =>
    obtain ⟨⟨_, _, h₁, h₂⟩, he⟩ := Option.ite_none_right_eq_some.mp h
    obtain rfl := Option.some.inj he
    exact runSymm_pool (s := { s with processPosted := s.processPosted - 1 }) hn rfl h₁
      (le_trans h₁ h₂) (le_trans h₁ h₂)
  | onDecayTimeout t₁ t₂ t₃ =>
    simp only [step] at h
    split at h
    case h_1 due rest _ =>
      obtain ⟨⟨_, _, h₁, h₂, h₃⟩, he⟩ := Option.ite_none_right_eq_some.mp h
      obtain rfl := Option.some.inj he
      exact runSymm_pool (s := { s with decayPosted := rest }) hn rfl h₁ (le_trans h₁ h₂)
        (le_trans h₁ (le_trans h₂ h₃))
    case h_2 => cases h
  | resume t₁ t₂ t₃ =>
    simp only [step] at h
    split at h
    case h_1 hd _ =>
      obtain ⟨⟨h₁, h₂, h₃⟩, he⟩ := Option.ite_none_right_eq_some.mp h
      obtain rfl := Option.some.inj he
      unfold resume
      split
      · exact runSymm_pool hn rfl h₁ (le_trans h₁ h₂) (le_trans h₁ (le_trans h₂ h₃))
      · exact runFast_pool hn rfl (le_trans h₁ h₂) (le_trans h₁ (le_trans h₂ h₃))
    case h_2 => cases h

end DTun.Node.PortAllocator
