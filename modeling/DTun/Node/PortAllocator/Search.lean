import Mathlib.Data.List.Sort
import DTun.Node.PortAllocator.Invariant

/-!
# The scan of `reservePorts` against a full search

`reservePorts` walks `ports_` and stops at the first port that has not decayed. Here it is
compared with a search that knows nothing of the ordered set: look at every port, keep the
free ones whose decay time has come, order them by `PortStateComparer` and take the first
`numPorts`. The two agree because `ports_` is sorted, so that no port behind the one where
the scan stops has decayed either.
-/

namespace DTun.Node.PortAllocator

open DTun.Lib.Runs

variable {cfg : Config} {p : Pool} {now : Nat}

/-- A port that can be handed out at `now`. -/
def available (port : Nat → PortState) (now i : Nat) : Bool :=
  decide ((port i).status = .free ∧ (port i).decayTime ≤ (now : TimePoint))

/-- Every port that can be handed out at `now`, by id. -/
def allAvailable (cfg : Config) (p : Pool) (now : Nat) : List Nat :=
  (List.range cfg.total).filter (available p.port now)

/-- The full search: all ports that can be handed out, least by (decayTime, id) first, and
of these the first `numPorts` unless there are fewer. -/
def fullSearch (cfg : Config) (p : Pool) (now : Nat) (numPorts : Int) : List Nat :=
  if numPorts ≤ (allAvailable cfg p now).length then
    ((allAvailable cfg p now).insertionSort fun i j => ¬ comparer p.port j i).take numPorts.toNat
  else []

/-- What the scan may take is what a filter of the whole set keeps. -/
theorem SetOk.eligible_eq (h : SetOk cfg p.port p.ports) :
    eligible p.port now p.ports = p.ports.filter (available p.port now) := by
  unfold eligible
  rw [takeWhile_due h.sorted, List.filter_filter]
  apply List.filter_congr
  intro i _
  simp [available]

theorem SetOk.eligible_perm (h : SetOk cfg p.port p.ports) :
    (eligible p.port now p.ports).Perm (allAvailable cfg p now) := by
  rw [h.eligible_eq]
  exact h.perm.filter _

theorem SetOk.eligible_sorted (h : SetOk cfg p.port p.ports) (now : Nat) :
    (eligible p.port now p.ports).Pairwise fun i j => key p.port i < key p.port j :=
  h.sorted.sublist (eligible_sublist _ _ _)

/-- The scan meets the ports in the order a sort would give them. -/
theorem SetOk.eligible_eq_sort (h : SetOk cfg p.port p.ports) :
    eligible p.port now p.ports =
      (allAvailable cfg p now).insertionSort fun i j => ¬ comparer p.port j i := by
  have htot : Std.Total (fun i j => ¬ comparer p.port j i = true) := by
    constructor
    intro i j
    rw [not_comparer_iff, not_comparer_iff]
    exact le_total _ _
  have htrans : IsTrans Nat (fun i j => ¬ comparer p.port j i = true) := by
    constructor
    intro i j l
    rw [not_comparer_iff, not_comparer_iff, not_comparer_iff]
    exact le_trans
  have hanti : Std.Antisymm (fun i j => ¬ comparer p.port j i = true) := by
    constructor
    intro i j
    rw [not_comparer_iff, not_comparer_iff]
    intro hij hji
    exact key_injective p.port (le_antisymm hij hji)
  apply List.Perm.eq_of_pairwise' (r := fun i j => ¬ comparer p.port j i = true)
  · exact (h.eligible_sorted now).imp fun hlt => (not_comparer_iff _ _ _).mpr hlt.le
  · exact List.pairwise_insertionSort _ _
  · exact h.eligible_perm.trans (List.perm_insertionSort _ _).symm

theorem SetOk.served_iff (h : SetOk cfg p.port p.ports) {n : Int} (hn : 1 ≤ n) :
    Served p now n ↔ n ≤ (allAvailable cfg p now).length := by
  rw [Served, h.eligible_perm.length_eq]
  omega

/-- Ports of the full search that the scan leaves come after those it takes. -/
theorem SetOk.chosen_least (h : SetOk cfg p.port p.ports) {n : Int} {i j : Nat}
    (hi : i ∈ chosen p now n) (hj : j ∈ allAvailable cfg p now) (hout : j ∉ chosen p now n) :
    comparer p.port i j = true := by
  have hmem : j ∈ eligible p.port now p.ports := h.eligible_perm.mem_iff.mpr hj
  have hsorted := h.eligible_sorted now
  rw [← List.take_append_drop n.toNat (eligible p.port now p.ports)] at hmem hsorted
  have hdrop := (List.mem_append.mp hmem).resolve_left hout
  exact (comparer_iff _ _ _).mpr ((List.pairwise_append.mp hsorted).2.2 i hi j hdrop)

theorem SetOk.chosen_available (h : SetOk cfg p.port p.ports) {n : Int} {i : Nat}
    (hi : i ∈ chosen p now n) : i ∈ allAvailable cfg p now :=
  h.eligible_perm.mem_iff.mp (List.mem_of_mem_take hi)

/-- The early-exit scan finds what the full search finds. -/
theorem SetOk.reservePorts_snd (h : SetOk cfg p.port p.ports) (now : Nat) {n : Int}
    (hn : 1 ≤ n) (k : PortKind) : (reservePorts p now n k).2 = fullSearch cfg p now n := by
  unfold fullSearch
  rcases reservePorts_eq p h.nodup now n k with ⟨hserved, heq⟩ | ⟨hserved, heq⟩
  · rw [if_pos ((h.served_iff hn).mp hserved), heq, ← h.eligible_eq_sort]
    rfl
  · rw [if_neg (fun hle => hserved ((h.served_iff hn).mpr hle)), heq]

/-- The assertion at the end of `reservePorts` holds for a request within the quota, which
is what the callers check first. -/
theorem reservePorts_quota (h : Inv cfg p) {n : Int} {k : PortKind}
    (hquota : n ≤ cfg.numPorts k - p.reservedPorts k) (l : PortKind) :
    (reservePorts p now n k).1.reservedPorts l ≤ cfg.numPorts l := by
  have hbound := h.bound l
  rcases reservePorts_eq p h.set.nodup now n k with ⟨-, heq⟩ | ⟨-, heq⟩
  · rw [heq]
    by_cases hl : l = k
    · subst hl
      simp only [Function.update_self]
      omega
    · simpa [hl] using hbound
  · rw [heq]
    exact hbound

/-- From every reachable state `reservePorts` hands out ports exactly when as many as it is
asked for are free and decayed. It then returns the least of these by (decayTime, id), as
the full search does, and changes their status and the counter of the class and nothing
else. When it fails it changes nothing at all. -/
theorem reservePorts_atomic {s : State} {es : List Event} (h : Run cfg es s) (now : Nat)
    {n : Int} (hn : 1 ≤ n) (k : PortKind) {p : Pool} {ids : List Nat}
    (hr : reservePorts s.toPool now n k = (p, ids)) :
    (ids ≠ [] ↔ n ≤ (allAvailable cfg s.toPool now).length) ∧
    ids = fullSearch cfg s.toPool now n ∧
    (ids ≠ [] →
      (ids.length = n ∧ ids.Nodup ∧ (∀ i ∈ ids, i ∈ allAvailable cfg s.toPool now) ∧
        ∀ i ∈ ids, ∀ j ∈ allAvailable cfg s.toPool now, j ∉ ids → comparer s.port i j = true) ∧
      p = { s.toPool with
        port := setStatus k.status ids s.port
        reservedPorts := Function.update s.reservedPorts k (s.reservedPorts k + n) }) ∧
    (ids = [] → p = s.toPool) := by
  have hset := (run_inv h).set
  have hfull := hset.reservePorts_snd now hn k
  rw [hr] at hfull
  rcases reservePorts_eq s.toPool hset.nodup now n k with ⟨hserved, heq⟩ | ⟨hserved, heq⟩
  · obtain ⟨rfl, rfl⟩ := Prod.mk.inj (hr.symm.trans heq)
    have hne := hserved.chosen_ne_nil
    have hle := (hset.served_iff hn).mp hserved
    refine ⟨⟨fun _ => hle, fun _ => hne⟩, hfull, ?_, fun hnil => absurd hnil hne⟩
    intro _
    refine ⟨⟨hserved.length_chosen, hset.nodup.sublist (chosen_sublist _ _ _), ?_, ?_⟩, rfl⟩
    · intro i hi
      exact hset.chosen_available hi
    · intro i hi j hj hout
      exact hset.chosen_least hi hj hout
  · obtain ⟨rfl, rfl⟩ := Prod.mk.inj (hr.symm.trans heq)
    have hlt : ¬ n ≤ (allAvailable cfg s.toPool now).length :=
      fun hle => hserved ((hset.served_iff hn).mpr hle)
    refine ⟨⟨fun hne => absurd rfl hne, fun hle => absurd hle hlt⟩, hfull, ?_, fun _ => rfl⟩
    intro hne
    exact absurd rfl hne

/-- Port 0 was used and freed and is still decaying, port 1 is held: at 7 a request for one
port gets port 2, and one for two ports puts port 2 back. -/
theorem reservePorts_atomic_decaying :
    ∃ s, Run ⟨1, 2, 1⟩ [.reserveSymmPorts 1 0, .use 0 0, .cancel 0 5, .reserveFastPorts 1 6] s ∧
      (reservePorts s.toPool 7 1 .fast).2 = [2] ∧
      (reservePorts s.toPool 7 2 .symm).1 = s.toPool := by
  obtain ⟨s, hs, hone, htwo⟩ : ∃ s, Run ⟨1, 2, 1⟩
      [.reserveSymmPorts 1 0, .use 0 0, .cancel 0 5, .reserveFastPorts 1 6] s ∧
      (fullSearch ⟨1, 2, 1⟩ s.toPool 7 1 = [2] ∧ fullSearch ⟨1, 2, 1⟩ s.toPool 7 2 = []) :=
    exec_check (by decide)
  have hfirst := reservePorts_atomic hs 7 (by decide) .fast
    (show reservePorts s.toPool 7 1 .fast = (_, _) from rfl)
  have hsecond := reservePorts_atomic hs 7 (by decide) .symm
    (show reservePorts s.toPool 7 2 .symm = (_, _) from rfl)
  exact ⟨s, hs, hfirst.2.1.trans hone, hsecond.2.2.2 (hsecond.2.1.trans htwo)⟩

end DTun.Node.PortAllocator
