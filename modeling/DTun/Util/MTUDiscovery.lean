import DTun.Lib.Runs

/-!
# Path MTU discovery

`MTUDiscovery` sends probes of growing size, six times each, and halves the interval between
the largest size that was answered and the smallest that was not. It is advanced by two
events that know nothing of each other, its timer and the replies, and replies may be lost,
duplicated, delayed and reordered. The peer answers a probe with the index it carries.

Sizes are in bytes, so they stay far from the ends of `int`, and the index grows only when
the interval shrinks. Left out is what a datagram holds besides its size and the index.
-/

namespace DTun.Util.MTUDiscovery

open Lib.Runs

/-- A probe that has been sent. -/
structure Probe where
  index : Nat
  size : Int
  deriving DecidableEq, Repr

structure Discovery where
  minMTU : Int
  maxMTU : Int
  curIndex : Nat := 0
  curMTU : Int
  curTry : Nat := 0
  /-- `onMTUProbeTimeout` is posted. -/
  posted : Bool := false
  deriving DecidableEq, Repr

def numTries : Nat := 6

namespace Discovery

def create (minMTU maxMTU : Int) : Discovery := { minMTU, maxMTU, curMTU := minMTU }

def start (d : Discovery) : Discovery := { d with posted := true }

/-- The end of `onMTUProbeTimeout`: a probe goes out and the timer is posted again. -/
def sendProbe (d : Discovery) : Discovery × Option Probe :=
  ({ d with curTry := d.curTry + 1, posted := true }, some ⟨d.curIndex, d.curMTU⟩)

/-- `none` when the timer is not posted again. -/
def onMTUProbeTimeout (d : Discovery) : Discovery × Option Probe :=
  let d := { d with posted := false }
  if d.curTry ≥ numTries then
    let d := { d with
      curTry := 0, curIndex := d.curIndex + 1, maxMTU := d.curMTU - 1
      curMTU := (d.minMTU + (d.curMTU - 1)).tdiv 2 }
    if d.maxMTU - d.minMTU ≤ 16 then (d, none) else d.sendProbe
  else if d.maxMTU - d.minMTU ≤ 16 then (d, none)
  else d.sendProbe

/-- At the peer: the index of the reply, which holds nothing else. -/
def onMTUProbe (numBytes : Int) (index : Nat) : Option Nat :=
  if numBytes < 4 then none else some index

/-- The new MTU is `none` when it returns false. -/
def onMTUProbeReply (d : Discovery) (numBytes : Int) (index : Nat) : Discovery × Option Int :=
  if numBytes < 4 then (d, none)
  else if numBytes > 4 then (d, none)
  else if index ≠ d.curIndex then (d, none)
  else
    ({ d with
      curTry := 0, curIndex := d.curIndex + 1, minMTU := d.curMTU
      curMTU := (d.curMTU + d.maxMTU).tdiv 2 }, some d.curMTU)

end Discovery

/-- A discovery and the path to its peer. -/
structure Path where
  d : Discovery
  /-- `probeTransportHeader_.size()`. -/
  headerSize : Nat
  /-- Probes that have been sent. -/
  sent : List Probe := []
  /-- Probes that the peer has received. -/
  received : List Probe := []
  /-- What `onMTUProbeReply` has reported. -/
  reported : List Int := []
  deriving DecidableEq, Repr

inductive Event where
  /-- The posted timer runs. -/
  | timeout
  /-- The peer receives a probe. -/
  | arrive (k : Nat)
  /-- A reply to a probe that the peer has received arrives. -/
  | reply (k : Nat)
  deriving DecidableEq, Repr

namespace Path

def init (minMTU maxMTU : Int) (headerSize : Nat) : Path :=
  { d := (Discovery.create minMTU maxMTU).start, headerSize }

/-- `none` when the event cannot happen. -/
def step (n : Path) : Event → Option Path
  | .timeout =>
    if n.d.posted then
      let (d, probe) := n.d.onMTUProbeTimeout
      some { n with d, sent := n.sent ++ probe.toList }
    else none
  | .arrive k => (n.sent[k]?).map fun p => { n with received := n.received ++ [p] }
  | .reply k => (n.received[k]?).bind fun p =>
    (Discovery.onMTUProbe (p.size - n.headerSize) p.index).map fun index =>
      let (d, newMTU) := n.d.onMTUProbeReply 4 index
      { n with d, reported := n.reported ++ newMTU.toList }

abbrev Run (minMTU maxMTU : Int) (headerSize : Nat) (es : List Event) (n : Path) : Prop :=
  exec step (init minMTU maxMTU headerSize) es = some n

end Path

/-- What `onMTUProbeTimeout` does. -/
inductive Timeout (d : Discovery) : Discovery → Option Probe → Prop
  | stops (tries : d.curTry < numTries) (narrow : d.maxMTU - d.minMTU ≤ 16) :
      Timeout d { d with posted := false } none
  | retries (tries : d.curTry < numTries) (wide : 16 < d.maxMTU - d.minMTU) :
      Timeout d { d with curTry := d.curTry + 1, posted := true } (some ⟨d.curIndex, d.curMTU⟩)
  | givesUp (tries : numTries ≤ d.curTry) (narrow : d.curMTU - 1 - d.minMTU ≤ 16) :
      Timeout d { d with
        curTry := 0, curIndex := d.curIndex + 1, maxMTU := d.curMTU - 1
        curMTU := (d.minMTU + (d.curMTU - 1)).tdiv 2, posted := false } none
  | lowers (tries : numTries ≤ d.curTry) (wide : 16 < d.curMTU - 1 - d.minMTU) :
      Timeout d { d with
        curTry := 1, curIndex := d.curIndex + 1, maxMTU := d.curMTU - 1
        curMTU := (d.minMTU + (d.curMTU - 1)).tdiv 2, posted := true }
        (some ⟨d.curIndex + 1, (d.minMTU + (d.curMTU - 1)).tdiv 2⟩)

theorem onMTUProbeTimeout_cases (d : Discovery) :
    Timeout d d.onMTUProbeTimeout.1 d.onMTUProbeTimeout.2 := by
  simp only [Discovery.onMTUProbeTimeout]
  by_cases htries : d.curTry ≥ numTries
  · rw [if_pos htries]
    by_cases hnarrow : d.curMTU - 1 - d.minMTU ≤ 16
    · rw [if_pos hnarrow]
      exact .givesUp htries hnarrow
    · rw [if_neg hnarrow]
      exact .lowers htries (Int.not_le.mp hnarrow)
  · rw [if_neg htries]
    by_cases hnarrow : d.maxMTU - d.minMTU ≤ 16
    · rw [if_pos hnarrow]
      exact .stops (Nat.not_le.mp htries) hnarrow
    · rw [if_neg hnarrow]
      exact .retries (Nat.not_le.mp htries) (Int.not_le.mp hnarrow)

namespace Path

variable {n n' : Path} {e : Event} {lo hi : Int}

inductive Step (n : Path) : Event → Path → Prop
  | timeout {d : Discovery} {probe : Option Probe} (posted : n.d.posted = true)
      (runs : Timeout n.d d probe) :
      Step n .timeout { n with d, sent := n.sent ++ probe.toList }
  | arrive {k : Nat} {p : Probe} (sent : p ∈ n.sent) :
      Step n (.arrive k) { n with received := n.received ++ [p] }
  | ignored {k : Nat} {p : Probe} (received : p ∈ n.received) (other : p.index ≠ n.d.curIndex) :
      Step n (.reply k) n
  | raises {k : Nat} {p : Probe} (received : n.received[k]? = some p)
      (current : p.index = n.d.curIndex) :
      Step n (.reply k) { n with
        d := { n.d with
          curTry := 0, curIndex := n.d.curIndex + 1, minMTU := n.d.curMTU
          curMTU := (n.d.curMTU + n.d.maxMTU).tdiv 2 }
        reported := n.reported ++ [n.d.curMTU] }

theorem step_cases (h : n.step e = some n') : n.Step e n' := by
  cases e with
  | timeout =>
    obtain ⟨hposted, ⟨⟩⟩ := Option.ite_none_right_eq_some.mp h
    exact .timeout hposted (onMTUProbeTimeout_cases n.d)
  | arrive k =>
    obtain ⟨p, hp, rfl⟩ := Option.map_eq_some_iff.mp h
    exact .arrive (List.mem_of_getElem? hp)
  | reply k =>
    obtain ⟨p, hp, h⟩ := Option.bind_eq_some_iff.mp h
    obtain ⟨index, hindex, rfl⟩ := Option.map_eq_some_iff.mp h
    unfold Discovery.onMTUProbe at hindex
    obtain ⟨-, ⟨⟩⟩ := Option.ite_none_left_eq_some.mp hindex
    by_cases hcur : p.index = n.d.curIndex
    · have hraises := Step.raises hp hcur
      simpa only [Discovery.onMTUProbeReply, hcur, ne_eq, not_true_eq_false, if_false,
        Int.lt_irrefl, gt_iff_lt, Option.toList_some] using hraises
    · have hignored := Step.ignored (k := k) (List.mem_of_getElem? hp) hcur
      simpa only [Discovery.onMTUProbeReply, hcur, ne_eq, not_false_eq_true, if_true, if_false,
        Int.lt_irrefl, gt_iff_lt, Option.toList_none, List.append_nil] using hignored

/-- Truncated or not, the middle is at most half a byte off. -/
theorem tdiv_two_bounds (x : Int) : x - 1 ≤ 2 * x.tdiv 2 ∧ 2 * x.tdiv 2 ≤ x + 1 := by
  have hdiv := Int.mul_tdiv_add_tmod x 2
  have hlow := Int.lt_tmod_of_pos x (show (0 : Int) < 2 by decide)
  have hhigh := Int.tmod_lt_of_pos x (show (0 : Int) < 2 by decide)
  omega

/-- The search between the bounds `lo` and `hi` it was started with. -/
structure Sound (lo hi : Int) (n : Path) : Prop where
  low : lo ≤ n.d.minMTU
  high : n.d.maxMTU ≤ hi
  tries : n.d.curTry ≤ numTries
  /-- A probe is under way only while the interval is wide. -/
  wide : 0 < n.d.curTry → 16 < n.d.maxMTU - n.d.minMTU
  /-- The first probe has the size `lo`, all others halve the interval. -/
  cur : (n.d.curMTU = n.d.minMTU ∧ n.d.minMTU = lo ∧ n.reported = []) ∨
    n.d.curMTU = (n.d.minMTU + n.d.maxMTU).tdiv 2
  stopped : n.d.posted = false → n.d.curTry = 0
  /-- An index stands for one size. -/
  index : ∀ p ∈ n.sent, p.index ≤ n.d.curIndex ∧
    (p.index = n.d.curIndex → p.size = n.d.curMTU ∧ 0 < n.d.curTry)
  sizes : ∀ p ∈ n.sent, lo ≤ p.size ∧ p.size ≤ hi
  received : ∀ p ∈ n.received, p ∈ n.sent
  values : ∀ r ∈ n.reported, r ≤ n.d.minMTU ∧ ∃ p ∈ n.received, p.size = r
  increasing : n.reported.Pairwise (· < ·)

theorem sound_init (headerSize : Nat) : Sound lo hi (init lo hi headerSize) where
  low := Int.le_refl _
  high := Int.le_refl _
  tries := Nat.zero_le _
  wide := nofun
  cur := Or.inl ⟨rfl, rfl, rfl⟩
  stopped := nofun
  index := nofun
  sizes := nofun
  received := nofun
  values := nofun
  increasing := List.Pairwise.nil

/-- While the interval is wide, the current size lies in it, and above its lower end unless it
is the first. -/
theorem Sound.cur_mem (h : Sound lo hi n) (hwide : 16 < n.d.maxMTU - n.d.minMTU) :
    n.d.minMTU ≤ n.d.curMTU ∧ n.d.curMTU ≤ n.d.maxMTU ∧
      ((n.d.curMTU = lo ∧ n.reported = []) ∨ n.d.minMTU + 8 ≤ n.d.curMTU) := by
  have hlow := h.low
  rcases h.cur with ⟨hcur, hlo, hnil⟩ | hcur
  · refine ⟨by omega, by omega, Or.inl ⟨hcur.trans hlo, hnil⟩⟩
  · have hmid := tdiv_two_bounds (n.d.minMTU + n.d.maxMTU)
    omega

/-- No probe has been sent under the next index. -/
theorem Sound.index_next (h : Sound lo hi n) {d : Discovery}
    (hd : d.curIndex = n.d.curIndex + 1) :
    ∀ p ∈ n.sent, p.index ≤ d.curIndex ∧
      (p.index = d.curIndex → p.size = d.curMTU ∧ 0 < d.curTry) := by
  intro p hp
  have hle := (h.index p hp).1
  exact ⟨by omega, fun heq => by omega⟩

/-- A probe that goes out under a new index or again under its own. -/
theorem Sound.index_send (h : Sound lo hi n) {p : Probe} {d : Discovery} (hp : p.index = d.curIndex)
    (hsize : p.size = d.curMTU) (htry : 0 < d.curTry)
    (hcur : d.curIndex = n.d.curIndex + 1 ∨ d.curIndex = n.d.curIndex ∧ d.curMTU = n.d.curMTU) :
    ∀ q ∈ n.sent ++ [p], q.index ≤ d.curIndex ∧
      (q.index = d.curIndex → q.size = d.curMTU ∧ 0 < d.curTry) := by
  intro q hq
  rcases List.mem_append.mp hq with hold | hnew
  · rcases hcur with hnext | ⟨hsame, hmtu⟩
    · exact h.index_next hnext q hold
    · obtain ⟨hle, heq⟩ := h.index q hold
      rw [hsame, hmtu]
      exact ⟨hle, fun hi => ⟨(heq hi).1, htry⟩⟩
  · obtain rfl := List.mem_singleton.mp hnew
    exact ⟨Nat.le_of_eq hp, fun _ => ⟨hsize, htry⟩⟩

theorem Sound.timeout (h : Sound lo hi n) {d : Discovery} {probe : Option Probe}
    (ht : Timeout n.d d probe) :
    Sound lo hi { n with d, sent := n.sent ++ probe.toList } := by
  have hlow := h.low
  have hhigh := h.high
  cases ht with
  | stops htries hnarrow =>
    have hzero : n.d.curTry = 0 := Nat.eq_zero_of_not_pos fun hpos => by
      have := h.wide hpos
      omega
    rw [Option.toList_none, List.append_nil]
    exact { h with stopped := fun _ => hzero }
  | retries htries hwide =>
    have hmem := h.cur_mem hwide
    exact { h with
      tries := htries
      wide := fun _ => hwide
      stopped := nofun
      index := h.index_send rfl rfl (Nat.succ_pos _) (Or.inr ⟨rfl, rfl⟩)
      sizes := by
        intro p hp
        rcases List.mem_append.mp hp with hold | hnew
        · exact h.sizes p hold
        · obtain rfl := List.mem_singleton.mp hnew
          exact ⟨by dsimp only; omega, by dsimp only; omega⟩
      received := fun p hp => List.mem_append_left _ (h.received p hp) }
  | givesUp htries hnarrow =>
    have hmem := h.cur_mem (h.wide (Nat.lt_of_lt_of_le (by decide) htries))
    rw [Option.toList_none, List.append_nil]
    exact { h with
      high := by dsimp only; omega
      tries := Nat.zero_le _
      wide := nofun
      cur := Or.inr rfl
      stopped := fun _ => rfl
      index := h.index_next rfl }
  | lowers htries hwide =>
    have hmem := h.cur_mem (h.wide (Nat.lt_of_lt_of_le (by decide) htries))
    have hmid := tdiv_two_bounds (n.d.minMTU + (n.d.curMTU - 1))
    exact { h with
      high := by dsimp only; omega
      tries := show 1 ≤ numTries by decide
      wide := fun _ => hwide
      cur := Or.inr rfl
      stopped := nofun
      index := h.index_send rfl rfl Nat.one_pos (Or.inl rfl)
      sizes := by
        intro p hp
        rcases List.mem_append.mp hp with hold | hnew
        · exact h.sizes p hold
        · obtain rfl := List.mem_singleton.mp hnew
          exact ⟨by dsimp only; omega, by dsimp only; omega⟩
      received := fun p hp => List.mem_append_left _ (h.received p hp) }

/-- The current probe has been answered. -/
theorem Sound.raises (h : Sound lo hi n) {p : Probe} (hp : p ∈ n.received)
    (hcur : p.index = n.d.curIndex) :
    Sound lo hi { n with
      d := { n.d with
        curTry := 0, curIndex := n.d.curIndex + 1, minMTU := n.d.curMTU
        curMTU := (n.d.curMTU + n.d.maxMTU).tdiv 2 }
      reported := n.reported ++ [n.d.curMTU] } := by
  have hlow := h.low
  obtain ⟨hsize, htry⟩ := (h.index p (h.received p hp)).2 hcur
  obtain ⟨hge, hle, hfirst⟩ := h.cur_mem (h.wide htry)
  refine { h with
    low := by dsimp only; omega
    tries := Nat.zero_le _
    wide := nofun
    cur := Or.inr rfl
    stopped := fun _ => rfl
    index := h.index_next rfl
    values := ?_
    increasing := ?_ }
  · intro r hr
    rcases List.mem_append.mp hr with hold | hnew
    · obtain ⟨hmin, q, hq, hqr⟩ := h.values r hold
      exact ⟨Int.le_trans hmin hge, q, hq, hqr⟩
    · obtain rfl := List.mem_singleton.mp hnew
      exact ⟨Int.le_refl _, p, hp, hsize⟩
  · refine List.pairwise_append.mpr ⟨h.increasing, List.pairwise_singleton _ _, ?_⟩
    intro r hr r' hr'
    obtain rfl := List.mem_singleton.mp hr'
    rcases hfirst with ⟨-, hnil⟩ | hmore
    · rw [hnil] at hr
      cases hr
    · have hmin := (h.values r hr).1
      omega

theorem Sound.step (h : Sound lo hi n) (hs : n.step e = some n') : Sound lo hi n' := by
  cases step_cases hs with
  | timeout _ ht => exact h.timeout ht
  | arrive hsent =>
    refine { h with received := ?_, values := ?_ }
    · intro p hp
      rcases List.mem_append.mp hp with hold | hnew
      · exact h.received p hold
      · exact List.mem_singleton.mp hnew ▸ hsent
    · intro r hr
      obtain ⟨hmin, p, hp, hpr⟩ := h.values r hr
      exact ⟨hmin, p, List.mem_append_left _ hp, hpr⟩
  | ignored => exact h
  | raises hreceived hcur => exact h.raises (List.mem_of_getElem? hreceived) hcur

theorem Run.sound {headerSize : Nat} {es : List Event} (h : Run lo hi headerSize es n) :
    Sound lo hi n :=
  exec_invariant (fun _ _ _ => Sound.step) (sound_init headerSize) h

/-- Once the search has stopped, a reply changes nothing. -/
theorem Sound.reply_stopped (h : Sound lo hi n) (hstop : n.d.posted = false) {k : Nat}
    (hs : n.step (.reply k) = some n') : n' = n := by
  cases step_cases hs with
  | ignored => rfl
  | raises hreceived hcur =>
    have hsent := h.received _ (List.mem_of_getElem? hreceived)
    have htry := ((h.index _ hsent).2 hcur).2
    rw [h.stopped hstop] at htry
    cases htry

/-- However probes and replies are lost, duplicated, delayed or reordered: every MTU that is
reported is the size of a probe that the peer has received and lies between the bounds, each
report is larger than those before, and larger than the lower bound if it is not the first,
and no reply moves the lower end of the interval once the search has stopped. -/
theorem reports_sound {minMTU maxMTU : Int} {headerSize : Nat} {es : List Event}
    (hrun : Run minMTU maxMTU headerSize es n) :
    (∀ r ∈ n.reported, (∃ p ∈ n.received, p.size = r) ∧ minMTU ≤ r ∧ r ≤ maxMTU) ∧
      n.reported.Pairwise (· < ·) ∧ (∀ r ∈ n.reported.tail, minMTU < r) ∧
      (n.d.posted = false →
        ∀ k n', n.step (.reply k) = some n' → n'.d.minMTU = n.d.minMTU) := by
  have h := Run.sound hrun
  have hall : ∀ r ∈ n.reported, (∃ p ∈ n.received, p.size = r) ∧ minMTU ≤ r ∧ r ≤ maxMTU := by
    intro r hr
    obtain ⟨-, p, hp, rfl⟩ := h.values r hr
    exact ⟨⟨p, hp, rfl⟩, h.sizes p (h.received p hp)⟩
  refine ⟨hall, h.increasing, ?_, fun hstop k n' hs => by rw [h.reply_stopped hstop hs]⟩
  intro r hr
  cases hrep : n.reported with
  | nil =>
    rw [hrep] at hr
    cases hr
  | cons first rest =>
    have hfirst := (hall first (by rw [hrep]; exact List.mem_cons_self)).2.1
    have hinc := h.increasing
    rw [hrep] at hr hinc
    exact Int.lt_of_le_of_lt hfirst ((List.pairwise_cons.mp hinc).1 r hr)

/-- Two reports, with a reply to the first probe that arrives late. -/
theorem reports_sound_late : ∃ n, Run 500 1500 20 [.timeout, .timeout, .arrive 0, .arrive 1,
      .reply 0, .reply 1, .timeout, .arrive 2, .reply 0, .reply 2] n ∧ n.reported = [500, 1000] ∧
    n.reported.Pairwise (· < ·) := by
  exact exec_check_and (by decide +kernel) fun _ hrun _ => (reports_sound hrun).2.1

/-- What is left to do while the timer is posted: seven timeouts for every size in the interval
and the first probe. -/
def budget (n : Path) : Int :=
  7 * (n.d.maxMTU - n.d.minMTU) + (if n.d.curMTU = n.d.minMTU then 7 else 0) + (6 - n.d.curTry)

/-- The probes that have been sent and those that may follow. -/
structure Bounded (lo hi : Int) (n : Path) : Prop where
  total : (n.sent.length : Int) ≤ 7 * (hi - lo) + 13
  rest : n.d.posted = true →
    n.d.minMTU ≤ n.d.maxMTU ∧ n.sent.length + n.budget ≤ 7 * (hi - lo) + 13

theorem bounded_init (h : lo < hi) (headerSize : Nat) :
    Bounded lo hi (init lo hi headerSize) := by
  refine ⟨?_, fun _ => ⟨Int.le_of_lt h, ?_⟩⟩
  · show (0 : Int) ≤ _
    omega
  · have hbudget : (init lo hi headerSize).budget = 7 * (hi - lo) + 7 + 6 := by
      simp [budget, init, Discovery.create, Discovery.start]
    rw [hbudget]
    show (0 : Int) + _ ≤ _
    omega

theorem budget_nonneg (hle : n.d.minMTU ≤ n.d.maxMTU) (ht : n.d.curTry ≤ numTries) :
    0 ≤ n.budget := by
  have hsix : numTries = 6 := rfl
  unfold budget
  split <;> omega

/-- With what is left, the total follows. -/
theorem Bounded.of_rest (hle : n.d.minMTU ≤ n.d.maxMTU) (ht : n.d.curTry ≤ numTries)
    (hrest : n.sent.length + n.budget ≤ 7 * (hi - lo) + 13) : Bounded lo hi n := by
  have hnonneg := budget_nonneg hle ht
  exact ⟨by omega, fun _ => ⟨hle, hrest⟩⟩

theorem Bounded.timeout (h : Bounded lo hi n) (hsound : Sound lo hi n) {d : Discovery}
    {probe : Option Probe} (hposted : n.d.posted = true) (ht : Timeout n.d d probe) :
    Bounded lo hi { n with d, sent := n.sent ++ probe.toList } := by
  obtain ⟨hle, hrest⟩ := h.rest hposted
  have htries := hsound.tries
  have hafter := (hsound.timeout ht).tries
  have hsix : numTries = 6 := rfl
  simp only [budget] at hrest
  cases ht with
  | stops =>
    rw [Option.toList_none, List.append_nil]
    exact ⟨h.total, nofun⟩
  | givesUp =>
    rw [Option.toList_none, List.append_nil]
    exact ⟨h.total, nofun⟩
  | retries =>
    apply Bounded.of_rest (by exact hle) hafter
    simp only [budget, Option.toList_some, List.length_append, List.length_singleton]
    omega
  | lowers htry hwide =>
    have hmem := hsound.cur_mem (hsound.wide (by omega))
    have hmid := tdiv_two_bounds (n.d.minMTU + (n.d.curMTU - 1))
    have hne : (n.d.minMTU + (n.d.curMTU - 1)).tdiv 2 ≠ n.d.minMTU := by omega
    apply Bounded.of_rest (by dsimp only; omega) hafter
    simp only [budget, Option.toList_some, List.length_append, List.length_singleton, if_neg hne]
    split at hrest <;> omega

theorem Bounded.raises (h : Bounded lo hi n) (hsound : Sound lo hi n) {p : Probe}
    (hp : p ∈ n.received) (hcur : p.index = n.d.curIndex) :
    Bounded lo hi { n with
      d := { n.d with
        curTry := 0, curIndex := n.d.curIndex + 1, minMTU := n.d.curMTU
        curMTU := (n.d.curMTU + n.d.maxMTU).tdiv 2 }
      reported := n.reported ++ [n.d.curMTU] } := by
  have htry := ((hsound.index p (hsound.received p hp)).2 hcur).2
  have hwide := hsound.wide htry
  obtain ⟨hge, hlecur, -⟩ := hsound.cur_mem hwide
  have htries := hsound.tries
  have hsix : numTries = 6 := rfl
  refine ⟨h.total, fun hposted => ⟨hlecur, ?_⟩⟩
  obtain ⟨-, hrest⟩ := h.rest hposted
  simp only [budget] at hrest ⊢
  by_cases hfirst : n.d.curMTU = n.d.minMTU
  · -- the first probe: the interval stays, and the next size is inside it
    have hmid := tdiv_two_bounds (n.d.curMTU + n.d.maxMTU)
    rw [if_pos hfirst] at hrest
    rw [if_neg (by omega)]
    omega
  · have hmore : n.d.minMTU + 8 ≤ n.d.curMTU := by
      rcases hsound.cur with ⟨heq, -⟩ | hmid
      · exact absurd heq hfirst
      · have := tdiv_two_bounds (n.d.minMTU + n.d.maxMTU)
        omega
    rw [if_neg hfirst] at hrest
    split <;> omega

theorem Bounded.step (h : Bounded lo hi n) (hsound : Sound lo hi n) (hs : n.step e = some n') :
    Bounded lo hi n' := by
  cases step_cases hs with
  | timeout hposted ht => exact h.timeout hsound hposted ht
  | arrive => exact ⟨h.total, h.rest⟩
  | ignored => exact h
  | raises hreceived hcur => exact h.raises hsound (List.mem_of_getElem? hreceived) hcur

theorem Run.bounded {headerSize : Nat} {es : List Event} (hlt : lo < hi)
    (h : Run lo hi headerSize es n) : Bounded lo hi n :=
  (exec_invariant (I := fun m => Sound lo hi m ∧ Bounded lo hi m)
    (fun _ _ _ ha hs => ⟨ha.1.step hs, ha.2.step ha.1 hs⟩)
    ⟨sound_init headerSize, bounded_init hlt headerSize⟩ h).2

/-- Every timeout sends a probe, but the last. -/
theorem Run.timeouts {headerSize : Nat} {es : List Event} (h : Run lo hi headerSize es n) :
    es.count .timeout = n.sent.length + (if n.d.posted then 0 else 1) := by
  refine exec_induction (motive := fun es n =>
    es.count .timeout = n.sent.length + (if n.d.posted then 0 else 1)) rfl ?_ h
  intro es a e b _ ih hs
  rw [List.count_append, ih]
  cases step_cases hs with
  | timeout hposted ht =>
    rw [if_pos hposted]
    cases ht <;> simp
  | arrive => simp
  | ignored => simp
  | raises => simp

/-- On a path with threshold `T`: a probe is given up only if it is larger, and only probes
that are not larger are answered. -/
def Answers (T : Int) (n : Path) : Event → Prop
  | .timeout => numTries ≤ n.d.curTry → T < n.d.curMTU
  | .arrive _ => True
  | .reply k => ∀ p ∈ n.received[k]?, p.size ≤ T

instance (T : Int) (n : Path) : ∀ e, Decidable (n.Answers T e)
  | .timeout => inferInstanceAs (Decidable (_ → _))
  | .arrive _ => inferInstanceAs (Decidable True)
  | .reply k => inferInstanceAs (Decidable (∀ p ∈ n.received[k]?, p.size ≤ T))

/-- The threshold lies in the interval, as far as the search can see. -/
structure Brackets (T hi : Int) (n : Path) : Prop where
  low : n.d.minMTU ≤ T
  high : min T hi ≤ n.d.maxMTU
  narrow : n.d.posted = false → n.d.maxMTU - n.d.minMTU ≤ 16

theorem Brackets.step {T : Int} (h : Brackets T hi n) (hsound : Sound lo hi n)
    (hanswers : n.Answers T e) (hs : n.step e = some n') : Brackets T hi n' := by
  cases step_cases hs with
  | timeout hposted ht =>
    cases ht with
    | stops htry hnarrow => exact { h with narrow := fun _ => hnarrow }
    | retries => exact { h with narrow := nofun }
    | givesUp htry hnarrow =>
      have hlt : T < n.d.curMTU := hanswers htry
      exact ⟨h.low, by dsimp only; omega, fun _ => hnarrow⟩
    | lowers htry hwide =>
      have hlt : T < n.d.curMTU := hanswers htry
      exact ⟨h.low, by dsimp only; omega, nofun⟩
  | arrive => exact ⟨h.low, h.high, h.narrow⟩
  | ignored => exact h
  | raises hreceived hcur =>
    have hp := hsound.received _ (List.mem_of_getElem? hreceived)
    obtain ⟨hsize, htry⟩ := (hsound.index _ hp).2 hcur
    have hle : n.d.curMTU ≤ T := hsize ▸ hanswers _ hreceived
    refine ⟨hle, h.high, fun hstop => ?_⟩
    rw [hsound.stopped hstop] at htry
    cases htry

/-- On a path with a threshold that is not below the lower bound: the timer is posted at most
so often, every probe lies between the bounds, and when the search stops its result is at most
16 below the largest size that gets through. -/
theorem discovery_accurate {minMTU maxMTU T : Int} {headerSize : Nat} {es : List Event}
    (hlt : minMTU < maxMTU) (hT : minMTU ≤ T) (hrun : Run minMTU maxMTU headerSize es n)
    (hanswers : Along step (fun n e => n.Answers T e) (init minMTU maxMTU headerSize) es) :
    es.count .timeout ≤ (7 * (maxMTU - minMTU) + 14).toNat ∧
      (∀ p ∈ n.sent, minMTU ≤ p.size ∧ p.size ≤ maxMTU) ∧
      (n.d.posted = false → n.d.minMTU ≤ T ∧ min T maxMTU - n.d.minMTU ≤ 16) := by
  have hsound := Run.sound hrun
  have htotal := (Run.bounded hlt hrun).total
  have hbrackets : Sound minMTU maxMTU n ∧ Brackets T maxMTU n :=
    exec_invariant_along (I := fun m => Sound minMTU maxMTU m ∧ Brackets T maxMTU m)
      (fun _ _ _ ha hp hs => ⟨ha.1.step hs, ha.2.step ha.1 hp hs⟩)
      ⟨sound_init headerSize, hT, Int.min_le_right _ _, nofun⟩ hanswers hrun
  obtain ⟨-, hlow, hhigh, hnarrow⟩ := hbrackets
  refine ⟨?_, hsound.sizes, fun hstop => ⟨hlow, ?_⟩⟩
  · rw [Run.timeouts hrun]
    split <;> omega
  · have := hnarrow hstop
    omega

/-- A path that lets 510 through: 500 is answered, 515 is given up. -/
theorem discovery_accurate_gives_up : ∃ n, Run 500 530 20 ([.timeout, .arrive 0, .reply 0] ++
      List.replicate 7 .timeout) n ∧ n.d.posted = false ∧ n.d.minMTU = 500 ∧
    min 510 530 - n.d.minMTU ≤ 16 := by
  have hex : ∃ n, Run 500 530 20 ([.timeout, .arrive 0, .reply 0] ++
      List.replicate 7 .timeout) n ∧ n.d.posted = false ∧ n.d.minMTU = 500 :=
    exec_check (by decide +kernel)
  obtain ⟨n, hrun, hstop, hmin⟩ := hex
  have haccurate := discovery_accurate (T := 510) (by decide) (by decide) hrun
    (by decide +kernel)
  exact ⟨n, hrun, hstop, hmin, (haccurate.2.2 hstop).2⟩

end Path

end DTun.Util.MTUDiscovery
