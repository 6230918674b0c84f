import DTun.Lib.Lists
import DTun.Lib.OrderedMap
import DTun.Lib.Runs
import Mathlib.Algebra.Group.Nat.Defs
import Mathlib.Data.Prod.Lex

/-!
# Posted callbacks

`SysReactor::post` puts a callback into a set that is ordered by time and then by a running
number, and `processTokens` takes callbacks out of it. Any thread may post, also the reactor's
own from inside a callback. `post` reads the clock before it takes the mutex, so two threads
may enter the set in the other order. `processTokens` holds the mutex but for the callbacks.
`dispatch` on another thread than the reactor's is `post` without a timeout, and on the
reactor's it is a plain call.

Times are in nanoseconds. The running number, a `uint64_t` in the source, and the `int count`
of `processTokens` are natural numbers here. They are the source's as long as fewer than 2^64
callbacks have been posted and a call finds fewer than 2^30 of them (`numbers_fit`). Left out is
that `post` wakes the thread that polls.
-/

namespace DTun.Util.SysReactor

open Lib (OrderedMap)
open Lib.Lists Lib.Runs

/-- The order of `DispatchToken`: scheduled time, then id. -/
abbrev Key := Nat ×ₗ Nat

def Key.scheduledTime (k : Key) : Nat := (ofLex k).1

def Key.id (k : Key) : Nat := (ofLex k).2

variable {α : Type}

/-- A call of `post`, with the thread and what the clock showed. -/
structure Post (α : Type) where
  thread : Nat
  clock : Nat
  callback : α
  timeoutMs : UInt32
  deriving DecidableEq, Repr

def Post.scheduledTime (p : Post α) : Nat := p.clock + p.timeoutMs.toNat * 1000000

def Post.key (p : Post α) (id : Nat) : Key := toLex (p.scheduledTime, id)

/-- A callback that was called. -/
structure Executed (α : Type) where
  id : Nat
  callback : α
  time : Nat
  deriving DecidableEq, Repr

/-- A call of `processTokens`. The source has only `count`: `size` is how many tokens there
were when it started, and `ran` how many it has executed. -/
structure Call where
  count : Nat
  size : Nat
  ran : Nat := 0
  deriving DecidableEq, Repr

/-- Where the reactor thread is: out of `processTokens`, at the head of its loop with the mutex
held, or in a callback. -/
inductive Phase where
  | outside
  | draining (call : Call)
  | running (call : Call)
  deriving DecidableEq, Repr

/-- `posts` are the calls of `post` by id and `executed` the callbacks that were called; the
source has neither. -/
structure Tokens (α : Type) where
  now : Nat := 0
  tokens : OrderedMap Key α := .empty
  nextTokenId : Nat := 0
  phase : Phase := .outside
  /-- Threads that have read the clock in `post` and have yet to take the mutex. -/
  pending : Nat → Option (Post α) := fun _ => none
  posts : List (Post α) := []
  executed : List (Executed α) := []

/-- The thread that runs the reactor. -/
def reactorThread : Nat := 0

inductive Event (α : Type) where
  | tick (d : Nat)
  /-- `post` up to the mutex. -/
  | post (thread : Nat) (callback : α) (timeoutMs : UInt32)
  /-- `post` from the mutex on. -/
  | insert (thread : Nat)
  | processTokens
  /-- One turn of the loop, up to the callback. -/
  | turn
  /-- The callback returns. -/
  | finish
  deriving DecidableEq, Repr

namespace Tokens

/-- `processTokens` holds the mutex. -/
def locked (n : Tokens α) : Bool :=
  match n.phase with
  | .draining _ => true
  | _ => false

def setPending (n : Tokens α) (t : Nat) (p : Option (Post α)) : Tokens α :=
  { n with pending := fun t' => if t' = t then p else n.pending t' }

def post (n : Tokens α) (thread : Nat) (callback : α) (timeoutMs : UInt32) : Tokens α :=
  n.setPending thread (some { thread, clock := n.now, callback, timeoutMs })

def insert (n : Tokens α) (p : Post α) : Tokens α :=
  { n.setPending p.thread none with
    tokens := n.tokens.insert (p.key n.nextTokenId) p.callback
    nextTokenId := n.nextTokenId + 1
    posts := n.posts ++ [p] }

def processTokens (n : Tokens α) : Tokens α :=
  { n with
    phase := .draining { count := n.tokens.entries.length * 2, size := n.tokens.entries.length } }

def turn (n : Tokens α) (call : Call) : Tokens α :=
  match n.tokens.begin? with
  | none => { n with phase := .outside }
  | some (key, callback) =>
    if call.count = 0 then { n with phase := .outside }
    else if key.scheduledTime > n.now then { n with phase := .outside }
    else
      { n with
        tokens := n.tokens.erase key
        phase := .running { call with count := call.count - 1, ran := call.ran + 1 }
        executed := n.executed ++ [{ id := key.id, callback, time := n.now }] }

/-- `none` when the event cannot happen. -/
def step (n : Tokens α) : Event α → Option (Tokens α)
  | .tick d => some { n with now := n.now + d }
  | .post thread callback timeoutMs =>
    if (n.pending thread).isNone ∧ ¬(thread = reactorThread ∧ n.locked) then
      some (n.post thread callback timeoutMs)
    else none
  | .insert thread =>
    match n.pending thread with
    | some p => if n.locked then none else some (n.insert p)
    | none => none
  | .processTokens =>
    match n.phase with
    | .outside => if (n.pending reactorThread).isNone then some n.processTokens else none
    | _ => none
  | .turn =>
    match n.phase with
    | .draining call => some (n.turn call)
    | _ => none
  | .finish =>
    match n.phase with
    | .running call =>
      if (n.pending reactorThread).isNone then some { n with phase := .draining call } else none
    | _ => none

def Run (es : List (Event α)) (n : Tokens α) : Prop := exec step {} es = some n

variable {n n' : Tokens α} {e : Event α}

/-- What a step can do. -/
inductive Step (n : Tokens α) : Event α → Tokens α → Prop
  | ticks {d : Nat} : Step n (.tick d) { n with now := n.now + d }
  | reads {t : Nat} {callback : α} {timeoutMs : UInt32} (idle : n.pending t = none) :
      Step n (.post t callback timeoutMs) (n.post t callback timeoutMs)
  | inserts {t : Nat} {p : Post α} (pending : n.pending t = some p) (free : n.locked = false) :
      Step n (.insert t) (n.insert p)
  | begins (outside : n.phase = .outside) : Step n .processTokens n.processTokens
  /-- `processTokens` returns, having run as many callbacks as it may or all that are due. -/
  | returns {call : Call} (phase : n.phase = .draining call)
      (done : call.count = 0 ∨
        ∀ k callback, n.tokens.find? k = some callback → n.now < k.scheduledTime) :
      Step n .turn { n with phase := .outside }
  | executes {call : Call} {k : Key} {callback : α} (phase : n.phase = .draining call)
      (first : n.tokens.begin? = some (k, callback)) (more : 0 < call.count)
      (due : k.scheduledTime ≤ n.now) :
      Step n .turn { n with
        tokens := n.tokens.erase k
        phase := .running { call with count := call.count - 1, ran := call.ran + 1 }
        executed := n.executed ++ [{ id := k.id, callback, time := n.now }] }
  | finishes {call : Call} (phase : n.phase = .running call) :
      Step n .finish { n with phase := .draining call }

theorem scheduledTime_le {k k' : Key} (h : k ≤ k') : k.scheduledTime ≤ k'.scheduledTime := by
  rcases Prod.Lex.le_iff.mp h with hlt | ⟨heq, -⟩
  · exact hlt.le
  · exact heq.le

theorem turn_cases {call : Call} (hphase : n.phase = .draining call) :
    Step n .turn (n.turn call) := by
  unfold turn
  split
  · rename_i hnone
    refine .returns hphase (Or.inr fun k callback hfind => ?_)
    rw [n.tokens.begin?_eq_none hnone] at hfind
    cases hfind
  · rename_i k callback hfirst
    split
    · rename_i hcount
      exact .returns hphase (Or.inl hcount)
    · rename_i hcount
      split
      · rename_i hlate
        refine .returns hphase (Or.inr fun k' callback' hfind => ?_)
        exact Nat.lt_of_lt_of_le hlate
          (scheduledTime_le ((n.tokens.begin?_eq_some hfirst).2 k' callback' hfind))
      · rename_i hdue
        exact .executes hphase hfirst (Nat.pos_of_ne_zero hcount) (Nat.le_of_not_lt hdue)

theorem step_cases (h : n.step e = some n') : Step n e n' := by
  cases e with
  | tick d =>
    obtain ⟨⟩ := h
    exact .ticks
  | post t callback timeoutMs =>
    obtain ⟨⟨hidle, -⟩, ⟨⟩⟩ := Option.ite_none_right_eq_some.mp h
    exact .reads (Option.isNone_iff_eq_none.mp hidle)
  | insert t =>
    simp only [step] at h
    split at h
    · rename_i p hp
      obtain ⟨hfree, ⟨⟩⟩ := Option.ite_none_left_eq_some.mp h
      exact .inserts hp (Bool.eq_false_iff.mpr hfree)
    · cases h
  | processTokens =>
    simp only [step] at h
    split at h
    · rename_i hphase
      obtain ⟨-, ⟨⟩⟩ := Option.ite_none_right_eq_some.mp h
      exact .begins hphase
    · cases h
  | turn =>
    simp only [step] at h
    split at h
    · rename_i call hphase
      obtain ⟨⟩ := h
      exact turn_cases hphase
    · cases h
  | finish =>
    simp only [step] at h
    split at h
    · rename_i call hphase
      obtain ⟨-, ⟨⟩⟩ := Option.ite_none_right_eq_some.mp h
      exact .finishes hphase
    · cases h

/-- The readings of one thread never go back. -/
structure Clocked (n : Tokens α) : Prop where
  sorted : n.posts.Pairwise fun p q => p.thread = q.thread → p.clock ≤ q.clock
  past : ∀ p ∈ n.posts, p.clock ≤ n.now
  pending : ∀ t p, n.pending t = some p →
    p.thread = t ∧ p.clock ≤ n.now ∧ ∀ q ∈ n.posts, q.thread = t → q.clock ≤ p.clock

theorem pending_setPending {t t' : Nat} {p : Option (Post α)} {q : Post α}
    (h : (n.setPending t p).pending t' = some q) :
    (t' = t ∧ p = some q) ∨ n.pending t' = some q := by
  simp only [setPending] at h
  split at h
  · exact Or.inl ⟨by assumption, h⟩
  · exact Or.inr h

theorem Clocked.step (h : Clocked n) (hs : n.step e = some n') : Clocked n' := by
  cases step_cases hs with
  | ticks =>
    refine ⟨h.sorted, fun p hp => Nat.le_add_right_of_le (h.past p hp), fun t p hp => ?_⟩
    obtain ⟨ht, hclock, hlast⟩ := h.pending t p hp
    exact ⟨ht, Nat.le_add_right_of_le hclock, hlast⟩
  | reads =>
    refine ⟨h.sorted, h.past, fun t p hp => ?_⟩
    rcases pending_setPending hp with ⟨rfl, hnew⟩ | hold
    · obtain ⟨⟩ := hnew
      exact ⟨rfl, Nat.le_refl _, fun q hq _ => h.past q hq⟩
    · exact h.pending t p hold
  | @inserts t p hp hfree =>
    obtain ⟨rfl, hclock, hlast⟩ := h.pending t p hp
    refine ⟨?_, ?_, fun t' q hq => ?_⟩
    · refine List.pairwise_append.mpr ⟨h.sorted, List.pairwise_singleton _ _, ?_⟩
      intro q hq p' hp'
      obtain rfl := List.mem_singleton.mp hp'
      exact hlast q hq
    · intro q hq
      rcases List.mem_append.mp hq with hold | hnew
      · exact h.past q hold
      · exact List.mem_singleton.mp hnew ▸ hclock
    · rcases pending_setPending hq with ⟨-, hnone⟩ | hold
      · cases hnone
      · obtain ⟨rfl, hpast, hlast'⟩ := h.pending t' q hold
        refine ⟨rfl, hpast, fun q' hq' heq => ?_⟩
        rcases List.mem_append.mp hq' with hold' | hnew
        · exact hlast' q' hold' heq
        · -- a thread is in one `post` at a time
          obtain rfl := List.mem_singleton.mp hnew
          rw [← heq, hp] at hold
          exact Nat.le_of_eq (congrArg Post.clock (Option.some.inj hold))
  | begins | returns | executes | finishes => exact ⟨h.sorted, h.past, h.pending⟩

/-- Every call of `post` has its token in the set or was executed, never both. -/
structure Accounts (n : Tokens α) : Prop where
  ids : n.nextTokenId = n.posts.length
  queued : ∀ k callback, n.tokens.find? k = some callback → ∃ p, n.posts[k.id]? = some p ∧
    k = p.key k.id ∧ callback = p.callback ∧ k.id ∉ n.executed.map Executed.id
  kept : ∀ id p, n.posts[id]? = some p →
    n.tokens.find? (p.key id) = some p.callback ∨ id ∈ n.executed.map Executed.id
  executed : ∀ x ∈ n.executed, ∃ p, n.posts[x.id]? = some p ∧ p.callback = x.callback ∧
    p.scheduledTime ≤ x.time
  once : (n.executed.map Executed.id).Nodup

theorem key_id (p : Post α) (id : Nat) : (p.key id).id = id := rfl

theorem Accounts.executed_lt (h : Accounts n) {id : Nat} (hid : id ∈ n.executed.map Executed.id) :
    id < n.posts.length := by
  obtain ⟨x, hx, rfl⟩ := List.mem_map.mp hid
  obtain ⟨p, hp, -⟩ := h.executed x hx
  exact (List.getElem?_eq_some_iff.mp hp).1

theorem Accounts.insert (h : Accounts n) (p : Post α) : Accounts (n.insert p) where
  ids := by
    show n.nextTokenId + 1 = (n.posts ++ [p]).length
    rw [List.length_append, List.length_singleton, h.ids]
  queued k callback hfind := by
    simp only [Tokens.insert, OrderedMap.find?_insert] at hfind
    split at hfind
    · rename_i hk
      obtain ⟨⟩ := hfind
      rw [hk, key_id, h.ids]
      refine ⟨p, ?_, rfl, rfl, fun hid => Nat.lt_irrefl _ (h.executed_lt hid)⟩
      exact List.getElem?_concat_length
    · obtain ⟨q, hq, hrest⟩ := h.queued k callback hfind
      exact ⟨q, getElem?_snoc_of_some p hq, hrest⟩
  kept id q hq := by
    simp only [Tokens.insert, OrderedMap.find?_insert] at hq ⊢
    rcases getElem?_snoc_cases hq with hold | ⟨rfl, rfl⟩
    · have hlt := (List.getElem?_eq_some_iff.mp hold).1
      have hne : q.key id ≠ p.key n.nextTokenId := by
        intro heq
        have hid := congrArg Key.id heq
        rw [key_id, key_id, h.ids] at hid
        omega
      rw [if_neg hne]
      exact h.kept id q hold
    · rw [← h.ids, if_pos rfl]
      exact Or.inl rfl
  executed x hx := by
    obtain ⟨q, hq, hrest⟩ := h.executed x hx
    exact ⟨q, getElem?_snoc_of_some p hq, hrest⟩
  once := h.once

theorem Accounts.execute (h : Accounts n) {k : Key} {callback : α} {phase : Phase}
    (hfind : n.tokens.find? k = some callback) (hdue : k.scheduledTime ≤ n.now) :
    Accounts { n with
      tokens := n.tokens.erase k, phase
      executed := n.executed ++ [{ id := k.id, callback, time := n.now }] } := by
  obtain ⟨p, hp, hk, rfl, hnew⟩ := h.queued k callback hfind
  refine ⟨h.ids, ?_, ?_, ?_, ?_⟩
  · intro k' callback' hfind'
    rw [OrderedMap.find?_erase] at hfind'
    split at hfind'
    · cases hfind'
    · rename_i hne
      obtain ⟨q, hq, hk', hcallback, hold⟩ := h.queued k' callback' hfind'
      refine ⟨q, hq, hk', hcallback, ?_⟩
      rw [List.map_append, List.mem_append, not_or]
      refine ⟨hold, fun hmem => hne ?_⟩
      have hid : k'.id = k.id := List.mem_singleton.mp hmem
      rw [hid, hp] at hq
      obtain rfl := Option.some.inj hq
      rw [hk', hid]
      exact hk.symm
  · intro id q hq
    rw [List.map_append, List.mem_append]
    by_cases hkey : q.key id = k
    · refine Or.inr (Or.inr (List.mem_singleton.mpr ?_))
      exact congrArg Key.id hkey
    · rw [OrderedMap.find?_erase_of_ne _ hkey]
      exact (h.kept id q hq).imp_right Or.inl
  · intro x hx
    rcases List.mem_append.mp hx with hold | hx
    · exact h.executed x hold
    · obtain rfl := List.mem_singleton.mp hx
      refine ⟨p, hp, rfl, ?_⟩
      rw [hk] at hdue
      exact hdue
  · rw [List.map_append, List.nodup_append]
    refine ⟨h.once, List.pairwise_singleton _ _, fun a ha b hb heq => hnew ?_⟩
    have hid : b = k.id := List.mem_singleton.mp hb
    rw [← hid, ← heq]
    exact ha

theorem Accounts.step (h : Accounts n) (hs : n.step e = some n') : Accounts n' := by
  cases step_cases hs with
  | inserts => exact h.insert _
  | executes _ hfirst _ hdue => exact h.execute (n.tokens.begin?_eq_some hfirst).1 hdue
  | ticks | reads | begins | returns | finishes =>
    exact ⟨h.ids, h.queued, h.kept, h.executed, h.once⟩

/-- Whenever a callback was executed that a thread had posted without a timeout, those that the
same thread had posted so before had been executed already. -/
def InOrder (n : Tokens α) : Prop :=
  ∀ done x rest, n.executed = done ++ x :: rest → ∀ id p q, id < x.id →
    n.posts[id]? = some p → n.posts[x.id]? = some q → p.thread = q.thread →
    p.timeoutMs = 0 → q.timeoutMs = 0 → id ∈ done.map Executed.id

theorem scheduledTime_of_zero {p : Post α} (h : p.timeoutMs = 0) : p.scheduledTime = p.clock := by
  rw [Post.scheduledTime, h]
  rfl

/-- Of two posts without a timeout by one thread, the earlier has the smaller key. -/
theorem Clocked.key_lt (h : Clocked n) {i j : Nat} {p q : Post α} (hij : i < j)
    (hp : n.posts[i]? = some p) (hq : n.posts[j]? = some q) (hthread : p.thread = q.thread)
    (hpz : p.timeoutMs = 0) (hqz : q.timeoutMs = 0) : p.key i < q.key j := by
  obtain ⟨hi, rfl⟩ := List.getElem?_eq_some_iff.mp hp
  obtain ⟨hj, rfl⟩ := List.getElem?_eq_some_iff.mp hq
  have hclock := List.pairwise_iff_getElem.mp h.sorted i j hi hj hij hthread
  rw [Post.key, Post.key, Prod.Lex.toLex_lt_toLex, scheduledTime_of_zero hpz,
    scheduledTime_of_zero hqz]
  rcases Nat.lt_or_eq_of_le hclock with hlt | heq
  · exact Or.inl hlt
  · exact Or.inr ⟨heq, hij⟩

theorem InOrder.insert (h : InOrder n) (ha : Accounts n) (p : Post α) : InOrder (n.insert p) := by
  intro done x rest hsplit id q r hid hq hr
  have hx : x.id ∈ n.executed.map Executed.id := by
    rw [show n.executed = done ++ x :: rest from hsplit]
    simp
  have hlt := ha.executed_lt hx
  have hold : ∀ {j : Nat} {b : Post α}, j < n.posts.length → (n.posts ++ [p])[j]? = some b →
      n.posts[j]? = some b := by
    intro j b hj hb
    rw [List.getElem?_append_left hj] at hb
    exact hb
  exact h done x rest hsplit id q r hid (hold (by omega) hq) (hold hlt hr)

theorem InOrder.execute (h : InOrder n) (hc : Clocked n) (ha : Accounts n) {k : Key}
    {callback : α} {phase : Phase} (hfirst : n.tokens.begin? = some (k, callback)) :
    InOrder { n with
      tokens := n.tokens.erase k, phase
      executed := n.executed ++ [{ id := k.id, callback, time := n.now }] } := by
  intro done x rest hsplit id p q hid hp hq hthread hpz hqz
  rcases List.eq_nil_or_concat rest with rfl | ⟨rest, y, rfl⟩
  · -- the last one is the first of the set, where no smaller key is left
    obtain ⟨rfl, hx⟩ := List.append_inj' hsplit rfl
    obtain rfl := (List.cons.inj hx).1
    obtain ⟨hfind, hleast⟩ := n.tokens.begin?_eq_some hfirst
    obtain ⟨q', hq', hk, -⟩ := ha.queued k callback hfind
    obtain rfl := Option.some.inj (hq'.symm.trans hq)
    refine (ha.kept id p hp).resolve_left fun hqueued => ?_
    have hle := hleast _ _ hqueued
    have hlt := hc.key_lt hid hp hq hthread hpz hqz
    rw [← hk] at hlt
    exact absurd hlt hle.not_gt
  · rw [List.concat_eq_append, ← List.cons_append, ← List.append_assoc] at hsplit
    exact h done x rest (List.append_inj' hsplit rfl).1 id p q hid hp hq hthread hpz hqz

theorem InOrder.step (h : InOrder n) (hc : Clocked n) (ha : Accounts n)
    (hs : n.step e = some n') : InOrder n' := by
  cases step_cases hs with
  | inserts => exact h.insert ha _
  | executes _ hfirst => exact h.execute hc ha hfirst
  | ticks => exact h
  | reads => exact h
  | begins => exact h
  | returns => exact h
  | finishes => exact h

/-- What a call has run and what it may still run is twice what it found. -/
def Bounded (n : Tokens α) : Prop :=
  ∀ call, n.phase = .draining call ∨ n.phase = .running call →
    call.ran + call.count = 2 * call.size

theorem Bounded.step (h : Bounded n) (hs : n.step e = some n') : Bounded n' := by
  cases step_cases hs with
  | ticks => exact h
  | reads => exact h
  | inserts => exact h
  | begins =>
    rintro call (⟨⟨⟩⟩ | ⟨⟨⟩⟩)
    show 0 + n.tokens.entries.length * 2 = 2 * n.tokens.entries.length
    omega
  | returns => rintro call (⟨⟨⟩⟩ | ⟨⟨⟩⟩)
  | @executes call k callback hphase _ hmore _ =>
    rintro _ (⟨⟨⟩⟩ | ⟨⟨⟩⟩)
    have hcall := h call (Or.inl hphase)
    show call.ran + 1 + (call.count - 1) = 2 * call.size
    omega
  | @finishes call hphase =>
    rintro _ (⟨⟨⟩⟩ | ⟨⟨⟩⟩)
    exact h call (Or.inr hphase)

theorem Run.invariants {es : List (Event α)} (hrun : Run es n) :
    Clocked n ∧ Accounts n ∧ InOrder n ∧ Bounded n := by
  have hinit : Clocked ({} : Tokens α) ∧ Accounts ({} : Tokens α) ∧ InOrder ({} : Tokens α) ∧
      Bounded ({} : Tokens α) := by
    refine ⟨?_, ?_, ?_, ?_⟩
    · constructor <;> simp
    · constructor <;> simp
    · rintro done x rest hsplit
      simp at hsplit
    · rintro call (⟨⟨⟩⟩ | ⟨⟨⟩⟩)
  exact exec_invariant (I := fun n => Clocked n ∧ Accounts n ∧ InOrder n ∧ Bounded n)
    (fun _ _ _ ha hs => ⟨ha.1.step hs, ha.2.1.step hs, ha.2.2.1.step ha.1 ha.2.1 hs,
      ha.2.2.2.step hs⟩) hinit hrun

/-- The source's types hold the ids and the count. -/
theorem numbers_fit {es : List (Event α)} (hrun : Run es n) (hposts : n.posts.length < 2 ^ 64)
    (hfound : ∀ call, n.phase = .draining call ∨ n.phase = .running call → call.size < 2 ^ 30) :
    n.nextTokenId < 2 ^ 64 ∧
    (∀ k callback, n.tokens.find? k = some callback → k.id < 2 ^ 64) ∧
    ∀ call, n.phase = .draining call ∨ n.phase = .running call → call.count < 2 ^ 31 := by
  obtain ⟨-, haccounts, -, hbounded⟩ := Run.invariants hrun
  refine ⟨haccounts.ids.trans_lt hposts, fun k callback hfind => ?_, fun call hphase => ?_⟩
  · obtain ⟨p, hp, -⟩ := haccounts.queued k callback hfind
    exact (List.getElem?_eq_some_iff.mp hp).1.trans hposts
  · have hcall := hbounded call hphase
    have hsize := hfound call hphase
    omega

end Tokens

end DTun.Util.SysReactor
