import DTun.Lib.Runs
import DTun.Node.PortAllocator.Invariant

/-!
# Rendezvous sessions

What the three classes of rendezvous sessions have in common: `callback_`, `portReservation_`
and the acts by which others know them. A handler is atomic. It gives the session it leaves
behind, or with `error` the session in which an assertion fails or a null pointer is
dereferenced; there the run ends.

A reservation is its ports with their decay times, and has none while its request waits in the
allocator. `view` reads it off the state of the allocator.
-/

namespace DTun.Node.Rendezvous

open Lib.Runs
open PortAllocator (TimePoint Pool)

structure Reservation where
  ports : List (Nat × TimePoint)
  deriving DecidableEq

namespace Reservation

/-- A request in the queue. -/
def queued : Reservation := ⟨[]⟩

def use (r : Reservation) (t : TimePoint) : Reservation := ⟨r.ports.map fun p => (p.1, t)⟩

/-- The first port is kept and does not decay. -/
def keepalive (r : Reservation) : Reservation := ⟨(r.ports.take 1).map fun p => (p.1, ⊤)⟩

/-- One port, and it does not decay. -/
def Kept (r : Reservation) : Prop := ∃ port, r.ports = [(port, ⊤)]

theorem keepalive_kept {r : Reservation} (h : r.ports ≠ []) : r.keepalive.Kept := by
  obtain ⟨ports⟩ := r
  cases ports with
  | nil => exact absurd rfl h
  | cons p ps => exact ⟨p.1, rfl⟩

/-- A reservation as the allocator has it. -/
def view (p : Pool) (r : Nat) : Option Reservation :=
  (p.reservation r).map fun ids => ⟨ids.map fun i => (i, (p.port i).decayTime)⟩

/-- `keepaliveReservation` on the allocator is `keepalive` on the reservation. -/
theorem view_keepFirst (p : Pool) {r kept : Nat} {others : List Nat}
    (h : p.reservation r = some (kept :: others)) :
    view (PortAllocator.keepFirst p r kept others) r = (view p r).map keepalive := by
  have hres : (PortAllocator.keepFirst p r kept others).reservation r = some [kept] :=
    Function.update_self ..
  have htop : ((PortAllocator.keepFirst p r kept others).port kept).decayTime = ⊤ := by
    unfold PortAllocator.keepFirst
    rw [PortAllocator.rekey_decayTime, if_pos rfl]
  rw [view, view, hres, h]
  simp only [Option.map_some, List.map_cons, List.map_nil, htop]
  rfl

/-- `useReservation` on the allocator is `use` on the reservation. -/
theorem view_rekeyAll {cfg : PortAllocator.Config} {p : Pool} (hinv : PortAllocator.Inv cfg p)
    {r : Nat} {ids : List Nat} (t : TimePoint) (h : p.reservation r = some ids) :
    view (PortAllocator.rekeyAll p ids t) r = (view p r).map (use · t) := by
  obtain ⟨-, hbooks, -, hdecay⟩ := PortAllocator.rekeyAll_spec ids t hinv.set (hinv.lt_total h)
  rw [view, view, hbooks.reservation, h]
  simp only [Option.map_some, Option.some.injEq, use, mk.injEq, List.map_map]
  exact List.map_congr_left fun i hi => congrArg (Prod.mk i) ((hdecay i).trans (if_pos hi))

end Reservation

/-- What the environment answers in a handler: when ports that are used now will have decayed,
the ports that are free, whether a socket can be made and bound, and whether the connection
for the hello can be started. -/
structure Env where
  decayed : Nat := 0
  free : List (Nat × TimePoint) := []
  socket : Bool := true
  hello : Bool := true
  deriving DecidableEq

/-- `reserveSymmPorts` and `reserveFastPorts`: all of the ports or null. -/
def Env.reserve (env : Env) (numPorts : Nat) : Option Reservation :=
  if env.free.length < numPorts then none else some ⟨env.free.take numPorts⟩

/-- What a session does that others see; `done` is the call of `callback_`. -/
inductive Act where
  | ready
  | next
  | hello
  | ping (ip port : Nat) (final : Bool)
  | use
  | done (err : Int) (reservation : Option Reservation)
  deriving DecidableEq

/-- A message of the server for the session. -/
inductive Msg where
  | ready
  | next
  | fast (ip port : Nat)
  | symm (ip port : Nat)
  deriving DecidableEq, Repr

/-- The four bytes of a ping; the last tells a final ping. -/
def pingBytes (d : UInt8) : List UInt8 := [0xAA, 0xBB, 0xCC, d]

def Act.isDone : Act → Bool
  | .done _ _ => true
  | _ => false

/-- `own` are the fields of the class. `refused` says that `start` has returned false, and `acts`
is what the session has done so far; the source keeps neither. -/
structure Session (φ : Type) where
  owner : Bool
  bestEffort : Bool
  started : Bool := false
  ready : Bool := false
  callback : Bool := false
  portReservation : Option Reservation := none
  own : φ
  refused : Bool := false
  acts : List Act := []
  deriving DecidableEq

variable {φ : Type}

/-- What a handler leaves behind. -/
abbrev Res (φ : Type) := Except (Session φ) (Session φ)

namespace Session

variable (s : Session φ)

def act (a : Act) : Session φ := { s with acts := s.acts ++ [a] }

/-- `callback_` is cleared and called with an error. -/
def fail (err : Int) : Res φ := .ok (act { s with callback := false } (.done err none))

/-- `callback_` is cleared and called with the reservation. -/
def complete : Res φ := .ok (act { s with callback := false } (.done 0 s.portReservation))

/-- An assertion, or a pointer that must not be null. -/
def require (p : Prop) [Decidable p] : Res φ := if p then .ok s else .error s

/-- `portReservation_` is not null and has ports, as the allocator asserts. -/
def HasPorts : Prop := ∃ r ∈ s.portReservation, r.ports ≠ []

instance : Decidable s.HasPorts :=
  inferInstanceAs (Decidable (∃ r, r ∈ s.portReservation ∧ r.ports ≠ []))

/-- `portReservation_->use()`. -/
def use (env : Env) : Res φ :=
  (s.require s.HasPorts).bind fun s =>
    .ok (act { s with portReservation := s.portReservation.map (·.use env.decayed) } .use)

/-- `portReservation_->keepalive()`. -/
def keepalive : Res φ :=
  (s.require s.HasPorts).bind fun s =>
    .ok { s with portReservation := s.portReservation.map (·.keepalive) }

/-- `reserve*Ports` into `portReservation_`. -/
def reserve (numPorts : Nat) (env : Env) : Session φ :=
  { s with portReservation := env.reserve numPorts }

/-- `reserve*PortsBestEffort` into `portReservation_`. -/
def reserveBestEffort : Session φ := { s with portReservation := some .queued }

/-- The allocator grants the request that waits for `portReservation_`. -/
def grant (ports : List (Nat × TimePoint)) : Session φ :=
  { s with portReservation := some ⟨ports⟩ }

/-- The fields of the class are written. -/
def set (own : φ) : Session φ := { s with own := own }

variable {s}

theorem require_ok {p : Prop} [Decidable p] (h : p) : s.require p = .ok s := if_pos h

/-- With ports `use` goes through, and there are ports after it. -/
theorem use_ok (h : s.HasPorts) (env : Env) : ∃ r : Reservation, r.ports ≠ [] ∧
    s.use env = .ok (act { s with portReservation := some r } .use) := by
  have hrequire : s.require s.HasPorts = .ok s := require_ok h
  obtain ⟨r, hr, hports⟩ := h
  refine ⟨r.use env.decayed, fun hnil => hports (List.map_eq_nil_iff.mp hnil), ?_⟩
  rw [use, hrequire]
  show Except.ok (act { s with portReservation := s.portReservation.map _ } _) = _
  rw [hr, Option.map_some]

theorem keepalive_ok (h : s.HasPorts) : ∃ r : Reservation, r.ports ≠ [] ∧
    s.keepalive = .ok { s with portReservation := some r } := by
  have hrequire : s.require s.HasPorts = .ok s := require_ok h
  obtain ⟨r, hr, hports⟩ := h
  obtain ⟨port, hkept⟩ := Reservation.keepalive_kept hports
  refine ⟨r.keepalive, hkept ▸ List.cons_ne_nil _ _, ?_⟩
  rw [keepalive, hrequire]
  show Except.ok { s with portReservation := s.portReservation.map _ } = _
  rw [hr, Option.map_some]

/-- Unless it is null, a reservation has its ports. -/
theorem reserve_hasPorts {numPorts : Nat} {env : Env} (hpos : 0 < numPorts)
    (h : ¬(s.reserve numPorts env).portReservation.isNone = true) :
    (s.reserve numPorts env).HasPorts := by
  by_cases hfew : env.free.length < numPorts
  · exact absurd (congrArg Option.isNone (if_pos hfew)) h
  · refine ⟨_, if_neg hfew, fun hnil => ?_⟩
    have hlength := congrArg List.length hnil
    rw [List.length_take, List.length_nil] at hlength
    omega

theorem HasPorts.not_queued (h : s.HasPorts) : s.portReservation ≠ some .queued := by
  obtain ⟨r, hr, hports⟩ := h
  intro hqueued
  cases hqueued.symm.trans hr
  exact hports rfl

end Session

/-- What a handler may do: acts while `callback_` is set, and at the end perhaps the call of
`callback_`, with a kept reservation or with an error and none. The flags say whether
`callback_` is set before and after. -/
inductive Acts : Bool → List Act → Bool → Prop
  | quiet (callback : Bool) : Acts callback [] callback
  | act {a : Act} {acts : List Act} {callback : Bool} (notDone : a.isDone = false)
      (tail : Acts true acts callback) : Acts true (a :: acts) callback
  | done {reservation : Reservation} (kept : reservation.Kept) :
      Acts true [.done 0 (some reservation)] false
  | fail {err : Int} (error : err ≠ 0) : Acts true [.done err none] false

namespace Acts

variable {b c d : Bool} {acts more : List Act}

/-- With `callback_` cleared a session does nothing. -/
theorem of_false (h : Acts false acts c) : acts = [] ∧ c = false := by
  cases h with
  | quiet => exact ⟨rfl, rfl⟩

theorem append (h : Acts b acts c) (hmore : Acts c more d) : Acts b (acts ++ more) d := by
  induction h with
  | quiet => exact hmore
  | act notDone _ ih => exact .act notDone (ih hmore)
  | done kept =>
    obtain ⟨rfl, rfl⟩ := hmore.of_false
    exact .done kept
  | fail error =>
    obtain ⟨rfl, rfl⟩ := hmore.of_false
    exact .fail error

/-- Nothing follows the call of `callback_`. -/
theorem last (h : Acts b acts c) {pre post : List Act} {err : Int} {res : Option Reservation}
    (hsplit : acts = pre ++ .done err res :: post) :
    post = [] ∧ (err = 0 → ∃ r ∈ res, r.Kept) ∧ (err ≠ 0 → res = none) := by
  induction h generalizing pre with
  | quiet => exact absurd hsplit.symm (List.append_ne_nil_of_right_ne_nil _ (List.cons_ne_nil _ _))
  | act notDone _ ih =>
    cases pre with
    | nil =>
      obtain ⟨rfl, -⟩ := List.cons.inj hsplit
      exact Bool.noConfusion notDone
    | cons _ pre => exact ih (List.cons.inj hsplit).2
  | done kept =>
    obtain ⟨-, heq⟩ := List.append_eq_singleton_iff.mp hsplit.symm |>.resolve_right
      fun hr => List.cons_ne_nil _ _ hr.2
    obtain ⟨hdone, rfl⟩ := List.cons.inj heq
    cases hdone
    exact ⟨rfl, fun _ => ⟨_, rfl, kept⟩, fun hne => absurd rfl hne⟩
  | fail error =>
    obtain ⟨-, heq⟩ := List.append_eq_singleton_iff.mp hsplit.symm |>.resolve_right
      fun hr => List.cons_ne_nil _ _ hr.2
    obtain ⟨hdone, rfl⟩ := List.cons.inj heq
    cases hdone
    exact ⟨rfl, fun hzero => absurd hzero error, fun _ => rfl⟩

end Acts

/-- The session in which a handler ends. -/
def endOf : Res φ → Session φ
  | .ok s => s
  | .error s => s

/-- A handler that ends in `r` does only what it may, from a session with this `callback_` and
these acts. -/
def Moves (r : Res φ) (callback : Bool) (acts : List Act) : Prop :=
  ∃ more, (endOf r).acts = acts ++ more ∧ Acts callback more (endOf r).callback

namespace Moves

variable {t : Session φ} {r r' : Res φ} {f : Session φ → Res φ} {callback : Bool}
  {acts : List Act} {a : Act}

theorem ite {p : Prop} [Decidable p] (h : p → Moves r callback acts)
    (h' : ¬p → Moves r' callback acts) : Moves (if p then r else r') callback acts := by
  by_cases hp : p
  · rw [if_pos hp]
    exact h hp
  · rw [if_neg hp]
    exact h' hp

/-- Only fields are written that are not seen. -/
theorem same : Moves (.ok t) t.callback t.acts := ⟨[], (List.append_nil _).symm, .quiet _⟩

/-- The run ends here. -/
theorem stop : Moves (.error t) t.callback t.acts := ⟨[], (List.append_nil _).symm, .quiet _⟩

/-- Most handlers begin with this test. -/
theorem guard (h : t.callback = true → Moves r t.callback t.acts) :
    Moves (if !t.callback then .ok t else r) t.callback t.acts := by
  refine ite (fun _ => same) fun hn => h ?_
  rwa [Bool.not_eq_true, Bool.not_eq_false'] at hn

/-- The handler goes on after an act. -/
theorem after_act (hcallback : callback = true) (ha : a.isDone = false)
    (h : Moves r callback (acts ++ [a])) : Moves r callback acts := by
  obtain ⟨more, hmore, hacts⟩ := h
  subst hcallback
  exact ⟨a :: more, by rw [hmore, List.append_assoc]; rfl, .act ha hacts⟩

theorem act (hcallback : t.callback = true) (ha : a.isDone = false) :
    Moves (.ok (t.act a)) t.callback t.acts :=
  after_act hcallback ha same

theorem fail {err : Int} (hcallback : t.callback = true) (herr : err ≠ 0) :
    Moves (t.fail err) t.callback t.acts := by
  rw [hcallback]
  exact ⟨[.done err none], rfl, .fail herr⟩

theorem require_last {p : Prop} [Decidable p] : Moves (t.require p) t.callback t.acts :=
  ite (fun _ => same) fun _ => stop

theorem require {p : Prop} [Decidable p] (h : p → Moves (f t) t.callback t.acts) :
    Moves ((t.require p).bind f) t.callback t.acts := by
  by_cases hp : p
  · rw [Session.require_ok hp]
    exact h hp
  · rw [show t.require p = .error t from if_neg hp]
    exact stop

theorem use_last {env : Env} (hcallback : t.callback = true) :
    Moves (t.use env) t.callback t.acts :=
  require fun _ => act hcallback rfl

theorem use {env : Env} (hcallback : t.callback = true)
    (hf : ∀ u : Session φ, u.callback = true → Moves (f u) u.callback u.acts) :
    Moves ((t.use env).bind f) t.callback t.acts := by
  by_cases hp : t.HasPorts
  · obtain ⟨r, -, huse⟩ := Session.use_ok hp env
    rw [huse]
    exact after_act hcallback rfl (hf _ hcallback)
  · rw [Session.use, show t.require t.HasPorts = .error t from if_neg hp]
    exact stop

/-- The only completion without an error is after `keepalive`. -/
theorem keepalive_complete {p : Session φ → Prop} [∀ s, Decidable (p s)]
    (hcallback : t.callback = true) :
    Moves (t.keepalive.bind fun s => (s.require (p s)).bind fun s => s.complete)
      t.callback t.acts := by
  by_cases hp : t.HasPorts
  · obtain ⟨r, hr, hports⟩ := hp
    rw [Session.keepalive, Session.require_ok ⟨r, hr, hports⟩]
    refine require fun _ => ⟨[.done 0 (some r.keepalive)], ?_, ?_⟩
    · show _ ++ [Act.done 0 (t.portReservation.map (·.keepalive))] = _
      rw [hr]
      rfl
    · show Acts t.callback _ false
      rw [hcallback]
      exact .done (Reservation.keepalive_kept hports)
  · rw [Session.keepalive, show t.require t.HasPorts = .error t from if_neg hp]
    exact stop

end Moves

/-- A session, and whether its run has ended in a handler. -/
structure Life (φ : Type) where
  sess : Session φ
  ended : Bool := false

def Life.after : Res φ → Life φ
  | .ok s => ⟨s, false⟩
  | .error s => ⟨s, true⟩

/-- What a session does in its life: its callback is called at most once, in the end, with a
reservation that was kept alive or with an error and none. -/
def Clean (acts : List Act) : Prop :=
  ∀ pre err res post, acts = pre ++ .done err res :: post →
    post = [] ∧ (err = 0 → ∃ r ∈ res, r.Kept) ∧ (err ≠ 0 → res = none)

section Lives

variable {ε : Type} {handle : Session φ → ε → Res φ}

/-- One event: a handler is called. -/
def Life.step (handle : Session φ → ε → Res φ) (l : Life φ) (e : ε) : Option (Life φ) :=
  if l.ended then none else some (.after (handle l.sess e))

theorem Life.after_sess (r : Res φ) : (Life.after r).sess = endOf r := by cases r <;> rfl

/-- The acts are those of handlers one after the other. -/
def Life.Behaved (l : Life φ) : Prop := ∃ b, Acts b l.sess.acts l.sess.callback

theorem Life.behaved_after {r : Res φ} {b callback : Bool} {acts : List Act}
    (h : Moves r callback acts) (hacts : Acts b acts callback) : (Life.after r).Behaved := by
  obtain ⟨more, heq, hmoves⟩ := h
  refine ⟨b, ?_⟩
  rw [Life.after_sess, heq]
  exact hacts.append hmoves

/-- A session whose handlers all do what they may is clean to the end of its run. -/
theorem Life.clean (hhandle : ∀ s e, Moves (handle s e) s.callback s.acts) {l l' : Life φ}
    {es : List ε} (hinit : l.Behaved) (hrun : exec (Life.step handle) l es = some l') :
    Clean l'.sess.acts := by
  have hbehaved : l'.Behaved := by
    refine exec_invariant (fun l e l' hl hstep => ?_) hinit hrun
    obtain ⟨-, ⟨⟩⟩ := Option.ite_none_left_eq_some.mp hstep
    obtain ⟨b, hacts⟩ := hl
    exact behaved_after (hhandle l.sess e) hacts
  obtain ⟨b, hacts⟩ := hbehaved
  exact fun _ _ _ _ hsplit => hacts.last hsplit

end Lives

end DTun.Node.Rendezvous
