import DTun.Lib.Runs

/-!
# A read loop over a byte stream

A consumer reads a stream through one buffer. It asks for a number of bytes, the transport puts
them into the buffer as they come, in portions of its own choosing, and when the buffer is full
the handler of the read is called, which asks for the next bytes. Messages have no length
field: the consumer goes from one header read to the next by what it makes of the bytes.

If the bytes of each message lead from a header read back to a header read with that message
decoded (`Framed`), then so do the bytes of all messages, however they are cut up (`Sound`).
-/

namespace DTun.Lib

open Runs

/-- A read: its length, and the handler that is called with the full buffer. -/
structure Request (κ : Type) where
  size : Nat
  handler : κ
  deriving DecidableEq, Repr

/-- Handlers see an answer of the environment, the consumer's state and the buffer; `none` is a
failed assertion. They give the new state and the read they ask for, if any. -/
structure Framing (α κ ε μ : Type) where
  handle : ε → α → κ → List UInt8 → Option (α × Option (Request κ))
  /-- The read between two messages. -/
  header : Request κ
  encode : μ → List UInt8
  /-- The messages that the handlers have made out so far. -/
  decoded : α → List μ
  /-- The consumer still has its connection. -/
  connected : α → Prop

namespace Framing

variable {α κ ε μ : Type}

/-- `buff` is the one buffer, of the size of the outstanding read, and `pos` how much of it has
been filled. `arrived` is with the receiving transport and `wire` still under way. `written`
are the messages that the other end has written. -/
structure State (α κ μ : Type) where
  app : α
  buff : List UInt8 := []
  pos : Nat := 0
  handler : Option κ := none
  arrived : List UInt8 := []
  wire : List UInt8 := []
  written : List μ := []
  deriving DecidableEq

/-- `std::vector::resize`. -/
def resize (n : Nat) (buff : List UInt8) : List UInt8 :=
  buff.take n ++ List.replicate (n - buff.length) 0

@[simp] theorem length_resize (n : Nat) (buff : List UInt8) : (resize n buff).length = n := by
  rw [resize, List.length_append, List.length_take, List.length_replicate]
  omega

namespace State

/-- Resize the buffer and read into it from its start. -/
def issue (s : State α κ μ) (app : α) : Option (Request κ) → State α κ μ
  | none => { s with app := app, handler := none }
  | some r =>
    { s with app := app, buff := resize r.size s.buff, pos := 0, handler := some r.handler }

/-- The next `n` bytes go into the buffer. -/
def receive (s : State α κ μ) (n : Nat) : State α κ μ :=
  { s with
    buff := s.buff.take s.pos ++ s.arrived.take n ++ s.buff.drop (s.pos + n)
    pos := s.pos + n
    arrived := s.arrived.drop n }

/-- The bytes that were written and that no handler has been called with. -/
def unread (s : State α κ μ) : List UInt8 := s.buff.take s.pos ++ (s.arrived ++ s.wire)

/-- All that was written has been put into the buffer. -/
def Drained (s : State α κ μ) : Prop := s.arrived = [] ∧ s.wire = []

instance (s : State α κ μ) : Decidable s.Drained := inferInstanceAs (Decidable (_ ∧ _))

end State

inductive Event (ε μ : Type) where
  | write (msg : μ)
  | arrive (n : Nat)
  | recv (n : Nat) (env : ε)
  deriving DecidableEq, Repr

variable (F : Framing α κ ε μ)

/-- The bytes `receive` takes have arrived and fit into the buffer. -/
def State.Ready (s : State α κ μ) (n : Nat) : Prop :=
  0 < n ∧ n ≤ s.arrived.length ∧ s.pos + n ≤ s.buff.length

instance (s : State α κ μ) (n : Nat) : Decidable (s.Ready n) :=
  inferInstanceAs (Decidable (_ ∧ _ ∧ _))

def step (s : State α κ μ) : Event ε μ → Option (State α κ μ)
  | .write msg => some { s with wire := s.wire ++ F.encode msg, written := s.written ++ [msg] }
  | .arrive n =>
    if n ≤ s.wire.length then
      some { s with arrived := s.arrived ++ s.wire.take n, wire := s.wire.drop n }
    else none
  | .recv n env =>
    match s.handler with
    | none => none
    | some handler =>
      if s.Ready n then
        let s := s.receive n
        if s.pos = s.buff.length then
          (F.handle env s.app handler s.buff).map fun next => s.issue next.1 next.2
        else some s
      else none

/-- The consumer as it asks for its first header, with whatever the buffer held before. -/
def start (app : α) (buff : List UInt8) : State α κ μ :=
  State.issue { app := app, buff := buff } app (some F.header)

/-- Whatever the environment answers, the bytes lead the consumer from this read to a header
read with nothing missing, and then it has decoded `msgs`. -/
inductive Decodes : α → Option (Request κ) → List UInt8 → List μ → Prop
  | done (app : α) (connected : F.connected app) :
      Decodes app (some F.header) [] (F.decoded app)
  | read {app : α} {r : Request κ} {bytes rest : List UInt8} {msgs : List μ}
      {next : ε → α × Option (Request κ)}
      (size : bytes.length = r.size) (pos : 0 < r.size)
      (handled : ∀ env, F.handle env app r.handler bytes = some (next env))
      (grows : ∀ env, F.decoded app <+: F.decoded (next env).1)
      (tail : ∀ env, Decodes (next env).1 (next env).2 rest msgs) :
      Decodes app (some r) (bytes ++ rest) msgs

/-- The bytes of each message decode to that message. -/
structure Framed : Prop where
  header_pos : 0 < F.header.size
  decodes : ∀ app msg, F.connected app →
    F.Decodes app (some F.header) (F.encode msg) (F.decoded app ++ [msg])

/-- What holds of a stream at any moment. -/
structure Sound (s : State α κ μ) : Prop where
  /-- What has been decoded is what was written, in order. -/
  in_order : F.decoded s.app <+: s.written
  /-- A read is outstanding, and no byte that it can take makes a handler fail. -/
  outstanding : s.pos < s.buff.length
  ready : ∀ n env, s.Ready n → (F.step s (.recv n env)).isSome
  /-- With all bytes taken, all is decoded and the next header has not begun. -/
  complete : s.Drained → F.decoded s.app = s.written ∧ s.pos = 0 ∧
    s.buff.length = F.header.size ∧ s.handler = some F.header.handler
  /-- And the bytes there are can be taken. -/
  drains : ∀ _ : ε, ∃ es t, exec F.step s es = some t ∧ t.Drained ∧ t.written = s.written

section Decodes

variable {F} {app : α} {r : Request κ} {bytes : List UInt8} {msgs : List μ}

theorem Decodes.size_pos (hF : F.Framed) (h : F.Decodes app (some r) bytes msgs) :
    0 < r.size := by
  cases h with
  | done => exact hF.header_pos
  | read _ pos => exact pos

theorem Decodes.snoc (hF : F.Framed) {next : Option (Request κ)}
    (h : F.Decodes app next bytes msgs) (msg : μ) :
    F.Decodes app next (bytes ++ F.encode msg) (msgs ++ [msg]) := by
  induction h with
  | done app connected => exact hF.decodes app msg connected
  | read size pos handled grows tail ih =>
    rw [List.append_assoc]
    exact .read size pos handled grows ih

/-- A full buffer is handled, and the rest decodes from there. -/
theorem Decodes.handle {rest : List UInt8}
    (hpos : 0 < r.size) (hsize : bytes.length = r.size)
    (h : F.Decodes app (some r) (bytes ++ rest) msgs) (env : ε) :
    ∃ next, F.handle env app r.handler bytes = some next ∧
      F.Decodes next.1 next.2 rest msgs := by
  generalize hall : bytes ++ rest = all at h
  cases h with
  | done =>
    have hnil : bytes = [] := List.append_eq_nil_iff.mp hall |>.1
    rw [hnil] at hsize
    exact absurd hsize.symm (Nat.ne_of_gt hpos)
  | read size _ handled _ tail =>
    obtain ⟨rfl, rfl⟩ := List.append_inj hall (hsize.trans size.symm)
    exact ⟨_, handled env, tail env⟩

theorem Decodes.in_order [Nonempty ε] {next : Option (Request κ)}
    (h : F.Decodes app next bytes msgs) : F.decoded app <+: msgs := by
  induction h with
  | done => exact List.prefix_refl _
  | read size pos handled grows tail ih =>
    obtain ⟨env⟩ := ‹Nonempty ε›
    exact (grows env).trans (ih env)

/-- Fewer bytes than the read asks for are none: this is a header read. -/
theorem Decodes.short (hshort : bytes.length < r.size)
    (h : F.Decodes app (some r) bytes msgs) :
    bytes = [] ∧ r = F.header ∧ F.decoded app = msgs := by
  cases h with
  | done => exact ⟨rfl, rfl, rfl⟩
  | read size =>
    rw [List.length_append] at hshort
    omega

end Decodes

section Receive

variable {s : State α κ μ} {n : Nat}

theorem State.Ready.length_take_arrived (h : s.Ready n) : (s.arrived.take n).length = n := by
  rw [List.length_take]
  exact Nat.min_eq_left h.2.1

theorem State.Ready.length_take_buff (h : s.Ready n) : (s.buff.take s.pos).length = s.pos := by
  rw [List.length_take]
  have := h.2.2
  omega

theorem State.Ready.receive_length (h : s.Ready n) :
    (s.receive n).buff.length = s.buff.length := by
  rw [receive, List.length_append, List.length_append, h.length_take_buff,
    h.length_take_arrived, List.length_drop]
  have := h.2.2
  omega

theorem State.Ready.receive_take (h : s.Ready n) :
    (s.receive n).buff.take (s.receive n).pos = s.buff.take s.pos ++ s.arrived.take n := by
  refine List.take_left' ?_
  rw [List.length_append, h.length_take_buff, h.length_take_arrived]
  rfl

theorem State.Ready.receive_unread (h : s.Ready n) : (s.receive n).unread = s.unread := by
  rw [unread, h.receive_take]
  show s.buff.take s.pos ++ s.arrived.take n ++ (s.arrived.drop n ++ s.wire) = _
  rw [List.append_assoc, ← List.append_assoc (s.arrived.take n), List.take_append_drop]
  rfl

end Receive

variable {F} in
/-- What every handler keeps holds of the consumer along a run. -/
theorem exec_app {I : α → Prop} {s t : State α κ μ} {es : List (Event ε μ)}
    (hI : ∀ env app handler buff app' next, I app →
      F.handle env app handler buff = some (app', next) → I app')
    (h0 : I s.app) (h : exec F.step s es = some t) : I t.app := by
  refine exec_invariant (I := fun s => I s.app) (fun s e t hs hstep => ?_) h0 h
  cases e with
  | write msg =>
    cases hstep
    exact hs
  | arrive n =>
    obtain ⟨-, ⟨⟩⟩ := Option.ite_none_right_eq_some.mp hstep
    exact hs
  | recv n env =>
    rw [step] at hstep
    split at hstep
    · cases hstep
    · obtain ⟨-, hstep⟩ := Option.ite_none_right_eq_some.mp hstep
      dsimp only at hstep
      split at hstep
      · obtain ⟨⟨app, next⟩, happ, rfl⟩ := Option.map_eq_some_iff.mp hstep
        have hkept := hI _ _ _ _ _ _ hs happ
        cases next <;> exact hkept
      · cases hstep
        exact hs

/-- A read is outstanding, and the unread bytes decode to what was written. -/
structure Inv (s : State α κ μ) : Prop where
  outstanding : s.pos < s.buff.length
  decodes : ∃ handler, s.handler = some handler ∧
    F.Decodes s.app (some ⟨s.buff.length, handler⟩) s.unread s.written

section Invariant

variable {F} {s : State α κ μ}

theorem Inv.of_issue (hF : F.Framed) {app : α} {next : Option (Request κ)}
    (h : F.Decodes app next (s.arrived ++ s.wire) s.written) : F.Inv (s.issue app next) := by
  cases next with
  | none => cases h
  | some r =>
    have hlength : (s.issue app (some r)).buff.length = r.size := length_resize r.size s.buff
    refine ⟨hlength ▸ h.size_pos hF, r.handler, rfl, ?_⟩
    rw [hlength]
    exact h

theorem Inv.start (hF : F.Framed) {app : α} (buff : List UInt8) (happ : F.decoded app = [])
    (hconn : F.connected app) : F.Inv (F.start app buff) := by
  refine of_issue hF ?_
  have h := Decodes.done (F := F) app hconn
  rwa [happ] at h

/-- The bytes a read can take are taken: the handler of a full buffer does not fail. -/
theorem Inv.recv (hF : F.Framed) (h : F.Inv s) {n : Nat} (hready : s.Ready n) (env : ε) :
    ∃ t, F.step s (.recv n env) = some t ∧ F.Inv t ∧
      t.arrived = s.arrived.drop n ∧ t.wire = s.wire ∧ t.written = s.written := by
  obtain ⟨handler, hhandler, hdecodes⟩ := h.decodes
  rw [← hready.receive_unread, ← hready.receive_length] at hdecodes
  simp only [step, hhandler, if_pos hready]
  by_cases hfull : (s.receive n).pos = (s.receive n).buff.length
  · have hpos : 0 < (s.receive n).buff.length := by
      rw [hready.receive_length]
      exact Nat.zero_lt_of_lt h.outstanding
    rw [State.unread, hfull, List.take_length] at hdecodes
    obtain ⟨next, hnext, htail⟩ := hdecodes.handle hpos rfl env
    refine ⟨(s.receive n).issue next.1 next.2, ?_, Inv.of_issue hF htail, ?_⟩
    · rw [if_pos hfull]
      exact congrArg (Option.map _) hnext
    · cases next.2 with
      | none => exact ⟨rfl, rfl, rfl⟩
      | some r => exact ⟨rfl, rfl, rfl⟩
  · refine ⟨s.receive n, if_neg hfull, ⟨?_, handler, hhandler, hdecodes⟩, rfl, rfl, rfl⟩
    have hle : (s.receive n).pos ≤ (s.receive n).buff.length := by
      rw [hready.receive_length]
      exact hready.2.2
    exact Nat.lt_of_le_of_ne hle hfull

theorem Inv.step (hF : F.Framed) (e : Event ε μ) (t : State α κ μ) (h : F.Inv s)
    (hstep : F.step s e = some t) : F.Inv t := by
  obtain ⟨handler, hhandler, hdecodes⟩ := h.decodes
  cases e with
  | write msg =>
    cases hstep
    refine ⟨h.outstanding, handler, hhandler, ?_⟩
    have hsnoc := hdecodes.snoc hF msg
    simpa only [State.unread, List.append_assoc] using hsnoc
  | arrive n =>
    obtain ⟨-, ⟨⟩⟩ := Option.ite_none_right_eq_some.mp hstep
    refine ⟨h.outstanding, handler, hhandler, ?_⟩
    rw [State.unread, List.append_assoc, List.take_append_drop]
    exact hdecodes
  | recv n env =>
    have hready : s.Ready n := by
      by_contra hnot
      simp only [Framing.step, hhandler, if_neg hnot] at hstep
      cases hstep
    obtain ⟨t', ht', hinv, -⟩ := h.recv hF hready env
    obtain rfl := Option.some.inj (hstep.symm.trans ht')
    exact hinv

/-- Byte after byte, what has arrived is taken. -/
theorem Inv.drains_arrived (hF : F.Framed) (h : F.Inv s) (hwire : s.wire = []) (env : ε) :
    ∃ es t, exec F.step s es = some t ∧ t.Drained ∧ t.written = s.written := by
  induction hlen : s.arrived.length generalizing s with
  | zero => exact ⟨[], s, rfl, ⟨List.length_eq_zero_iff.mp hlen, hwire⟩, rfl⟩
  | succ n ih =>
    have hready : s.Ready 1 := ⟨Nat.one_pos, by omega, h.outstanding⟩
    obtain ⟨t, ht, hinv, harrived, hw, hwritten⟩ := h.recv hF hready env
    obtain ⟨es, u, hrun, hdrained, hu⟩ := ih hinv (hw.trans hwire) (by
      rw [harrived, List.length_drop, hlen]
      rfl)
    refine ⟨.recv 1 env :: es, u, ?_, hdrained, hu.trans hwritten⟩
    rw [exec_cons, ht]
    exact hrun

theorem Inv.drains (hF : F.Framed) (h : F.Inv s) (env : ε) :
    ∃ es t, exec F.step s es = some t ∧ t.Drained ∧ t.written = s.written := by
  have harrive : F.step s (.arrive s.wire.length) = some { s with
      arrived := s.arrived ++ s.wire.take s.wire.length
      wire := s.wire.drop s.wire.length } := if_pos (Nat.le_refl _)
  have hinv := h.step hF _ _ harrive
  obtain ⟨es, t, hrun, hdrained, hwritten⟩ := hinv.drains_arrived hF List.drop_length env
  refine ⟨.arrive s.wire.length :: es, t, ?_, hdrained, hwritten⟩
  rw [exec_cons, harrive]
  exact hrun

theorem Inv.complete (h : F.Inv s) (hdrained : s.Drained) : F.decoded s.app = s.written ∧
    s.pos = 0 ∧ s.buff.length = F.header.size ∧ s.handler = some F.header.handler := by
  obtain ⟨handler, hhandler, hdecodes⟩ := h.decodes
  have hunread : s.unread = s.buff.take s.pos := by
    rw [State.unread, hdrained.1, hdrained.2, List.append_nil, List.append_nil]
  rw [hunread] at hdecodes
  have hlength : (s.buff.take s.pos).length = s.pos := by
    rw [List.length_take]
    exact Nat.min_eq_left (Nat.le_of_lt h.outstanding)
  obtain ⟨hnil, hheader, hdecoded⟩ := hdecodes.short (by
    rw [hlength]
    exact h.outstanding)
  rw [hnil] at hlength
  rw [hhandler, ← hheader]
  exact ⟨hdecoded, hlength.symm, rfl, rfl⟩

theorem Inv.sound [Nonempty ε] (hF : F.Framed) (h : F.Inv s) : F.Sound s where
  in_order := by
    obtain ⟨_, _, hdecodes⟩ := h.decodes
    exact hdecodes.in_order
  outstanding := h.outstanding
  ready n env hready := by
    obtain ⟨t, ht, _⟩ := h.recv hF hready env
    rw [ht]
    rfl
  complete := h.complete
  drains := h.drains hF

/-- A stream of framed messages is decoded however it is cut up. -/
theorem Framed.sound [Nonempty ε] (hF : F.Framed) {app : α} {buff : List UInt8}
    (happ : F.decoded app = []) (hconn : F.connected app) {es : List (Event ε μ)}
    (hrun : exec F.step (F.start app buff) es = some s) : F.Sound s := by
  have hinv : F.Inv s :=
    exec_invariant (fun _ e t hs ht => hs.step hF e t ht) (Inv.start hF buff happ hconn)
      hrun
  exact hinv.sound hF

end Invariant

end Framing

end DTun.Lib
