import Mathlib.Algebra.Order.Monoid.WithTop
import Mathlib.Algebra.Order.Ring.Nat
import Mathlib.Data.List.Sort
import Mathlib.Data.Prod.Lex
import DTun.Lib.Runs

/-!
# The port allocator of a node

`PortAllocator` hands out local ports in two classes and keeps a used port out of
circulation until its NAT mapping has decayed. The `PortState` objects are shared
between the ordered set `ports_` and the reservations, so the model keeps them in
one table and lets the set and the reservations name them by id.

Every mutex section together with the posts that follow it is one step. The lock is
released around a grant callback, so a handler that has granted a request is left
standing in `handler`; every other operation, on this thread from inside the callback
or on another thread, may run before it resumes. The clock is an input: each
`steady_clock::now()` is one reading, and readings never decrease.
-/

namespace DTun.Node.PortAllocator

open DTun.Lib.Runs

inductive PortStatus where
  | free
  | reservedSymm
  | reservedFast
  deriving DecidableEq, Repr

/-- A `steady_clock::time_point` in nanoseconds; `⊤` is `(time_point::max)()`. -/
abbrev TimePoint := WithTop Nat

structure PortState where
  status : PortStatus := .free
  decayTime : TimePoint := 0

/-- The class index: `symm` is 0 and `fast` is 1 in `numPorts_`, `requests_` and
`reservedPorts_`. -/
inductive PortKind where
  | symm
  | fast
  deriving DecidableEq, Repr

def PortKind.status : PortKind → PortStatus
  | .symm => .reservedSymm
  | .fast => .reservedFast

structure Request where
  numPorts : Int
  reservation : Nat
  deriving DecidableEq, Repr

/-- The constructor arguments. -/
structure Config where
  numSymmPorts : Nat
  numFastPorts : Nat
  decayTimeoutMs : Nat

namespace Config

def numPorts (cfg : Config) : PortKind → Nat
  | .symm => cfg.numSymmPorts
  | .fast => cfg.numFastPorts

def total (cfg : Config) : Nat := cfg.numSymmPorts + cfg.numFastPorts

/-- `boost::chrono::milliseconds(decayTimeoutMs_)` in clock units. -/
def decay (cfg : Config) : Nat := cfg.decayTimeoutMs * 1000000

end Config

/-- A handler standing in a grant callback: which handler it is and which queue it is
serving. `symmRefusedAt` is the reading with which this handler gave up the symmetric
queue; the source has no such variable and no step reads it. -/
structure Handler where
  decay : Bool
  kind : PortKind
  symmRefusedAt : Nat

/-- The ports, the reservations that hold them and the two queues. -/
structure Pool where
  port : Nat → PortState
  ports : List Nat
  requests : PortKind → List Request
  reservedPorts : PortKind → Int
  /-- `ports()` of each live `PortReservation`. -/
  reservation : Nat → Option (List Nat)
  nextReservation : Nat

/-- The allocator: the pool, the decay flag, the callbacks posted to the reactor and
the handler that is standing in a callback, if any. -/
structure State extends Pool where
  decayRunning : Bool
  /-- Posted `onProcessRequests` callbacks. -/
  processPosted : Nat
  /-- Posted `onDecayTimeout` callbacks, each with the time it is due. -/
  decayPosted : List Nat
  handler : Option Handler
  clock : Nat

/-- The constructor inserts the ports with ids `0, 1, ...`, all free and decayed. -/
def init (cfg : Config) : State where
  port := fun _ => {}
  ports := List.range cfg.total
  requests := fun _ => []
  reservedPorts := fun _ => 0
  reservation := fun _ => none
  nextReservation := 0
  decayRunning := false
  processPosted := 0
  decayPosted := []
  handler := none
  clock := 0

/-- `PortStateComparer`. -/
def comparer (port : Nat → PortState) (l r : Nat) : Bool :=
  if (port l).decayTime < (port r).decayTime then true
  else if (port r).decayTime < (port l).decayTime then false
  else decide (l < r)

/-- Erase a port from `ports_`, write its decay time and insert it again. -/
def rekey (p : Pool) (i : Nat) (t : TimePoint) : Pool :=
  let port := Function.update p.port i { p.port i with decayTime := t }
  { p with
    port := port
    ports := (p.ports.erase i).orderedInsert (fun a b => ¬ comparer port b a) i }

/-- Write one status into each of the listed ports. -/
def setStatus (st : PortStatus) (ids : List Nat) (port : Nat → PortState) : Nat → PortState :=
  fun i => if i ∈ ids then { port i with status := st } else port i

/-- The scan of `reservePorts`: stop at the first port that has not decayed or once
`numPorts` are taken, and take the free ones on the way. -/
def reserveLoop (st : PortStatus) (now : Nat) (numPorts : Int) :
    List Nat → (Nat → PortState) → List Nat → (Nat → PortState) × List Nat
  | [], port, states => (port, states)
  | i :: rest, port, states =>
    if (now : TimePoint) < (port i).decayTime ∨ (states.length : Int) = numPorts then
      (port, states)
    else if (port i).status = .free then
      reserveLoop st now numPorts rest (setStatus st [i] port) (states ++ [i])
    else
      reserveLoop st now numPorts rest port states

def reservePorts (p : Pool) (now : Nat) (numPorts : Int) (k : PortKind) : Pool × List Nat :=
  let (port, states) := reserveLoop k.status now numPorts p.ports p.port []
  if (states.length : Int) ≠ numPorts then
    ({ p with port := setStatus .free states port }, [])
  else
    ({ p with
        port := port
        reservedPorts := Function.update p.reservedPorts k (p.reservedPorts k + numPorts) },
      states)

/-- `make_shared<PortReservation>` followed by `setPorts`. -/
def newReservation (p : Pool) (ids : List Nat) : Pool :=
  { p with
    reservation := Function.update p.reservation p.nextReservation (some ids)
    nextReservation := p.nextReservation + 1 }

/-- Both `reserve*Ports`: the quota check, then one attempt at the current time. A null
result leaves no reservation behind. -/
def reserveNow (cfg : Config) (s : State) (k : PortKind) (numPorts : Int) (now : Nat) : State :=
  if numPorts > cfg.numPorts k - s.reservedPorts k then s
  else
    match reservePorts s.toPool now numPorts k with
    | (p, []) => { s with toPool := p, clock := now }
    | (p, states) => { s with toPool := newReservation p states, clock := now }

def reserveSymmPorts (cfg : Config) (s : State) (numPorts : Int) (now : Nat) : State :=
  reserveNow cfg s .symm numPorts now

def reserveFastPorts (cfg : Config) (s : State) (numPorts : Int) (now : Nat) : State :=
  reserveNow cfg s .fast numPorts now

/-- Queue a request for a fresh empty reservation. -/
def enqueue (p : Pool) (k : PortKind) (numPorts : Int) : Pool :=
  { newReservation p [] with
    requests := Function.update p.requests k (p.requests k ++ [⟨numPorts, p.nextReservation⟩]) }

/-- Both `reserve*PortsBestEffort`: queue the request and post `onProcessRequests`. -/
def reserveLater (s : State) (k : PortKind) (numPorts : Int) : State :=
  { s with toPool := enqueue s.toPool k numPorts, processPosted := s.processPosted + 1 }

def reserveSymmPortsBestEffort (s : State) (numPorts : Int) : State :=
  reserveLater s .symm numPorts

def reserveFastPortsBestEffort (s : State) (numPorts : Int) : State :=
  reserveLater s .fast numPorts

/-- Post `onDecayTimeout` unless it is running already; `decayTimeoutMs_ + 1` from now. -/
def startDecay (cfg : Config) (s : State) (now : Nat) : State :=
  if s.decayRunning then s
  else
    { s with
      decayRunning := true
      decayPosted := s.decayPosted ++ [now + (cfg.decayTimeoutMs + 1) * 1000000] }

/-- Give every listed port one decay time. -/
def rekeyAll (p : Pool) (ids : List Nat) (t : TimePoint) : Pool :=
  ids.foldl (fun p i => rekey p i t) p

def useReservation (cfg : Config) (s : State) (ids : List Nat) (now : Nat) : State :=
  startDecay cfg
    { s with toPool := rekeyAll s.toPool ids ((now + cfg.decay : Nat) : TimePoint), clock := now }
    now

/-- The class of a reservation is read off the last port of its list. -/
def kindOf (p : Pool) (ids : List Nat) : PortKind :=
  match ids.getLast? with
  | some i => if (p.port i).status = .reservedSymm then .symm else .fast
  | none => .fast

/-- Keep the first port with an infinite decay time and free the others. -/
def keepFirst (p : Pool) (r kept : Nat) (others : List Nat) : Pool :=
  let k := kindOf p (kept :: others)
  rekey
    { p with
      port := setStatus .free others p.port
      reservedPorts := Function.update p.reservedPorts k (p.reservedPorts k - others.length)
      reservation := Function.update p.reservation r (some [kept]) }
    kept ⊤

def keepaliveReservation (s : State) (r kept : Nat) (others : List Nat) : State :=
  { s with toPool := keepFirst s.toPool r kept others, processPosted := s.processPosted + 1 }

/-- The loop of `freeReservation`: free each port, and give a kept-alive one a finite
decay time again. The flag is `startDecay`. -/
def freeLoop (t : TimePoint) : List Nat → Pool × Bool → Pool × Bool
  | [], r => r
  | i :: rest, (p, decay) =>
    let p' := { p with port := setStatus .free [i] p.port }
    if (p'.port i).decayTime = ⊤ then freeLoop t rest (rekey p' i t, true)
    else freeLoop t rest (p', decay)

/-- `freeReservation` on an empty reservation only drops its queued request. -/
def dropRequests (p : Pool) (r : Nat) : Pool :=
  { p with requests := fun k => (p.requests k).eraseP (fun q => q.reservation == r) }

/-- Give the ports of a reservation back. -/
def release (p : Pool) (r : Nat) (ids : List Nat) (t : TimePoint) : Pool × Bool :=
  let k := kindOf p ids
  let (p', decay) := freeLoop t ids (p, false)
  ({ p' with
      reservedPorts := Function.update p'.reservedPorts k (p'.reservedPorts k - ids.length)
      reservation := Function.update p'.reservation r (some []) }, decay)

def freeReservation (cfg : Config) (s : State) (r : Nat) (ids : List Nat) (now : Nat) : State :=
  if ids = [] then { s with toPool := dropRequests s.toPool r }
  else
    match release s.toPool r ids ((now + cfg.decay : Nat) : TimePoint) with
    | (p, decay) =>
      let s' := { s with toPool := p, clock := now, processPosted := s.processPosted + 1 }
      if decay then startDecay cfg s' now else s'

/-- One turn of the loop of `processRequests` up to the callback. The flag tells whether
the head request was granted; otherwise the loop is left. -/
def tryGrant (cfg : Config) (p : Pool) (k : PortKind) (now : Nat) : Pool × Bool :=
  match p.requests k with
  | [] => (p, false)
  | req :: rest =>
    if req.numPorts > cfg.numPorts k - p.reservedPorts k then (p, false)
    else
      match reservePorts p now req.numPorts k with
      | (p', []) => (p', false)
      | (p', states) =>
        ({ p' with
            reservation := Function.update p'.reservation req.reservation (some states)
            requests := Function.update p'.requests k rest }, true)

/-- The tail of `onDecayTimeout`: look for the next finite decay time and re-arm the
timer for it. -/
def rearm (s : State) (now : Nat) : State :=
  match s.ports.find? (fun i =>
      (s.port i).decayTime ≠ ⊤ ∧ (now : TimePoint) < (s.port i).decayTime) with
  | none => { s with decayRunning := false, handler := none, clock := now }
  | some i =>
    let timeoutMs := ((s.port i).decayTime.untopD 0 - now) / 1000000 + 1
    { s with
      decayRunning := true
      decayPosted := s.decayPosted ++ [now + timeoutMs * 1000000]
      handler := none
      clock := now }

/-- A handler from the loop head of the fast queue on: `t₂` is the reading of its next
attempt and `t₃` the one of the re-arming scan. -/
def runFast (cfg : Config) (s : State) (decay : Bool) (t₁ t₂ t₃ : Nat) : State :=
  match tryGrant cfg s.toPool .fast t₂ with
  | (p, true) => { s with toPool := p, handler := some ⟨decay, .fast, t₁⟩, clock := t₂ }
  | (p, false) =>
    if decay then rearm { s with toPool := p } t₃
    else { s with toPool := p, handler := none, clock := t₂ }

/-- A handler from the loop head of the symmetric queue on. -/
def runSymm (cfg : Config) (s : State) (decay : Bool) (t₁ t₂ t₃ : Nat) : State :=
  match tryGrant cfg s.toPool .symm t₁ with
  | (p, true) => { s with toPool := p, handler := some ⟨decay, .symm, t₁⟩, clock := t₁ }
  | (p, false) => runFast cfg { s with toPool := p } decay t₁ t₂ t₃

/-- A handler picks up after its callback, at the loop head it was at. -/
def resume (cfg : Config) (s : State) (h : Handler) (t₁ t₂ t₃ : Nat) : State :=
  match h.kind with
  | .symm => runSymm cfg s h.decay t₁ t₂ t₃
  | .fast => runFast cfg s h.decay h.symmRefusedAt t₂ t₃

inductive Event where
  | reserveSymmPorts (numPorts : Int) (now : Nat)
  | reserveFastPorts (numPorts : Int) (now : Nat)
  | reserveSymmPortsBestEffort (numPorts : Int)
  | reserveFastPortsBestEffort (numPorts : Int)
  | use (r now : Nat)
  | keepalive (r : Nat)
  | cancel (r now : Nat)
  | destroy (r now : Nat)
  | onProcessRequests (t₁ t₂ : Nat)
  | onDecayTimeout (t₁ t₂ t₃ : Nat)
  | resume (t₁ t₂ t₃ : Nat)
  deriving Repr

/-- One step. `use` and `keepalive` are only called on a reservation that holds ports,
`cancel` and `destroy` (the destructor) on a live one; a handler starts only from a
posted callback, when the reactor thread is not inside another handler, and a timer
not before it is due. -/
def step (cfg : Config) (s : State) : Event → Option State
  | .reserveSymmPorts n now =>
    if s.clock ≤ now then some (reserveSymmPorts cfg s n now) else none
  | .reserveFastPorts n now =>
    if s.clock ≤ now then some (reserveFastPorts cfg s n now) else none
  | .reserveSymmPortsBestEffort n => some (reserveSymmPortsBestEffort s n)
  | .reserveFastPortsBestEffort n => some (reserveFastPortsBestEffort s n)
  | .use r now =>
    match s.reservation r with
    | some (i :: ids) => if s.clock ≤ now then some (useReservation cfg s (i :: ids) now) else none
    | _ => none
  | .keepalive r =>
    match s.reservation r with
    | some (i :: ids) => some (keepaliveReservation s r i ids)
    | _ => none
  | .cancel r now =>
    match s.reservation r with
    | some ids => if s.clock ≤ now then some (freeReservation cfg s r ids now) else none
    | none => none
  | .destroy r now =>
    match s.reservation r with
    | some ids =>
      if s.clock ≤ now then
        let s' := freeReservation cfg s r ids now
        some { s' with reservation := Function.update s'.reservation r none }
      else none
    | none => none
  | .onProcessRequests t₁ t₂ =>
    if s.handler.isNone ∧ 0 < s.processPosted ∧ s.clock ≤ t₁ ∧ t₁ ≤ t₂ then
      some (runSymm cfg { s with processPosted := s.processPosted - 1 } false t₁ t₂ t₂)
    else none
  | .onDecayTimeout t₁ t₂ t₃ =>
    match s.decayPosted with
    | due :: rest =>
      if s.handler.isNone ∧ due ≤ t₁ ∧ s.clock ≤ t₁ ∧ t₁ ≤ t₂ ∧ t₂ ≤ t₃ then
        some (runSymm cfg { s with decayPosted := rest } true t₁ t₂ t₃)
      else none
    | [] => none
  | .resume t₁ t₂ t₃ =>
    match s.handler with
    | some h =>
      if s.clock ≤ t₁ ∧ t₁ ≤ t₂ ∧ t₂ ≤ t₃ then some (resume cfg s h t₁ t₂ t₃) else none
    | none => none

/-- A run of the allocator from its construction. -/
abbrev Run (cfg : Config) (es : List Event) (s : State) : Prop :=
  exec (step cfg) (init cfg) es = some s

end DTun.Node.PortAllocator
