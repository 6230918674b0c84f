import DTun.Util.SysReactor.Registry

/-!
# The event loop and its connections

`SysReactor::run` polls, hands each event of the batch to the handler of its descriptor, runs
posted callbacks and calls `processUpdates`. The handlers are `SysConnection`s: a read or a
write is a request in a queue, and only `handleRead` and `handleWrite` take requests out. While
a batch is handed out, callbacks change the handlers, close descriptors and open new ones, so
the poll entries that say what to hand out are out of date.

What the owners of connections do may happen at any time, as on another thread: a request is
pushed and `update` called later, `remove` is in two steps. On another thread `remove` waits
while the reactor thread is in the handler; that it waits for a poll to end as well only takes
runs away, and is left out. A batch may hold any events for any descriptors, one for each.
-/

namespace DTun.Util.SysReactor

open Lib (OrderedMap)
open Lib.Runs

inductive Op where
  | read
  | write
  deriving DecidableEq, Repr

def Op.bit : Op → Mask
  | .read => epollIn
  | .write => epollOut

/-- A request of `read` or of `readFrom`. -/
structure ReadReq where
  normal : Bool
  drain : Bool := false
  deriving DecidableEq, Repr

structure WriteReq where
  /-- From `first` to `last`. -/
  left : Nat
  deriving DecidableEq, Repr

structure SysConnection where
  readQueue : List ReadReq := []
  writeQueue : List WriteReq := []
  /-- Its handle has no socket any more. -/
  closed : Bool := false
  deriving DecidableEq, Repr

namespace SysConnection

def getPollEvents (s : SysConnection) : Mask :=
  (if s.writeQueue.isEmpty then 0 else epollOut) ||| (if s.readQueue.isEmpty then 0 else epollIn)

/-- The queue of the operation is not empty. -/
def queued (s : SysConnection) : Op → Bool
  | .read => !s.readQueue.isEmpty
  | .write => !s.writeQueue.isEmpty

theorem getPollEvents_bit (s : SysConnection) (op : Op) :
    s.getPollEvents &&& op.bit ≠ 0 ↔ s.queued op = true := by
  unfold getPollEvents queued
  cases op <;> cases s.readQueue.isEmpty <;> cases s.writeQueue.isEmpty <;> decide

/-- The front request of `op` is gone. -/
def pop (s : SysConnection) : Op → SysConnection
  | .read => { s with readQueue := s.readQueue.tail }
  | .write => { s with writeQueue := s.writeQueue.tail }

end SysConnection

/-- Where `handleRead` or `handleWrite` is. -/
inductive Stage where
  | entered
  /-- It has the front request; `drain` in the loop that drains the socket. -/
  | transfer (drain : Bool)
  /-- It has popped the request and is about to call `update`. -/
  | popped (again : Bool)
  | callback (again : Bool)
  deriving DecidableEq, Repr

def Stage.isCallback : Stage → Bool
  | .callback _ => true
  | _ => false

/-- The handler works on the front of its queue. -/
def Stage.hasFront : Stage → Bool
  | .entered | .transfer _ => true
  | _ => false

/-- Where `run` is. -/
inductive Loop.Phase where
  /-- Posted callbacks. -/
  | tokens
  /-- After `processUpdates`. -/
  | waiting
  | batch (events : List (Fd × Mask))
  /-- Reading for the first event is done, writing is not. -/
  | midway (events : List (Fd × Mask))
  | handling (op : Op) (cookie : Nat) (stage : Stage) (events : List (Fd × Mask))
  deriving DecidableEq, Repr

/-- `asserts` tells that the assertions of `handleRead` and `handleWrite` have held. The source
has no `last`: the handlers at the last `processUpdates`. -/
structure Loop where
  reg : Registry := {}
  conns : Nat → SysConnection := fun _ => {}
  phase : Loop.Phase := .tokens
  asserts : Bool := true
  last : OrderedMap Nat HandlerInfo := .empty

inductive Loop.Event where
  | create (sock : Fd)
  | read (cookie : Nat) (req : ReadReq)
  | write (cookie : Nat) (req : WriteReq)
  | update (cookie : Nat)
  | remove (cookie : Nat)
  | unpoll (handler : Handler)
  | processUpdates
  | poll (events : List (Fd × Mask))
  /-- The next part of the batch. -/
  | dispatch
  /-- The handler looks at its queue. -/
  | enter
  /-- What `recv` or `recvfrom` answers. -/
  | receive (ok : Bool)
  /-- What `send` or `sendto` answers: the bytes sent, or an error. -/
  | send (res : Option Nat)
  /-- `update` after a request was popped. -/
  | popped
  /-- The callback returns. -/
  | back
  deriving DecidableEq, Repr

namespace Loop

def setConn (n : Loop) (cookie : Nat) (s : SysConnection) : Loop :=
  { n with conns := fun c => if c = cookie then s else n.conns c }

/-- The handler that an event is handed to. -/
def target (n : Loop) (op : Op) (fd : Fd) (events : Mask) : Option Nat :=
  if events &&& (op.bit ||| epollErr) ≠ 0 then
    match n.reg.pollHandlers.find? fd with
    | none => none
    | some p =>
      if p.pollEvents &&& op.bit ≠ 0 ∧ (n.reg.handlers.find? p.cookie).isSome then some p.cookie
      else none
  else none

/-- The handler returns to `run`. -/
def leave (op : Op) (events : List (Fd × Mask)) : Phase :=
  match op with
  | .read => .midway events
  | .write => .batch events.tail

/-- The reactor thread is in the handler, not in a callback of its owner. -/
def Phase.holds (phase : Phase) (cookie : Nat) : Bool :=
  match phase with
  | .handling _ c stage _ => c == cookie && !stage.isCallback
  | _ => false

def onEnter (n : Loop) (op : Op) (c : Nat) (events : List (Fd × Mask)) : Loop :=
  if (n.conns c).queued op = false then { n with asserts := false, phase := leave op events }
  else
    let drain := op = .read ∧ (n.conns c).readQueue.head?.any fun req => !req.normal && req.drain
    { n with phase := .handling op c (.transfer drain) events }

def onSend (n : Loop) (c : Nat) (res : Option Nat) (events : List (Fd × Mask)) : Option Loop :=
  match (n.conns c).writeQueue with
  | [] => none
  | req :: rest =>
    let pop := { n.setConn c ((n.conns c).pop .write) with
      phase := .handling .write c (.popped false) events }
    match res with
    | none => some pop
    | some sent =>
      if req.left ≤ sent then some pop
      else
        some { n.setConn c { n.conns c with writeQueue := ⟨req.left - sent⟩ :: rest } with
          phase := leave .write events }

/-- `none` when the event cannot happen. -/
def step (n : Loop) : Event → Option Loop
  | .create sock =>
    (n.reg.step (.add sock (n.conns n.reg.nextCookie).getPollEvents)).map fun reg => { n with reg }
  | .read c req =>
    if c < n.reg.nextCookie then
      some (n.setConn c { n.conns c with readQueue := (n.conns c).readQueue ++ [req] })
    else none
  | .write c req =>
    if c < n.reg.nextCookie then
      some (n.setConn c { n.conns c with writeQueue := (n.conns c).writeQueue ++ [req] })
    else none
  | .update c => some { n with reg := n.reg.update c (n.conns c).getPollEvents }
  | .remove c => some { n with reg := n.reg.remove c }
  | .unpoll handler =>
    if n.phase.holds handler.cookie then none
    else
      (n.reg.step (.unpoll handler)).map fun reg =>
        { n.setConn handler.cookie { n.conns handler.cookie with closed := true } with reg }
  | .processUpdates =>
    match n.phase with
    | .tokens =>
      some { n with reg := n.reg.processUpdates, last := n.reg.handlers, phase := .waiting }
    | _ => none
  | .poll events =>
    match n.phase with
    | .waiting =>
      if (events.map Prod.fst).Nodup then some { n with phase := .batch events } else none
    | _ => none
  | .dispatch =>
    match n.phase with
    | .batch [] => some { n with phase := .tokens }
    | .batch ((fd, ev) :: rest) =>
      match n.target .read fd ev with
      | some c => some { n with phase := .handling .read c .entered ((fd, ev) :: rest) }
      | none => some { n with phase := .midway ((fd, ev) :: rest) }
    | .midway ((fd, ev) :: rest) =>
      match n.target .write fd ev with
      | some c => some { n with phase := .handling .write c .entered ((fd, ev) :: rest) }
      | none => some { n with phase := .batch rest }
    | _ => none
  | .enter =>
    match n.phase with
    | .handling op c .entered events => some (n.onEnter op c events)
    | _ => none
  | .receive ok =>
    match n.phase with
    | .handling .read c (.transfer drain) events =>
      some { n.setConn c ((n.conns c).pop .read) with
        phase := .handling .read c (.popped (drain && ok)) events }
    | _ => none
  | .send res =>
    match n.phase with
    | .handling .write c (.transfer _) events => n.onSend c res events
    | _ => none
  | .popped =>
    match n.phase with
    | .handling op c (.popped again) events =>
      some { n with
        reg := n.reg.update c (n.conns c).getPollEvents
        phase := .handling op c (.callback again) events }
    | _ => none
  | .back =>
    match n.phase with
    | .handling op c (.callback again) events =>
      if again ∧ (n.conns c).closed = false ∧ (n.conns c).queued op then
        some { n with phase := .handling op c (.transfer true) events }
      else some { n with phase := leave op events }
    | _ => none

def Run (es : List Event) (n : Loop) : Prop := exec step {} es = some n

variable {n n' : Loop} {e : Event}

/-- What the owner of a connection does: queues only grow, poll entries keep their cookies and
masks, and a handler keeps its mask or gets the one of its queues. -/
structure Acts (n n' : Loop) : Prop where
  coherent : n.reg.Coherent → n'.reg.Coherent
  phase : n'.phase = n.phase
  last : n'.last = n.last
  asserts : n'.asserts = n.asserts
  queued : ∀ op c, (n.conns c).queued op = true → (n'.conns c).queued op = true
  poll : ∀ fd p', n'.reg.pollHandlers.find? fd = some p' → ∃ p,
    n.reg.pollHandlers.find? fd = some p ∧ p'.cookie = p.cookie ∧ p'.pollEvents = p.pollEvents
  handlers : ∀ c info', n'.reg.handlers.find? c = some info' →
    (∃ info, n.reg.handlers.find? c = some info ∧ info'.pollEvents = info.pollEvents) ∨
      info'.pollEvents = (n'.conns c).getPollEvents

/-- Before the part `op` of the first event. -/
def before (op : Op) (events : List (Fd × Mask)) : Phase :=
  match op with
  | .read => .batch events
  | .write => .midway events

inductive Step (n : Loop) : Event → Loop → Prop
  | acts {e : Event} {n' : Loop} (act : Acts n n') : Step n e n'
  | updates (phase : n.phase = .tokens) :
      Step n .processUpdates
        { n with reg := n.reg.processUpdates, last := n.reg.handlers, phase := .waiting }
  | polls {events : List (Fd × Mask)} (phase : n.phase = .waiting)
      (nodup : (events.map Prod.fst).Nodup) :
      Step n (.poll events) { n with phase := .batch events }
  | ends (phase : n.phase = .batch []) : Step n .dispatch { n with phase := .tokens }
  | hands {op : Op} {ev : Fd × Mask} {rest : List (Fd × Mask)} {c : Nat}
      (phase : n.phase = before op (ev :: rest)) (handed : n.target op ev.1 ev.2 = some c) :
      Step n .dispatch { n with phase := .handling op c .entered (ev :: rest) }
  | skips {op : Op} {ev : Fd × Mask} {rest : List (Fd × Mask)}
      (phase : n.phase = before op (ev :: rest)) :
      Step n .dispatch { n with phase := leave op (ev :: rest) }
  | fails {op : Op} {c : Nat} {events : List (Fd × Mask)}
      (phase : n.phase = .handling op c .entered events) (empty : (n.conns c).queued op = false) :
      Step n .enter { n with asserts := false, phase := leave op events }
  | enters {op : Op} {c : Nat} {drain : Bool} {events : List (Fd × Mask)}
      (phase : n.phase = .handling op c .entered events) :
      Step n .enter { n with phase := .handling op c (.transfer drain) events }
  | pops {e : Event} {op : Op} {c : Nat} {drain again : Bool} {events : List (Fd × Mask)}
      (phase : n.phase = .handling op c (.transfer drain) events) :
      Step n e { n.setConn c ((n.conns c).pop op) with
        phase := .handling op c (.popped again) events }
  /-- Some bytes of the front request are left. -/
  | sends {e : Event} {c : Nat} {drain : Bool} {events : List (Fd × Mask)} {req : WriteReq}
      {rest : List WriteReq} (phase : n.phase = .handling .write c (.transfer drain) events) :
      Step n e { n.setConn c { n.conns c with writeQueue := req :: rest } with
        phase := leave .write events }
  | refreshes {op : Op} {c : Nat} {again : Bool} {events : List (Fd × Mask)}
      (phase : n.phase = .handling op c (.popped again) events) :
      Step n .popped { n with
        reg := n.reg.update c (n.conns c).getPollEvents
        phase := .handling op c (.callback again) events }
  | again {op : Op} {c : Nat} {events : List (Fd × Mask)}
      (phase : n.phase = .handling op c (.callback true) events)
      (queued : (n.conns c).queued op = true) :
      Step n .back { n with phase := .handling op c (.transfer true) events }
  | returns {op : Op} {c : Nat} {again : Bool} {events : List (Fd × Mask)}
      (phase : n.phase = .handling op c (.callback again) events) :
      Step n .back { n with phase := leave op events }

theorem queued_setConn {c c' : Nat} {s : SysConnection} {op : Op}
    (h : (n.conns c).queued op = true → s.queued op = true)
    (hq : (n.conns c').queued op = true) : ((n.setConn c s).conns c').queued op = true := by
  unfold setConn
  dsimp only
  split
  · rename_i heq
    rw [heq] at hq
    exact h hq
  · exact hq

/-- A change to the connections alone. -/
theorem acts_setConn {c : Nat} {s : SysConnection}
    (h : ∀ op, (n.conns c).queued op = true → s.queued op = true) : Acts n (n.setConn c s) where
  coherent := id
  phase := rfl
  last := rfl
  asserts := rfl
  queued op _ hq := queued_setConn (h op) hq
  poll _ p hp := ⟨p, hp, rfl, rfl⟩
  handlers _ info hinfo := Or.inl ⟨info, hinfo, rfl⟩

theorem step_create {sock : Fd} (h : n.step (.create sock) = some n') : Acts n n' := by
  obtain ⟨reg, hreg, rfl⟩ := Option.map_eq_some_iff.mp h
  have hcoherent : n.reg.Coherent → reg.Coherent := fun hc => hc.step hreg
  obtain ⟨-, ⟨⟩⟩ := Option.ite_none_left_eq_some.mp hreg
  refine ⟨hcoherent, rfl, rfl, rfl, fun _ _ hq => hq, fun _ p hp => ⟨p, hp, rfl, rfl⟩, ?_⟩
  intro c info hinfo
  simp only [Registry.add, OrderedMap.find?_insert] at hinfo
  split at hinfo
  · rename_i heq
    obtain rfl := Option.some.inj hinfo
    exact Or.inr (by rw [heq])
  · exact Or.inl ⟨info, hinfo, rfl⟩

theorem acts_update (c : Nat) :
    Acts n { n with reg := n.reg.update c (n.conns c).getPollEvents } := by
  obtain ⟨hs, l, hupdate, hfind, -⟩ := Registry.update_spec n.reg c (n.conns c).getPollEvents
  refine ⟨fun hc => hc.update c _, rfl, rfl, rfl, fun _ _ hq => hq, ?_, ?_⟩
  · intro fd p hp
    rw [hupdate] at hp
    exact ⟨p, hp, rfl, rfl⟩
  · intro c' info hinfo
    rw [hupdate] at hinfo
    dsimp only at hinfo
    rw [hfind, Option.map_eq_some_iff] at hinfo
    obtain ⟨old, hold, rfl⟩ := hinfo
    split
    · rename_i heq
      exact Or.inr (by rw [heq])
    · exact Or.inl ⟨old, hold, rfl⟩

theorem acts_remove (c : Nat) : Acts n { n with reg := n.reg.remove c } := by
  refine ⟨fun hc => hc.remove c, rfl, rfl, rfl, fun _ _ hq => hq, ?_, ?_⟩
  · intro fd p hp
    refine ⟨p, ?_, rfl, rfl⟩
    unfold Registry.remove at hp
    split at hp <;> exact hp
  · intro c' info hinfo
    refine Or.inl ⟨info, ?_, rfl⟩
    unfold Registry.remove at hinfo
    split at hinfo
    · exact hinfo
    · exact n.reg.handlers.find?_of_erase hinfo

theorem step_unpoll {handler : Handler} (h : n.step (.unpoll handler) = some n') : Acts n n' := by
  obtain ⟨-, h⟩ := Option.ite_none_left_eq_some.mp h
  obtain ⟨reg, hreg, rfl⟩ := Option.map_eq_some_iff.mp h
  have hcoherent : n.reg.Coherent → reg.Coherent := fun hc => hc.step hreg
  obtain ⟨-, ⟨⟩⟩ := Option.ite_none_right_eq_some.mp hreg
  have hclose := acts_setConn (n := n) (c := handler.cookie)
    (s := { n.conns handler.cookie with closed := true }) fun op hq => by cases op <;> exact hq
  refine ⟨hcoherent, rfl, rfl, rfl, hclose.queued, ?_, ?_⟩
  · intro fd p hp
    exact Registry.unpoll_poll hp
  · intro c info hinfo
    rw [Registry.unpoll_handlers] at hinfo
    exact Or.inl ⟨info, hinfo, rfl⟩

theorem step_dispatch (h : n.step .dispatch = some n') : Step n .dispatch n' := by
  simp only [step] at h
  split at h
  · rename_i hphase
    obtain ⟨⟩ := h
    exact .ends hphase
  · rename_i fd ev rest hphase
    have hphase : n.phase = before .read ((fd, ev) :: rest) := hphase
    split at h
    · rename_i c htarget
      obtain ⟨⟩ := h
      exact .hands hphase htarget
    · obtain ⟨⟩ := h
      exact .skips hphase
  · rename_i fd ev rest hphase
    have hphase : n.phase = before .write ((fd, ev) :: rest) := hphase
    split at h
    · rename_i c htarget
      obtain ⟨⟩ := h
      exact .hands hphase htarget
    · obtain ⟨⟩ := h
      exact .skips hphase
  · cases h

theorem step_enter (h : n.step .enter = some n') : Step n .enter n' := by
  simp only [step] at h
  split at h
  · rename_i op c events hphase
    obtain ⟨⟩ := h
    unfold onEnter
    split
    · rename_i hempty
      exact .fails hphase hempty
    · exact .enters hphase
  · cases h

theorem step_send {res : Option Nat} (h : n.step (.send res) = some n') :
    Step n (.send res) n' := by
  simp only [step] at h
  split at h
  · rename_i c drain events hphase
    unfold onSend at h
    split at h
    · cases h
    · dsimp only at h
      split at h
      · obtain ⟨⟩ := h
        exact .pops hphase
      · split at h
        · obtain ⟨⟩ := h
          exact .pops hphase
        · obtain ⟨⟩ := h
          exact .sends hphase
  · cases h

theorem step_back (h : n.step .back = some n') : Step n .back n' := by
  simp only [step] at h
  split at h
  · rename_i op c again events hphase
    split at h
    · rename_i hagain
      obtain ⟨⟩ := h
      rw [hagain.1] at hphase
      exact .again hphase hagain.2.2
    · obtain ⟨⟩ := h
      exact .returns hphase
  · cases h

theorem step_cases (h : n.step e = some n') : Step n e n' := by
  cases e with
  | create sock => exact .acts (step_create h)
  | read c req =>
    obtain ⟨-, ⟨⟩⟩ := Option.ite_none_right_eq_some.mp h
    refine .acts (acts_setConn fun op hq => ?_)
    cases op with
    | read => simp [SysConnection.queued]
    | write => exact hq
  | write c req =>
    obtain ⟨-, ⟨⟩⟩ := Option.ite_none_right_eq_some.mp h
    refine .acts (acts_setConn fun op hq => ?_)
    cases op with
    | read => exact hq
    | write => simp [SysConnection.queued]
  | update c =>
    obtain ⟨⟩ := h
    exact .acts (acts_update c)
  | remove c =>
    obtain ⟨⟩ := h
    exact .acts (acts_remove c)
  | unpoll handler => exact .acts (step_unpoll h)
  | processUpdates =>
    simp only [step] at h
    split at h
    · rename_i hphase
      obtain ⟨⟩ := h
      exact .updates hphase
    · cases h
  | poll events =>
    simp only [step] at h
    split at h
    · rename_i hphase
      obtain ⟨hnodup, ⟨⟩⟩ := Option.ite_none_right_eq_some.mp h
      exact .polls hphase hnodup
    · cases h
  | dispatch => exact step_dispatch h
  | enter => exact step_enter h
  | receive ok =>
    simp only [step] at h
    split at h
    · rename_i hphase
      obtain ⟨⟩ := h
      exact .pops hphase
    · cases h
  | send res => exact step_send h
  | popped =>
    simp only [step] at h
    split at h
    · rename_i hphase
      obtain ⟨⟩ := h
      exact .refreshes hphase
    · cases h
  | back => exact step_back h

/-- The request that made the mask has just been popped. -/
def Phase.Popped (phase : Phase) (op : Op) (c : Nat) : Prop :=
  ∃ again events, phase = .handling op c (.popped again) events

/-- An event for the descriptor may still be handed out for `op`, before the next
`processUpdates`. -/
def Phase.Pending (phase : Phase) (op : Op) (fd : Fd) : Prop :=
  match phase, op with
  | .tokens, _ => False
  | .waiting, _ => True
  | .batch events, _ => fd ∈ events.map Prod.fst
  | .midway events, .read => fd ∈ events.tail.map Prod.fst
  | .midway events, .write => fd ∈ events.map Prod.fst
  | .handling .read _ _ events, .write => fd ∈ events.map Prod.fst
  | .handling _ _ _ events, _ => fd ∈ events.tail.map Prod.fst

def Phase.events : Phase → List (Fd × Mask)
  | .tokens | .waiting => []
  | .batch events | .midway events | .handling _ _ _ events => events

structure Safe (n : Loop) : Prop where
  coherent : n.reg.Coherent
  last : ∀ fd p, n.reg.pollHandlers.find? fd = some p → ∃ info,
    n.last.find? p.cookie = some info ∧ info.handler.sock = fd
  /-- A handler that wants to poll has a request. -/
  masks : ∀ op c info, n.reg.handlers.find? c = some info → info.pollEvents &&& op.bit ≠ 0 →
    (n.conns c).queued op = true ∨ n.phase.Popped op c
  /-- So has one that may still be handed an event. -/
  pending : ∀ op fd p, n.phase.Pending op fd → n.reg.pollHandlers.find? fd = some p →
    p.pollEvents &&& op.bit ≠ 0 → (n.conns p.cookie).queued op = true
  handling : ∀ op c stage events, n.phase = .handling op c stage events →
    (∃ ev rest info, events = ev :: rest ∧ n.last.find? c = some info ∧
      info.handler.sock = ev.1) ∧
    (stage.hasFront = true → (n.conns c).queued op = true)
  nodup : (n.phase.events.map Prod.fst).Nodup
  asserts : n.asserts = true

theorem pending_leave {op op' : Op} {c : Nat} {stage : Stage} {events : List (Fd × Mask)} {fd : Fd}
    (h : (leave op events).Pending op' fd) :
    (Phase.handling op c stage events).Pending op' fd := by
  cases op <;> cases op' <;> exact h

theorem pending_stage {op op' : Op} {c : Nat} {stage : Stage} (stage' : Stage)
    {events : List (Fd × Mask)} {fd : Fd} (h : (Phase.handling op c stage events).Pending op' fd) :
    (Phase.handling op c stage' events).Pending op' fd := by
  cases op <;> cases op' <;> exact h

theorem pending_before {op op' : Op} {c : Nat} {stage : Stage} {events : List (Fd × Mask)}
    {fd : Fd} (h : (Phase.handling op c stage events).Pending op' fd) :
    (before op events).Pending op' fd := by
  have htail : ∀ {fd : Fd}, fd ∈ events.tail.map Prod.fst → fd ∈ events.map Prod.fst :=
    fun hmem => ((List.tail_sublist events).map _).subset hmem
  cases op with
  | read =>
    cases op' with
    | read => exact htail h
    | write => exact h
  | write =>
    cases op' with
    | read => exact h
    | write => exact htail h

theorem nodup_leave {op : Op} {events : List (Fd × Mask)} (h : (events.map Prod.fst).Nodup) :
    ((leave op events).events.map Prod.fst).Nodup := by
  cases op with
  | read => exact h
  | write => exact h.sublist ((List.tail_sublist events).map _)

theorem not_popped_before {op op' : Op} {events : List (Fd × Mask)} {c : Nat} :
    ¬(before op events).Popped op' c := by
  rintro ⟨again, events', heq⟩
  cases op <;> cases heq

theorem leave_ne_handling {op op' : Op} {events events' : List (Fd × Mask)} {c : Nat}
    {stage : Stage} : leave op events ≠ .handling op' c stage events' := by
  cases op <;> rintro ⟨⟩

theorem Safe.acts (h : Safe n) (ha : Acts n n') : Safe n' := by
  refine ⟨ha.coherent h.coherent, ?_, ?_, ?_, ?_, ?_, ha.asserts.trans h.asserts⟩
  · intro fd p' hp'
    obtain ⟨p, hp, hcookie, -⟩ := ha.poll fd p' hp'
    rw [ha.last, hcookie]
    exact h.last fd p hp
  · intro op c info' hinfo' hbit
    rcases ha.handlers c info' hinfo' with ⟨info, hinfo, hevents⟩ | hfresh
    · rw [hevents] at hbit
      rw [ha.phase]
      exact (h.masks op c info hinfo hbit).imp_left (ha.queued op c)
    · rw [hfresh, SysConnection.getPollEvents_bit] at hbit
      exact Or.inl hbit
  · intro op fd p' hpending hp' hbit
    obtain ⟨p, hp, hcookie, hevents⟩ := ha.poll fd p' hp'
    rw [ha.phase] at hpending
    rw [hevents] at hbit
    rw [hcookie]
    exact ha.queued op p.cookie (h.pending op fd p hpending hp hbit)
  · intro op c stage events hphase
    rw [ha.phase] at hphase
    rw [ha.last]
    obtain ⟨hfirst, hfront⟩ := h.handling op c stage events hphase
    exact ⟨hfirst, fun hstage => ha.queued op c (hfront hstage)⟩
  · rw [ha.phase]
    exact h.nodup

/-- `run` goes on to another point. -/
theorem Safe.move (h : Safe n) {phase : Phase}
    (hpopped : ∀ op c info, n.phase.Popped op c → n.reg.handlers.find? c = some info →
      info.pollEvents &&& op.bit ≠ 0 → (n.conns c).queued op = true)
    (hpending : ∀ op fd, phase.Pending op fd → n.phase.Pending op fd)
    (hhandling : ∀ op c stage events, phase = .handling op c stage events →
      (∃ ev rest info, events = ev :: rest ∧ n.last.find? c = some info ∧
        info.handler.sock = ev.1) ∧
      (stage.hasFront = true → (n.conns c).queued op = true))
    (hnodup : (phase.events.map Prod.fst).Nodup) : Safe { n with phase } where
  coherent := h.coherent
  last := h.last
  masks op c info hinfo hbit :=
    Or.inl ((h.masks op c info hinfo hbit).elim id fun hp => hpopped op c info hp hinfo hbit)
  pending op fd p hpend := h.pending op fd p (hpending op fd hpend)
  handling := hhandling
  nodup := hnodup
  asserts := h.asserts

/-- Between the handlers nothing has just been popped. -/
theorem Safe.goes (h : Safe n) {phase : Phase} (hquiet : ∀ op c, ¬n.phase.Popped op c)
    (hpending : ∀ op fd, phase.Pending op fd → n.phase.Pending op fd)
    (hhandling : ∀ op c stage events, phase = .handling op c stage events →
      (∃ ev rest info, events = ev :: rest ∧ n.last.find? c = some info ∧
        info.handler.sock = ev.1) ∧
      (stage.hasFront = true → (n.conns c).queued op = true))
    (hnodup : (phase.events.map Prod.fst).Nodup) : Safe { n with phase } :=
  h.move (fun op c _ hp => absurd hp (hquiet op c)) hpending hhandling hnodup

theorem not_popped_of_phase {phase : Phase} {op : Op} {c : Nat} {stage : Stage}
    {events : List (Fd × Mask)} (h : phase = .handling op c stage events)
    (hstage : ∀ again, stage ≠ .popped again) (op' : Op) (c' : Nat) : ¬phase.Popped op' c' := by
  rintro ⟨again, events', heq⟩
  rw [h] at heq
  cases heq
  exact hstage again rfl

theorem target_eq_some {op : Op} {fd : Fd} {ev : Mask} {c : Nat} (h : n.target op fd ev = some c) :
    ∃ p, n.reg.pollHandlers.find? fd = some p ∧ p.cookie = c ∧ p.pollEvents &&& op.bit ≠ 0 ∧
      (n.reg.handlers.find? c).isSome := by
  obtain ⟨-, h⟩ := Option.ite_none_right_eq_some.mp h
  split at h
  · cases h
  · rename_i p hp
    obtain ⟨⟨hbit, hreg⟩, ⟨⟩⟩ := Option.ite_none_right_eq_some.mp h
    exact ⟨p, hp, rfl, hbit, hreg⟩

/-- An event is handed to a handler that was registered for the descriptor at the last
`processUpdates`, is registered still, and has a request. -/
theorem Safe.handed (h : Safe n) {op : Op} {ev : Fd × Mask} {rest : List (Fd × Mask)} {c : Nat}
    (hphase : n.phase = before op (ev :: rest)) (htarget : n.target op ev.1 ev.2 = some c) :
    (∃ info, n.last.find? c = some info ∧ info.handler.sock = ev.1) ∧
      (n.reg.handlers.find? c).isSome ∧ (n.conns c).queued op = true := by
  obtain ⟨p, hp, rfl, hbit, hreg⟩ := target_eq_some htarget
  refine ⟨h.last ev.1 p hp, hreg, h.pending op ev.1 p ?_ hp hbit⟩
  rw [hphase]
  cases op <;> exact List.mem_cons_self

theorem Safe.updates (h : Safe n) (hphase : n.phase = .tokens) :
    Safe { n with reg := n.reg.processUpdates, last := n.reg.handlers, phase := .waiting } := by
  obtain ⟨hcoherent, hframe, hsettled, -⟩ := h.coherent.processUpdates
  have hmasks : ∀ op c info, n.reg.handlers.find? c = some info →
      info.pollEvents &&& op.bit ≠ 0 → (n.conns c).queued op = true := by
    intro op c info hinfo hbit
    refine (h.masks op c info hinfo hbit).resolve_right ?_
    rintro ⟨again, events, heq⟩
    rw [hphase] at heq
    cases heq
  refine ⟨hcoherent, ?_, ?_, ?_, by rintro op c stage events ⟨⟩, List.nodup_nil, h.asserts⟩
  · intro fd p hp
    obtain ⟨info, hinfo, -⟩ := hsettled fd p hp
    have hsock := (hcoherent.poll fd p hp).sock info hinfo
    rw [hframe.handlers] at hinfo
    exact ⟨info, hinfo, hsock⟩
  · intro op c info hinfo hbit
    rw [hframe.handlers] at hinfo
    exact Or.inl (hmasks op c info hinfo hbit)
  · intro op fd p _ hp hbit
    obtain ⟨info, hinfo, hevents⟩ := hsettled fd p hp
    rw [hframe.handlers] at hinfo
    rw [hevents] at hbit
    exact hmasks op p.cookie info hinfo hbit

theorem queued_pop_of_ne {s : SysConnection} {op op' : Op} (h : op' ≠ op) :
    (s.pop op).queued op' = s.queued op' := by
  cases op <;> cases op' <;> first | rfl | exact absurd rfl h

theorem queued_setConn_pop {c c' : Nat} {op op' : Op} (h : c' ≠ c ∨ op' ≠ op) :
    ((n.setConn c ((n.conns c).pop op)).conns c').queued op' = (n.conns c').queued op' := by
  unfold setConn
  dsimp only
  split
  · rename_i heq
    rw [heq]
    exact queued_pop_of_ne (h.resolve_left (not_not.mpr heq))
  · rfl

/-- Only the handler that has been handed the first event of the batch takes a request out, and
no other event of the batch is for its descriptor. -/
theorem Safe.pops (h : Safe n) {op : Op} {c : Nat} {drain again : Bool}
    {events : List (Fd × Mask)} (hphase : n.phase = .handling op c (.transfer drain) events) :
    Safe { n.setConn c ((n.conns c).pop op) with
      phase := .handling op c (.popped again) events } := by
  obtain ⟨hfirst, -⟩ := h.handling op c _ events hphase
  have hnodup := h.nodup
  rw [hphase] at hnodup
  refine ⟨h.coherent, h.last, ?_, ?_, ?_, hnodup, h.asserts⟩
  · intro op' c' info hinfo hbit
    by_cases hsame : c' = c ∧ op' = op
    · obtain ⟨rfl, rfl⟩ := hsame
      exact Or.inr ⟨again, events, rfl⟩
    · left
      refine (h.masks op' c' info hinfo hbit).elim (fun hq => ?_) fun hp => ?_
      · rw [← queued_setConn_pop (n := n) (not_and_or.mp hsame)] at hq
        exact hq
      · exact absurd hp (not_popped_of_phase hphase (by rintro _ ⟨⟩) op' c')
  · intro op' fd p hpending hp hbit
    have hq := h.pending op' fd p (by rw [hphase]; exact pending_stage _ hpending) hp hbit
    have hother : p.cookie ≠ c ∨ op' ≠ op := by
      by_contra hsame
      rw [not_or, not_not, not_not] at hsame
      obtain ⟨rfl, rfl⟩ := hsame
      obtain ⟨ev, rest, info, rfl, hinfo, hsock⟩ := hfirst
      obtain ⟨info', hinfo', hsock'⟩ := h.last fd p hp
      obtain rfl := Option.some.inj (hinfo.symm.trans hinfo')
      have hmem : fd ∈ rest.map Prod.fst := by cases op' <;> exact hpending
      rw [← hsock', hsock] at hmem
      exact (List.nodup_cons.mp hnodup).1 hmem
    rw [← queued_setConn_pop (n := n) hother] at hq
    exact hq
  · rintro op' c' stage events' ⟨⟩
    exact ⟨hfirst, by rintro ⟨⟩⟩

theorem Safe.refreshes (h : Safe n) {op : Op} {c : Nat} {again : Bool}
    {events : List (Fd × Mask)} (hphase : n.phase = .handling op c (.popped again) events) :
    Safe { n with
      reg := n.reg.update c (n.conns c).getPollEvents
      phase := .handling op c (.callback again) events } := by
  have hacts := h.acts (acts_update c)
  have hnodup := h.nodup
  rw [hphase] at hnodup
  refine hacts.move ?_ ?_ ?_ hnodup
  · rintro op' c' info ⟨again', events', heq⟩ hinfo hbit
    obtain ⟨⟩ := hphase.symm.trans heq
    obtain ⟨hs, l, hupdate, hfind, -⟩ := Registry.update_spec n.reg c (n.conns c).getPollEvents
    rw [hupdate] at hinfo
    dsimp only at hinfo
    rw [hfind, Option.map_eq_some_iff] at hinfo
    obtain ⟨old, -, rfl⟩ := hinfo
    rw [if_pos rfl, SysConnection.getPollEvents_bit] at hbit
    exact hbit
  · intro op' fd hpending
    show n.phase.Pending op' fd
    rw [hphase]
    exact pending_stage _ hpending
  · rintro op' c' stage events' ⟨⟩
    exact ⟨(h.handling op c _ events hphase).1, by rintro ⟨⟩⟩

/-- A handler returns, or goes on with the next request. -/
theorem Safe.leaves (h : Safe n) {op : Op} {c : Nat} {stage : Stage}
    {events : List (Fd × Mask)} (hphase : n.phase = .handling op c stage events)
    (hstage : ∀ again, stage ≠ .popped again) : Safe { n with phase := leave op events } := by
  have hnodup := h.nodup
  rw [hphase] at hnodup
  refine h.goes (not_popped_of_phase hphase hstage) ?_ ?_ (nodup_leave hnodup)
  · intro op' fd hpending
    rw [hphase]
    exact pending_leave hpending
  · exact fun _ _ _ _ heq => absurd heq leave_ne_handling

theorem Safe.proceeds (h : Safe n) {op : Op} {c : Nat} {stage stage' : Stage}
    {events : List (Fd × Mask)} (hphase : n.phase = .handling op c stage events)
    (hstage : ∀ again, stage ≠ .popped again) (hqueued : (n.conns c).queued op = true) :
    Safe { n with phase := .handling op c stage' events } := by
  have hnodup := h.nodup
  rw [hphase] at hnodup
  refine h.goes (not_popped_of_phase hphase hstage) ?_ ?_ hnodup
  · intro op' fd hpending
    rw [hphase]
    exact pending_stage _ hpending
  · rintro _ _ _ _ ⟨⟩
    exact ⟨(h.handling op c stage events hphase).1, fun _ => hqueued⟩

theorem Safe.step (h : Safe n) (hs : n.step e = some n') : Safe n' := by
  cases step_cases hs with
  | acts ha => exact h.acts ha
  | updates hphase => exact h.updates hphase
  | polls hphase hnodup =>
    refine h.goes ?_ ?_ ?_ hnodup
    · rintro op c ⟨again, events, heq⟩
      rw [hphase] at heq
      cases heq
    · intro op fd _
      rw [hphase]
      trivial
    · rintro _ _ _ _ ⟨⟩
  | ends hphase =>
    refine h.goes ?_ (fun _ _ hpending => hpending.elim) ?_ List.nodup_nil
    · rintro op c ⟨again, events, heq⟩
      rw [hphase] at heq
      cases heq
    · rintro _ _ _ _ ⟨⟩
  | @hands op ev rest c hphase htarget =>
    obtain ⟨⟨info, hinfo, hsock⟩, -, hqueued⟩ := h.handed hphase htarget
    have hnodup := h.nodup
    rw [hphase] at hnodup
    refine h.goes ?_ ?_ ?_ (by cases op <;> exact hnodup)
    · rw [hphase]
      exact fun _ _ => not_popped_before
    · intro op' fd hpending
      rw [hphase]
      exact pending_before hpending
    · rintro _ _ _ _ ⟨⟩
      exact ⟨⟨ev, rest, info, rfl, hinfo, hsock⟩, fun _ => hqueued⟩
  | @skips op ev rest hphase =>
    have hnodup := h.nodup
    rw [hphase] at hnodup
    refine h.goes ?_ ?_ ?_ (nodup_leave (by cases op <;> exact hnodup))
    · rw [hphase]
      exact fun _ _ => not_popped_before
    · intro op' fd hpending
      rw [hphase]
      have hhandling : (Phase.handling op 0 .entered (ev :: rest)).Pending op' fd :=
        pending_leave hpending
      exact pending_before hhandling
    · exact fun _ _ _ _ heq => absurd heq leave_ne_handling
  | fails hphase hempty =>
    have hqueued := (h.handling _ _ _ _ hphase).2 rfl
    exact Bool.noConfusion (hempty.symm.trans hqueued)
  | enters hphase =>
    exact h.proceeds hphase (by rintro _ ⟨⟩) ((h.handling _ _ _ _ hphase).2 rfl)
  | pops hphase => exact h.pops hphase
  | @sends _ c _ _ req rest hphase =>
    have hacts : Acts n (n.setConn c { n.conns c with writeQueue := req :: rest }) :=
      acts_setConn fun op hq => by
        cases op with
        | read => exact hq
        | write => rfl
    exact (h.acts hacts).leaves hphase (by rintro _ ⟨⟩)
  | refreshes hphase => exact h.refreshes hphase
  | again hphase hqueued => exact h.proceeds hphase (by rintro _ ⟨⟩) hqueued
  | returns hphase => exact h.leaves hphase (by rintro _ ⟨⟩)

theorem safe_init : Safe {} where
  coherent := Registry.coherent_init
  last := by simp
  masks := by simp
  pending := by simp
  handling := by rintro op c stage events ⟨⟩
  nodup := List.nodup_nil
  asserts := rfl

/-- In every run the assertions of `handleRead` and `handleWrite` hold, and an event is handed
only to a handler that was registered for its descriptor at the last `processUpdates`, that is
registered still, and whose queue is not empty. -/
theorem dispatch_safe {es : List Event} (hrun : Run es n) :
    n.asserts = true ∧
    ∀ op ev rest c, n.phase = before op (ev :: rest) → n.target op ev.1 ev.2 = some c →
      (∃ info, n.last.find? c = some info ∧ info.handler.sock = ev.1) ∧
        (n.reg.handlers.find? c).isSome ∧ (n.conns c).queued op = true := by
  have h : Safe n := exec_invariant (fun _ _ _ => Safe.step) safe_init hrun
  exact ⟨h.asserts, fun op ev rest c hphase htarget => h.handed hphase htarget⟩

/-- Two connections have events. The callback of the first closes the second, whose descriptor
a third one then gets: its event is handed to nobody. -/
theorem dispatch_safe_reused : let es : List Event :=
      [.create 5, .create 6, .read 0 ⟨true, false⟩, .update 0, .read 1 ⟨true, false⟩, .update 1,
        .processUpdates, .poll [(5, epollIn), (6, epollIn)], .dispatch, .enter, .receive true,
        .popped, .remove 1, .unpoll ⟨1, 6⟩, .create 6, .read 2 ⟨true, false⟩, .update 2, .back,
        .dispatch]
    ∃ n, Run es n ∧ (n.phase = .batch [(6, epollIn)] ∧ n.target .read 6 epollIn = none) ∧
      n.asserts = true := by
  exact exec_check_and (by decide +kernel) fun _ hrun _ => (dispatch_safe hrun).1

end Loop

end DTun.Util.SysReactor
