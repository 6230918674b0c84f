import DTun.Lib.OrderedMap
import DTun.Lib.Runs
import Mathlib.Algebra.Group.Nat.Defs
import Mathlib.Data.List.Nodup

/-!
# Handlers, poll entries and epoll

`SysReactor` knows its handlers by cookie (`handlers_`), what it polls by descriptor
(`pollHandlers_`), and the kernel keeps the interest set. `add` and `update` touch only the
first; `processUpdates` brings the other two into line later. `remove` takes the descriptor out
of epoll at once, because its owner is about to close it. Called on another thread, `remove`
gives up the mutex in between to wait for the reactor thread, so it is two steps here.

A handler is added once, by its constructor, so its cookie stands for it. Closing a descriptor
does not take it out of epoll, since it may have been duplicated, and its number may come back
with a later handler. Cookies are `uint64_t` in the source and natural numbers here, the same
as long as fewer than 2^64 handlers have been added (`cookies_fit`). The signal socket is left
out.
-/

namespace DTun.Util.SysReactor

open Lib (OrderedMap)
open Lib.Runs

abbrev Fd := Nat

abbrev Mask := BitVec 32

def epollIn : Mask := 0x001

def epollOut : Mask := 0x004

def epollErr : Mask := 0x008

structure Handler where
  cookie : Nat
  sock : Fd
  deriving DecidableEq, Repr

structure HandlerInfo where
  handler : Handler
  pollEvents : Mask
  deriving DecidableEq, Repr

structure PollHandlerInfo where
  cookie : Nat
  pollEvents : Mask
  notInEpoll : Bool := false
  deriving DecidableEq, Repr

inductive Ctl where
  | add
  | del
  deriving DecidableEq, Repr

/-- `errors` are the failed calls of `epoll_ctl`, which are logged, and `asserts` tells that the
assertions of `processUpdates` have held. The source has no `latest`: the event mask that a
handler gave last. -/
structure Registry where
  nextCookie : Nat := 0
  handlers : OrderedMap Nat HandlerInfo := .empty
  pollHandlers : OrderedMap Fd PollHandlerInfo := .empty
  epoll : OrderedMap Fd Mask := .empty
  /-- Handlers that `remove` has erased and not yet taken out of epoll. -/
  removing : List Handler := []
  errors : List (Ctl × Fd) := []
  asserts : Bool := true
  latest : Nat → Mask := fun _ => 0

namespace Registry

def ctlAdd (r : Registry) (fd : Fd) (events : Mask) : Registry :=
  if (r.epoll.find? fd).isSome then { r with errors := r.errors ++ [(.add, fd)] }
  else { r with epoll := r.epoll.insert fd events }

def ctlDel (r : Registry) (fd : Fd) : Registry :=
  if (r.epoll.find? fd).isSome then { r with epoll := r.epoll.erase fd }
  else { r with errors := r.errors ++ [(.del, fd)] }

def startPoll (r : Registry) (fd : Fd) (pollEvents : Mask) : Registry :=
  if pollEvents ≠ 0 then r.ctlAdd fd (pollEvents ||| epollErr) else r

def stopPoll (r : Registry) (fd : Fd) (pollEvents : Mask) : Registry :=
  if pollEvents ≠ 0 then r.ctlDel fd else r

def setPoll (r : Registry) (fd : Fd) (p : PollHandlerInfo) : Registry :=
  { r with pollHandlers := r.pollHandlers.insert fd p }

/-- `evts` is what `getPollEvents` answers. -/
def add (r : Registry) (sock : Fd) (evts : Mask) : Registry :=
  { r with
    nextCookie := r.nextCookie + 1
    handlers := r.handlers.insert r.nextCookie ⟨⟨r.nextCookie, sock⟩, evts⟩
    latest := fun c => if c = r.nextCookie then evts else r.latest c }

def update (r : Registry) (cookie : Nat) (evts : Mask) : Registry :=
  match r.handlers.find? cookie with
  | none => r
  | some info =>
    let r := { r with latest := fun c => if c = cookie then evts else r.latest c }
    if info.pollEvents = evts then r
    else { r with handlers := r.handlers.insert cookie { info with pollEvents := evts } }

/-- `remove` up to the wait. -/
def remove (r : Registry) (cookie : Nat) : Registry :=
  match r.handlers.find? cookie with
  | none => r
  | some info =>
    { r with
      handlers := r.handlers.erase cookie
      removing := r.removing ++ [info.handler] }

/-- `remove` after the wait. -/
def unpoll (r : Registry) (handler : Handler) : Registry :=
  let r := { r with removing := r.removing.erase handler }
  match r.pollHandlers.find? handler.sock with
  | none => r
  | some p =>
    if p.cookie = handler.cookie then
      (r.stopPoll handler.sock p.pollEvents).setPoll handler.sock { p with notInEpoll := true }
    else r

/-- The body of the first loop of `processUpdates`. -/
def reconcile (r : Registry) (fd : Fd) (p : PollHandlerInfo) : Registry :=
  match r.handlers.find? p.cookie with
  | none =>
    let r := if p.pollEvents ≠ 0 ∧ p.notInEpoll = false then r.ctlDel fd else r
    { r with pollHandlers := r.pollHandlers.erase fd }
  | some info =>
    if p.pollEvents ≠ info.pollEvents then
      ((r.stopPoll fd p.pollEvents).setPoll fd { p with pollEvents := info.pollEvents }).startPoll
        fd info.pollEvents
    else r

/-- The body of the second loop. -/
def register (r : Registry) (info : HandlerInfo) : Registry :=
  match r.pollHandlers.find? info.handler.sock with
  | none =>
    (r.setPoll info.handler.sock ⟨info.handler.cookie, info.pollEvents, false⟩).startPoll
      info.handler.sock info.pollEvents
  | some p => { r with asserts := r.asserts && p.cookie == info.handler.cookie }

def processUpdates (r : Registry) : Registry :=
  let r := r.pollHandlers.entries.foldl (fun r e => r.reconcile e.1 e.2) r
  r.handlers.entries.foldl (fun r e => r.register e.2) r

end Registry

inductive Registry.Event where
  | add (sock : Fd) (evts : Mask)
  | update (cookie : Nat) (evts : Mask)
  | remove (cookie : Nat)
  | unpoll (handler : Handler)
  | processUpdates
  deriving DecidableEq, Repr

namespace Registry

/-- `none` when the event cannot happen: a descriptor belongs to one registered handler. -/
def step (r : Registry) : Event → Option Registry
  | .add sock evts =>
    if r.handlers.any fun _ info => info.handler.sock = sock then none else some (r.add sock evts)
  | .update cookie evts => some (r.update cookie evts)
  | .remove cookie => some (r.remove cookie)
  | .unpoll handler => if handler ∈ r.removing then some (r.unpoll handler) else none
  | .processUpdates => some r.processUpdates

def Run (es : List Event) (r : Registry) : Prop := exec step {} es = some r

variable {r r' : Registry} {fd : Fd} {p : PollHandlerInfo} {e : Event}

/-- What epoll should hold for a poll entry. -/
def expected (p : PollHandlerInfo) : Option Mask :=
  if p.pollEvents = 0 ∨ p.notInEpoll = true then none else some (p.pollEvents ||| epollErr)

theorem expected_polled (hne : p.pollEvents ≠ 0) (hin : p.notInEpoll = false) :
    expected p = some (p.pollEvents ||| epollErr) := by
  refine if_neg ?_
  rintro (hzero | hout)
  · exact hne hzero
  · exact Bool.noConfusion (hin.symm.trans hout)

theorem expected_unpolled (h : ¬(p.pollEvents ≠ 0 ∧ p.notInEpoll = false)) : expected p = none := by
  refine if_pos ?_
  by_cases hzero : p.pollEvents = 0
  · exact Or.inl hzero
  · exact Or.inr (Bool.of_not_eq_false fun hin => h ⟨hzero, hin⟩)

structure InSync (r : Registry) : Prop where
  epoll : ∀ fd, r.epoll.find? fd = (r.pollHandlers.find? fd).bind expected
  errors : r.errors = []

/-- Nothing changes but what is polled. -/
structure Frame (r r' : Registry) : Prop where
  nextCookie : r'.nextCookie = r.nextCookie
  handlers : r'.handlers = r.handlers
  removing : r'.removing = r.removing
  latest : r'.latest = r.latest

/-- The poll entry of `fd` becomes `p`, in `pollHandlers_` and in epoll. -/
structure Sets (r r' : Registry) (fd : Fd) (p : Option PollHandlerInfo) : Prop where
  frame : Frame r r'
  errors : r'.errors = r.errors
  asserts : r'.asserts = r.asserts
  poll : ∀ fd', r'.pollHandlers.find? fd' = if fd' = fd then p else r.pollHandlers.find? fd'
  epoll : ∀ fd', r'.epoll.find? fd' = if fd' = fd then p.bind expected else r.epoll.find? fd'

theorem Sets.inSync {p : Option PollHandlerInfo} (h : Sets r r' fd p) (hs : InSync r) :
    InSync r' := by
  refine ⟨fun fd' => ?_, h.errors.trans hs.errors⟩
  rw [h.epoll, h.poll]
  split
  · rfl
  · exact hs.epoll fd'

theorem stopPoll_spec (hs : InSync r) (hp : r.pollHandlers.find? fd = some p)
    (hin : p.notInEpoll = false) : ∃ m : OrderedMap Fd Mask,
      r.stopPoll fd p.pollEvents = { r with epoll := m } ∧
      ∀ fd', m.find? fd' = if fd' = fd then none else r.epoll.find? fd' := by
  have hepoll := hs.epoll fd
  rw [hp, Option.bind_some] at hepoll
  unfold stopPoll
  by_cases hzero : p.pollEvents = 0
  · rw [if_neg (not_not.mpr hzero)]
    rw [expected_unpolled fun h => h.1 hzero] at hepoll
    refine ⟨r.epoll, rfl, fun fd' => ?_⟩
    split
    · rename_i heq
      rw [heq, hepoll]
    · rfl
  · rw [if_pos hzero, ctlDel]
    rw [expected_polled hzero hin] at hepoll
    rw [if_pos (by rw [hepoll]; rfl)]
    exact ⟨_, rfl, fun fd' => r.epoll.find?_erase⟩

theorem startPoll_spec (cookie : Nat) (pollEvents : Mask) (hnone : r.epoll.find? fd = none) :
    ∃ m : OrderedMap Fd Mask, r.startPoll fd pollEvents = { r with epoll := m } ∧
      ∀ fd', m.find? fd' =
        if fd' = fd then expected ⟨cookie, pollEvents, false⟩ else r.epoll.find? fd' := by
  unfold startPoll
  by_cases hzero : pollEvents = 0
  · rw [if_neg (not_not.mpr hzero), expected_unpolled fun h => h.1 hzero]
    refine ⟨r.epoll, rfl, fun fd' => ?_⟩
    split
    · rename_i heq
      rw [heq, hnone]
    · rfl
  · rw [if_pos hzero, ctlAdd, if_neg (by simp [hnone]), expected_polled hzero rfl]
    exact ⟨_, rfl, fun fd' => r.epoll.find?_insert⟩

/-- An entry whose handler is gone. -/
theorem reconcile_gone (hs : InSync r) (hp : r.pollHandlers.find? fd = some p)
    (hgone : r.handlers.find? p.cookie = none) : Sets r (r.reconcile fd p) fd none := by
  have hepoll := hs.epoll fd
  rw [hp, Option.bind_some] at hepoll
  rw [reconcile, hgone]
  dsimp only
  split
  · rename_i hpolled
    rw [expected_polled hpolled.1 hpolled.2] at hepoll
    rw [ctlDel, if_pos (by rw [hepoll]; rfl)]
    exact ⟨⟨rfl, rfl, rfl, rfl⟩, rfl, rfl, fun _ => r.pollHandlers.find?_erase,
      fun _ => r.epoll.find?_erase⟩
  · rename_i hpolled
    rw [expected_unpolled hpolled] at hepoll
    refine ⟨⟨rfl, rfl, rfl, rfl⟩, rfl, rfl, fun _ => r.pollHandlers.find?_erase, fun fd' => ?_⟩
    split
    · rename_i heq
      rw [heq]
      exact hepoll
    · rfl

/-- An entry whose handler is registered. -/
theorem reconcile_kept (hs : InSync r) (hp : r.pollHandlers.find? fd = some p)
    (hin : p.notInEpoll = false) {info : HandlerInfo}
    (hinfo : r.handlers.find? p.cookie = some info) :
    Sets r (r.reconcile fd p) fd (some { p with pollEvents := info.pollEvents }) := by
  rw [reconcile, hinfo]
  dsimp only
  split
  · obtain ⟨m, hstop, hm⟩ := stopPoll_spec hs hp hin
    rw [hstop]
    have hnone : (setPoll { r with epoll := m } fd
        { p with pollEvents := info.pollEvents }).epoll.find? fd = none := by
      rw [setPoll]
      dsimp only
      rw [hm fd, if_pos rfl]
    obtain ⟨m', hstart, hm'⟩ := startPoll_spec p.cookie info.pollEvents hnone
    rw [hstart]
    refine ⟨⟨rfl, rfl, rfl, rfl⟩, rfl, rfl, fun _ => r.pollHandlers.find?_insert, fun fd' => ?_⟩
    dsimp only
    rw [hm', setPoll]
    dsimp only
    split
    · rw [Option.bind_some, ← hin]
    · rename_i hne
      rw [hm, if_neg hne]
  · rename_i hsame
    have hsame : { p with pollEvents := info.pollEvents } = p := by rw [← not_not.mp hsame]
    refine ⟨⟨rfl, rfl, rfl, rfl⟩, rfl, rfl, fun fd' => ?_, fun fd' => ?_⟩
    · split
      · rename_i heq
        rw [heq, hp, hsame]
      · rfl
    · split
      · rename_i heq
        rw [heq, hs.epoll fd, hp, hsame]
      · rfl

theorem register_new (hs : InSync r) {info : HandlerInfo}
    (hnone : r.pollHandlers.find? info.handler.sock = none) :
    Sets r (r.register info) info.handler.sock
      (some ⟨info.handler.cookie, info.pollEvents, false⟩) := by
  have hepoll := hs.epoll info.handler.sock
  rw [hnone, Option.bind_none] at hepoll
  rw [register, hnone]
  dsimp only
  obtain ⟨m, hstart, hm⟩ := startPoll_spec (r := r.setPoll info.handler.sock
    ⟨info.handler.cookie, info.pollEvents, false⟩) info.handler.cookie info.pollEvents hepoll
  rw [hstart]
  exact ⟨⟨rfl, rfl, rfl, rfl⟩, rfl, rfl, fun _ => r.pollHandlers.find?_insert, hm⟩

theorem unpoll_polled (hs : InSync r) {handler : Handler}
    (hp : r.pollHandlers.find? handler.sock = some p) (hcookie : p.cookie = handler.cookie)
    (hin : p.notInEpoll = false) :
    Sets { r with removing := r.removing.erase handler } (r.unpoll handler) handler.sock
      (some { p with notInEpoll := true }) := by
  obtain ⟨m, hstop, hm⟩ := stopPoll_spec
    (r := { r with removing := r.removing.erase handler }) ⟨hs.epoll, hs.errors⟩ hp hin
  rw [unpoll]
  dsimp only
  rw [hp]
  dsimp only
  rw [if_pos hcookie, hstop]
  refine ⟨⟨rfl, rfl, rfl, rfl⟩, rfl, rfl, fun _ => r.pollHandlers.find?_insert, fun fd' => ?_⟩
  rw [setPoll]
  dsimp only
  rw [hm, Option.bind_some, expected, if_pos (Or.inr rfl)]

/-- An entry that may stand in `pollHandlers_` under `fd`: a registered handler with its cookie
has this descriptor, and an entry is marked only when the removal of its handler is done. -/
structure Fits (r : Registry) (fd : Fd) (p : PollHandlerInfo) : Prop where
  cookie : p.cookie < r.nextCookie
  sock : ∀ info, r.handlers.find? p.cookie = some info → info.handler.sock = fd
  flag : p.notInEpoll = true →
    r.handlers.find? p.cookie = none ∧ p.cookie ∉ r.removing.map Handler.cookie

structure Coherent (r : Registry) : Prop where
  sync : InSync r
  handlers : ∀ c info, r.handlers.find? c = some info →
    info.handler.cookie = c ∧ c < r.nextCookie ∧ info.pollEvents = r.latest c
  distinct : ∀ c info c' info', r.handlers.find? c = some info →
    r.handlers.find? c' = some info' → info.handler.sock = info'.handler.sock → c = c'
  poll : ∀ fd p, r.pollHandlers.find? fd = some p → Fits r fd p
  removing : (r.removing.map Handler.cookie).Nodup
  removed : ∀ h ∈ r.removing, h.cookie < r.nextCookie ∧ r.handlers.find? h.cookie = none
  asserts : r.asserts = true

theorem coherent_init : Coherent {} where
  sync := ⟨fun _ => rfl, rfl⟩
  handlers := by simp
  distinct := by simp
  poll := by simp
  removing := List.nodup_nil
  removed := by simp
  asserts := rfl

/-- An entry of a registered handler is in epoll. -/
theorem Fits.in_epoll (h : Fits r fd p) {info : HandlerInfo}
    (hinfo : r.handlers.find? p.cookie = some info) : p.notInEpoll = false := by
  refine Bool.eq_false_iff.mpr fun hflag => ?_
  rw [(h.flag hflag).1] at hinfo
  cases hinfo

theorem Frame.fits (h : Frame r r') (hp : Fits r fd p) : Fits r' fd p := by
  obtain ⟨hcookie, hsock, hflag⟩ := hp
  rw [← h.nextCookie] at hcookie
  rw [← h.handlers] at hsock hflag
  rw [← h.removing] at hflag
  exact ⟨hcookie, hsock, hflag⟩

theorem Frame.trans {r'' : Registry} (h : Frame r r') (h' : Frame r' r'') : Frame r r'' :=
  ⟨h'.nextCookie.trans h.nextCookie, h'.handlers.trans h.handlers,
    h'.removing.trans h.removing, h'.latest.trans h.latest⟩

theorem Sets.coherent {p : Option PollHandlerInfo} (hsets : Sets r r' fd p) (h : Coherent r)
    (hfits : ∀ q, p = some q → Fits r fd q) : Coherent r' := by
  have hframe := hsets.frame
  refine ⟨hsets.inSync h.sync, ?_, ?_, ?_, ?_, ?_, hsets.asserts.trans h.asserts⟩
  · rw [hframe.handlers, hframe.nextCookie, hframe.latest]
    exact h.handlers
  · rw [hframe.handlers]
    exact h.distinct
  · intro fd' q hq
    rw [hsets.poll] at hq
    split at hq
    · rename_i heq
      exact heq ▸ hframe.fits (hfits q hq)
    · exact hframe.fits (h.poll fd' q hq)
  · rw [hframe.removing]
    exact h.removing
  · rw [hframe.removing, hframe.nextCookie, hframe.handlers]
    exact h.removed

theorem Coherent.add (h : Coherent r) {sock : Fd} {evts : Mask}
    (hfree : ∀ c info, r.handlers.find? c = some info → info.handler.sock ≠ sock) :
    Coherent (r.add sock evts) := by
  have hold : ∀ {c : Nat}, c < r.nextCookie →
      (r.add sock evts).handlers.find? c = r.handlers.find? c :=
    fun hc => r.handlers.find?_insert_of_ne (Nat.ne_of_lt hc)
  have hcases : ∀ {c : Nat} {info : HandlerInfo}, (r.add sock evts).handlers.find? c = some info →
      (c = r.nextCookie ∧ info = ⟨⟨r.nextCookie, sock⟩, evts⟩) ∨
        r.handlers.find? c = some info := by
    intro c info hc
    simp only [Registry.add, OrderedMap.find?_insert] at hc
    split at hc
    · exact Or.inl ⟨by assumption, (Option.some.inj hc).symm⟩
    · exact Or.inr hc
  refine ⟨⟨h.sync.epoll, h.sync.errors⟩, ?_, ?_, ?_, h.removing, ?_, h.asserts⟩
  · intro c info hc
    rcases hcases hc with ⟨rfl, rfl⟩ | hc
    · exact ⟨rfl, Nat.lt_succ_self _, (if_pos rfl).symm⟩
    · obtain ⟨hcookie, hlt, hlatest⟩ := h.handlers c info hc
      exact ⟨hcookie, Nat.lt_succ_of_lt hlt, hlatest.trans (if_neg (Nat.ne_of_lt hlt)).symm⟩
  · intro c info c' info' hc hc' hsock
    rcases hcases hc with ⟨rfl, rfl⟩ | hc
    · rcases hcases hc' with ⟨rfl, rfl⟩ | hc'
      · rfl
      · exact absurd hsock.symm (hfree c' info' hc')
    · rcases hcases hc' with ⟨rfl, rfl⟩ | hc'
      · exact absurd hsock (hfree c info hc)
      · exact h.distinct c info c' info' hc hc' hsock
  · intro fd p hp
    obtain ⟨hcookie, hsock, hflag⟩ := h.poll fd p hp
    rw [← hold hcookie] at hsock hflag
    exact ⟨Nat.lt_succ_of_lt hcookie, hsock, hflag⟩
  · intro handler hmem
    obtain ⟨hlt, hnone⟩ := h.removed handler hmem
    exact ⟨Nat.lt_succ_of_lt hlt, (hold hlt).trans hnone⟩

/-- What `update` does to every handler. -/
theorem update_spec (r : Registry) (cookie : Nat) (evts : Mask) :
    ∃ (hs : OrderedMap Nat HandlerInfo) (l : Nat → Mask),
      r.update cookie evts = { r with handlers := hs, latest := l } ∧
      (∀ c, hs.find? c = (r.handlers.find? c).map fun info =>
        if c = cookie then { info with pollEvents := evts } else info) ∧
      ∀ c info, r.handlers.find? c = some info → l c = if c = cookie then evts else r.latest c := by
  unfold update
  cases hold : r.handlers.find? cookie with
  | none =>
    refine ⟨r.handlers, r.latest, rfl, fun c => ?_, fun c info hc => ?_⟩
    · by_cases heq : c = cookie
      · rw [heq, hold]
        rfl
      · simp [heq]
    · rw [if_neg]
      intro heq
      rw [heq, hold] at hc
      cases hc
  | some old =>
    dsimp only
    split
    · rename_i hsame
      refine ⟨r.handlers, _, rfl, fun c => ?_, fun c info hc => rfl⟩
      by_cases heq : c = cookie
      · rw [heq, hold, Option.map_some, if_pos rfl, ← hsame]
      · simp [heq]
    · refine ⟨_, _, rfl, fun c => ?_, fun c info hc => rfl⟩
      rw [OrderedMap.find?_insert]
      by_cases heq : c = cookie
      · rw [if_pos heq, heq, hold, Option.map_some, if_pos rfl]
      · simp [heq]

theorem Coherent.update (h : Coherent r) (cookie : Nat) (evts : Mask) :
    Coherent (r.update cookie evts) := by
  obtain ⟨hs, l, hupdate, hfind, hlatest⟩ := update_spec r cookie evts
  have hsome : ∀ {c : Nat} {info : HandlerInfo}, hs.find? c = some info → ∃ old,
      r.handlers.find? c = some old ∧ info.handler = old.handler ∧
      info.pollEvents = if c = cookie then evts else old.pollEvents := by
    intro c info hc
    rw [hfind, Option.map_eq_some_iff] at hc
    obtain ⟨old, hold, rfl⟩ := hc
    refine ⟨old, hold, ?_⟩
    split <;> exact ⟨rfl, rfl⟩
  have hnone : ∀ {c : Nat}, r.handlers.find? c = none → hs.find? c = none := by
    intro c hc
    rw [hfind, hc, Option.map_none]
  rw [hupdate]
  refine ⟨⟨h.sync.epoll, h.sync.errors⟩, ?_, ?_, ?_, h.removing, ?_, h.asserts⟩
  · intro c info hc
    obtain ⟨old, hold, hhandler, hevents⟩ := hsome hc
    obtain ⟨hcookie, hlt, hold'⟩ := h.handlers c old hold
    refine ⟨by rw [hhandler]; exact hcookie, hlt, ?_⟩
    show info.pollEvents = l c
    rw [hevents, hlatest c old hold, hold']
  · intro c info c' info' hc hc' hsock
    obtain ⟨old, hold, hhandler, -⟩ := hsome hc
    obtain ⟨old', hold', hhandler', -⟩ := hsome hc'
    rw [hhandler, hhandler'] at hsock
    exact h.distinct c old c' old' hold hold' hsock
  · intro fd p hp
    obtain ⟨hcookie, hsock, hflag⟩ := h.poll fd p hp
    refine ⟨hcookie, fun info hinfo => ?_, fun hmark => ⟨hnone (hflag hmark).1, (hflag hmark).2⟩⟩
    obtain ⟨old, hold, hhandler, -⟩ := hsome hinfo
    rw [hhandler]
    exact hsock old hold
  · intro handler hmem
    obtain ⟨hlt, hgone⟩ := h.removed handler hmem
    exact ⟨hlt, hnone hgone⟩

theorem Coherent.remove (h : Coherent r) (cookie : Nat) : Coherent (r.remove cookie) := by
  unfold Registry.remove
  cases hinfo : r.handlers.find? cookie with
  | none => exact h
  | some info =>
    have hcookie := (h.handlers cookie info hinfo).1
    have hnone : ∀ {c : Nat}, r.handlers.find? c = none →
        (r.handlers.erase cookie).find? c = none := by
      intro c hc
      rw [OrderedMap.find?_erase]
      split
      · rfl
      · exact hc
    refine ⟨⟨h.sync.epoll, h.sync.errors⟩, ?_, ?_, ?_, ?_, ?_, h.asserts⟩
    · exact fun c info' hc => h.handlers c info' (r.handlers.find?_of_erase hc)
    · exact fun c i c' i' hc hc' => h.distinct c i c' i' (r.handlers.find?_of_erase hc)
        (r.handlers.find?_of_erase hc')
    · intro fd p hp
      obtain ⟨hlt, hsock, hflag⟩ := h.poll fd p hp
      refine ⟨hlt, fun info' hc => hsock info' (r.handlers.find?_of_erase hc), fun hmark => ?_⟩
      obtain ⟨hgone, hnot⟩ := hflag hmark
      refine ⟨hnone hgone, ?_⟩
      rw [List.map_append, List.mem_append, not_or]
      refine ⟨hnot, fun hmem => ?_⟩
      have heq : p.cookie = info.handler.cookie := List.mem_singleton.mp hmem
      rw [heq, hcookie, hinfo] at hgone
      cases hgone
    · rw [List.map_append, List.nodup_append]
      refine ⟨h.removing, List.pairwise_singleton _ _, ?_⟩
      intro a ha b hb heq
      obtain ⟨handler, hmem, rfl⟩ := List.mem_map.mp ha
      have hb : b = info.handler.cookie := List.mem_singleton.mp hb
      have hgone := (h.removed handler hmem).2
      rw [heq, hb, hcookie, hinfo] at hgone
      cases hgone
    · intro handler hmem
      rcases List.mem_append.mp hmem with hold | hnew
      · obtain ⟨hlt, hgone⟩ := h.removed handler hold
        exact ⟨hlt, hnone hgone⟩
      · obtain rfl := List.mem_singleton.mp hnew
        rw [hcookie]
        exact ⟨(h.handlers cookie info hinfo).2.1, r.handlers.find?_erase_self⟩

/-- The handler leaves the list of those that are being removed. -/
theorem Coherent.leaves (h : Coherent r) (handler : Handler) :
    Coherent { r with removing := r.removing.erase handler } := by
  have hsub : (r.removing.erase handler).Sublist r.removing := List.erase_sublist
  refine ⟨⟨h.sync.epoll, h.sync.errors⟩, h.handlers, h.distinct, ?_,
    h.removing.sublist (hsub.map _), fun h' hmem => h.removed h' (hsub.subset hmem), h.asserts⟩
  intro fd p hp
  obtain ⟨hlt, hsock, hflag⟩ := h.poll fd p hp
  refine ⟨hlt, hsock, fun hmark => ⟨(hflag hmark).1, fun hmem => (hflag hmark).2 ?_⟩⟩
  exact (hsub.map _).subset hmem

theorem stopPoll_frame (r : Registry) (fd : Fd) (pollEvents : Mask) :
    (r.stopPoll fd pollEvents).handlers = r.handlers ∧
      (r.stopPoll fd pollEvents).pollHandlers = r.pollHandlers := by
  unfold stopPoll ctlDel
  split
  · split <;> exact ⟨rfl, rfl⟩
  · exact ⟨rfl, rfl⟩

theorem unpoll_handlers (r : Registry) (handler : Handler) :
    (r.unpoll handler).handlers = r.handlers := by
  unfold Registry.unpoll
  dsimp only
  split
  · rfl
  · split
    · exact (stopPoll_frame _ _ _).1
    · rfl

/-- `remove` changes no entry but for the mark. -/
theorem unpoll_poll {handler : Handler} {q : PollHandlerInfo}
    (hq : (r.unpoll handler).pollHandlers.find? fd = some q) : ∃ p,
      r.pollHandlers.find? fd = some p ∧ q.cookie = p.cookie ∧ q.pollEvents = p.pollEvents := by
  unfold Registry.unpoll at hq
  dsimp only at hq
  split at hq
  · exact ⟨q, hq, rfl, rfl⟩
  · rename_i p hp
    split at hq
    · simp only [setPoll, (stopPoll_frame _ _ _).2, OrderedMap.find?_insert] at hq
      split at hq
      · rename_i heq
        obtain rfl := Option.some.inj hq
        exact ⟨p, by rw [heq]; exact hp, rfl, rfl⟩
      · exact ⟨q, hq, rfl, rfl⟩
    · exact ⟨q, hq, rfl, rfl⟩

theorem Coherent.unpoll (h : Coherent r) {handler : Handler} (hmem : handler ∈ r.removing) :
    Coherent (r.unpoll handler) := by
  have hleaves := h.leaves handler
  by_cases hpolled : ∃ p, r.pollHandlers.find? handler.sock = some p ∧ p.cookie = handler.cookie
  · obtain ⟨p, hp, hcookie⟩ := hpolled
    have hfits := h.poll handler.sock p hp
    have hin : p.notInEpoll = false := by
      refine Bool.eq_false_iff.mpr fun hmark => (hfits.flag hmark).2 ?_
      rw [hcookie]
      exact List.mem_map_of_mem hmem
    refine (unpoll_polled h.sync hp hcookie hin).coherent hleaves fun q hq => ?_
    obtain rfl := Option.some.inj hq
    refine ⟨hfits.cookie, hfits.sock, fun _ => ⟨?_, fun hmap => ?_⟩⟩
    · show r.handlers.find? p.cookie = none
      rw [hcookie]
      exact (h.removed handler hmem).2
    · obtain ⟨other, hother, hsame⟩ := List.mem_map.mp hmap
      have hne := (List.Nodup.mem_erase_iff (List.Nodup.of_map _ h.removing)).mp hother
      exact hne.1 (List.inj_on_of_nodup_map h.removing hne.2 hmem (hsame.trans hcookie))
  · have hsame : r.unpoll handler = { r with removing := r.removing.erase handler } := by
      unfold Registry.unpoll
      dsimp only
      split
      · rfl
      · rename_i p hp
        exact if_neg fun hcookie => hpolled ⟨p, hp, hcookie⟩
    rw [hsame]
    exact hleaves

/-- The entry is that of a registered handler, with its event mask. -/
def Settled (r : Registry) (p : PollHandlerInfo) : Prop :=
  ∃ info, r.handlers.find? p.cookie = some info ∧ p.pollEvents = info.pollEvents

theorem Frame.settled (h : Frame r r') (hp : Settled r p) : Settled r' p := by
  rw [Settled, ← h.handlers] at hp
  exact hp

/-- One turn of the first loop: the entry goes or is settled, the others stay. -/
theorem Coherent.reconcile (h : Coherent r) (hp : r.pollHandlers.find? fd = some p) :
    Coherent (r.reconcile fd p) ∧ Frame r (r.reconcile fd p) ∧
      (∀ q, (r.reconcile fd p).pollHandlers.find? fd = some q → Settled r q) ∧
      ∀ fd', fd' ≠ fd →
        (r.reconcile fd p).pollHandlers.find? fd' = r.pollHandlers.find? fd' := by
  have hfits := h.poll fd p hp
  cases hinfo : r.handlers.find? p.cookie with
  | none =>
    have hsets := reconcile_gone h.sync hp hinfo
    refine ⟨hsets.coherent h (by rintro q ⟨⟩), hsets.frame, fun q hq => ?_, fun fd' hne => ?_⟩
    · rw [hsets.poll, if_pos rfl] at hq
      cases hq
    · rw [hsets.poll, if_neg hne]
  | some info =>
    have hsets := reconcile_kept h.sync hp (hfits.in_epoll hinfo) hinfo
    refine ⟨hsets.coherent h fun q hq => ?_, hsets.frame, fun q hq => ?_, fun fd' hne => ?_⟩
    · obtain rfl := Option.some.inj hq
      exact ⟨hfits.cookie, hfits.sock, hfits.flag⟩
    · rw [hsets.poll, if_pos rfl] at hq
      obtain rfl := Option.some.inj hq
      exact ⟨info, hinfo, rfl⟩
    · rw [hsets.poll, if_neg hne]

/-- The first loop: `todo` are the entries it has not come to yet, and the rest is settled. -/
theorem Coherent.reconcile_loop {todo : List (Fd × PollHandlerInfo)} (h : Coherent r)
    (hsorted : todo.Pairwise fun a b => a.1 < b.1)
    (htodo : ∀ e ∈ todo, r.pollHandlers.find? e.1 = some e.2)
    (hdone : ∀ fd p, r.pollHandlers.find? fd = some p → fd ∈ todo.map Prod.fst ∨ Settled r p) :
    let r' := todo.foldl (fun r e => r.reconcile e.1 e.2) r
    Coherent r' ∧ Frame r r' ∧ ∀ fd p, r'.pollHandlers.find? fd = some p → Settled r' p := by
  induction todo generalizing r with
  | nil => exact ⟨h, ⟨rfl, rfl, rfl, rfl⟩, fun fd p hp => (hdone fd p hp).resolve_left (by simp)⟩
  | cons e todo ih =>
    obtain ⟨hfirst, hsorted⟩ := List.pairwise_cons.mp hsorted
    obtain ⟨hcoherent, hframe, hsettled, hothers⟩ :=
      h.reconcile (htodo e List.mem_cons_self)
    have hloop := ih hcoherent hsorted ?_ ?_
    · exact ⟨hloop.1, hframe.trans hloop.2.1, hloop.2.2⟩
    · intro e' he'
      rw [hothers e'.1 (Nat.ne_of_gt (hfirst e' he'))]
      exact htodo e' (List.mem_cons_of_mem _ he')
    · intro fd p hp
      by_cases heq : fd = e.1
      · subst heq
        exact Or.inr (hframe.settled (hsettled p hp))
      · rw [hothers fd heq] at hp
        rcases hdone fd p hp with hmem | hold
        · exact Or.inl ((List.mem_cons.mp hmem).resolve_left heq)
        · exact Or.inr (hframe.settled hold)

/-- The poll entry of a registered handler. -/
def entryOf (c : Nat) (info : HandlerInfo) : PollHandlerInfo := ⟨c, info.pollEvents, false⟩

/-- Where all entries are settled, an entry under the descriptor of a handler is its own. -/
theorem Coherent.own_entry (h : Coherent r) {c : Nat} {info : HandlerInfo}
    (hinfo : r.handlers.find? c = some info)
    (hp : r.pollHandlers.find? info.handler.sock = some p) (hsettled : Settled r p) :
    p = entryOf c info := by
  obtain ⟨info', hinfo', hevents⟩ := hsettled
  have hfits := h.poll _ p hp
  have hc : p.cookie = c := h.distinct _ _ _ _ hinfo' hinfo (hfits.sock info' hinfo')
  have hin := hfits.in_epoll hinfo'
  rw [hc, hinfo] at hinfo'
  obtain rfl := Option.some.inj hinfo'
  rw [entryOf, ← hc, ← hevents, ← hin]

/-- The second loop: every handler that is not in `todo` has its entry. -/
theorem Coherent.register_loop {todo : List (Nat × HandlerInfo)} (h : Coherent r)
    (hsettled : ∀ fd p, r.pollHandlers.find? fd = some p → Settled r p)
    (htodo : ∀ e ∈ todo, r.handlers.find? e.1 = some e.2)
    (hdone : ∀ c info, r.handlers.find? c = some info → (c, info) ∈ todo ∨
      r.pollHandlers.find? info.handler.sock = some (entryOf c info)) :
    let r' := todo.foldl (fun r e => r.register e.2) r
    Coherent r' ∧ Frame r r' ∧
      (∀ fd p, r'.pollHandlers.find? fd = some p → Settled r' p) ∧
      ∀ c info, r'.handlers.find? c = some info →
        r'.pollHandlers.find? info.handler.sock = some (entryOf c info) := by
  induction todo generalizing r with
  | nil => exact ⟨h, ⟨rfl, rfl, rfl, rfl⟩, hsettled,
      fun c info hc => (hdone c info hc).resolve_left (by simp)⟩
  | cons e todo ih =>
    obtain ⟨c, info⟩ := e
    have hinfo : r.handlers.find? c = some info := htodo (c, info) List.mem_cons_self
    obtain ⟨hcookie, hlt, -⟩ := h.handlers c info hinfo
    cases hp : r.pollHandlers.find? info.handler.sock with
    | none =>
      have hsets := register_new h.sync hp
      have hframe := hsets.frame
      have hcoherent := hsets.coherent h (fun q hq => by
        obtain rfl := Option.some.inj hq
        rw [hcookie]
        refine ⟨hlt, fun info' hinfo' => ?_, by rintro ⟨⟩⟩
        rw [hinfo] at hinfo'
        exact congrArg (·.handler.sock) (Option.some.inj hinfo').symm)
      rw [hcookie] at hsets
      have hloop := ih hcoherent ?_ ?_ ?_
      · exact ⟨hloop.1, hframe.trans hloop.2.1, hloop.2.2⟩
      · intro fd q hq
        rw [hsets.poll] at hq
        split at hq
        · obtain rfl := Option.some.inj hq
          exact hframe.settled ⟨info, hinfo, rfl⟩
        · exact hframe.settled (hsettled fd q hq)
      · intro e' he'
        rw [hframe.handlers]
        exact htodo e' (List.mem_cons_of_mem _ he')
      · intro c' info' hinfo'
        rw [hframe.handlers] at hinfo'
        rw [hsets.poll]
        rcases hdone c' info' hinfo' with hmem | hold
        · rcases List.mem_cons.mp hmem with heq | hmem
          · obtain ⟨rfl, rfl⟩ := Prod.mk.inj heq
            exact Or.inr (if_pos rfl)
          · exact Or.inl hmem
        · refine Or.inr ?_
          rw [if_neg]
          · exact hold
          · intro heq
            rw [heq, hp] at hold
            cases hold
    | some p =>
      have hown := h.own_entry hinfo hp (hsettled _ p hp)
      have hregister : r.register info = r := by
        rw [register, hp]
        dsimp only
        rw [hown, entryOf, hcookie, beq_self_eq_true, Bool.and_true]
      have hloop := ih h hsettled (fun e' he' => htodo e' (List.mem_cons_of_mem _ he')) ?_
      · dsimp only at hloop ⊢
        rw [List.foldl_cons, hregister]
        exact hloop
      · intro c' info' hinfo'
        rcases hdone c' info' hinfo' with hmem | hold
        · rcases List.mem_cons.mp hmem with heq | hmem
          · obtain ⟨rfl, rfl⟩ := Prod.mk.inj heq
            rw [hown] at hp
            exact Or.inr hp
          · exact Or.inl hmem
        · exact Or.inr hold

/-- After `processUpdates` every entry is settled and every handler has its entry. -/
theorem Coherent.processUpdates (h : Coherent r) :
    Coherent r.processUpdates ∧ Frame r r.processUpdates ∧
      (∀ fd p, r.processUpdates.pollHandlers.find? fd = some p → Settled r.processUpdates p) ∧
      ∀ c info, r.processUpdates.handlers.find? c = some info →
        r.processUpdates.pollHandlers.find? info.handler.sock = some (entryOf c info) := by
  obtain ⟨hcoherent, hframe, hsettled⟩ := h.reconcile_loop r.pollHandlers.sorted
    (fun e he => r.pollHandlers.mem_entries_iff.mp he)
    (fun fd p hp => Or.inl (List.mem_map.mpr ⟨(fd, p), r.pollHandlers.mem_entries_iff.mpr hp, rfl⟩))
  have hloop := hcoherent.register_loop hsettled
    (fun e he => (OrderedMap.mem_entries_iff _).mp he)
    (fun c info hc => Or.inl ((OrderedMap.mem_entries_iff _).mpr hc))
  exact ⟨hloop.1, hframe.trans hloop.2.1, hloop.2.2⟩

theorem Coherent.step (h : Coherent r) (hs : r.step e = some r') : Coherent r' := by
  cases e with
  | add sock evts =>
    obtain ⟨hfree, ⟨⟩⟩ := Option.ite_none_left_eq_some.mp hs
    refine h.add fun c info hc hsock => hfree ?_
    rw [OrderedMap.any_iff]
    exact ⟨c, info, hc, decide_eq_true hsock⟩
  | update cookie evts =>
    obtain ⟨⟩ := hs
    exact h.update cookie evts
  | remove cookie =>
    obtain ⟨⟩ := hs
    exact h.remove cookie
  | unpoll handler =>
    obtain ⟨hmem, ⟨⟩⟩ := Option.ite_none_right_eq_some.mp hs
    exact h.unpoll hmem
  | processUpdates =>
    obtain ⟨⟩ := hs
    exact h.processUpdates.1

theorem Run.coherent {es : List Event} (h : Run es r) : Coherent r :=
  exec_invariant (fun _ _ _ => Coherent.step) coherent_init h

/-- `nextCookie` counts the handlers that have been added, and a `uint64_t` holds what it gave. -/
theorem cookies_fit {es : List Event} (hrun : Run es r) (hadded : r.nextCookie < 2 ^ 64) :
    (∀ c info, r.handlers.find? c = some info → c < 2 ^ 64) ∧
    (∀ fd p, r.pollHandlers.find? fd = some p → p.cookie < 2 ^ 64) ∧
    ∀ h ∈ r.removing, h.cookie < 2 ^ 64 := by
  have hcoherent := Run.coherent hrun
  refine ⟨fun c info hinfo => ?_, fun fd p hp => ?_, fun h hmem => ?_⟩
  · exact (hcoherent.handlers c info hinfo).2.1.trans hadded
  · exact (hcoherent.poll fd p hp).cookie.trans hadded
  · exact (hcoherent.removed h hmem).1.trans hadded

end Registry

end DTun.Util.SysReactor
