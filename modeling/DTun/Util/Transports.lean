import DTun.Lib.OrderedMap

/-!
# The transports of a manager

`LTUDPManager` and `UTPManager` keep their UDP transports in the same way: `connCache_` has
one entry for each local port, with a weak pointer to the transport and what the manager
knows about it. A transport is in use as long as a handle or a posted callback holds it; an
entry whose transport is gone is dropped when the cache is reaped or when the port is bound
again. Who holds a transport is the manager's own business, here it is a predicate.
-/

namespace DTun.Util

open Lib (OrderedMap)

abbrev Ip := Nat

abbrev Port := Nat

/-- A transport: which one it is among all that were made, and its UDP port. -/
structure Conn where
  id : Nat
  port : Port
  deriving DecidableEq, Repr

/-- An entry of `connCache_`, with the transport its `conn` points to. -/
structure Slot (ι : Type) where
  conn : Conn
  info : ι

structure Transports (ι : Type) where
  connCache : OrderedMap Port (Slot ι) := .empty
  /-- How many transports were made. -/
  created : Nat := 0

namespace Transports

variable {ι : Type} (alive : Conn → Bool) (fresh : ι)

/-- A new transport in `createTransportConnectionInternal`, if a socket can be bound. The name
0 leaves the port to the system. The call ends at an assertion when the port has a transport
in use. -/
def openTransport (t : Transports ι) (name : Port) (bound : Option Port) :
    Option (Transports ι × Option Conn) :=
  match bound with
  | none => some (t, none)
  | some any =>
    let conn : Conn := { id := t.created, port := if name = 0 then any else name }
    if ((t.connCache.find? conn.port).all fun slot => !alive slot.conn) = true then
      some ({ connCache := t.connCache.insert conn.port { conn := conn, info := fresh }
              created := t.created + 1 }, some conn)
    else none

/-- `createTransportConnectionInternal`. -/
def createTransport (t : Transports ι) (name : Port) (bound : Option Port) :
    Option (Transports ι × Option Conn) :=
  match if name = 0 then none else t.connCache.find? name with
  | none => t.openTransport alive fresh name bound
  | some slot =>
    if alive slot.conn then some (t, some slot.conn)
    else openTransport alive fresh { t with connCache := t.connCache.erase name } name bound

/-- The port of the transport that `createTransport` has to make. -/
def openedPort (t : Transports ι) (name : Port) (bound : Option Port) : Option Port :=
  if (if name = 0 then none else t.connCache.find? name).any fun slot => alive slot.conn then none
  else bound.map fun any => if name = 0 then any else name

def reapConnCache (t : Transports ι) : Transports ι :=
  { t with connCache := t.connCache.filter fun _ slot => alive slot.conn }

def setInfo (t : Transports ι) (port : Port) (slot : Slot ι) (info : ι) : Transports ι :=
  { t with connCache := t.connCache.insert port { slot with info := info } }

/-- The transport is the one in the cache under its port. -/
def Cached (t : Transports ι) (conn : Conn) : Prop :=
  ∃ slot, t.connCache.find? conn.port = some slot ∧ slot.conn = conn

variable {alive} {alive' : Conn → Bool} {fresh} {t t' : Transports ι} {port : Port} {conn : Conn}
  {slot : Slot ι} {info : ι}

theorem Cached.slot_eq (h : t.Cached conn) (hslot : t.connCache.find? conn.port = some slot) :
    slot.conn = conn := by
  obtain ⟨s, hs, hsc⟩ := h
  rw [hslot] at hs
  cases hs
  exact hsc

theorem find?_setInfo (t : Transports ι) (port : Port) (slot : Slot ι) (info : ι)
    (port' : Port) : (t.setInfo port slot info).connCache.find? port' =
      if port' = port then some { slot with info := info } else t.connCache.find? port' :=
  OrderedMap.find?_insert _

theorem find?_setInfo_cases {slot' : Slot ι} {port' : Port}
    (h : (t.setInfo port slot info).connCache.find? port' = some slot') :
    port' = port ∧ slot' = { slot with info := info } ∨
      port' ≠ port ∧ t.connCache.find? port' = some slot' := by
  rw [find?_setInfo] at h
  split at h
  · rename_i heq
    exact .inl ⟨heq, (Option.some.inj h).symm⟩
  · rename_i hne
    exact .inr ⟨hne, h⟩

theorem cached_setInfo (hslot : t.connCache.find? port = some slot) (info : ι)
    (hconn : t.Cached conn) : (t.setInfo port slot info).Cached conn := by
  obtain ⟨s, hs, rfl⟩ := hconn
  rw [Cached, find?_setInfo]
  split
  · rename_i heq
    rw [heq, hslot] at hs
    cases hs
    exact ⟨_, rfl, rfl⟩
  · exact ⟨s, hs, rfl⟩

/-- Entries go, but none whose transport is in use. -/
structure Shrunk (alive : Conn → Bool) (cache cache' : OrderedMap Port (Slot ι)) : Prop where
  sub : ∀ port slot, cache'.find? port = some slot → cache.find? port = some slot
  keep : ∀ port slot, cache.find? port = some slot → alive slot.conn = true →
    cache'.find? port = some slot

theorem Shrunk.refl (cache : OrderedMap Port (Slot ι)) : Shrunk alive cache cache :=
  ⟨fun _ _ h => h, fun _ _ h _ => h⟩

theorem shrunk_reap (t : Transports ι) (alive : Conn → Bool) :
    Shrunk alive t.connCache (t.reapConnCache alive).connCache where
  sub := fun _ _ h => ((OrderedMap.find?_filter_eq_some _ _).mp h).1
  keep := fun _ _ h halive => (OrderedMap.find?_filter_eq_some _ _).mpr ⟨h, halive⟩

theorem shrunk_erase (hslot : t.connCache.find? port = some slot)
    (hdead : alive slot.conn = false) :
    Shrunk alive t.connCache (t.connCache.erase port) where
  sub := fun _ _ h => OrderedMap.find?_of_erase _ h
  keep := by
    intro port' slot' h halive
    rw [OrderedMap.find?_erase_of_ne]
    · exact h
    · intro heq
      rw [heq, hslot] at h
      cases h
      rw [hdead] at halive
      cases halive

/-- What `createTransport` can do: the transport of the port is in use, no socket can be bound,
or there is a new transport. -/
inductive Created (alive : Conn → Bool) (fresh : ι) (t : Transports ι) (name : Port) :
    Transports ι → Option Conn → Prop where
  | found {slot : Slot ι} (hname : name ≠ 0) (hslot : t.connCache.find? name = some slot)
    (halive : alive slot.conn = true) : Created alive fresh t name t (some slot.conn)
  | failed {cache : OrderedMap Port (Slot ι)} (hshrunk : Shrunk alive t.connCache cache) :
    Created alive fresh t name { t with connCache := cache } none
  | opened {cache : OrderedMap Port (Slot ι)} {conn : Conn}
    (hshrunk : Shrunk alive t.connCache cache) (hid : conn.id = t.created)
    (hfree : ∀ slot, cache.find? conn.port = some slot → alive slot.conn = false) :
    Created alive fresh t name
      { connCache := cache.insert conn.port { conn := conn, info := fresh }
        created := t.created + 1 } (some conn)

theorem openTransport_created {cache : OrderedMap Port (Slot ι)} {name : Port}
    {bound : Option Port} {res : Option Conn} (hshrunk : Shrunk alive t.connCache cache)
    (h : openTransport alive fresh { t with connCache := cache } name bound = some (t', res)) :
    Created alive fresh t name t' res := by
  unfold openTransport at h
  cases bound with
  | none =>
    cases h
    exact .failed hshrunk
  | some any =>
    dsimp only at h
    generalize (if name = 0 then any else name) = port at h
    split at h
    · rename_i hfree
      cases h
      have hdead : ∀ slot, cache.find? (⟨t.created, port⟩ : Conn).port = some slot →
          alive slot.conn = false := by
        intro slot hslot
        rw [hslot] at hfree
        simpa using hfree
      exact Created.opened hshrunk rfl hdead
    · cases h

theorem createTransport_created {name : Port} {bound : Option Port} {res : Option Conn}
    (h : t.createTransport alive fresh name bound = some (t', res)) :
    Created alive fresh t name t' res := by
  rw [createTransport] at h
  split at h
  · exact openTransport_created (Shrunk.refl _) h
  · rename_i slot hslot
    split at hslot
    · cases hslot
    · rename_i hname
      split at h
      · rename_i halive
        cases h
        exact .found hname hslot halive
      · rename_i hdead
        exact openTransport_created (shrunk_erase hslot (Bool.eq_false_iff.mpr hdead)) h

theorem openTransport_slots {name : Port} {bound : Option Port} {res : Option Conn}
    (h : t.openTransport alive fresh name bound = some (t', res))
    (hs : t'.connCache.find? port = some slot) :
    t.connCache.find? port = some slot ∨
      bound.map (fun any => if name = 0 then any else name) = some port ∧ slot.info = fresh ∧
        ∀ s, t.connCache.find? port = some s → alive s.conn = false := by
  unfold openTransport at h
  cases bound with
  | none =>
    cases h
    exact .inl hs
  | some any =>
    dsimp only at h
    rw [Option.map_some]
    generalize (if name = 0 then any else name) = p at h
    split at h
    · rename_i hfree
      cases h
      rw [OrderedMap.find?_insert] at hs
      split at hs
      · rename_i heq
        cases hs
        refine .inr ⟨by rw [heq], rfl, fun s hold => ?_⟩
        rw [heq] at hold
        rw [hold] at hfree
        simpa using hfree
      · exact .inl hs
    · cases h

/-- Entries are the old ones, but for that of the new transport. -/
theorem createTransport_slots {name : Port} {bound : Option Port} {res : Option Conn}
    (h : t.createTransport alive fresh name bound = some (t', res))
    (hs : t'.connCache.find? port = some slot) :
    t.connCache.find? port = some slot ∨ t.openedPort alive name bound = some port ∧
      slot.info = fresh ∧ ∀ s, t.connCache.find? port = some s → alive s.conn = false := by
  rw [createTransport] at h
  rw [openedPort]
  generalize hfound : (if name = 0 then none else t.connCache.find? name) = found at h ⊢
  cases found with
  | none => exact openTransport_slots h hs
  | some old =>
    dsimp only at h
    split at h
    · cases h
      exact .inl hs
    · rename_i hdead
      rw [Option.any_some, if_neg hdead]
      have hname : t.connCache.find? name = some old := by
        split at hfound
        · cases hfound
        · exact hfound
      rcases openTransport_slots h hs with hold | ⟨hport, hinfo, hfree⟩
      · exact .inl (OrderedMap.find?_of_erase _ hold)
      · refine .inr ⟨hport, hinfo, fun s hold => ?_⟩
        by_cases heq : port = name
        · rw [heq, hname] at hold
          cases hold
          exact Bool.eq_false_iff.mpr hdead
        · exact hfree s ((OrderedMap.find?_erase_of_ne _ heq).trans hold)

/-- Entries are under the port of their transport, which was made before, and a transport that
is in use has its entry. -/
structure Owned (t : Transports ι) (alive : Conn → Bool) : Prop where
  slots : ∀ port slot, t.connCache.find? port = some slot →
    slot.conn.port = port ∧ slot.conn.id < t.created
  live : ∀ conn, alive conn = true → t.Cached conn

/-- Other holders, of transports that have their entries. -/
theorem Owned.hold (h : t.Owned alive)
    (hlive : ∀ conn, alive' conn = true → alive conn = true ∨ t.Cached conn) :
    t.Owned alive' where
  slots := h.slots
  live := fun conn hc => (hlive conn hc).elim (h.live conn) id

theorem Owned.setInfo (h : t.Owned alive) (hslot : t.connCache.find? port = some slot)
    (info : ι) : (t.setInfo port slot info).Owned alive where
  slots := by
    intro port' slot' hs
    rcases find?_setInfo_cases hs with ⟨rfl, rfl⟩ | ⟨_, hs⟩
    · exact h.slots _ slot hslot
    · exact h.slots port' slot' hs
  live := fun conn hc => cached_setInfo hslot info (h.live conn hc)

theorem Owned.shrink (h : t.Owned alive) {cache : OrderedMap Port (Slot ι)}
    (hshrunk : Shrunk alive t.connCache cache) :
    Owned { t with connCache := cache } alive where
  slots := fun port slot hs => h.slots port slot (hshrunk.sub port slot hs)
  live := by
    intro conn halive
    obtain ⟨slot, hs, rfl⟩ := h.live conn halive
    exact ⟨slot, hshrunk.keep _ slot hs halive, rfl⟩

theorem find?_insert_cases {cache : OrderedMap Port (Slot ι)}
    (h : (cache.insert conn.port { conn := conn, info := fresh }).find? port = some slot) :
    port = conn.port ∧ slot = { conn := conn, info := fresh } ∨
      cache.find? port = some slot := by
  rw [OrderedMap.find?_insert] at h
  split at h
  · rename_i heq
    exact .inl ⟨heq, (Option.some.inj h).symm⟩
  · exact .inr h

theorem Owned.insertConn (h : t.Owned alive) (conn : Conn) (fresh : ι) (hid : conn.id = t.created)
    (hfree : ∀ slot, t.connCache.find? conn.port = some slot → alive slot.conn = false) :
    Owned { connCache := t.connCache.insert conn.port { conn := conn, info := fresh }
            created := t.created + 1 } alive where
  slots := by
    intro port slot hs
    rcases find?_insert_cases hs with ⟨rfl, rfl⟩ | hs
    · exact ⟨rfl, by rw [hid]; exact Nat.lt_succ_self _⟩
    · exact ⟨(h.slots port slot hs).1, Nat.lt_succ_of_lt (h.slots port slot hs).2⟩
  live := by
    intro conn' halive
    obtain ⟨slot, hs, rfl⟩ := h.live conn' halive
    refine ⟨slot, ?_, rfl⟩
    rw [OrderedMap.find?_insert_of_ne]
    · exact hs
    · intro heq
      rw [heq] at hs
      rw [hfree slot hs] at halive
      cases halive

/-- A transport that is made is cached. -/
theorem Owned.created (h : t.Owned alive) {name : Port} {res : Option Conn}
    (hc : Created alive fresh t name t' res) :
    t'.Owned alive ∧ ∀ conn, res = some conn → t'.Cached conn := by
  cases hc with
  | found _ _ halive => exact ⟨h, fun conn hc => by cases hc; exact h.live _ halive⟩
  | failed hshrunk => exact ⟨h.shrink hshrunk, fun conn hc => by cases hc⟩
  | opened hshrunk hid hfree =>
    refine ⟨(h.shrink hshrunk).insertConn _ fresh hid hfree, fun conn hc => ?_⟩
    cases hc
    exact ⟨_, OrderedMap.find?_insert_self _, rfl⟩

end Transports

end DTun.Util
