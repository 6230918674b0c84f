import DTun.Util.Ltudp.Manager
import DTun.Util.Ltudp.VirtualPorts
import Mathlib.Algebra.Group.Pi.Lemmas
import Mathlib.Algebra.Ring.Int.Defs

/-!
# The counts of an LTUDP manager

`numHandles` of a `ConnectionInfo` is the number of handles that have a pcb on its
transport. Inside a call the two differ: a bind is counted before the handle has the pcb,
and a handle loses its pcb after the unbind. `Counted` keeps that difference for each
transport, next to what was counted and never given back. There is one lemma for each thing
a call can change.
-/

namespace DTun.Util.Ltudp

open Lib (OrderedMap)
open Lib.Calls Lib.Runs

namespace ConnectionInfo

variable {c : ConnectionInfo} {es : List Event}

/-- For a connector, no TCP port of a peer is 0. -/
def Keyed (c : ConnectionInfo) : Prop :=
  c.isAcceptor = false → ∀ ip key info, c.mapping ip key = some info → key ≠ 0

theorem run_keyed (hrun : Run es c) : c.Keyed := by
  intro hrole ip key info hi
  have hle := run_virtualKeys hrun ip hrole key info hi
  exact Nat.ne_zero_of_lt hle

end ConnectionInfo

/-- The handle has a pcb on the transport. -/
def Handle.boundOn (h : Handle) (conn : Conn) : Bool := h.pcb.isSome && h.conn = some conn

/-- What the handle adds to the count of the transport. -/
def Handle.share (h : Handle) (conn : Conn) : Int := if h.boundOn conn then 1 else 0

namespace Manager

variable {m m' : Manager} {e : Event} {es : List Event} {i : Nat} {h h' : Handle} {conn : Conn}
  {slot : Slot ConnectionInfo} {port tcpPort : Port} {leaked owed : Conn → Int}

/-- How many handles have a pcb on the transport. -/
def bound (m : Manager) (conn : Conn) : Int := m.handles.countP (·.boundOn conn)

/-- The counts of a manager in the middle of a call. `owed` is what is counted and that the
handles do not show yet, `leaked` is what was counted and never given back. -/
structure Counted (m : Manager) (leaked owed : Conn → Int) : Prop
    extends Transports.Owned m.toTransports m.alive where
  reached : ∀ port slot, m.connCache.find? port = some slot →
    ∃ es, ConnectionInfo.Run es slot.info
  pcbs : ∀ h ∈ m.handles, ∀ pcb, h.pcb = some pcb →
    h.conn = some pcb.conn ∧ m.localPortMap.find? pcb.localPort = some pcb.conn.port
  acceptors : ∀ port slot, m.connCache.find? port = some slot → slot.info.isAcceptor = true →
    leaked slot.conn = 0 ∧ ∀ h ∈ m.handles, ∀ pcb, h.pcb = some pcb →
      pcb.conn = slot.conn → pcb.localPort = slot.info.acceptorLocalPort
  leaks : ∀ conn, 0 ≤ leaked conn ∧ (m.created ≤ conn.id → leaked conn = 0)
  count : ∀ port slot, m.connCache.find? port = some slot →
    slot.info.numHandles = m.bound slot.conn + leaked slot.conn + owed slot.conn

theorem counted_init : Counted {} 0 0 where
  slots := fun port slot h => by cases h
  live := fun conn h => by cases h
  reached := fun port slot h => by cases h
  pcbs := fun h hmem => by cases hmem
  acceptors := fun port slot h => by cases h
  leaks := fun conn => ⟨le_refl _, fun _ => rfl⟩
  count := fun port slot h => by cases h

theorem alive_iff : m.alive conn = true ↔
    (∃ h ∈ m.handles, h.conn = some conn) ∨ conn ∈ m.closing := by
  simp [alive]

/-- All but the cache is the same. -/
structure Frame (m m' : Manager) : Prop where
  localPortMap : m'.localPortMap = m.localPortMap
  handles : m'.handles = m.handles
  closing : m'.closing = m.closing
  halfOpen : m'.halfOpen = m.halfOpen
  lingering : m'.lingering = m.lingering

theorem Frame.refl (m : Manager) : m.Frame m := ⟨rfl, rfl, rfl, rfl, rfl⟩

theorem Frame.trans {m'' : Manager} (h : m.Frame m') (h' : m'.Frame m'') : m.Frame m'' :=
  ⟨h'.1.trans h.1, h'.2.trans h.2, h'.3.trans h.3, h'.4.trans h.4, h'.5.trans h.5⟩

theorem frame_transports (m : Manager) (t : Transports ConnectionInfo) :
    m.Frame { m with toTransports := t } := ⟨rfl, rfl, rfl, rfl, rfl⟩

theorem update_ok {α : Type} {f : ConnectionInfo → Except Assertion (ConnectionInfo × α)}
    {a : α} (h : m.update port f = .ok (m', a)) :
    ∃ slot c, m.connCache.find? port = some slot ∧ f slot.info = .ok (c, a) ∧
      m' = m.setInfo port slot c := by
  rw [update] at h
  cases hslot : m.connCache.find? port with
  | none => rw [hslot] at h; cases h
  | some slot =>
    rw [hslot] at h
    obtain ⟨⟨c, b⟩, hf, hres⟩ := map_eq_ok h
    cases hres
    exact ⟨slot, c, rfl, hf, rfl⟩

theorem updateLocal_ok {α : Type} {f : ConnectionInfo → Except Assertion (ConnectionInfo × α)}
    {a : α} (h : m.updateLocal tcpPort f = .ok (m', a))
    (hlocal : m.localPortMap.find? tcpPort = some port) :
    ∃ slot c, m.connCache.find? port = some slot ∧ f slot.info = .ok (c, a) ∧
      m' = m.setInfo port slot c := by
  rw [updateLocal, hlocal] at h
  exact update_ok h

theorem setInfo_slot (m : Manager) (port : Port) (slot : Slot ConnectionInfo) (c : ConnectionInfo)
    {s : Slot ConnectionInfo} (hs : (m.setInfo port slot c).connCache.find? port = some s) :
    s = { slot with info := c } :=
  Option.some.inj (hs.symm.trans (OrderedMap.find?_insert_self _))

/-- One `ConnectionInfo` makes a step that changes its count by `d`. -/
theorem Counted.setInfo (hm : Counted m leaked owed) {ev : Ltudp.Event} {c : ConnectionInfo}
    {d : Int} (hslot : m.connCache.find? port = some slot) (hstep : slot.info.step ev = some c)
    (hcount : c.numHandles = slot.info.numHandles + d)
    (hacc : c.isAcceptor = true → leaked slot.conn = 0 ∧ ∀ h ∈ m.handles, ∀ pcb,
      h.pcb = some pcb → pcb.conn = slot.conn → pcb.localPort = c.acceptorLocalPort) :
    Counted (m.setInfo port slot c) leaked (owed + Pi.single slot.conn d) := by
  constructor
  case toOwned => exact hm.toOwned.setInfo hslot c
  case reached =>
    intro port' slot' hs
    rcases Transports.find?_setInfo_cases hs with ⟨rfl, rfl⟩ | ⟨_, hs⟩
    · obtain ⟨es, hes⟩ := hm.reached _ slot hslot
      exact ⟨es ++ [ev], exec_snoc_iff.mpr ⟨slot.info, hes, hstep⟩⟩
    · exact hm.reached port' slot' hs
  case pcbs => exact hm.pcbs
  case acceptors =>
    intro port' slot' hs hrole
    rcases Transports.find?_setInfo_cases hs with ⟨rfl, rfl⟩ | ⟨_, hs⟩
    · exact hacc hrole
    · exact hm.acceptors port' slot' hs hrole
  case leaks => exact hm.leaks
  case count =>
    intro port' slot' hs
    rcases Transports.find?_setInfo_cases hs with ⟨rfl, rfl⟩ | ⟨hne, hs⟩
    · have hold := hm.count _ slot hslot
      show c.numHandles = m.bound slot.conn + leaked slot.conn +
        (owed + Pi.single slot.conn d : Conn → Int) slot.conn
      rw [Pi.add_apply, Pi.single_eq_same]
      omega
    · have hconn : slot'.conn ≠ slot.conn := by
        intro heq
        rw [← (hm.slots port' slot' hs).1, heq] at hne
        exact hne (hm.slots port slot hslot).1
      rw [Pi.add_apply, Pi.single_eq_of_ne hconn, add_zero]
      exact hm.count port' slot' hs

/-- The same when the role and the port of an acceptor stay. -/
theorem Counted.setInfo_of_role (hm : Counted m leaked owed) {ev : Ltudp.Event}
    {c : ConnectionInfo} {d : Int} (hslot : m.connCache.find? port = some slot)
    (hstep : slot.info.step ev = some c) (hcount : c.numHandles = slot.info.numHandles + d)
    (hrole : c.isAcceptor = slot.info.isAcceptor)
    (hport : c.acceptorLocalPort = slot.info.acceptorLocalPort) :
    Counted (m.setInfo port slot c) leaked (owed + Pi.single slot.conn d) := by
  refine hm.setInfo hslot hstep hcount fun hacc => ?_
  rw [hport]
  exact hm.acceptors port slot hslot (hrole ▸ hacc)

/-- `tcpPort` leads to a transport, and no pcb of another one has it. -/
theorem Counted.insertLocal (hm : Counted m leaked owed)
    (hfree : ∀ h ∈ m.handles, ∀ pcb, h.pcb = some pcb → pcb.localPort = tcpPort →
      pcb.conn.port = port) :
    Counted { m with localPortMap := m.localPortMap.insert tcpPort port } leaked owed := by
  constructor
  case toOwned => exact hm.toOwned
  case reached => exact hm.reached
  case acceptors => exact hm.acceptors
  case leaks => exact hm.leaks
  case count => exact hm.count
  case pcbs =>
    intro h hmem pcb hpcb
    obtain ⟨hconn, hlocal⟩ := hm.pcbs h hmem pcb hpcb
    refine ⟨hconn, ?_⟩
    rw [OrderedMap.find?_insert]
    split
    · rename_i heq
      rw [hfree h hmem pcb hpcb heq]
    · exact hlocal

/-- What a handle may be set to. -/
structure Proper (m : Manager) (h : Handle) : Prop where
  cached : ∀ conn, h.conn = some conn → m.Cached conn
  pcb : ∀ pcb, h.pcb = some pcb →
    h.conn = some pcb.conn ∧ m.localPortMap.find? pcb.localPort = some pcb.conn.port ∧
      ∀ slot, m.connCache.find? pcb.conn.port = some slot → slot.info.isAcceptor = true →
        pcb.localPort = slot.info.acceptorLocalPort

theorem proper_empty (m : Manager) : m.Proper {} where
  cached := fun conn h => by cases h
  pcb := fun pcb h => by cases h

theorem Proper.acceptor (hm : Counted m leaked owed) (hh : m.Proper h) {pcb : Pcb}
    (hpcb : h.pcb = some pcb) (hslot : m.connCache.find? port = some slot)
    (hrole : slot.info.isAcceptor = true) (hconn : pcb.conn = slot.conn) :
    pcb.localPort = slot.info.acceptorLocalPort := by
  refine (hh.pcb pcb hpcb).2.2 slot ?_ hrole
  rw [hconn, (hm.slots port slot hslot).1]
  exact hslot

/-- The handles become others, one of which may be new. -/
theorem Counted.setHandles (hm : Counted m leaked owed) (hh : m.Proper h') {hs : List Handle}
    {owed' : Conn → Int} (hmem : ∀ g ∈ hs, g ∈ m.handles ∨ g = h')
    (hcount : ∀ conn, (hs.countP (·.boundOn conn) : Int) + owed' conn =
      m.bound conn + owed conn) : Counted { m with handles := hs } leaked owed' := by
  constructor
  case toOwned =>
    refine hm.toOwned.hold fun conn halive => ?_
    rcases alive_iff.mp halive with ⟨g, hg, hgc⟩ | hclosing
    · rcases hmem g hg with hg | rfl
      · exact .inl (alive_iff.mpr (.inl ⟨g, hg, hgc⟩))
      · exact .inr (hh.cached conn hgc)
    · exact .inl (alive_iff.mpr (.inr hclosing))
  case reached => exact hm.reached
  case pcbs =>
    intro g hg pcb hpcb
    rcases hmem g hg with hg | rfl
    · exact hm.pcbs g hg pcb hpcb
    · exact ⟨(hh.pcb pcb hpcb).1, (hh.pcb pcb hpcb).2.1⟩
  case acceptors =>
    intro port slot hslot hrole
    obtain ⟨hleaked, hold⟩ := hm.acceptors port slot hslot hrole
    refine ⟨hleaked, fun g hg pcb hpcb hconn => ?_⟩
    rcases hmem g hg with hg | rfl
    · exact hold g hg pcb hpcb hconn
    · exact hh.acceptor hm hpcb hslot hrole hconn
  case leaks => exact hm.leaks
  case count =>
    intro port slot hslot
    have hold := hm.count port slot hslot
    have hnew := hcount slot.conn
    show slot.info.numHandles =
      (hs.countP (·.boundOn slot.conn) : Int) + leaked slot.conn + owed' slot.conn
    omega

theorem share_eq (h : Handle) (conn : Conn) :
    h.share conn = ((if h.boundOn conn = true then 1 else 0 : Nat) : Int) := by
  rw [Handle.share]
  split
  · rfl
  · rfl

theorem Counted.setHandle (hm : Counted m leaked owed) (hi : m.handles[i]? = some h)
    (hh : m.Proper h') {owed' : Conn → Int}
    (howed : ∀ conn, owed' conn + h'.share conn = owed conn + h.share conn) :
    Counted (m.setHandle i h') leaked owed' := by
  obtain ⟨hlt, hget⟩ := List.getElem?_eq_some_iff.mp hi
  refine hm.setHandles hh (fun g hg => List.mem_or_eq_of_mem_set hg) fun conn => ?_
  have hle : (if h.boundOn conn = true then 1 else 0) ≤ m.handles.countP (·.boundOn conn) := by
    split
    · rename_i hp
      exact List.countP_pos_iff.mpr ⟨h, List.mem_of_getElem? hi, hp⟩
    · exact Nat.zero_le _
  have hconn := howed conn
  rw [share_eq, share_eq] at hconn
  rw [List.countP_set hlt, hget, bound]
  omega

theorem Counted.addHandle (hm : Counted m leaked owed) (hh : m.Proper h') {owed' : Conn → Int}
    (howed : ∀ conn, owed' conn + h'.share conn = owed conn) :
    Counted { m with handles := m.handles ++ [h'] } leaked owed' := by
  refine hm.setHandles hh (fun g hg => by simpa using hg) fun conn => ?_
  have hconn := howed conn
  rw [share_eq] at hconn
  rw [List.countP_append, List.countP_singleton, bound]
  omega

theorem Counted.shrink (hm : Counted m leaked owed)
    {cache : OrderedMap Port (Slot ConnectionInfo)}
    (hshrunk : Transports.Shrunk m.alive m.connCache cache) :
    Counted { m with connCache := cache } leaked owed := by
  have hsub := hshrunk.sub
  constructor
  case toOwned => exact hm.toOwned.shrink hshrunk
  case reached => exact fun port slot hs => hm.reached port slot (hsub port slot hs)
  case pcbs => exact hm.pcbs
  case acceptors => exact fun port slot hs => hm.acceptors port slot (hsub port slot hs)
  case leaks => exact hm.leaks
  case count => exact fun port slot hs => hm.count port slot (hsub port slot hs)

theorem Counted.bound_fresh (hm : Counted m leaked owed) (hid : conn.id = m.created) :
    m.bound conn = 0 := by
  rw [bound, Int.natCast_eq_zero, List.countP_eq_zero]
  intro g hg hbound
  obtain ⟨_, hconn⟩ := Bool.and_eq_true_iff.mp hbound
  obtain ⟨slot, hs, rfl⟩ :=
    hm.live conn (alive_iff.mpr (.inl ⟨g, hg, of_decide_eq_true hconn⟩))
  have := (hm.slots _ slot hs).2
  omega

/-- A new transport, on a port that no transport in use has. -/
theorem Counted.insertConn (hm : Counted m leaked 0) (conn : Conn) (hid : conn.id = m.created)
    (hfree : ∀ slot, m.connCache.find? conn.port = some slot → m.alive slot.conn = false) :
    Counted { m with
      connCache := m.connCache.insert conn.port { conn := conn, info := {} }
      created := m.created + 1 } leaked 0 := by
  constructor
  case toOwned => exact hm.toOwned.insertConn conn {} hid hfree
  case reached =>
    intro port slot hs
    rcases Transports.find?_insert_cases hs with ⟨rfl, rfl⟩ | hs
    · exact ⟨[], rfl⟩
    · exact hm.reached port slot hs
  case pcbs => exact hm.pcbs
  case acceptors =>
    intro port slot hs hrole
    rcases Transports.find?_insert_cases hs with ⟨rfl, rfl⟩ | hs
    · cases hrole
    · exact hm.acceptors port slot hs hrole
  case leaks =>
    intro conn'
    exact ⟨(hm.leaks conn').1, fun hle => (hm.leaks conn').2 (Nat.le_of_succ_le hle)⟩
  case count =>
    intro port slot hs
    rcases Transports.find?_insert_cases hs with ⟨rfl, rfl⟩ | hs
    · show (0 : Int) = m.bound conn + leaked conn + (0 : Conn → Int) conn
      rw [hm.bound_fresh hid, (hm.leaks conn).2 hid.ge]
      rfl
    · exact hm.count port slot hs

theorem createTransport_ok {name : Port} {bound : Option Port} {res : Option Conn}
    (h : m.createTransport name bound = .ok (m', res)) :
    ∃ t, Transports.Created m.alive {} m.toTransports name t res ∧
      m' = { m with toTransports := t } := by
  rw [Manager.createTransport] at h
  split at h
  · rename_i r hr
    cases h
    exact ⟨r.1, Transports.createTransport_created hr, rfl⟩
  · cases h

theorem Counted.createTransport (hm : Counted m leaked 0) {name : Port} {bound : Option Port}
    {res : Option Conn} (h : m.createTransport name bound = .ok (m', res)) :
    Counted m' leaked 0 ∧ m.Frame m' ∧ ∀ conn, res = some conn → m'.Cached conn := by
  obtain ⟨t, hcreated, rfl⟩ := createTransport_ok h
  refine ⟨?_, frame_transports m t, (hm.toOwned.created hcreated).2⟩
  cases hcreated with
  | found _ _ _ => exact hm
  | failed hshrunk => exact hm.shrink hshrunk
  | opened hshrunk hid hfree => exact (hm.shrink hshrunk).insertConn _ hid hfree

/-- What else the manager keeps does not count. -/
theorem Counted.setRest (hm : Counted m leaked owed) {closing : List Conn}
    (halfOpen lingering : List Pcb) (hclosing : ∀ conn ∈ closing, m.Cached conn) :
    Counted { m with closing := closing, halfOpen := halfOpen, lingering := lingering }
      leaked owed := by
  constructor
  case toOwned =>
    refine hm.toOwned.hold fun conn halive => ?_
    rcases alive_iff.mp halive with hhandle | hmem
    · exact .inl (alive_iff.mpr (.inl hhandle))
    · exact .inr (hclosing conn hmem)
  case reached => exact hm.reached
  case pcbs => exact hm.pcbs
  case acceptors => exact hm.acceptors
  case leaks => exact hm.leaks
  case count => exact hm.count

theorem freshPort_iff {tcpBind : Option Port} : m.freshPort tcpBind = true ↔
    ∀ port, tcpBind = some port → m.usesPort port = false := by
  cases tcpBind with
  | none => simp [freshPort]
  | some port => simp [freshPort]

theorem usesPort_iff : m.usesPort port = false ↔
    (∀ g ∈ m.handles, ∀ pcb, g.pcb = some pcb → pcb.localPort ≠ port) ∧
      (∀ pcb ∈ m.halfOpen, pcb.localPort ≠ port) ∧
      ∀ pcb ∈ m.lingering, pcb.localPort ≠ port := by
  simp only [usesPort, Bool.or_eq_false_iff, List.any_eq_false, and_assoc]
  refine and_congr ⟨fun hh g hg pcb hpcb heq => ?_, fun hh g hg => ?_⟩ (by simp)
  · exact hh g hg (by rw [hpcb, Option.any_some]; exact decide_eq_true heq)
  · cases hpcb : g.pcb with
    | none => simp
    | some pcb => simpa using hh g hg pcb hpcb

/-- What a successful bind leaves: one handle of the transport is to come. -/
structure Bound (m : Manager) (conn : Conn) (tcpPort : Port) (leaked : Conn → Int)
    (m' : Manager) : Prop where
  counted : Counted m' leaked (Pi.single conn 1)
  handles : m'.handles = m.handles
  localPort : m'.localPortMap.find? tcpPort = some conn.port
  slot : ∃ slot, m'.connCache.find? conn.port = some slot ∧ slot.conn = conn ∧
    (slot.info.isAcceptor = true → slot.info.acceptorLocalPort = tcpPort)

theorem pcbBind_ok {f : ConnectionInfo → Except Assertion (ConnectionInfo × Port)}
    (h : m.pcbBind port f = .ok (m', tcpPort)) :
    tcpPort = 0 ∧ m' = m ∨ tcpPort ≠ 0 ∧ ∃ slot c, m.connCache.find? port = some slot ∧
      f slot.info = .ok (c, tcpPort) ∧
      m' = { m.setInfo port slot c with
        localPortMap := m.localPortMap.insert tcpPort port } := by
  rw [pcbBind] at h
  obtain ⟨⟨m₁, p⟩, hupd, hres⟩ := map_eq_ok h
  obtain ⟨slot, c, hslot, hf, rfl⟩ := update_ok hupd
  dsimp only at hres
  split at hres
  · cases hres
    exact .inl ⟨rfl, rfl⟩
  · rename_i hne
    cases hres
    exact .inr ⟨hne, slot, c, hslot, hf, rfl⟩

/-- A transport that some handle keeps in the acceptor role has its TCP port in use. -/
theorem Counted.acceptor_port (hm : Counted m leaked 0)
    (hslot : m.connCache.find? port = some slot) (hrole : slot.info.isAcceptor = true)
    (hpos : 0 < slot.info.numHandles) :
    m.localPortMap.find? slot.info.acceptorLocalPort = some port := by
  obtain ⟨hleaked, hports⟩ := hm.acceptors port slot hslot hrole
  have hcount : 0 < m.bound slot.conn := by
    have := hm.count port slot hslot
    rw [hleaked] at this
    simpa [this] using hpos
  obtain ⟨g, hg, hbound⟩ := List.countP_pos_iff.mp (Int.natCast_pos.mp hcount)
  obtain ⟨hsome, hconn⟩ := Bool.and_eq_true_iff.mp hbound
  obtain ⟨pcb, hpcb⟩ := Option.isSome_iff_exists.mp hsome
  obtain ⟨hgc, hlocal⟩ := hm.pcbs g hg pcb hpcb
  have heq : pcb.conn = slot.conn :=
    Option.some.inj (hgc.symm.trans (of_decide_eq_true hconn))
  rw [← hports g hg pcb hpcb heq, hlocal, heq, (hm.slots port slot hslot).1]

theorem step_of_call {c c' : ConnectionInfo} {ev : Ltudp.Event} (h : c.call ev = .ok c') :
    c.step ev = some c' := by
  rw [ConnectionInfo.step, h]
  rfl

theorem Counted.no_pcb (hm : Counted m leaked 0) (hslot : m.connCache.find? port = some slot)
    (hzero : slot.info.numHandles = 0) :
    leaked slot.conn = 0 ∧
      ∀ g ∈ m.handles, ∀ pcb, g.pcb = some pcb → pcb.conn ≠ slot.conn := by
  have hcount := hm.count port slot hslot
  rw [hzero, Pi.zero_apply, bound] at hcount
  have hleaks := (hm.leaks slot.conn).1
  refine ⟨by omega, fun g hg pcb hpcb heq => ?_⟩
  have hbound : g.boundOn slot.conn = true := by
    rw [Handle.boundOn, hpcb, (hm.pcbs g hg pcb hpcb).1, heq]
    simp
  have hpos : 0 < m.handles.countP (·.boundOn slot.conn) :=
    List.countP_pos_iff.mpr ⟨g, hg, hbound⟩
  omega

theorem Counted.nonneg (hm : Counted m leaked 0) (hslot : m.connCache.find? port = some slot) :
    0 ≤ slot.info.numHandles := by
  have hcount := hm.count port slot hslot
  have hleaks := (hm.leaks slot.conn).1
  rw [Pi.zero_apply, bound] at hcount
  omega

/-- The bound `ConnectionInfo` is put in the cache and its TCP port in `localPortMap_`. -/
theorem Counted.bind (hm : Counted m leaked 0) {ev : Ltudp.Event} {c : ConnectionInfo}
    (hslot : m.connCache.find? slot.conn.port = some slot) (hstep : slot.info.step ev = some c)
    (hcount : c.numHandles = slot.info.numHandles + 1)
    (hfree : ∀ g ∈ m.handles, ∀ pcb, g.pcb = some pcb → pcb.localPort = tcpPort →
      pcb.conn.port = slot.conn.port)
    (hacc : c.isAcceptor = true → c.acceptorLocalPort = tcpPort ∧ leaked slot.conn = 0 ∧
      ∀ g ∈ m.handles, ∀ pcb, g.pcb = some pcb → pcb.conn = slot.conn →
        pcb.localPort = c.acceptorLocalPort) :
    m.Bound slot.conn tcpPort leaked { m.setInfo slot.conn.port slot c with
      localPortMap := m.localPortMap.insert tcpPort slot.conn.port } where
  counted := by
    have hset := hm.setInfo hslot hstep hcount fun h => (hacc h).2
    rw [zero_add] at hset
    exact hset.insertLocal hfree
  handles := rfl
  localPort := OrderedMap.find?_insert_self _
  slot := ⟨_, OrderedMap.find?_insert_self _, rfl, fun h => (hacc h).1⟩

theorem step_of_bindAs {c c' : ConnectionInfo} {tcpBind : Option Port} {isAcceptor : Bool}
    (h : c.bindAs tcpBind isAcceptor = .ok (c', tcpPort)) : ∃ ev, c.step ev = some c' := by
  cases isAcceptor with
  | true => exact ⟨.bindAcceptor tcpBind, step_of_call (congrArg (Except.map Prod.fst) h)⟩
  | false => exact ⟨.bindConnector tcpBind, step_of_call (congrArg (Except.map Prod.fst) h)⟩

theorem Counted.bindAs (hm : Counted m leaked 0) (hconn : m.Cached conn)
    {tcpBind : Option Port} (hfresh : m.freshPort tcpBind = true) (isAcceptor : Bool)
    (h : m.pcbBind conn.port (fun c => c.bindAs tcpBind isAcceptor) = .ok (m', tcpPort)) :
    tcpPort = 0 ∧ m' = m ∨ tcpPort ≠ 0 ∧ m.Bound conn tcpPort leaked m' := by
  rcases pcbBind_ok h with hfail | ⟨hport, slot, c, hslot, hf, rfl⟩
  · exact .inl hfail
  obtain ⟨s, hs, rfl⟩ := hconn
  rw [hslot] at hs
  cases hs
  obtain ⟨ev, hstep⟩ := step_of_bindAs hf
  rcases ConnectionInfo.bindAs_ok isAcceptor hf with ⟨_, hzero⟩ | ⟨_, hrole, ⟨p, rfl, htcp⟩, rfl⟩
  · exact absurd hzero hport
  refine .inr ⟨hport, ?_⟩
  split at htcp
  · -- the port of the handles that are there
    obtain ⟨rfl, hpos⟩ : isAcceptor = true ∧ 0 < slot.info.numHandles := by simp_all
    have hacc : slot.info.isAcceptor = true := hrole.resolve_right (by omega)
    obtain ⟨hleaked, hports⟩ := hm.acceptors _ slot hslot hacc
    have hlocal := hm.acceptor_port hslot hacc hpos
    refine hm.bind hslot hstep rfl (fun g hg pcb hpcb heq => ?_)
      fun _ => ⟨rfl, hleaked, fun g hg pcb hpcb heq => ?_⟩
    · have hown := (hm.pcbs g hg pcb hpcb).2
      rw [heq, htcp, hlocal] at hown
      exact (Option.some.inj hown).symm
    · rw [hports g hg pcb hpcb heq]
      exact htcp.symm
  · -- a new port, and an acceptor has no handles yet
    rename_i hnot
    have hnew : m.usesPort tcpPort = false := by simpa [freshPort, htcp] using hfresh
    refine hm.bind hslot hstep rfl (fun g hg pcb hpcb heq => ?_)
      fun (hacc : isAcceptor = true) => ?_
    · exact absurd heq ((usesPort_iff.mp hnew).1 g hg pcb hpcb)
    · have hnonneg := hm.nonneg hslot
      rw [hacc, Bool.true_and, decide_eq_true_iff] at hnot
      obtain ⟨hleaked, hnone⟩ := hm.no_pcb hslot (by omega)
      exact ⟨if_pos hacc, hleaked, fun g hg pcb hpcb heq => absurd heq (hnone g hg pcb hpcb)⟩

/-- `pcbConnect`, `pcbDisconnect` and `pcbUnbind` of a pcb: a step of its `ConnectionInfo`,
which keeps the role. -/
theorem Counted.updateLocal (hm : Counted m leaked owed) {α : Type} {a : α} {d : Int}
    {f : ConnectionInfo → Except Assertion (ConnectionInfo × α)}
    (hlocal : m.localPortMap.find? tcpPort = some conn.port) (hconn : m.Cached conn)
    (h : m.updateLocal tcpPort f = .ok (m', a))
    (hf : ∀ c c', f c = .ok (c', a) → (∃ ev, c.step ev = some c') ∧
      c'.numHandles = c.numHandles + d ∧ c'.isAcceptor = c.isAcceptor ∧
      c'.acceptorLocalPort = c.acceptorLocalPort) :
    Counted m' leaked (owed + Pi.single conn d) ∧ m'.Cached conn ∧
      ∃ slot c, m.connCache.find? conn.port = some slot ∧ slot.conn = conn ∧
        f slot.info = .ok (c, a) ∧ m' = m.setInfo conn.port slot c := by
  obtain ⟨slot, c, hslot, hok, rfl⟩ := updateLocal_ok h hlocal
  obtain ⟨s, hs, rfl⟩ := id hconn
  rw [hslot] at hs
  cases hs
  obtain ⟨⟨ev, hstep⟩, hcount, hrole, hport⟩ := hf slot.info c hok
  exact ⟨hm.setInfo_of_role hslot hstep hcount hrole hport, Transports.cached_setInfo hslot c hconn,
    slot, c, hslot, rfl, hok, rfl⟩

theorem Counted.pcbConnect (hm : Counted m leaked owed) {ip : Ip} {key : Port}
    (hlocal : m.localPortMap.find? tcpPort = some conn.port) (hconn : m.Cached conn)
    (h : m.pcbConnect tcpPort ip port = .ok (m', key)) :
    Counted m' leaked owed ∧ m'.Cached conn ∧
      ∃ slot c, m.connCache.find? conn.port = some slot ∧ slot.conn = conn ∧
        slot.info.pcbConnect ip port = .ok (c, key) ∧ m' = m.setInfo conn.port slot c := by
  rw [Manager.pcbConnect] at h
  split at h
  · cases h
  · have hspec := hm.updateLocal (d := 0) hlocal hconn h fun c c' hok => by
      obtain ⟨_, _, hrole, hc', _⟩ := ConnectionInfo.pcbConnect_ok hok
      refine ⟨⟨.connect ip port, step_of_call ?_⟩, ?_⟩
      · rw [ConnectionInfo.call, hok]
        rfl
      · rw [hc']
        exact ⟨(add_zero _).symm, rfl, rfl⟩
    rwa [Pi.single_zero, add_zero] at hspec

theorem Counted.pcbDisconnect (hm : Counted m leaked owed) {ip : Ip} {key : Port}
    (hlocal : m.localPortMap.find? tcpPort = some conn.port) (hconn : m.Cached conn)
    (h : m.pcbDisconnect tcpPort ip key = .ok m') :
    Counted m' leaked owed ∧ m'.Cached conn ∧
      ∃ slot c, m.connCache.find? conn.port = some slot ∧ slot.conn = conn ∧
        slot.info.pcbDisconnect ip key = .ok c ∧ m' = m.setInfo conn.port slot c := by
  rw [Manager.pcbDisconnect] at h
  split at h
  · cases h
  · obtain ⟨⟨m₁, _⟩, hupd, rfl⟩ := map_eq_ok h
    have hspec := hm.updateLocal (d := 0) hlocal hconn hupd fun c c' hmap => by
      obtain ⟨c₁, hok, hres⟩ := map_eq_ok hmap
      cases hres
      obtain ⟨_, _, _, _, _, hc'⟩ := ConnectionInfo.pcbDisconnect_ok hok
      refine ⟨⟨.disconnect ip key, step_of_call hok⟩, ?_⟩
      rw [hc']
      exact ⟨(add_zero _).symm, rfl, rfl⟩
    rw [Pi.single_zero, add_zero] at hspec
    obtain ⟨hcounted, hcached, slot, c, hslot, heq, hmap, hset⟩ := hspec
    obtain ⟨c₁, hok, hres⟩ := map_eq_ok hmap
    cases hres
    exact ⟨hcounted, hcached, slot, c, hslot, heq, hok, hset⟩

theorem pcbUnbind_ok {c c' : ConnectionInfo} (h : c.pcbUnbind = .ok c') :
    0 < c.numHandles ∧ c' = { c with numHandles := c.numHandles - 1 } := by
  rw [ConnectionInfo.pcbUnbind] at h
  split at h
  · rename_i hpos
    exact ⟨by omega, (Except.ok.inj h).symm⟩
  · cases h

theorem Counted.pcbUnbind (hm : Counted m leaked owed)
    (hlocal : m.localPortMap.find? tcpPort = some conn.port) (hconn : m.Cached conn)
    (h : m.pcbUnbind tcpPort = .ok m') :
    Counted m' leaked (owed + Pi.single conn (-1)) ∧ m'.Cached conn ∧
      ∃ slot c, m.connCache.find? conn.port = some slot ∧ slot.conn = conn ∧
        slot.info.pcbUnbind = .ok c ∧ m' = m.setInfo conn.port slot c := by
  rw [Manager.pcbUnbind] at h
  split at h
  · cases h
  · obtain ⟨⟨m₁, _⟩, hupd, rfl⟩ := map_eq_ok h
    obtain ⟨hcounted, hcached, slot, c, hslot, heq, hmap, hset⟩ :=
      hm.updateLocal (d := -1) hlocal hconn hupd fun c c' hmap => by
        obtain ⟨c₁, hok, hres⟩ := map_eq_ok hmap
        cases hres
        refine ⟨⟨.unbind, step_of_call hok⟩, ?_⟩
        rw [(pcbUnbind_ok hok).2]
        exact ⟨Int.sub_eq_add_neg, rfl, rfl⟩
    obtain ⟨c₁, hok, hres⟩ := map_eq_ok hmap
    cases hres
    exact ⟨hcounted, hcached, slot, c, hslot, heq, hok, hset⟩

end Manager

end DTun.Util.Ltudp
