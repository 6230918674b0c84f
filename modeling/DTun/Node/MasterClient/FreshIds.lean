import DTun.Node.MasterClient.Spec

/-!
# The ids of registered connections

`nextConnIdx_` is a `uint32_t` that wraps around and skips 0, so the indexes that
`registerConnection` draws go round in a cycle of length 2^32 - 1. The ids that were given
out are in the log. An id is drawn again when 2^32 - 1 others have been, whether its
connection is still in the table or not; it is fresh when every connection of this node in
the table is among the last 2^32 - 2 that were registered.
-/

namespace DTun.Node.MasterClient

open DTun.Lib DTun.Lib.Runs

/-- The ids of the last `n` registrations. -/
def lastGiven (n : Nat) (log : List Record) : List ConnId :=
  (given log).drop ((given log).length - n)

namespace Client

variable {cl cl' : Client} {e : Event} {es : List Event} {r : Res} {rest : List Task}

/-- The `ConnId` that `registerConnection` returns, the null id when it refuses. -/
def registeredId (cl : Client) (remoteIp : Nat) : ConnId :=
  match cl.getDstNodeId remoteIp with
  | none => ⟨0, 0⟩
  | some _ => if !cl.hasConn || cl.closing then ⟨0, 0⟩ else cl.nextId

/-- A step without what it sends. -/
def stepped (cl : Client) (e : Event) : Option Client := (cl.step e).map Prod.fst

/-- A run of a client from its construction. -/
abbrev Run (nodeId : Nat) (routes : List RouteEntry) (bestEffort : Bool) (es : List Event)
    (cl : Client) : Prop :=
  exec stepped { nodeId := nodeId, routes := routes, bestEffort := bestEffort } es = some cl

/-- `nextConnIdx_` after `n` registrations. -/
def counterAfter : Nat → Nat
  | 0 => 0
  | n + 1 => (n % (2 ^ 32 - 1) + 2) % 2 ^ 32

/-- The id of registration number `n`, from 0 on. -/
def idAt (nodeId n : Nat) : ConnId := ⟨nodeId, n % (2 ^ 32 - 1) + 1⟩

theorem drawIdx_counterAfter (n : Nat) :
    drawIdx (counterAfter n) = (n % (2 ^ 32 - 1) + 1, counterAfter (n + 1)) := by
  cases n with
  | zero => decide
  | succ n =>
    show drawIdx ((n % (2 ^ 32 - 1) + 2) % 2 ^ 32) =
      ((n + 1) % (2 ^ 32 - 1) + 1, ((n + 1) % (2 ^ 32 - 1) + 2) % 2 ^ 32)
    rw [drawIdx]
    by_cases hlast : n % (2 ^ 32 - 1) + 1 = 2 ^ 32 - 1
    · -- the counter has wrapped to 0, which is skipped
      have hnext : (n + 1) % (2 ^ 32 - 1) = 0 := by omega
      rw [if_pos (by omega), hnext]
      rfl
    · have hnext : (n + 1) % (2 ^ 32 - 1) = n % (2 ^ 32 - 1) + 1 := by omega
      have hsmall : (n % (2 ^ 32 - 1) + 2) % 2 ^ 32 = n % (2 ^ 32 - 1) + 2 := by omega
      rw [if_neg (by omega), hnext, hsmall]

/-- Two registrations less than a whole cycle apart get different ids. -/
theorem idAt_ne {nodeId i n : Nat} (hlt : i < n) (hnear : n < i + (2 ^ 32 - 1)) :
    idAt nodeId i ≠ idAt nodeId n := by
  intro heq
  have hidx : i % (2 ^ 32 - 1) + 1 = n % (2 ^ 32 - 1) + 1 := congrArg ConnId.connIdx heq
  omega

/-- The log has the ids of the cycle from its beginning, and the counter is after them. -/
structure Drawn (cl : Client) : Prop where
  ids : given cl.log = (List.range (given cl.log).length).map (idAt cl.nodeId)
  counter : cl.nextConnIdx = counterAfter (given cl.log).length

/-- Either nothing is registered, or the next id of the counter is. -/
theorem handled_given (h : Handled cl e r rest) :
    (given r.client.log = given cl.log ∧ r.client.nextConnIdx = cl.nextConnIdx) ∨
      (given r.client.log = given cl.log ++ [cl.nextId] ∧
        r.client.nextConnIdx = (drawIdx cl.nextConnIdx).2) := by
  rcases handled_base h with ⟨hbase, _⟩ | rfl | ⟨ip, port, rfl⟩ | rfl | ⟨ip, port, rfl⟩
  · exact .inl ⟨hbase.given, hbase.next⟩
  · cases h; exact .inl ⟨rfl, rfl⟩
  · cases h; exact .inl ⟨rfl, rfl⟩
  · cases h; exact .inl ⟨rfl, rfl⟩
  · cases h
    rcases registerConnection_cases cl ip port with heq | ⟨_, _, _, _, _, _, heq⟩
    · rw [heq]
      exact .inl ⟨rfl, rfl⟩
    · rw [heq]
      exact .inr ⟨given_append _ _, rfl⟩

theorem stepped_eq_some (h : cl.stepped e = some cl') : ∃ sent, cl.step e = some (cl', sent) := by
  obtain ⟨⟨cl₁, sent⟩, hstep, rfl⟩ := Option.map_eq_some_iff.mp h
  exact ⟨sent, hstep⟩

theorem Drawn.nextId_eq (h : Drawn cl) : cl.nextId = idAt cl.nodeId (given cl.log).length := by
  rw [nextId, h.counter, drawIdx_counterAfter]
  rfl

theorem stepped_drawn (h : Drawn cl) (hstep : cl.stepped e = some cl') : Drawn cl' := by
  obtain ⟨sent, hstep⟩ := stepped_eq_some hstep
  obtain ⟨hnode, _⟩ := step_config hstep
  obtain ⟨r, rest, hr, _, hcl, _⟩ := step_handled hstep
  have hlog : cl'.log = r.client.log := by rw [hcl]
  have hnext : cl'.nextConnIdx = r.client.nextConnIdx := by rw [hcl]
  rcases handled_given hr with ⟨hgiven, hcounter⟩ | ⟨hgiven, hcounter⟩
  · constructor
    · rw [hlog, hgiven, hnode]
      exact h.ids
    · rw [hnext, hcounter, hlog, hgiven]
      exact h.counter
  · have hlen : (given cl.log ++ [cl.nextId]).length = (given cl.log).length + 1 := by simp
    constructor
    · rw [hlog, hgiven, hnode, hlen, List.range_succ, List.map_append, ← h.ids, h.nextId_eq]
      rfl
    · rw [hnext, hcounter, hlog, hgiven, hlen, h.counter, drawIdx_counterAfter]

theorem run_drawn {nodeId : Nat} {routes : List RouteEntry} {bestEffort : Bool}
    (h : Run nodeId routes bestEffort es cl) : Drawn cl :=
  exec_invariant (fun _ _ _ => stepped_drawn) ⟨rfl, rfl⟩ h

theorem Drawn.getElem? (h : Drawn cl) {i : Nat} {c : ConnId} (hi : (given cl.log)[i]? = some c) :
    i < (given cl.log).length ∧ c = idAt cl.nodeId i := by
  obtain ⟨hlt, _⟩ := List.getElem?_eq_some_iff.mp hi
  rw [h.ids, List.getElem?_map, List.getElem?_range hlt] at hi
  exact ⟨hlt, (Option.some.inj hi).symm⟩

/-- The next id is none of the last 2^32 - 2. -/
theorem Drawn.nextId_not_mem (h : Drawn cl) : cl.nextId ∉ lastGiven (2 ^ 32 - 2) cl.log := by
  intro hmem
  obtain ⟨i, hi⟩ := List.mem_iff_getElem?.mp hmem
  rw [lastGiven, List.getElem?_drop] at hi
  obtain ⟨hlt, heq⟩ := h.getElem? hi
  rw [h.nextId_eq] at heq
  exact idAt_ne hlt (by omega) heq.symm

/-- Every connection of this node in the table is one of the last 2^32 - 2 registered. -/
def Recent (cl : Client) : Prop :=
  ∀ c e, cl.connStates.find? c = some e → c.nodeId = cl.nodeId →
    c ∈ lastGiven (2 ^ 32 - 2) cl.log

theorem Drawn.nextId_fresh (h : Drawn cl) (hrecent : cl.Recent) :
    cl.connStates.find? cl.nextId = none := by
  cases hfind : cl.connStates.find? cl.nextId with
  | none => rfl
  | some e => exact absurd (hrecent _ _ hfind rfl) h.nextId_not_mem

theorem registeredId_eq {ip : Nat} (hroute : (cl.getDstNodeId ip).isSome = true)
    (hconn : cl.hasConn = true) (hclosing : cl.closing = false) :
    cl.registeredId ip = cl.nextId := by
  obtain ⟨dst, hdst⟩ := Option.isSome_iff_exists.mp hroute
  simp [registeredId, hdst, hconn, hclosing]

/-- The id that a client on a live connection returns for an address with a route is never
the null id. When the connections of this node in the table are among the last 2^32 - 2 that
were registered, no entry of the table has it, and no entry changes. -/
theorem registerConnection_fresh {nodeId : Nat} {routes : List RouteEntry} {bestEffort : Bool}
    (h : Run nodeId routes bestEffort es cl) {ip : Nat}
    (hroute : (cl.getDstNodeId ip).isSome = true) (hconn : cl.hasConn = true)
    (hclosing : cl.closing = false) (port : Nat) :
    cl.registeredId ip ≠ ⟨0, 0⟩ ∧
      (cl.Recent → cl.connStates.find? (cl.registeredId ip) = none ∧
        ∀ c e, cl.connStates.find? c = some e →
          (cl.registerConnection ip port).client.connStates.find? c = some e) := by
  have hdrawn := run_drawn h
  rw [registeredId_eq hroute hconn hclosing]
  constructor
  · rw [hdrawn.nextId_eq]
    intro hnull
    have hzero : (given cl.log).length % (2 ^ 32 - 1) + 1 = 0 := congrArg ConnId.connIdx hnull
    omega
  · intro hrecent
    have hfresh := hdrawn.nextId_fresh hrecent
    refine ⟨hfresh, ?_⟩
    intro c e hfind
    rcases registerConnection_cases cl ip port with heq | ⟨_, _, _, _, _, _, heq⟩
    · rw [heq]
      exact hfind
    · rw [heq]
      have hne : c ≠ cl.nextId := by
        rintro rfl
        rw [hfresh] at hfind
        cases hfind
      exact (cl.connStates.find?_insert_of_ne hne).trans hfind

/-- Node 0 with one connection in the table registers a second one. -/
theorem registerConnection_fresh_second :
    ∃ cl, Run 0 [{ nodeId := some 2 }] false [.connected 0 0, .registerConnection 7 80] cl ∧
      cl.connStates.entries.length = 1 ∧ cl.registeredId 7 ≠ ⟨0, 0⟩ ∧
      cl.connStates.find? (cl.registeredId 7) = none := by
  obtain ⟨cl, hrun, hlen, hroute, hconn, hclosing, hall⟩ :
      ∃ cl, Run 0 [{ nodeId := some 2 }] false [.connected 0 0, .registerConnection 7 80] cl ∧
        (cl.connStates.entries.length = 1 ∧ (cl.getDstNodeId 7).isSome = true ∧
          cl.hasConn = true ∧ cl.closing = false ∧
          ∀ e ∈ cl.connStates.entries, e.1 ∈ lastGiven (2 ^ 32 - 2) cl.log) :=
    exec_check (by decide +kernel)
  have hrecent : cl.Recent :=
    fun c e hfind _ => hall (c, e) (cl.connStates.mem_entries_iff.mpr hfind)
  obtain ⟨hnull, hfresh⟩ := registerConnection_fresh hrun hroute hconn hclosing 80
  exact ⟨cl, hrun, hlen, hnull, (hfresh hrecent).1⟩

/-- Another connection is registered and closed again. -/
def passing (c : ConnId) : List Event :=
  [.registerConnection 7 80, .closeConnection c, .run 0 false false, .run 0 false false]

/-- The connection `a` waits for the master's reply and is the only one in the table. -/
structure Parked (a : ConnId) (cl : Client) : Prop where
  link : cl.link = .server
  closing : cl.closing = false
  threads : cl.threads = []
  queue : cl.rendezvousConnIds = [a]
  routed : (cl.getDstNodeId 7).isSome = true
  table : ∃ e, cl.connStates.entries = [(a, e)] ∧ e.mode = none ∧ e.status = .pending

theorem Parked.hasConn {a : ConnId} (h : Parked a cl) : cl.hasConn = true := by
  simp [Client.hasConn, h.link]

theorem Parked.alone {a c : ConnId} (h : Parked a cl) (hc : c ≠ a) :
    cl.connStates.find? c = none := by
  obtain ⟨e, htable, -⟩ := h.table
  rw [OrderedMap.find?, htable]
  simp [hc.symm]

/-- The registered connection waits behind `a`. -/
theorem Parked.registers {a : ConnId} (h : Parked a cl) :
    cl.stepped (.registerConnection 7 80) =
      some { cl with
        nextConnIdx := (drawIdx cl.nextConnIdx).2
        connStates := cl.connStates.insert cl.nextId
          { remoteIp := 7, remotePort := 80, callback := true }
        rendezvousConnIds := [a, cl.nextId]
        log := cl.log ++ [.registered cl.nextId] } := by
  obtain ⟨dst, hdst⟩ := Option.isSome_iff_exists.mp h.routed
  simp [stepped, step, spawn, registerConnection, hdst, h.hasConn, h.closing, h.queue]

/-- Closing it leaves the table and the queue to `a`, and two tasks. -/
theorem stepped_close {a b : ConnId} {m : OrderedMap ConnId ConnState} {x : ConnState}
    (hnode : b.nodeId = cl.nodeId) (hclosing : cl.closing = false) (hthreads : cl.threads = [])
    (hqueue : cl.rendezvousConnIds = [a, b]) (hne : b ≠ a)
    (htable : cl.connStates = m.insert b x) (hfree : m.find? b = none)
    (hx : x.proxySession = false) :
    cl.stepped (.closeConnection b) =
      some { cl with
        connStates := m
        rendezvousConnIds := [a]
        threads := [[.rendezvous, .closed b]] } := by
  have hfind : cl.connStates.find? b = some x := by rw [htable, OrderedMap.find?_insert_self]
  have herase : cl.connStates.erase b = m := by
    apply OrderedMap.ext_find?
    intro k
    rw [OrderedMap.find?_erase, htable, OrderedMap.find?_insert]
    by_cases hk : k = b
    · rw [if_pos hk, hk, hfree]
    · rw [if_neg hk, if_neg hk]
  simp [stepped, step, spawn, closeConnection, hnode, hclosing, hfind, herase, hqueue, hthreads,
    hne.symm, hx, assert]

/-- The loop over the queue stops at `a`. -/
theorem stepped_rendezvous {a b : ConnId} {e : ConnState} (hlink : cl.link = .server)
    (hqueue : cl.rendezvousConnIds = [a]) (hthreads : cl.threads = [[.rendezvous, .closed b]])
    (hfind : cl.connStates.find? a = some e) (hmode : e.mode = none)
    (hstatus : e.status = .pending) :
    cl.stepped (.run 0 false false) =
      some { cl.assert (!e.started && !e.keepalive && !e.proxySession) with
        threads := [[.closed b]] } := by
  simp [stepped, step, hthreads, resume, perform, processRendezvous, hasConn, hlink, hqueue, scan,
    hfind, atFront, hmode, hstatus, assert]

theorem stepped_closed {b : ConnId} (hthreads : cl.threads = [[.closed b]]) :
    cl.stepped (.run 0 false false) =
      some { cl with log := cl.log ++ [.closed b], threads := [] } := by
  simp [stepped, step, hthreads, resume, perform]

theorem Parked.passing {a : ConnId} (h : Parked a cl) (hne : cl.nextId ≠ a) :
    ∃ cl', exec stepped cl (passing cl.nextId) = some cl' ∧ Parked a cl' ∧
      cl'.nodeId = cl.nodeId ∧ cl'.nextConnIdx = (drawIdx cl.nextConnIdx).2 := by
  obtain ⟨e, htable, hmode, hstatus⟩ := h.table
  have hfind : cl.connStates.find? a = some e := by
    rw [← cl.connStates.mem_entries_iff, htable]
    exact List.mem_singleton_self _
  refine ⟨_, exec_of_step h.registers (exec_of_step
    (stepped_close rfl h.closing h.threads rfl hne rfl (h.alone hne) rfl) (exec_of_step
      (stepped_rendezvous h.link rfl rfl hfind hmode hstatus) (exec_of_step
        (stepped_closed rfl) rfl))), ?_, rfl, rfl⟩
  exact ⟨h.link, h.closing, rfl, rfl, h.routed, e, htable, hmode, hstatus⟩

/-- Node 1 registers a connection that gets no reply, and then `n` others, each of which is
closed before the next one. -/
def outliving (n : Nat) : List Event :=
  [.connected 0 0, .registerConnection 7 80] ++
    (List.range n).flatMap fun j => passing (idAt 1 (j + 1))

theorem run_outliving {n : Nat} (hn : n ≤ 2 ^ 32 - 2) :
    ∃ cl, Run 1 [{ nodeId := some 2 }] false (outliving n) cl ∧ Parked ⟨1, 1⟩ cl ∧
      cl.nodeId = 1 ∧ cl.nextConnIdx = counterAfter (n + 1) := by
  induction n with
  | zero =>
    obtain ⟨cl, hrun, hlink, hclosing, hthreads, hqueue, hroute, htable, hnode, hnext⟩ :
        ∃ cl, Run 1 [{ nodeId := some 2 }] false (outliving 0) cl ∧
          (cl.link = .server ∧ cl.closing = false ∧ cl.threads = [] ∧
            cl.rendezvousConnIds = [⟨1, 1⟩] ∧ (cl.getDstNodeId 7).isSome = true ∧
            cl.connStates.entries = [(⟨1, 1⟩,
              { remoteIp := 7, remotePort := 80, callback := true, status := .pending })] ∧
            cl.nodeId = 1 ∧ cl.nextConnIdx = 2) := exec_check (by decide +kernel)
    exact ⟨cl, hrun, ⟨hlink, hclosing, hthreads, hqueue, hroute, _, htable, rfl, rfl⟩, hnode, hnext⟩
  | succ n ih =>
    obtain ⟨cl, hrun, hparked, hnode, hnext⟩ := ih (by omega)
    have hid : cl.nextId = idAt 1 (n + 1) := by
      rw [nextId, hnode, hnext, drawIdx_counterAfter]
      rfl
    have hne : cl.nextId ≠ ⟨1, 1⟩ := by
      rw [hid]
      exact (idAt_ne (Nat.succ_pos n) (by omega)).symm
    obtain ⟨cl', hexec, hparked', hnode', hnext'⟩ := hparked.passing hne
    refine ⟨cl', ?_, hparked', hnode'.trans hnode, ?_⟩
    · rw [Run, outliving, List.range_succ, List.flatMap_append, ← List.append_assoc, exec_append]
      rw [Run, outliving] at hrun
      rw [hrun, Option.bind_some, List.flatMap_singleton, ← hid]
      exact hexec
    · rw [hnext', hnext, drawIdx_counterAfter]

/-- A whole cycle later the index is 1 again. -/
theorem run_outliving_cycle {n : Nat} (hn : n + 2 = 2 ^ 32) :
    ∃ cl, Run 1 [{ nodeId := some 2 }] false (outliving n) cl ∧ Parked ⟨1, 1⟩ cl ∧
      cl.nextId = ⟨1, 1⟩ := by
  obtain ⟨cl, hrun, hparked, hnode, hnext⟩ := run_outliving (n := n) (by omega)
  refine ⟨cl, hrun, hparked, ?_⟩
  rw [nextId, hnode, hnext, drawIdx_counterAfter]
  have hidx : (n + 1) % (2 ^ 32 - 1) + 1 = 1 := by omega
  exact congrArg (ConnId.mk 1) hidx

/-- After 2^32 - 2 others have come and gone, the next connection gets the id of the one that
is still in the table, which is overwritten. -/
theorem registerConnection_reuses :
    ∃ cl, Run 1 [{ nodeId := some 2 }] false (outliving (2 ^ 32 - 2)) cl ∧
      (cl.getDstNodeId 7).isSome = true ∧ cl.hasConn = true ∧ cl.closing = false ∧
      cl.registeredId 7 = ⟨1, 1⟩ ∧ cl.connStates.find? ⟨1, 1⟩ ≠ none := by
  obtain ⟨cl, hrun, hparked, hnext⟩ := run_outliving_cycle (n := 2 ^ 32 - 2) (by omega)
  refine ⟨cl, hrun, hparked.routed, hparked.hasConn, hparked.closing, ?_, ?_⟩
  · rw [registeredId_eq hparked.routed hparked.hasConn hparked.closing, hnext]
  · obtain ⟨e, htable, _⟩ := hparked.table
    have hfind : cl.connStates.find? ⟨1, 1⟩ = some e := by
      rw [← cl.connStates.mem_entries_iff, htable]
      exact List.mem_singleton_self _
    rw [hfind]
    exact Option.some_ne_none e

end Client

end DTun.Node.MasterClient
