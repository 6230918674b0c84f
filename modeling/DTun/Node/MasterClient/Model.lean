import Mathlib.Data.Nat.Bitwise
import DTun.Lib.OrderedMap
import DTun.Lib.Runs
import DTun.Protocol

/-!
# The node's side of the master connection

`DMasterClient`: the table of connections, the queue of those that wait for their
rendezvous, and the handlers of the master's messages, of the rendezvous sessions and of
the two calls that the proxies make.

A handler holds the mutex only in part. What it does after letting go of it is a list of
tasks; `threads` holds the tasks of every handler that has not returned, and a run takes
the next task of any of them, so all interleavings of handlers are runs. Rendezvous
sessions, proxies and sockets are known here by what they answer: the event or the task
carries it.
-/

namespace DTun.Node.MasterClient

open DTun.Lib DTun.Lib.Runs

/-- The classes of rendezvous sessions; `RendezvousMode` is one of them or unknown. -/
inductive Kind where
  | fast
  | symmConn
  | symmAcc
  deriving DecidableEq, Repr

/-- The class for a mode on the wire; a bad code is taken for `fast`. -/
def Kind.ofRMode : RMode → Kind
  | .symmConn => .symmConn
  | .symmAcc => .symmAcc
  | _ => .fast

inductive ConnStatus where
  | none
  | pending
  | established
  deriving DecidableEq, Repr

/-- A `RendezvousSession`; `peerIp` is read only by a session of class `symmAcc`. -/
structure RSess where
  kind : Kind
  bestEffort : Bool
  peerIp : Nat
  started : Bool := false
  deriving DecidableEq, Repr

/-- `callback`, `keepalive` and `proxySession` say whether the entry has one. `tag` is the
serial of the request that made an incoming entry; the source has no such field. -/
structure ConnState where
  remoteIp : Nat := 0
  remotePort : Nat := 0
  dstNodeIp : Nat := 0
  callback : Bool := false
  mode : Option Kind := none
  status : ConnStatus := .none
  rSess : Option RSess := none
  keepalive : Bool := false
  proxySession : Bool := false
  tag : Option Nat := none
  deriving DecidableEq, Repr

namespace ConnState

def started (e : ConnState) : Bool := e.rSess.any RSess.started

/-- The rendezvous has succeeded and its session is gone. -/
def Done (e : ConnState) : Prop := e.status = .established ∧ e.rSess = none

instance (e : ConnState) : Decidable e.Done := inferInstanceAs (Decidable (_ ∧ _))

end ConnState

structure RouteEntry where
  ip : Nat := 0
  mask : Nat := 0
  nodeId : Option Nat := none
  deriving DecidableEq, Repr

/-- What a handler still does after it has let go of the mutex. -/
inductive Task where
  /-- Call the callback of a registered connection. -/
  | invoke (connId : ConnId) (err : Nat)
  /-- `ProxySession::start`. -/
  | startProxy (connId : ConnId)
  /-- Put the proxy, or its failure to start, into the table. -/
  | attachProxy (connId : ConnId) (res : Bool)
  /-- `RendezvousSession::onEstablished`. -/
  | established (connId : ConnId)
  /-- `while (processRendezvous(lock)) {}`. -/
  | rendezvous
  /-- Return from `closeConnection`. -/
  | closed (connId : ConnId)
  deriving DecidableEq, Repr

/-- The task starts a proxy or stores one. -/
def Task.isProxy : Task → Bool
  | .startProxy _ => true
  | .attachProxy _ _ => true
  | _ => false

/-- `conn_` is null in `idle` and `lost`; in `probe` it leads to the probe server. -/
inductive Link where
  | idle
  | probe
  | server
  | lost
  deriving DecidableEq, Repr

/-- What the users of `registerConnection` see. -/
inductive Record where
  | registered (connId : ConnId)
  | invoked (connId : ConnId) (err : Nat)
  | closed (connId : ConnId)
  deriving DecidableEq, Repr

/-- `ok` turns false when an assertion of the source fails; `threads` and `log` are not
fields of the source. -/
structure Client where
  nodeId : Nat
  routes : List RouteEntry
  bestEffort : Bool
  closing : Bool := false
  link : Link := .idle
  nextConnIdx : Nat := 0
  rendezvousConnIds : List ConnId := []
  connStates : OrderedMap ConnId ConnState := .empty
  ok : Bool := true
  threads : List (List Task) := []
  log : List Record := []

/-- A handler's effect under the mutex, what it passes to `sendMsg`, and the rest of it. -/
structure Res where
  client : Client
  sent : List UpMsg := []
  tasks : List Task := []

namespace Client

/-- `conn_` is not null. -/
def hasConn (cl : Client) : Bool := cl.link = .probe ∨ cl.link = .server

def assert (cl : Client) (b : Bool) : Client := { cl with ok := cl.ok && b }

def getDstNodeId (cl : Client) (remoteIp : Nat) : Option Nat :=
  match cl.routes.find? (fun r => remoteIp &&& r.mask = r.ip &&& r.mask) with
  | some r => r.nodeId
  | none => none

/-- A session of mode `SymmConn` is running. -/
def symmConnRunning (cl : Client) : Bool :=
  cl.connStates.any (fun _ e => e.started && e.mode = some .symmConn)

/-- The index the next connection gets, which is never 0, and `nextConnIdx_` after it. -/
def drawIdx (next : Nat) : Nat × Nat :=
  if next = 0 then (1, 2) else (next, (next + 1) % 2 ^ 32)

/-- The id that `registerConnection` gives out next. -/
def nextId (cl : Client) : ConnId := ⟨cl.nodeId, (drawIdx cl.nextConnIdx).1⟩

def registerConnection (cl : Client) (remoteIp remotePort : Nat) : Res :=
  match cl.getDstNodeId remoteIp with
  | none => ⟨cl, [], []⟩
  | some dstNodeId =>
    if !cl.hasConn || cl.closing then ⟨cl, [], []⟩
    else
      let send := !cl.symmConnRunning && cl.rendezvousConnIds.isEmpty
      let connState : ConnState :=
        { remoteIp := remoteIp, remotePort := remotePort, callback := true
          status := if send then .pending else .none }
      ⟨{ cl with
          nextConnIdx := (drawIdx cl.nextConnIdx).2
          connStates := cl.connStates.insert cl.nextId connState
          rendezvousConnIds := cl.rendezvousConnIds ++ [cl.nextId]
          log := cl.log ++ [.registered cl.nextId] },
        if send then [.connCreate cl.nextId dstNodeId remoteIp remotePort cl.bestEffort] else [],
        []⟩

def closeConnection (cl : Client) (connId : ConnId) : Res :=
  if cl.closing then ⟨cl, [], [.closed connId]⟩
  else
    match cl.connStates.find? connId with
    | none => ⟨cl, [], [.closed connId]⟩
    | some tmp =>
      ⟨{ cl.assert (!tmp.proxySession) with
          connStates := cl.connStates.erase connId
          rendezvousConnIds := cl.rendezvousConnIds.filter (· ≠ connId) },
        if tmp.status = .pending then [.connClose connId false] else [],
        [.rendezvous, .closed connId]⟩

def onRecvMsgConn (cl : Client) (connId : ConnId) (ip port : Nat) (mode : RMode) (srcIp : Nat)
    (bestEffort : Bool) (serial : Nat) : Res :=
  match cl.connStates.find? connId with
  | some _ => ⟨cl, [], []⟩
  | none =>
    let kind := Kind.ofRMode mode
    let connState : ConnState :=
      { remoteIp := ip, remotePort := port, mode := some kind
        rSess := some { kind := kind, bestEffort := bestEffort, peerIp := srcIp }
        status := .pending, tag := some serial }
    ⟨{ cl with
        connStates := cl.connStates.insert connId connState
        rendezvousConnIds := cl.rendezvousConnIds ++ [connId] },
      [], [.rendezvous]⟩

def onRecvMsgConnStatus (cl : Client) (connId : ConnId) (status : Status) (mode : RMode)
    (dstIp : Nat) : Res :=
  match cl.connStates.find? connId with
  | none => ⟨cl, [], []⟩
  | some e =>
    match status with
    | .pending =>
      ⟨{ cl.assert (e.mode = none ∧ e.status = .pending) with
          connStates := cl.connStates.insert connId
            { e with dstNodeIp := dstIp, mode := some (.ofRMode mode) } },
        [], [.rendezvous]⟩
    | .established =>
      if e.rSess.isSome then
        ⟨{ cl.assert e.mode.isSome with
            connStates := cl.connStates.insert connId { e with status := .established } },
          [], [.established connId, .rendezvous]⟩
      else ⟨cl, [], [.rendezvous]⟩
    | .err code =>
      ⟨{ cl with
          connStates := cl.connStates.erase connId
          rendezvousConnIds := cl.rendezvousConnIds.filter (· ≠ connId) },
        [], (if e.callback then [.invoke connId code] else []) ++ [.rendezvous]⟩

def onProxyDone (cl : Client) (connId : ConnId) : Client :=
  if cl.closing then cl
  else
    match cl.connStates.find? connId with
    | none => cl
    | some _ => { cl with connStates := cl.connStates.erase connId }

/-- `bound` says whether a socket could be made from the session's one. -/
def onRendezvous (cl : Client) (connId : ConnId) (err : Nat) (bound : Bool) : Res :=
  if cl.closing then ⟨cl, [], []⟩
  else
    match cl.connStates.find? connId with
    | none => ⟨cl, [], []⟩
    | some tmp =>
      let err := if err = 0 ∧ bound = false then 0x11 else err
      if err = 0 then
        ⟨{ cl with
            connStates := cl.connStates.insert connId
              { tmp with rSess := none, status := .established, keepalive := true } },
          if tmp.status = .established then [] else [.connClose connId true],
          (if tmp.callback then [.invoke connId 0] else [.startProxy connId]) ++ [.rendezvous]⟩
      else
        ⟨{ cl with connStates := cl.connStates.erase connId },
          [.connClose connId (tmp.status = .established)],
          (if tmp.callback then [.invoke connId err] else []) ++ [.rendezvous]⟩

/-- The end of `onRendezvous` for an incoming connection. -/
def attachProxy (cl : Client) (connId : ConnId) (res : Bool) : Client :=
  match cl.connStates.find? connId with
  | none => cl
  | some e =>
    if res then
      { cl with connStates := cl.connStates.insert connId { e with proxySession := true } }
    else { cl with connStates := cl.connStates.erase connId }

/-- The session that `processRendezvous` starts for an entry: its own, or a new one. -/
def sessionOf (cl : Client) (e : ConnState) (kind : Kind) : RSess :=
  e.rSess.getD { kind := kind, bestEffort := cl.bestEffort, peerIp := e.dstNodeIp }

/-- Take the front out of the queue and start its session. -/
def startFront (cl : Client) (connId : ConnId) (e : ConnState) (kind : Kind)
    (rest : List ConnId) (res : Bool) : Res :=
  let rSess := cl.sessionOf e kind
  let cl' := { cl.assert (rSess.kind = kind) with rendezvousConnIds := rest }
  if res then
    ⟨{ cl' with
        connStates := cl.connStates.insert connId
          { e with rSess := some { rSess with started := true } } },
      [], [.rendezvous]⟩
  else
    ⟨{ cl' with connStates := cl.connStates.erase connId },
      [.connClose connId false],
      (if e.callback then [.invoke connId 0x10] else []) ++ [.rendezvous]⟩

/-- The front of the queue has an entry. -/
def atFront (cl : Client) (running res : Bool) (connId : ConnId) (e : ConnState)
    (rest : List ConnId) : Res :=
  let cl := cl.assert (!e.started && !e.keepalive && !e.proxySession)
  match e.mode with
  | none =>
    if e.status = .none then
      let dstNodeId := cl.getDstNodeId e.remoteIp
      ⟨{ cl.assert dstNodeId.isSome with
          connStates := cl.connStates.insert connId { e with status := .pending } },
        [.connCreate connId (dstNodeId.getD 0) e.remoteIp e.remotePort cl.bestEffort], []⟩
    else ⟨cl, [], []⟩
  | some kind =>
    if kind = .symmConn ∧ running then ⟨cl, [], []⟩
    else cl.startFront connId e kind rest res

/-- The loop of `processRendezvous` over the queue. Ids without an entry are dropped. -/
def scan (cl : Client) (running res : Bool) : List ConnId → Res
  | [] => ⟨{ cl with rendezvousConnIds := [] }, [], []⟩
  | connId :: rest =>
    match cl.connStates.find? connId with
    | none => scan (cl.assert false) running res rest
    | some e => atFront { cl with rendezvousConnIds := connId :: rest } running res connId e rest

/-- One call of `processRendezvous`. `res` is what the session's `start` answers. When the
source returns true, the loop around the call is among the tasks again. -/
def processRendezvous (cl : Client) (res : Bool) : Res :=
  if cl.hasConn then cl.scan cl.symmConnRunning res cl.rendezvousConnIds else ⟨cl, [], []⟩

/-- A task. `res` is the answer of the session's or the proxy's `start`, or says that
`onEstablished` calls back; a session that is gone or has not been started does not. -/
def perform (cl : Client) (res bound : Bool) : Task → Res
  | .invoke c err => ⟨{ cl with log := cl.log ++ [.invoked c err] }, [], []⟩
  | .startProxy c => ⟨cl, [], [.attachProxy c res]⟩
  | .attachProxy c res' => ⟨cl.attachProxy c res', [], []⟩
  | .established c =>
    if res && (cl.connStates.find? c).any ConnState.started then cl.onRendezvous c 0 bound
    else ⟨cl, [], []⟩
  | .rendezvous => cl.processRendezvous res
  | .closed c => ⟨{ cl with log := cl.log ++ [.closed c] }, [], []⟩

/-- A message of the master. Those for a rendezvous session change nothing here. -/
def recv (cl : Client) : DownMsg → Res
  | .conn connId ip port mode srcIp bestEffort serial =>
    cl.onRecvMsgConn connId ip port mode srcIp bestEffort serial
  | .connStatus connId status mode dstIp => cl.onRecvMsgConnStatus connId status mode dstIp
  | _ => ⟨cl, [], []⟩

/-- The tasks of all handlers that have not returned. -/
def pending (cl : Client) : List Task := cl.threads.flatten

/-- What reaches the master: without `conn_` nothing is written, and until `onConnect` it
leads to the probe server. -/
def wire (cl : Client) (msgs : List UpMsg) : List UpMsg := if cl.link = .server then msgs else []

end Client

inductive Event where
  /-- `onProbeConnect` without an error. -/
  | probed
  /-- `onConnect` without an error, with the address the probe has found. -/
  | connected (probedIp probedPort : Nat)
  /-- `conn_.reset()`. -/
  | lost
  | recv (msg : DownMsg)
  | registerConnection (remoteIp remotePort : Nat)
  | closeConnection (connId : ConnId)
  /-- A started session calls back. -/
  | rendezvous (connId : ConnId) (err : Nat) (bound : Bool)
  /-- A running proxy is done. -/
  | proxyDone (connId : ConnId)
  /-- The next task of the `i`-th unfinished handler. -/
  | run (i : Nat) (res bound : Bool)
  /-- The destructor. -/
  | shutdown
  deriving DecidableEq, Repr

namespace Client

/-- The new handler's tasks become a thread of their own. -/
def spawn (cl : Client) (r : Res) : Client × List UpMsg :=
  ({ r.client with threads := cl.threads ++ (if r.tasks = [] then [] else [r.tasks]) },
    cl.wire r.sent)

/-- The tasks that a task leads to come before the rest of its thread. -/
def resume (cl : Client) (i : Nat) (rest : List Task) (r : Res) : Client × List UpMsg :=
  let tasks := r.tasks ++ rest
  ({ r.client with
      threads := cl.threads.take i ++ (if tasks = [] then [] else [tasks]) ++
        cl.threads.drop (i + 1) },
    cl.wire r.sent)

/-- `none` when the event cannot happen: `conn_` is not there, the session or the proxy
that would call does not exist, or the id to close is not one that was given out. -/
def step (cl : Client) : Event → Option (Client × List UpMsg)
  | .probed => if cl.link = .idle then some ({ cl with link := .probe }, []) else none
  | .connected probedIp probedPort =>
    if cl.link = .idle ∨ cl.link = .probe then
      some ({ cl with link := .server }, [.hello cl.nodeId probedIp probedPort])
    else none
  | .lost => if cl.hasConn then some ({ cl with link := .lost }, []) else none
  | .recv msg => if cl.link = .server then some (cl.spawn (cl.recv msg)) else none
  | .registerConnection remoteIp remotePort =>
    some (cl.spawn (cl.registerConnection remoteIp remotePort))
  | .closeConnection connId =>
    if connId.nodeId = cl.nodeId then some (cl.spawn (cl.closeConnection connId)) else none
  | .rendezvous connId err bound =>
    if (cl.connStates.find? connId).any ConnState.started then
      some (cl.spawn (cl.onRendezvous connId err bound))
    else none
  | .proxyDone connId =>
    if (cl.connStates.find? connId).any ConnState.proxySession ∨
        Task.attachProxy connId true ∈ cl.pending then
      some (cl.spawn ⟨cl.onProxyDone connId, [], []⟩)
    else none
  | .run i res bound =>
    match cl.threads[i]? with
    | some (task :: rest) => some (cl.resume i rest (cl.perform res bound task))
    | _ => none
  | .shutdown => some ({ cl with closing := true }, [])

end Client

end DTun.Node.MasterClient
