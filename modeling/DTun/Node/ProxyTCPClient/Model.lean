import DTun.Lib.Runs

/-!
# The TCP client of a tun2socks connection

`ProxyTCPClient` lives on the I/O thread, where its connection calls it back, and
`DNodeProxyTCPClient` lives on the reactor thread, where tun2socks asks it for data and is
told about events. The I/O thread leaves its results in a few fields and signals the reactor.
`DNodeProxyTCPClient_SignalHandler` then reads the fields one after the other, each read on its
own under the mutex, so that the I/O thread may come in between any two of them. A run of the
handler can stand for several signals.

A read of the connection may report data and, for the same read, an error right after it.
-/

namespace DTun.Node.ProxyTCPClient

open Lib.Runs

/-- `STATE_CONNECTING`, `STATE_UP` and `STATE_ERR`. -/
inductive ConnState where
  | connecting
  | up
  | err
  deriving DecidableEq, Repr

/-- `ProxyTCPClient`. -/
structure Client where
  eof : Bool := false
  /-- `reactorSignal_` is set. -/
  reactorSignal : Bool := true
  state : ConnState := .connecting
  sending : Bool := false
  receiving : Bool := false
  bytesSent : Nat := 0
  bytesReceived : Nat := 0
  deriving DecidableEq, Repr

/-- `DNodeProxyTCPClient`. -/
structure Dtcp where
  state : ConnState := .connecting
  wasConnected : Bool := false
  sending : Bool := false
  receiving : Bool := false
  deriving DecidableEq, Repr

/-- The events for tun2socks. -/
inductive Raised where
  | up
  | error
  | errorClosed
  deriving DecidableEq, Repr

/-- Where `DNodeProxyTCPClient_SignalHandler` is. -/
inductive Pc where
  | idle
  /-- It has `new_state`. -/
  | sampled (newState : ConnState)
  /-- It is about to call `isReceiving`. -/
  | receiving
  /-- It is about to call `isSending`. -/
  | sending
  deriving DecidableEq, Repr

/-- What the client waits for before data can be sent. -/
inductive Stage where
  | registering
  | connecting
  | handshaking
  | connected
  | failed
  deriving DecidableEq, Repr

structure State where
  client : Client := {}
  dtcp : Dtcp := {}
  pc : Pc := .idle
  /-- The bytes in the pipe of the signal. -/
  signals : Nat := 0
  /-- `conn_timer` is set. -/
  connTimer : Bool := true
  stage : Stage := .registering
  /-- `conn_` has a read to do. -/
  reading : Bool := false
  /-- The last thing on the I/O thread was that a read reported data. -/
  readReported : Bool := false
  /-- The length of what `conn_` has to write. -/
  writing : Option Nat := none
  destroyed : Bool := false
  raised : List Raised := []
  /-- The calls of `StreamRecvInterface_Done`. -/
  recvDone : List Nat := []
  /-- The calls of `StreamPassInterface_Done`. -/
  sendDone : List Nat := []
  /-- What `onRecv` got without an error, up to the end of the stream. -/
  reported : List Nat := []
  deriving DecidableEq, Repr

namespace State

def signalReactor (s : State) : State :=
  if s.client.reactorSignal then { s with signals := s.signals + 1 } else s

/-- `state_` and a signal. -/
def setState (s : State) (state : ConnState) : State :=
  { s with client := { s.client with state := state } }.signalReactor

/-- `onConnectionRegister`, with whether the connector can be started. -/
def onConnectionRegister (s : State) (err : Bool) (connects : Bool) : State :=
  if !s.client.reactorSignal then { s with stage := .failed }
  else if err || !connects then { s.setState .err with stage := .failed }
  else { s with stage := .connecting }

def onConnect (s : State) (err : Bool) : State :=
  if err then
    if s.client.reactorSignal then { s.setState .err with stage := .failed }
    else { s with client := { s.client with state := .err }, stage := .failed }
  else if !s.client.reactorSignal then { s with stage := .failed }
  else { s with stage := .handshaking }

/-- `onHandshakeRecv`, with the byte of the handshake. -/
def onHandshakeRecv (s : State) (err : Bool) (byte : Nat) : State :=
  if err || byte ≠ 0xE1 then { s.setState .err with stage := .failed }
  else { s.setState .up with stage := .connected }

def onSend (s : State) (err : Bool) (numBytes : Nat) : State :=
  let s := { s with writing := none, readReported := false }
  if err then s.setState .err
  else { s with client := { s.client with sending := false, bytesSent := numBytes } }.signalReactor

/-- `onRecv` without an error. -/
def onRecvData (s : State) (numBytes : Nat) : State :=
  { s with
    client := { s.client with receiving := false, bytesReceived := numBytes }
    reading := false
    readReported := true
    reported := if s.client.eof then s.reported else s.reported ++ [numBytes] }.signalReactor

/-- `onRecv` with an error, `closed` for `DTUN_ERR_CONN_CLOSED`. It is for the read there is
or for the one that has just been reported. -/
def onRecvErr (s : State) (closed : Bool) (late : Bool) : State :=
  { s with
    client := { s.client with eof := s.client.eof || closed }
    reading := s.reading && late
    readReported := false }.setState .err

/-- `DNodeProxyTCPClient_RecvHandler` with `receive`. -/
def recvHandler (s : State) : State :=
  { s with
    dtcp := { s.dtcp with receiving := true }
    client := { s.client with receiving := true }
    reading := true }

/-- `DNodeProxyTCPClient_SendHandler` with `send`. -/
def sendHandler (s : State) (dataLen : Nat) : State :=
  { s with
    dtcp := { s.dtcp with sending := true }
    client := { s.client with sending := true }
    writing := some dataLen }

/-- `DNodeProxyTCPClient_ConnTimerHandler` with `setErr`. -/
def connTimerHandler (s : State) : State :=
  let s := { s with connTimer := false }.setState .err
  { s with client := { s.client with reactorSignal := false } }

/-- The first part of `DNodeProxyTCPClient_SignalHandler`: the event when there is a new state.
tun2socks frees the client when it gets an error. -/
def handleState (s : State) (newState : ConnState) : State :=
  let s := { s with pc := if newState = .up then .receiving else .idle }
  if s.dtcp.state = newState then s
  else
    match newState with
    | .up =>
      { s with
        dtcp := { s.dtcp with state := .up, wasConnected := true }
        connTimer := false
        raised := s.raised ++ [.up] }
    | .err =>
      { s with
        dtcp := { s.dtcp with state := .err }
        destroyed := true
        raised := s.raised ++ [if s.client.eof then .errorClosed else .error] }
    | .connecting => { s with dtcp := { s.dtcp with state := .connecting } }

def handleReceiving (s : State) : State :=
  let s := { s with pc := .sending }
  if s.dtcp.receiving && !s.client.receiving then
    { s with
      dtcp := { s.dtcp with receiving := false }
      recvDone := s.recvDone ++ [s.client.bytesReceived] }
  else s

def handleSending (s : State) : State :=
  let s := { s with pc := .idle }
  if s.dtcp.sending && !s.client.sending then
    { s with
      dtcp := { s.dtcp with sending := false }
      sendDone := s.sendDone ++ [s.client.bytesSent] }
  else s

end State

inductive Event where
  | onConnectionRegister (err : Bool) (connects : Bool)
  | onConnect (err : Bool)
  | onHandshakeRecv (err : Bool) (byte : Nat)
  | onSend (err : Bool)
  | onRecvData (numBytes : Nat)
  | onRecvErr (closed : Bool) (late : Bool)
  /-- tun2socks asks for data. -/
  | recv
  | send (dataLen : Nat)
  | connTimer
  /-- tun2socks frees the client on its own account. -/
  | destroy
  /-- The signal handler is called and reads the state, for all signals but `left`. -/
  | signal (left : Nat)
  /-- It gets on to its next call of the client. -/
  | handle
  deriving DecidableEq, Repr

namespace State

/-- A step of one of the threads. The reactor thread does one thing at a time. -/
def step (s : State) (e : Event) : Option State :=
  if s.destroyed then none
  else
    match e with
    | .onConnectionRegister err connects =>
      if s.stage = .registering then some (s.onConnectionRegister err connects) else none
    | .onConnect err => if s.stage = .connecting then some (s.onConnect err) else none
    | .onHandshakeRecv err byte =>
      if s.stage = .handshaking then some (s.onHandshakeRecv err byte) else none
    | .onSend err => s.writing.map (s.onSend err)
    | .onRecvData numBytes =>
      if s.reading && numBytes ≠ 0 then some (s.onRecvData numBytes) else none
    | .onRecvErr closed late =>
      if (if late then s.readReported else s.reading) then some (s.onRecvErr closed late) else none
    | .recv =>
      if s.pc = .idle ∧ s.dtcp.wasConnected ∧ !s.dtcp.receiving then some s.recvHandler else none
    | .send dataLen =>
      if s.pc = .idle ∧ s.dtcp.wasConnected ∧ !s.dtcp.sending then some (s.sendHandler dataLen)
      else none
    | .connTimer => if s.pc = .idle ∧ s.connTimer then some s.connTimerHandler else none
    | .destroy => if s.pc = .idle then some { s with destroyed := true } else none
    | .signal left =>
      if s.pc = .idle ∧ left < s.signals then
        some { s with signals := left, pc := .sampled s.client.state }
      else none
    | .handle =>
      match s.pc with
      | .idle => none
      | .sampled newState => some (s.handleState newState)
      | .receiving => some s.handleReceiving
      | .sending => some s.handleSending

abbrev Run (es : List Event) (s : State) : Prop := exec step {} es = some s

end State

end DTun.Node.ProxyTCPClient
