import DTun.Lib.Runs

/-!
# A TCP client of tun2socks

`struct tcp_client` stands between a connection of lwIP (`pcb`) and a `DNodeTCPClient` (DTCP).
Data of the connection goes through `buf` to DTCP, and data of DTCP through `dtcp_recv_buf` to
the connection. Either side may close first; the other one is kept until what was buffered for
it is gone, and then the structure is freed.

A callback of lwIP must return `ERR_ABRT` exactly when `tcp_abort` was called in it. It finds
that out with `dead_aborted`, which points to a variable of its frame. Before it returns it may
run the jobs it has caused (`SYNC_COMMIT`), so that DTCP calls the client back inside it.

A handler ends with a `Fault` where the program would fail an assertion or use freed memory.
-/

namespace DTun.Node.Tun2socks

open Lib.Runs

/-- `TCP_WND`, which is also the size of `buf`. -/
def tcpWnd : Nat := 65535

/-- `CLIENT_DTCP_RECV_BUF_SIZE`. -/
def clientDtcpRecvBufSize : Nat := 8192

inductive Fault where
  | assertion
  /-- The memory of the client after `free`. -/
  | freedClient
  /-- The pcb after it was closed, aborted or freed. -/
  | freedPcb
  /-- A write through `dead_aborted` to the frame of a callback that has returned. -/
  | staleFrame
  /-- The functions that close a side went round more than once. -/
  | depth
  deriving DecidableEq

inductive PcbStage where
  | established
  /-- After `tcp_close`. -/
  | closed
  /-- After `tcp_abort`. -/
  | aborted
  /-- Freed by lwIP. -/
  | lost
  deriving DecidableEq

def PcbStage.usable : PcbStage → Bool
  | .established => true
  | .closed | .aborted | .lost => false

/-- The connection as lwIP has it: the callbacks that are set, `rcv_wnd`, how much of what
`tcp_write` took is not acknowledged, and whether a FIN has come (`CLOSE_WAIT`, in which
`tcp_write` goes on as before). -/
structure Pcb where
  stage : PcbStage := .established
  errFunc : Bool := true
  recvFunc : Bool := true
  sentFunc : Bool := false
  rcvWnd : Nat := tcpWnd
  unacked : Nat := 0
  fin : Bool := false
  deriving DecidableEq

/-- The DTCP client: what the sender was asked to send, as it was in the buffer then, whether the
receiver was asked for data, and whether DTCP has reported to be up or to have failed. -/
structure Dtcp where
  up : Bool := false
  failed : Bool := false
  send : Option (List UInt8) := none
  recv : Bool := false
  freed : Bool := false
  deriving DecidableEq

/-- A callback of lwIP that has not returned. `prev` and `dead` are the variables of
`DEAD_ENTER`. The source does not keep whether `tcp_abort` was called in it. -/
structure Frame where
  no : Nat
  prev : Option Nat
  dead : Int := 0
  /-- It runs the jobs that it has caused. -/
  syncing : Bool := false
  abortCalled : Bool := false
  deriving DecidableEq

inductive Err where
  | ok
  | mem
  | abrt
  deriving DecidableEq

/-- `dtcpRecvBuf` is `none` for `dtcp_recv_buf_used = -1`. The fields from `frame` on are not in
the structure of the source: the callback of lwIP that is being executed and the number of those
before it, what they have returned and whether they had aborted, whether `client_recv_func` was
told of the end of the data, and the data that was accepted from lwIP, read by DTCP, got from
DTCP, and given to `tcp_write`. -/
structure State where
  freed : Bool := false
  aborted : Bool := false
  deadAborted : Option Nat := none
  pcb : Pcb := {}
  clientClosed : Bool := false
  buf : List UInt8 := []
  dtcp : Dtcp := {}
  dtcpUp : Bool := false
  dtcpClosed : Bool := false
  dtcpRecvBuf : Option (List UInt8) := none
  dtcpRecvBufSent : Nat := 0
  dtcpRecvWaiting : Bool := false
  dtcpRecvTcpPending : Nat := 0
  quitting : Bool := false
  frame : Option Frame := none
  frames : Nat := 0
  returned : List (Err × Bool) := []
  eof : Bool := false
  received : List UInt8 := []
  toDtcp : List UInt8 := []
  fromDtcp : List UInt8 := []
  written : List UInt8 := []
  deriving DecidableEq

/-- What `tcp_write` answers. -/
inductive WriteResult where
  | ok
  | mem
  | failed
  deriving DecidableEq

/-- The answers of lwIP in a handler: `tcp_sndbuf` and `tcp_write` in each turn of the loop
(after the last one there is no room), and whether `tcp_output` and `tcp_close` succeed. -/
structure Answers where
  writes : List (Nat × WriteResult) := []
  output : Bool := true
  closes : Bool := true
  deriving DecidableEq

abbrev Res := Except Fault State

def require (p : Prop) [Decidable p] : Except Fault Unit :=
  if p then .ok () else .error .assertion

namespace State

/-- The memory of the client can be used. -/
def alive (s : State) : Except Fault Unit :=
  if s.freed then .error .freedClient else .ok ()

def usePcb (s : State) : Except Fault Unit :=
  if s.pcb.stage.usable then .ok () else .error .freedPcb

def setStage (s : State) (stage : PcbStage) : State := { s with pcb := { s.pcb with stage } }

/-- `tcp_err`, `tcp_recv` and `tcp_sent` with `NULL`. -/
def removeCallbacks (s : State) : State :=
  { s with pcb := { s.pcb with errFunc := false, recvFunc := false, sentFunc := false } }

/-- The variable of the frame is set. -/
def kill (s : State) (val : Int) : State :=
  { s with frame := s.frame.map fun f => { f with dead := val } }

/-- `DEAD_KILL_WITH(client->dead_aborted, val)`. -/
def deadKillWith (s : State) (val : Int) : Res :=
  if s.deadAborted = none then .ok s
  else if s.deadAborted = s.frame.map Frame.no then .ok (s.kill val)
  else .error .staleFrame

def tcpAbort (s : State) : State :=
  { s.setStage .aborted with frame := s.frame.map fun f => { f with abortCalled := true } }

def clientAbortPcb (s : State) : Res := do
  require (s.aborted = false)
  s.usePcb
  deadKillWith { s.tcpAbort with aborted := true } 1

/-- `tcp_close`, and `tcp_abort` when it fails. -/
def closePcb (s : State) (closes : Bool) : Res :=
  if closes then .ok (s.setStage .closed) else s.clientAbortPcb

/-- `num_clients` and `tcp_clients` count a client until this. -/
def clientDealloc (s : State) : Res := do
  s.alive
  require (s.clientClosed = true ∧ s.dtcpClosed = true)
  return { ← (if s.aborted then .ok s else s.deadKillWith (-1)) with freed := true }

def setClientClosed (s : State) : State := { s with clientClosed := true }

/-- `DNodeTCPClient_Free`: DTCP calls nothing back from here on. -/
def dnodeTCPClientFree (s : State) : State :=
  { s with
    dtcp := { s.dtcp with send := none, recv := false, freed := true }
    dtcpClosed := true }

def removeRecvFunc (s : State) : State := { s with pcb := { s.pcb with recvFunc := false } }

/-- Stop receiving from the connection, if DTCP was up. -/
def stopReceiving (s : State) : Res :=
  if s.dtcpUp && !s.clientClosed then do
    s.usePcb
    return s.removeRecvFunc
  else .ok s

/-- There is data that can still be sent to the connection. -/
def unsentToClient (s : State) : Bool :=
  s.dtcpUp && (s.dtcpRecvBuf.isSome || decide (0 < s.dtcpRecvTcpPending)) && !s.clientClosed

mutual

/-- The functions for the two sides call each other; each closes its own side first, so that the
rounds are bounded. -/
def clientHandleFreedClient : Nat → State → Answers → Res
  | 0, _, _ => .error .depth
  | n + 1, s, a => do
    s.alive
    require (s.clientClosed = false)
    let s := s.setClientClosed
    if s.buf ≠ [] ∧ s.dtcpClosed = false then return s
    else if s.dtcpClosed = false then clientFreeDtcp n s a
    else s.clientDealloc

def clientFreeClient : Nat → State → Answers → Res
  | 0, _, _ => .error .depth
  | n + 1, s, a => do
    s.alive
    require (s.clientClosed = false)
    s.usePcb
    clientHandleFreedClient n (← s.removeCallbacks.closePcb a.closes) a

def clientFreeDtcp : Nat → State → Answers → Res
  | 0, _, _ => .error .depth
  | n + 1, s, a => do
    s.alive
    require (s.dtcpClosed = false)
    let s := (← s.stopReceiving).dnodeTCPClientFree
    if s.unsentToClient then return s
    else if s.clientClosed = false then clientFreeClient n s a
    else s.clientDealloc

end

/-- Enough rounds for each of them. -/
def rounds : Nat := 4

def clientAbortClient (s : State) (a : Answers) : Res := do
  s.alive
  require (s.clientClosed = false)
  s.usePcb
  clientHandleFreedClient rounds (← s.removeCallbacks.clientAbortPcb) a

/-- The connection of a client that is freed with the event loop. -/
def murderPcb (s : State) : Res :=
  if s.clientClosed then .ok s
  else do
    s.usePcb
    return (← s.removeCallbacks.clientAbortPcb).setClientClosed

def clientMurder (s : State) : Res := do
  s.alive
  let s ← s.murderPcb
  (if s.dtcpClosed then s else s.dnodeTCPClientFree).clientDealloc

/-- `StreamPassInterface_Sender_Send` with what is in the buffer. -/
def senderSend (s : State) : Res := do
  require (s.dtcp.send = none)
  return { s with dtcp := { s.dtcp with send := some s.buf } }

def clientSendToDtcp (s : State) : Res := do
  s.alive
  require (s.dtcpClosed = false ∧ s.dtcpUp = true ∧ s.buf ≠ [])
  s.senderSend

/-- DTCP has read `dataLen` bytes of the memory that it was given. -/
def sentToDtcp (s : State) (dataLen : Nat) : State :=
  { s with
    toDtcp := s.toDtcp ++ (s.dtcp.send.getD []).take dataLen
    buf := s.buf.drop dataLen
    dtcp := { s.dtcp with send := none } }

/-- `tcp_recved`, if the connection is still there. -/
def tcpRecved (s : State) (dataLen : Nat) : Res :=
  if s.clientClosed then .ok s
  else do
    s.usePcb
    return { s with pcb := { s.pcb with rcvWnd := min (s.pcb.rcvWnd + dataLen) tcpWnd } }

def clientDtcpSendHandlerDone (s : State) (dataLen : Nat) (a : Answers) : Res := do
  s.alive
  require (s.dtcpClosed = false ∧ s.dtcpUp = true ∧ s.buf ≠ [])
  require (0 < dataLen ∧ dataLen ≤ s.buf.length)
  let s ← (s.sentToDtcp dataLen).tcpRecved dataLen
  if s.buf ≠ [] then s.senderSend
  else if s.clientClosed then clientFreeDtcp rounds s a
  else return s

def clientDtcpRecvInitiate (s : State) : Res := do
  s.alive
  require (s.clientClosed = false ∧ s.dtcpClosed = false ∧ s.dtcpUp = true)
  require (s.dtcpRecvBuf = none ∧ s.dtcp.recv = false)
  return { s with dtcp := { s.dtcp with recv := true } }

/-- `tcp_write` that succeeds, with the counters the client keeps. -/
def tcpWrite (s : State) (data : List UInt8) : State :=
  { s with
    pcb := { s.pcb with unacked := s.pcb.unacked + data.length }
    dtcpRecvBufSent := s.dtcpRecvBufSent + data.length
    dtcpRecvTcpPending := s.dtcpRecvTcpPending + data.length
    written := s.written ++ data }

/-- The loop of `client_dtcp_recv_send_out`; it answers false when `tcp_write` has failed. -/
def writeLoop (data : List UInt8) : List (Nat × WriteResult) → State → Bool × State
  | [], s => (true, s)
  | (sndbuf, result) :: rest, s =>
    let toWrite := min (data.length - s.dtcpRecvBufSent) sndbuf
    if toWrite = 0 then (true, s)
    else
      match result with
      | .mem => (true, s)
      | .failed => (false, s)
      | .ok =>
        let s := s.tcpWrite ((data.drop s.dtcpRecvBufSent).take toWrite)
        if s.dtcpRecvBufSent < data.length then writeLoop data rest s else (true, s)

/-- It answers whether the client is still up. -/
def clientDtcpRecvSendOut (s : State) (a : Answers) : Except Fault (Bool × State) := do
  s.alive
  require (s.clientClosed = false ∧ s.dtcpUp = true)
  match s.dtcpRecvBuf with
  | none => .error .assertion
  | some data =>
    require (data ≠ [] ∧ s.dtcpRecvBufSent < data.length ∧ s.dtcpRecvWaiting = false)
    s.usePcb
    let out := writeLoop data a.writes s
    let s := out.2
    if out.1 = false ∨ a.output = false then return (false, ← s.clientAbortClient a)
    else if s.dtcpRecvBufSent < data.length then
      if s.dtcpRecvTcpPending = 0 then return (false, ← s.clientAbortClient a)
      else return (true, { s with dtcpRecvWaiting := true })
    else return (true, { s with dtcpRecvBuf := none })

/-- What DTCP has received is in the buffer. -/
def recvBuffered (s : State) (data : List UInt8) : State :=
  { s with
    dtcp := { s.dtcp with recv := false }
    dtcpRecvBuf := some data
    dtcpRecvBufSent := 0
    dtcpRecvWaiting := false
    fromDtcp := s.fromDtcp ++ data }

def clientDtcpRecvHandlerDone (s : State) (data : List UInt8) (a : Answers) : Res := do
  s.alive
  require (data ≠ [] ∧ data.length ≤ clientDtcpRecvBufSize)
  require (s.dtcpClosed = false ∧ s.dtcpUp = true ∧ s.dtcpRecvBuf = none)
  if s.clientClosed then return { s with dtcp := { s.dtcp with recv := false } }
  else
    let (up, s) ← (s.recvBuffered data).clientDtcpRecvSendOut a
    if up = false then return s
    else if s.dtcpRecvBuf = none then s.clientDtcpRecvInitiate
    else return s

/-- `DEAD_ENTER(client->dead_aborted)` in a new frame. -/
def deadEnter (s : State) : State :=
  { s with
    frame := some { no := s.frames, prev := s.deadAborted }
    deadAborted := some s.frames
    frames := s.frames + 1 }

/-- The frame runs the jobs it has caused, up to its own mark. -/
def syncCommit (s : State) : State :=
  { s with frame := s.frame.map fun f => { f with syncing := true } }

/-- `DEAD_LEAVE2`. The frame that `prev` points to has returned, since lwIP does not call back
inside of a callback. -/
def deadRestore (s : State) (f : Frame) : Res :=
  if f.prev ≠ none then .error .staleFrame
  else if f.dead ≠ 0 then .ok s
  else do
    s.alive
    return { s with deadAborted := f.prev }

/-- The callback returns. lwIP goes on with the pcb unless it gets `ERR_ABRT`. -/
def deadLeave (s : State) : Res :=
  match s.frame with
  | none => .error .assertion
  | some f => do
    let s ← s.deadRestore f
    let err : Err := if 0 < f.dead then .abrt else .ok
    if err = .ok ∧ f.abortCalled = true then .error .freedPcb
    else return { s with frame := none, returned := s.returned ++ [(err, f.abortCalled)] }

/-- After `listener_accept_func` has set up the client, when it runs the jobs. -/
def listenerAcceptFunc : State := syncCommit (deadEnter {})

def clientErrFunc (s : State) (a : Answers) : Res := do
  s.alive
  require (s.clientClosed = false)
  clientHandleFreedClient rounds (s.setStage .lost) a

/-- Data of the connection is copied to the buffer. -/
def buffered (s : State) (data : List UInt8) : State :=
  { s with
    buf := s.buf ++ data
    received := s.received ++ data
    pcb := { s.pcb with rcvWnd := s.pcb.rcvWnd - data.length } }

/-- `client_recv_func` with data. -/
def clientRecvFunc (s : State) (data : List UInt8) : Res := do
  s.alive
  require (s.clientClosed = false ∧ data ≠ [])
  if tcpWnd - s.buf.length < data.length then
    return { s with returned := s.returned ++ [(.mem, false)] }
  else
    let s := s.deadEnter.buffered data
    if s.buf.length = data.length ∧ s.dtcpUp = true then
      require (s.dtcpClosed = false)
      return (← s.clientSendToDtcp).syncCommit
    else return s

def setEof (s : State) : State := { s with eof := true }

/-- `client_recv_func` without a pbuf. -/
def clientRecvFin (s : State) (a : Answers) : Res := do
  s.alive
  require (s.clientClosed = false)
  clientFreeClient rounds s.deadEnter.setEof a

/-- lwIP has got the FIN of the peer. -/
def setFin (s : State) : State := { s with pcb := { s.pcb with fin := true } }

/-- The connection has acknowledged `len` bytes. -/
def acked (s : State) (len : Nat) : State :=
  { s with
    dtcpRecvTcpPending := s.dtcpRecvTcpPending - len
    pcb := { s.pcb with unacked := s.pcb.unacked - len } }

/-- `client_sent_func` while data is left in the buffer. -/
def continueQueuing (s : State) (data : List UInt8) (a : Answers) : Res := do
  require (s.dtcpRecvWaiting = true ∧ s.dtcpRecvBufSent < data.length)
  let (up, s) ← { s with dtcpRecvWaiting := false }.clientDtcpRecvSendOut a
  if up = false then return s
  else
    require (0 < s.dtcpRecvTcpPending)
    if s.dtcpRecvBuf = none ∧ s.dtcpClosed = false then
      return (← s.clientDtcpRecvInitiate).syncCommit
    else return s

def clientSentFunc (s : State) (len : Nat) (a : Answers) : Res := do
  s.alive
  require (s.clientClosed = false ∧ s.dtcpUp = true ∧ 0 < len ∧ len ≤ s.dtcpRecvTcpPending)
  let s := s.deadEnter.acked len
  match s.dtcpRecvBuf with
  | some data => s.continueQueuing data a
  | none =>
    if s.dtcpClosed = true ∧ s.dtcpRecvTcpPending = 0 then clientFreeClient rounds s a
    else return s

def clientDtcpHandlerError (s : State) (a : Answers) : Res := do
  s.alive
  require (s.dtcpClosed = false)
  clientFreeDtcp rounds { s with dtcp := { s.dtcp with failed := true } } a

/-- `tcp_sent` for a connection that is still there. -/
def setSentFunc (s : State) : Res :=
  if s.clientClosed then .ok s
  else do
    s.usePcb
    return { s with pcb := { s.pcb with sentFunc := true } }

/-- The receive interface is set up. -/
def initReceiving (s : State) : State :=
  { s with
    dtcp := { s.dtcp with up := true }
    dtcpRecvBuf := none
    dtcpRecvTcpPending := 0
    dtcpUp := true }

def clientDtcpHandlerUp (s : State) : Res := do
  s.alive
  require (s.dtcpClosed = false ∧ s.dtcpUp = false)
  let s := (← s.setSentFunc).initReceiving
  let s ← (if s.buf ≠ [] then s.clientSendToDtcp else .ok s)
  if s.clientClosed = false then s.clientDtcpRecvInitiate else return s

end State

inductive Event where
  | recv (data : List UInt8)
  | fin (a : Answers)
  | err (a : Answers)
  | sent (len : Nat) (a : Answers)
  /-- The callback of lwIP returns. -/
  | leave
  | dtcpUp
  /-- `DNODE_TCPCLIENT_EVENT_ERROR_CLOSED` when `closed` is set, else `..._ERROR`. -/
  | dtcpError (closed : Bool) (a : Answers)
  | sendDone (len : Nat) (a : Answers)
  | recvDone (data : List UInt8) (a : Answers)
  /-- The event loop has ended and the clients are freed. -/
  | murder
  deriving DecidableEq

namespace State

/-- lwIP may call back: it is not in a callback, and has a connection. -/
abbrev LwipReady (s : State) : Prop := s.frame = none ∧ s.pcb.stage.usable = true

/-- DTCP may call back: it is not freed, and jobs are run. -/
abbrev DtcpReady (s : State) : Prop := s.dtcp.freed = false ∧ ∀ f ∈ s.frame, f.syncing = true

/-- What lwIP and DTCP keep to. lwIP delivers no more data than the window has room for, none after
the FIN, and reports no more bytes as sent than were written. -/
def Enabled (s : State) : Event → Prop
  | .recv data =>
    s.LwipReady ∧ s.pcb.fin = false ∧ data ≠ [] ∧ data.length ≤ s.pcb.rcvWnd
  | .fin _ => s.LwipReady ∧ s.pcb.fin = false
  | .err _ => s.LwipReady ∧ s.pcb.errFunc = true
  | .sent len _ => s.LwipReady ∧ s.pcb.sentFunc = true ∧ 0 < len ∧ len ≤ s.pcb.unacked
  | .leave => s.frame ≠ none
  | .dtcpUp => s.DtcpReady ∧ s.dtcp.up = false
  | .dtcpError closed _ => s.DtcpReady ∧ (closed = true → s.dtcp.up = true)
  | .sendDone len _ =>
    s.DtcpReady ∧ ∃ data ∈ s.dtcp.send, 0 < len ∧ len ≤ data.length
  | .recvDone data _ =>
    s.DtcpReady ∧ s.dtcp.recv = true ∧ data ≠ [] ∧ data.length ≤ clientDtcpRecvBufSize
  | .murder => s.frame = none ∧ s.freed = false

instance (s : State) : (e : Event) → Decidable (s.Enabled e)
  | .leave => inferInstanceAs (Decidable (_ ≠ _))
  | .recv _ | .fin _ | .err _ | .sent _ _ | .dtcpUp | .dtcpError _ _ | .sendDone _ _
  | .recvDone _ _ | .murder => inferInstanceAs (Decidable (_ ∧ _))

/-- `TCP_EVENT_RECV` and `TCP_EVENT_CLOSED` look whether a receive callback is set. -/
def handle (s : State) : Event → Res
  | .recv data =>
    -- `tcp_recv_null` confirms the data and drops it: the window stays
    if s.pcb.recvFunc then s.clientRecvFunc data else .ok s
  | .fin a => if s.pcb.recvFunc then s.setFin.clientRecvFin a else .ok s.setFin
  | .err a => s.clientErrFunc a
  | .sent len a => s.clientSentFunc len a
  | .leave => s.deadLeave
  | .dtcpUp => s.clientDtcpHandlerUp
  | .dtcpError closed a => do
    if closed then require (s.dtcpUp = true)
    s.clientDtcpHandlerError a
  | .sendDone len a => s.clientDtcpSendHandlerDone len a
  | .recvDone data a => s.clientDtcpRecvHandlerDone data a
  | .murder => clientMurder { s with quitting := true }

def step (s : State) (e : Event) : Option State :=
  if s.Enabled e then (s.handle e).toOption else none

abbrev Run (es : List Event) (s : State) : Prop := exec step listenerAcceptFunc es = some s

end State

end DTun.Node.Tun2socks
