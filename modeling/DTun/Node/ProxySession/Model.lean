import DTun.Lib.RingMemory
import DTun.Lib.Runs

/-!
# The relay between a local and a remote connection

`ProxySession` after a successful `start`: the two connectors report, and once both have a
connection the session copies bytes both ways. All handlers run under the mutex, so they are
atomic; `callback_` is called once the mutex is free, with nothing else left to do.

The two directions use the same code with local and remote exchanged, so the buffers, the
counter and the requests of one direction are a `Flow`. A flow also holds its two ends, which
belong to the connections: the reads that the source has not answered and the writes that the
destination has not completed. A connection reads the memory of its uncompleted writes in
order, as early or as late as it likes.
-/

namespace DTun.Node.ProxySession

open DTun.Lib DTun.Lib.Runs

/-- `DTUN_PROXY_BUFF_SIZE`. -/
def buffSize : Nat := 208 * 1024

/-- `DTUN_PROXY_CHUNK_SIZE`. -/
def chunkSize : Nat := 4 * 1024

/-- `DTUN_ERR_CONN_CLOSED`. -/
def errConnClosed : Int := -9999

/-- A `write`. The handshake has its byte in memory of its own, which nothing else uses; any
other write points into the ring. `issued` is what the memory held when `write` was called; no
code reads it. -/
structure Write where
  handshake : Bool
  piece : Piece
  issued : List UInt8
  deriving DecidableEq, Repr

/-- One direction of the relay. -/
structure Flow where
  /-- `remoteSndBuff_`, or `localSndBuff_`. -/
  sndBuff : Ring UInt8 buffSize := ⟨fun _ => 0, 0, 0⟩
  /-- `remoteSndBuffBytes_`, or `localSndBuffBytes_`. -/
  sndBuffBytes : Int := 0
  /-- The size of `localRcvBuff_`, or of `remoteRcvBuff_`. -/
  rcvBuff : Nat := 0
  /-- The sizes of the reads that the source has not answered. -/
  reads : List Nat := []
  /-- All bytes that the source has delivered. -/
  given : List UInt8 := []
  /-- The writes that the destination has not completed. -/
  writes : List Write := []
  /-- How many bytes of these writes it has read from memory. -/
  taken : Nat := 0
  /-- A write has failed; the destination transmits nothing more. -/
  broken : Bool := false
  /-- All bytes that the destination has transmitted. -/
  wire : List UInt8 := []
  /-- All bytes that have been passed to `sendRemote`, or to `sendLocal`. -/
  relayed : List UInt8 := []
  /-- No assertion has failed. -/
  ok : Bool := true

namespace Flow

/-- The memory of a write as it is now. -/
def load (f : Flow) (w : Write) : List UInt8 :=
  if w.handshake then w.issued else f.sndBuff.load w.piece

def assert (f : Flow) (b : Bool) : Flow := { f with ok := f.ok && b }

/-- `recvLocal` and `recvRemote`. -/
def recv (f : Flow) : Flow :=
  let toRecv := min ((buffSize : Int) - f.sndBuffBytes) chunkSize
  if toRecv ≤ 0 then f
  else { f with rcvBuff := toRecv.toNat, reads := f.reads ++ [toRecv.toNat] }

/-- A write of a piece of the ring. -/
def issue (buff : Ring UInt8 buffSize) (p : Piece) : Write := ⟨false, p, buff.load p⟩

/-- The writes for the content of the ring. -/
def issues (buff : Ring UInt8 buffSize) : List Write :=
  [issue buff buff.arrayOne] ++
    (if buff.arrayTwo.len > 0 then [issue buff buff.arrayTwo] else [])

/-- `sendRemote` and `sendLocal`. -/
def send (f : Flow) (data : List UInt8) : Flow :=
  let f := f.assert (data.length ≤ f.rcvBuff && data.length ≤ (buffSize : Int) - f.sndBuffBytes)
  let buff := f.sndBuff.insertEnd data
  { f with
    sndBuff := buff.eraseBegin data.length
    sndBuffBytes := f.sndBuffBytes + data.length
    writes := f.writes ++ issues buff
    relayed := f.relayed ++ data }

/-- The write of the handshake byte. -/
def greet (f : Flow) : Flow :=
  let w : Write := ⟨true, ⟨0, 1⟩, [0xE1]⟩
  { f with writes := f.writes ++ [w] }

/-- The counter is at the capacity. -/
def full (f : Flow) : Bool := f.sndBuffBytes ≥ buffSize

/-- What `onRemoteSend` and `onLocalSend` do to the counter. -/
def sent (f : Flow) (numBytes : Nat) : Flow :=
  let f := f.assert (!f.full || f.sndBuffBytes = buffSize)
  { f with sndBuffBytes := f.sndBuffBytes - numBytes }

-- What the connections do.

/-- The source answers its oldest read. -/
def answer (f : Flow) (err : Int) (data : List UInt8) : Option Flow :=
  match f.reads with
  | [] => none
  | n :: rest =>
    if data.length ≤ n then
      some { f with reads := rest, given := f.given ++ (if err = 0 then data else []) }
    else none

/-- What the uncompleted writes still have to transmit. -/
def unsent (f : Flow) : List UInt8 := (f.writes.flatMap f.load).drop f.taken

/-- The destination transmits up to `k` more bytes. -/
def transmit (f : Flow) (k : Nat) : Option Flow :=
  if f.broken || f.writes.isEmpty then none
  else some { f with
    wire := f.wire ++ f.unsent.take k
    taken := f.taken + (f.unsent.take k).length }

/-- The destination completes its oldest write, after transmitting the rest of it, or fails. -/
def complete (f : Flow) (err : Int) : Option (Write × Flow) :=
  match f.writes with
  | [] => none
  | w :: rest =>
    if err = 0 then
      if f.broken then none
      else some (w, { f with
        writes := rest
        wire := f.wire ++ (f.load w).drop f.taken
        taken := f.taken - (f.load w).length })
    else some (w, { f with writes := rest, taken := 0, broken := true })

end Flow

/-- `localConnecting`, `remoteConnecting` and `localEof` are not fields of the source: whether
the connectors have still to report, and whether the local connection has reported the end of
the file. `calls` counts the calls of `callback_`. -/
structure Session where
  /-- From `localConn_` to `remoteConn_`. -/
  toRemote : Flow := {}
  /-- From `remoteConn_` to `localConn_`. -/
  toLocal : Flow := {}
  localConnecting : Bool := true
  remoteConnecting : Bool := true
  /-- `localConn_` is not null. -/
  localConn : Bool := false
  remoteConn : Bool := false
  connected : Bool := false
  done : Bool := false
  localShutdown : Bool := false
  localEof : Bool := false
  calls : Nat := 0

namespace Session

def recvLocal (s : Session) : Session := { s with toRemote := s.toRemote.recv }

def recvRemote (s : Session) : Session := { s with toLocal := s.toLocal.recv }

def sendRemote (s : Session) (data : List UInt8) : Session :=
  { s with toRemote := s.toRemote.send data }

def sendLocal (s : Session) (data : List UInt8) : Session :=
  { s with toLocal := s.toLocal.send data }

/-- Set `done_` and call `callback_`. -/
def finish (s : Session) : Session := { s with done := true, calls := s.calls + 1 }

def onBothConnected (s : Session) : Session :=
  { s with toRemote := s.toRemote.greet }.recvLocal.recvRemote

def onLocalConnect (s : Session) (err : Int) : Session :=
  if s.done then s
  else if err ≠ 0 then s.finish
  else
    let s := { s with localConn := true }
    if s.remoteConn && !s.connected then { s with connected := true }.onBothConnected else s

def onRemoteConnect (s : Session) (err : Int) : Session :=
  if s.done then s
  else if err ≠ 0 then s.finish
  else
    let s := { s with remoteConn := true }
    if s.localConn && !s.connected then { s with connected := true }.onBothConnected else s

def onLocalSend (s : Session) (err : Int) (numBytes : Nat) : Session :=
  if s.done then s
  else if err ≠ 0 then s.finish
  else
    let fireRecv := s.toLocal.full
    let s := { s with toLocal := s.toLocal.sent numBytes }
    if fireRecv then s.recvRemote else s

def onLocalRecv (s : Session) (err : Int) (data : List UInt8) : Session :=
  if s.done then s
  else if err ≠ 0 then s.finish
  else if data.length > 0 then (s.sendRemote data).recvLocal
  else { s with localShutdown := true }

def onRemoteSend (s : Session) (err : Int) (numBytes : Nat) : Session :=
  if s.done then s
  else if err ≠ 0 then s.finish
  else
    let fireRecv := s.toRemote.full
    let s := { s with toRemote := s.toRemote.sent numBytes }
    if s.toRemote.sndBuffBytes ≤ 0 && s.localShutdown then
      { s with toRemote := s.toRemote.assert (s.toRemote.sndBuffBytes = 0) }.finish
    else if fireRecv && !s.localShutdown then s.recvLocal
    else s

def onRemoteRecv (s : Session) (err : Int) (data : List UInt8) : Session :=
  if s.done then s
  else if err ≠ 0 then s.finish
  else (s.sendLocal data).recvRemote

def onHandshakeSend (s : Session) (err : Int) : Session :=
  if s.done then s
  else if err ≠ 0 then s.finish
  else s

end Session

inductive Event where
  | localConnect (err : Int)
  | remoteConnect (err : Int)
  /-- The local connection answers a read. -/
  | localRecv (err : Int) (data : List UInt8)
  | remoteRecv (err : Int) (data : List UInt8)
  /-- The remote connection calls back a second time for a read that it has answered with
  data, to report an error. -/
  | remoteRecvAgain (err : Int)
  /-- The local connection completes a write. -/
  | localSend (err : Int)
  | remoteSend (err : Int)
  /-- The local connection transmits bytes of its writes. -/
  | localTransmit (k : Nat)
  | remoteTransmit (k : Nat)
  deriving DecidableEq, Repr

namespace Session

/-- `none` when the connection or connector has nothing to report. -/
def step (s : Session) : Event → Option Session
  | .localConnect err =>
    if s.localConnecting then some ({ s with localConnecting := false }.onLocalConnect err)
    else none
  | .remoteConnect err =>
    if s.remoteConnecting then some ({ s with remoteConnecting := false }.onRemoteConnect err)
    else none
  | .localRecv err data =>
    (s.toRemote.answer err data).map fun f =>
      { s with
        toRemote := f
        localEof := s.localEof || (err = 0 && data.isEmpty) }.onLocalRecv err data
  | .remoteRecv err data =>
    (s.toLocal.answer err data).map fun f => { s with toLocal := f }.onRemoteRecv err data
  | .remoteRecvAgain err =>
    if s.connected && err ≠ 0 then some (s.onRemoteRecv err []) else none
  | .localSend err =>
    (s.toLocal.complete err).map fun (w, f) =>
      { s with toLocal := f }.onLocalSend err w.piece.len
  | .remoteSend err =>
    (s.toRemote.complete err).map fun (w, f) =>
      if w.handshake then { s with toRemote := f }.onHandshakeSend err
      else { s with toRemote := f }.onRemoteSend err w.piece.len
  | .localTransmit k => (s.toLocal.transmit k).map fun f => { s with toLocal := f }
  | .remoteTransmit k => (s.toRemote.transmit k).map fun f => { s with toRemote := f }

/-- `start` has returned true. -/
def init : Session := {}

abbrev Run (es : List Event) (s : Session) : Prop := exec step init es = some s

end Session

end DTun.Node.ProxySession
