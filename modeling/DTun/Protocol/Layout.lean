import DTun.Lib.Framing
import DTun.Lib.Packed
import Mathlib.Tactic.Choose

/-!
# What goes over the wire

The message codes and the packed structures of `DProtocol.h`, the bytes that the writers send,
and how a read loop takes a message in two reads, first the header and then the structure. A
layout is the fields of a structure in their order, as under `#pragma pack(1)`, and both ends
have the same byte order.
-/

namespace DTun.Protocol

open Lib

def msgHello : UInt8 := 0x0
def msgHelloProbe : UInt8 := 0x1
def msgHelloFast : UInt8 := 0x2
def msgHelloSymm : UInt8 := 0x3
def msgConnCreate : UInt8 := 0x4
def msgConnClose : UInt8 := 0x5
def msgConn : UInt8 := 0x7
def msgConnStatus : UInt8 := 0x8
def msgFast : UInt8 := 0x9
def msgSymm : UInt8 := 0xA
def msgReady : UInt8 := 0xB
def msgNext : UInt8 := 0xC

structure ProtocolConnId where
  nodeId : UInt32
  connIdx : UInt32
  deriving DecidableEq, Repr

structure Header where
  msgCode : UInt8
  deriving DecidableEq, Repr

structure MsgHello where
  nodeId : UInt32
  probeIp : UInt32
  probePort : UInt16
  deriving DecidableEq, Repr

structure MsgHelloFast where
  nodeId : UInt32
  connId : ProtocolConnId
  deriving DecidableEq, Repr

structure MsgHelloSymm where
  nodeId : UInt32
  connId : ProtocolConnId
  deriving DecidableEq, Repr

structure MsgConnCreate where
  connId : ProtocolConnId
  dstNodeId : UInt32
  remoteIp : UInt32
  remotePort : UInt16
  bestEffort : UInt8
  deriving DecidableEq, Repr

structure MsgConnClose where
  connId : ProtocolConnId
  established : UInt8
  deriving DecidableEq, Repr

structure MsgProbe where
  srcIp : UInt32
  srcPort : UInt16
  deriving DecidableEq, Repr

structure MsgConn where
  connId : ProtocolConnId
  ip : UInt32
  port : UInt16
  mode : UInt8
  srcIp : UInt32
  bestEffort : UInt8
  deriving DecidableEq, Repr

structure MsgConnStatus where
  connId : ProtocolConnId
  mode : UInt8
  statusCode : UInt8
  dstIp : UInt32
  deriving DecidableEq, Repr

structure MsgFast where
  connId : ProtocolConnId
  nodeIp : UInt32
  nodePort : UInt16
  deriving DecidableEq, Repr

structure MsgSymm where
  connId : ProtocolConnId
  nodeIp : UInt32
  nodePort : UInt16
  deriving DecidableEq, Repr

structure MsgReady where
  connId : ProtocolConnId
  deriving DecidableEq, Repr

structure MsgNext where
  connId : ProtocolConnId
  deriving DecidableEq, Repr

section Layouts

open Packed

variable (o : ByteOrder)

def ProtocolConnId.packed : Packed ProtocolConnId :=
  (pair (uint32 o) (uint32 o)).via (fun f => ⟨f.1, f.2⟩) (fun m => (m.nodeId, m.connIdx))
    fun _ => rfl

def Header.packed : Packed Header :=
  uint8.via (fun code => ⟨code⟩) (fun m => m.msgCode) fun _ => rfl

def MsgHello.packed : Packed MsgHello :=
  (pair (uint32 o) (pair (uint32 o) (uint16 o))).via (fun f => ⟨f.1, f.2.1, f.2.2⟩)
    (fun m => (m.nodeId, m.probeIp, m.probePort)) fun _ => rfl

def MsgHelloFast.packed : Packed MsgHelloFast :=
  (pair (uint32 o) (ProtocolConnId.packed o)).via (fun f => ⟨f.1, f.2⟩)
    (fun m => (m.nodeId, m.connId)) fun _ => rfl

def MsgHelloSymm.packed : Packed MsgHelloSymm :=
  (pair (uint32 o) (ProtocolConnId.packed o)).via (fun f => ⟨f.1, f.2⟩)
    (fun m => (m.nodeId, m.connId)) fun _ => rfl

def MsgConnCreate.packed : Packed MsgConnCreate :=
  (pair (ProtocolConnId.packed o)
    (pair (uint32 o) (pair (uint32 o) (pair (uint16 o) uint8)))).via
    (fun f => ⟨f.1, f.2.1, f.2.2.1, f.2.2.2.1, f.2.2.2.2⟩)
    (fun m => (m.connId, m.dstNodeId, m.remoteIp, m.remotePort, m.bestEffort)) fun _ => rfl

def MsgConnClose.packed : Packed MsgConnClose :=
  (pair (ProtocolConnId.packed o) uint8).via (fun f => ⟨f.1, f.2⟩)
    (fun m => (m.connId, m.established)) fun _ => rfl

def MsgConn.packed : Packed MsgConn :=
  (pair (ProtocolConnId.packed o)
    (pair (uint32 o) (pair (uint16 o) (pair uint8 (pair (uint32 o) uint8))))).via
    (fun f => ⟨f.1, f.2.1, f.2.2.1, f.2.2.2.1, f.2.2.2.2.1, f.2.2.2.2.2⟩)
    (fun m => (m.connId, m.ip, m.port, m.mode, m.srcIp, m.bestEffort)) fun _ => rfl

def MsgConnStatus.packed : Packed MsgConnStatus :=
  (pair (ProtocolConnId.packed o) (pair uint8 (pair uint8 (uint32 o)))).via
    (fun f => ⟨f.1, f.2.1, f.2.2.1, f.2.2.2⟩)
    (fun m => (m.connId, m.mode, m.statusCode, m.dstIp)) fun _ => rfl

def MsgFast.packed : Packed MsgFast :=
  (pair (ProtocolConnId.packed o) (pair (uint32 o) (uint16 o))).via
    (fun f => ⟨f.1, f.2.1, f.2.2⟩) (fun m => (m.connId, m.nodeIp, m.nodePort)) fun _ => rfl

def MsgSymm.packed : Packed MsgSymm :=
  (pair (ProtocolConnId.packed o) (pair (uint32 o) (uint16 o))).via
    (fun f => ⟨f.1, f.2.1, f.2.2⟩) (fun m => (m.connId, m.nodeIp, m.nodePort)) fun _ => rfl

def MsgReady.packed : Packed MsgReady :=
  (ProtocolConnId.packed o).via (fun connId => ⟨connId⟩) (fun m => m.connId) fun _ => rfl

def MsgNext.packed : Packed MsgNext :=
  (ProtocolConnId.packed o).via (fun connId => ⟨connId⟩) (fun m => m.connId) fun _ => rfl

end Layouts

/-- What `sendMsg` and the writers that lay out their own buffer put on the connection: the
header, and right after it the structure. -/
def sendMsg {β : Type} (msgCode : UInt8) (p : Packed β) (msg : β) : List UInt8 :=
  Header.packed.put ⟨msgCode⟩ ++ p.put msg

/-- What a node writes: `DMasterClient` the hellos of its probe and of its persistent
connection and the two connection messages, `DMasterSession` the hellos of the fast and the
symmetric connection, and the rendezvous sessions the last two. -/
inductive OutMsg where
  | hello (msg : MsgHello)
  | helloProbe
  | helloFast (msg : MsgHelloFast)
  | helloSymm (msg : MsgHelloSymm)
  | connCreate (msg : MsgConnCreate)
  | connClose (msg : MsgConnClose)
  | ready (msg : MsgReady)
  | next (msg : MsgNext)
  deriving DecidableEq, Repr

def OutMsg.encode (o : ByteOrder) : OutMsg → List UInt8
  | .hello msg => sendMsg msgHello (MsgHello.packed o) msg
  | .helloProbe => Header.packed.put ⟨msgHelloProbe⟩
  | .helloFast msg => sendMsg msgHelloFast (MsgHelloFast.packed o) msg
  | .helloSymm msg => sendMsg msgHelloSymm (MsgHelloSymm.packed o) msg
  | .connCreate msg => sendMsg msgConnCreate (MsgConnCreate.packed o) msg
  | .connClose msg => sendMsg msgConnClose (MsgConnClose.packed o) msg
  | .ready msg => sendMsg msgReady (MsgReady.packed o) msg
  | .next msg => sendMsg msgNext (MsgNext.packed o) msg

/-- What the master writes to a persistent session. -/
inductive InMsg where
  | conn (msg : MsgConn)
  | connStatus (msg : MsgConnStatus)
  | fast (msg : MsgFast)
  | symm (msg : MsgSymm)
  | ready (msg : MsgReady)
  | next (msg : MsgNext)
  deriving DecidableEq, Repr

def InMsg.encode (o : ByteOrder) : InMsg → List UInt8
  | .conn msg => sendMsg msgConn (MsgConn.packed o) msg
  | .connStatus msg => sendMsg msgConnStatus (MsgConnStatus.packed o) msg
  | .fast msg => sendMsg msgFast (MsgFast.packed o) msg
  | .symm msg => sendMsg msgSymm (MsgSymm.packed o) msg
  | .ready msg => sendMsg msgReady (MsgReady.packed o) msg
  | .next msg => sendMsg msgNext (MsgNext.packed o) msg

/-- The common shape of the handlers of a read: after an error `failed`; otherwise the buffer is as
long as the structure, or an assertion fails. -/
def onRecv {β γ : Type} (p : Packed β) (err : Int) (buff : List UInt8) (failed : Option γ)
    (k : β → Option γ) : Option γ :=
  if err ≠ 0 then failed
  else if buff.length = p.size then k (p.get buff) else none

theorem onRecv_put {β γ : Type} (p : Packed β) (msg : β) (failed : Option γ) (k : β → Option γ) :
    onRecv p 0 (p.put msg) failed k = k msg := by
  rw [onRecv, if_neg (by decide), if_pos (p.length_put msg), p.get_put_self]

section TwoReads

variable {α κ ε μ : Type} {F : Framing α κ ε μ} {β : Type}

/-- A message is decoded if its code leads to a read of the size of its structure, and the
structure back to a header read. -/
theorem decodes_sendMsg {app : α} {msgCode : UInt8} {p : Packed β} {msg : β} {m : μ}
    {handler : κ} {onMsgCode : UInt8 → Option (α × Option (Request κ))}
    (hheader : F.header.size = Header.packed.size)
    (hhandle : ∀ env buff, F.handle env app F.header.handler buff =
      onRecv Header.packed 0 buff none fun header => onMsgCode header.msgCode)
    (hcode : onMsgCode msgCode = some (app, some ⟨p.size, handler⟩)) (hsize : 0 < p.size)
    (hbody : ∀ env, ∃ app', F.handle env app handler (p.put msg) = some (app', some F.header) ∧
      F.decoded app' = F.decoded app ++ [m] ∧ F.connected app') :
    F.Decodes app (some F.header) (sendMsg msgCode p msg) (F.decoded app ++ [m]) := by
  choose next hnext hdecoded hconn using hbody
  have hlength : (Header.packed.put ⟨msgCode⟩).length = F.header.size :=
    (Header.packed.length_put _).trans hheader.symm
  have hread (env : ε) : F.handle env app F.header.handler (Header.packed.put ⟨msgCode⟩) =
      some (app, some ⟨p.size, handler⟩) := by
    rw [hhandle, onRecv_put]
    exact hcode
  refine .read hlength (hheader ▸ Nat.one_pos) hread (fun _ => List.prefix_refl _) fun _ => ?_
  have hbytes : p.put msg = p.put msg ++ [] := (List.append_nil _).symm
  rw [hbytes]
  refine .read (p.length_put msg) hsize hnext (fun env => ?_) fun env => ?_
  · rw [hdecoded env]
    exact List.prefix_append _ _
  · rw [← hdecoded env]
    exact .done (next env) (hconn env)

end TwoReads

end DTun.Protocol
