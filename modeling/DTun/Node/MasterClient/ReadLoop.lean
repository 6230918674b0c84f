import DTun.Protocol.Layout

/-!
# The read loop of a node's connection to the master

`DMasterClient::onRecvHeader` and the handlers that it leads to. They differ in what they find
in `connStates_` for the id of the message, which is an answer of the environment here; on
every path the next header is read. What a message does is the subject of
`DTun.Node.MasterClient.Model`. A read that completes without an error has filled the buffer.
-/

namespace DTun.Node.MasterClient.ReadLoop

open Lib Protocol

/-- The completion handlers that `DMasterClient` gives to `read` once HELLO is sent. -/
inductive Handler where
  | onRecvHeader
  | onRecvMsgConn
  | onRecvMsgConnStatus
  | onRecvMsgOther (msgId : UInt8)
  deriving DecidableEq, Repr

/-- What `connStates_` holds for an id: nothing, an entry with a session whose rendezvous is
not over, or another entry. -/
inductive Entry where
  | absent
  | running
  | settled
  deriving DecidableEq, Repr

/-- `conn` says that there is a `conn_`. `created` are the entries made for CONN and `handed`
the messages given to a session's `onMsg`. `decoded` are the messages as the handlers have
read them; the source does not keep them. -/
structure Reader where
  conn : Bool := true
  created : List ProtocolConnId := []
  handed : List InMsg := []
  decoded : List InMsg := []
  deriving DecidableEq, Repr

abbrev Next := Option (Reader × Option (Request Handler))

def recvHeader : Request Handler := ⟨Header.packed.size, .onRecvHeader⟩

namespace Reader

variable (o : ByteOrder) (r : Reader)

/-- `conn_.reset()`. -/
def lost : Next := some ({ r with conn := false }, none)

def decode (msg : InMsg) : Reader := { r with decoded := r.decoded ++ [msg] }

/-- The `switch` of `onRecvHeader`. -/
def onMsgCode (msgCode : UInt8) : Next :=
  if msgCode = msgConn then
    some (r, some ⟨(MsgConn.packed o).size, .onRecvMsgConn⟩)
  else if msgCode = msgConnStatus then
    some (r, some ⟨(MsgConnStatus.packed o).size, .onRecvMsgConnStatus⟩)
  else if msgCode = msgFast then
    some (r, some ⟨(MsgFast.packed o).size, .onRecvMsgOther msgCode⟩)
  else if msgCode = msgSymm then
    some (r, some ⟨(MsgSymm.packed o).size, .onRecvMsgOther msgCode⟩)
  else if msgCode = msgReady then
    some (r, some ⟨(MsgReady.packed o).size, .onRecvMsgOther msgCode⟩)
  else if msgCode = msgNext then
    some (r, some ⟨(MsgNext.packed o).size, .onRecvMsgOther msgCode⟩)
  else r.lost

def onRecvHeader (err : Int) (buff : List UInt8) : Next :=
  onRecv Header.packed err buff r.lost fun header => r.onMsgCode o header.msgCode

def onRecvMsgConn (entry : Entry) (err : Int) (buff : List UInt8) : Next :=
  onRecv (MsgConn.packed o) err buff r.lost fun msg =>
    let r := r.decode (.conn msg)
    if entry ≠ .absent then some (r, some recvHeader)
    else some ({ r with created := r.created ++ [msg.connId] }, some recvHeader)

def onRecvMsgConnStatus (err : Int) (buff : List UInt8) : Next :=
  onRecv (MsgConnStatus.packed o) err buff r.lost fun msg =>
    some (r.decode (.connStatus msg), some recvHeader)

/-- The message for a session. `connId` is what the client has read; a session reads the
address by a cast of the buffer to the structure of the code. -/
def sessionMsg (connId : ProtocolConnId) (msgId : UInt8) (buff : List UInt8) : InMsg :=
  if msgId = msgFast then .fast { (MsgFast.packed o).get buff with connId := connId }
  else if msgId = msgSymm then .symm { (MsgSymm.packed o).get buff with connId := connId }
  else if msgId = msgReady then .ready ⟨connId⟩
  else .next ⟨connId⟩

def onRecvMsgOther (entry : Entry) (err : Int) (buff : List UInt8) (msgId : UInt8) : Next :=
  if err ≠ 0 then r.lost
  else if (ProtocolConnId.packed o).size ≤ buff.length then
    let msg := sessionMsg o ((ProtocolConnId.packed o).get buff) msgId buff
    let r := r.decode msg
    match entry with
    | .absent => some (r, some recvHeader)
    | .running =>
      let r := { r with handed := r.handed ++ [msg] }
      some (r, if r.conn then some recvHeader else none)
    | .settled => some (r, some recvHeader)
  else none

def handle (entry : Entry) (handler : Handler) (err : Int) (buff : List UInt8) : Next :=
  match handler with
  | .onRecvHeader => r.onRecvHeader o err buff
  | .onRecvMsgConn => r.onRecvMsgConn o entry err buff
  | .onRecvMsgConnStatus => r.onRecvMsgConnStatus o err buff
  | .onRecvMsgOther msgId => r.onRecvMsgOther o entry err buff msgId

end Reader

/-- The master's side of a persistent connection, as the node reads it. -/
def framing (o : ByteOrder) : Framing Reader Handler Entry InMsg where
  handle entry r handler buff := r.handle o entry handler 0 buff
  header := recvHeader
  encode := InMsg.encode o
  decoded := Reader.decoded
  connected r := r.conn = true

namespace Reader

variable (o : ByteOrder) (r : Reader)

/-- Whatever the table holds, the message is made out and the next header is read. -/
def MakesOut (next : Next) (msg : InMsg) : Prop :=
  ∃ r', next = some (r', some recvHeader) ∧ r'.decoded = r.decoded ++ [msg] ∧ r'.conn = true

variable {r} (hconn : r.conn = true) (entry : Entry)
include hconn

theorem onRecvMsgConn_put (msg : MsgConn) :
    r.MakesOut (r.onRecvMsgConn o entry 0 ((MsgConn.packed o).put msg)) (.conn msg) := by
  rw [onRecvMsgConn, onRecv_put]
  by_cases hentry : entry ≠ .absent
  · exact ⟨_, if_pos hentry, rfl, hconn⟩
  · exact ⟨_, if_neg hentry, rfl, hconn⟩

theorem onRecvMsgConnStatus_put (msg : MsgConnStatus) :
    r.MakesOut (r.onRecvMsgConnStatus o 0 ((MsgConnStatus.packed o).put msg))
      (.connStatus msg) :=
  ⟨_, onRecv_put (MsgConnStatus.packed o) msg _ _, rfl, hconn⟩

/-- The structure may be longer than the id that the client reads from its start. -/
theorem onRecvMsgOther_put {buff rest : List UInt8} {connId : ProtocolConnId} {m : InMsg}
    {msgId : UInt8} (hbuff : buff = (ProtocolConnId.packed o).put connId ++ rest)
    (hmsg : sessionMsg o connId msgId buff = m) :
    r.MakesOut (r.onRecvMsgOther o entry 0 buff msgId) m := by
  have hsize : (ProtocolConnId.packed o).size ≤ buff.length := by
    rw [hbuff, List.length_append, Packed.length_put]
    exact Nat.le_add_right _ _
  have hget : (ProtocolConnId.packed o).get buff = connId := by
    rw [hbuff]
    exact Packed.get_put _ connId rest
  rw [onRecvMsgOther, if_neg (by decide), if_pos hsize, hget, hmsg]
  cases entry with
  | absent => exact ⟨_, rfl, rfl, hconn⟩
  | running =>
    refine ⟨{ r.decode m with handed := r.handed ++ [m] }, ?_, rfl, hconn⟩
    show some (_, if r.conn then some recvHeader else none) = _
    rw [if_pos hconn]
    rfl
  | settled => exact ⟨_, rfl, rfl, hconn⟩

end Reader

section Framed

variable (o : ByteOrder) {r : Reader}

theorem decodes_in {β : Type} {msgCode : UInt8} {p : Packed β} {msg : β} {m : InMsg}
    {handler : Handler} (hcode : r.onMsgCode o msgCode = some (r, some ⟨p.size, handler⟩))
    (hsize : 0 < p.size) (hbody : ∀ entry, r.MakesOut (r.handle o entry handler 0 (p.put msg)) m) :
    (framing o).Decodes r (some recvHeader) (sendMsg msgCode p msg) (r.decoded ++ [m]) :=
  decodes_sendMsg (F := framing o) rfl (fun _ _ => rfl) hcode hsize hbody

theorem framed : (framing o).Framed where
  header_pos := Nat.one_pos
  decodes r msg hconn := by
    cases msg with
    | conn msg =>
      exact decodes_in o rfl (Nat.succ_pos _) fun entry =>
        Reader.onRecvMsgConn_put o hconn entry msg
    | connStatus msg =>
      exact decodes_in o rfl (Nat.succ_pos _) fun _ => Reader.onRecvMsgConnStatus_put o hconn msg
    | fast msg =>
      refine decodes_in o rfl (Nat.succ_pos _) fun entry =>
        Reader.onRecvMsgOther_put o hconn entry rfl ?_
      show InMsg.fast { (MsgFast.packed o).get _ with connId := msg.connId } = _
      rw [Packed.get_put_self]
    | symm msg =>
      refine decodes_in o rfl (Nat.succ_pos _) fun entry =>
        Reader.onRecvMsgOther_put o hconn entry rfl ?_
      show InMsg.symm { (MsgSymm.packed o).get _ with connId := msg.connId } = _
      rw [Packed.get_put_self]
    | ready msg =>
      exact decodes_in o rfl (Nat.succ_pos _) fun entry =>
        Reader.onRecvMsgOther_put o hconn entry (List.append_nil _).symm rfl
    | next msg =>
      exact decodes_in o rfl (Nat.succ_pos _) fun entry =>
        Reader.onRecvMsgOther_put o hconn entry (List.append_nil _).symm rfl

end Framed

end DTun.Node.MasterClient.ReadLoop
