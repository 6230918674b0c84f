import DTun.Master.Server
import DTun.Protocol.Layout

/-!
# The read loop of a session at the master

`Session::startRecvHeader`, the handlers that it leads to, and the casts of
`Server::onSessionMessage`. A read that completes without an error has filled the buffer.
`Server.onMessage` takes whole messages, and changes the session object as the read loop does.
-/

namespace DTun.Master.ReadLoop

open Lib Protocol

/-- The completion handlers that `Session` gives to `read`. -/
inductive Handler where
  | onRecvHeader
  | onRecvMsgHello
  | onRecvMsgHelloFast
  | onRecvMsgHelloSymm
  | onRecvMsgOther (msgCode : UInt8)
  deriving DecidableEq, Repr

/-- `probes` are the answers to HELLO_PROBE and `errors` the calls of `errorCallback_`.
`decoded` are the messages as the handlers have read them; the source does not keep them. -/
structure Reader where
  session : Session := {}
  probes : List MsgProbe := []
  errors : List Int := []
  decoded : List OutMsg := []
  deriving DecidableEq, Repr

abbrev Next := Option (Reader × Option (Request Handler))

def startRecvHeader : Request Handler := ⟨Header.packed.size, .onRecvHeader⟩

namespace Reader

variable (o : ByteOrder) (r : Reader)

def error (err : Int) : Next := some ({ r with errors := r.errors ++ [err] }, none)

def decode (session : Session) (msg : OutMsg) : Reader :=
  { r with session := session, decoded := r.decoded ++ [msg] }

def onRecvMsgHelloProbe : Next :=
  let r' := r.decode { r.session with type := .probe } .helloProbe
  some ({ r' with probes :=
      r.probes ++ [⟨.ofNat r.session.peerIp, .ofNat r.session.peerPort⟩] },
    some startRecvHeader)

/-- The `switch` of `onRecvHeader`. -/
def onMsgCode (msgCode : UInt8) : Next :=
  if msgCode = msgHello then
    some (r, some ⟨(MsgHello.packed o).size, .onRecvMsgHello⟩)
  else if msgCode = msgHelloProbe then
    r.onRecvMsgHelloProbe
  else if msgCode = msgHelloFast then
    some (r, some ⟨(MsgHelloFast.packed o).size, .onRecvMsgHelloFast⟩)
  else if msgCode = msgHelloSymm then
    some (r, some ⟨(MsgHelloSymm.packed o).size, .onRecvMsgHelloSymm⟩)
  else if msgCode = msgConnCreate then
    some (r, some ⟨(MsgConnCreate.packed o).size, .onRecvMsgOther msgCode⟩)
  else if msgCode = msgConnClose then
    some (r, some ⟨(MsgConnClose.packed o).size, .onRecvMsgOther msgCode⟩)
  else if msgCode = msgReady then
    some (r, some ⟨(MsgReady.packed o).size, .onRecvMsgOther msgCode⟩)
  else if msgCode = msgNext then
    some (r, some ⟨(MsgNext.packed o).size, .onRecvMsgOther msgCode⟩)
  else r.error 1

def onRecvHeader (err : Int) (buff : List UInt8) : Next :=
  onRecv Header.packed err buff (r.error err) fun header => r.onMsgCode o header.msgCode

/-- A hello sets fields of the session and the next header is read. -/
def onRecvHello {β : Type} (p : Packed β) (err : Int) (buff : List UInt8)
    (session : β → Session) (of : β → OutMsg) : Next :=
  onRecv p err buff (r.error err) fun msg =>
    some (r.decode (session msg) (of msg), some startRecvHeader)

def helloSession (msg : MsgHello) : Session :=
  { r.session with
    type := .persistent
    nodeId := msg.nodeId.toNat
    symm := msg.probePort.toNat ≠ 0 ∧ msg.probePort.toNat ≠ r.session.peerPort }

def onRecvMsgHello (err : Int) (buff : List UInt8) : Next :=
  r.onRecvHello (MsgHello.packed o) err buff r.helloSession .hello

def helloFastSession (msg : MsgHelloFast) : Session :=
  { r.session with type := .fast, nodeId := msg.nodeId.toNat }

def onRecvMsgHelloFast (err : Int) (buff : List UInt8) : Next :=
  r.onRecvHello (MsgHelloFast.packed o) err buff r.helloFastSession .helloFast

def helloSymmSession (msg : MsgHelloSymm) : Session :=
  { r.session with type := .symm, nodeId := msg.nodeId.toNat }

def onRecvMsgHelloSymm (err : Int) (buff : List UInt8) : Next :=
  r.onRecvHello (MsgHelloSymm.packed o) err buff r.helloSymmSession .helloSymm

/-- `Server::onSessionMessage`, which casts the buffer by the code. -/
def onSessionMessage (msgCode : UInt8) (msg : List UInt8) : Option OutMsg :=
  if msgCode = msgConnCreate then some (.connCreate ((MsgConnCreate.packed o).get msg))
  else if msgCode = msgConnClose then some (.connClose ((MsgConnClose.packed o).get msg))
  else if msgCode = msgReady then some (.ready ((MsgReady.packed o).get msg))
  else if msgCode = msgNext then some (.next ((MsgNext.packed o).get msg))
  else none

/-- This handler has no assertion on the size. -/
def onRecvMsgOther (err : Int) (buff : List UInt8) (msgCode : UInt8) : Next :=
  if err ≠ 0 then r.error err
  else (onSessionMessage o msgCode buff).map fun msg =>
    (r.decode r.session msg, some startRecvHeader)

def handle (handler : Handler) (err : Int) (buff : List UInt8) : Next :=
  match handler with
  | .onRecvHeader => r.onRecvHeader o err buff
  | .onRecvMsgHello => r.onRecvMsgHello o err buff
  | .onRecvMsgHelloFast => r.onRecvMsgHelloFast o err buff
  | .onRecvMsgHelloSymm => r.onRecvMsgHelloSymm o err buff
  | .onRecvMsgOther msgCode => r.onRecvMsgOther o err buff msgCode

theorem onRecvHello_put {β : Type} (p : Packed β) (msg : β) (session : β → Session)
    (of : β → OutMsg) :
    r.onRecvHello p 0 (p.put msg) session of =
      some (r.decode (session msg) (of msg), some startRecvHeader) :=
  onRecv_put p msg _ _

end Reader

/-- A node's connection to the master, as the session there reads it. -/
def framing (o : ByteOrder) : Framing Reader Handler Unit OutMsg where
  handle _ r handler buff := r.handle o handler 0 buff
  header := startRecvHeader
  encode := OutMsg.encode o
  decoded := Reader.decoded
  connected _ := True

section Framed

variable (o : ByteOrder) (r : Reader)

/-- A message is decoded if the `switch` asks for its structure and the handler makes it out. -/
theorem decodes_out {β : Type} {msgCode : UInt8} {p : Packed β} {msg : β} {m : OutMsg}
    {handler : Handler}
    (hcode : r.onMsgCode o msgCode = some (r, some ⟨p.size, handler⟩)) (hsize : 0 < p.size)
    (hbody : ∃ session, r.handle o handler 0 (p.put msg) =
      some (r.decode session m, some startRecvHeader)) :
    (framing o).Decodes r (some startRecvHeader) (sendMsg msgCode p msg)
      (r.decoded ++ [m]) := by
  obtain ⟨session, hbody⟩ := hbody
  exact decodes_sendMsg (F := framing o) rfl (fun _ _ => rfl) hcode hsize
    fun _ => ⟨_, hbody, rfl, trivial⟩

/-- HELLO_PROBE is a header alone. -/
theorem decodes_helloProbe :
    (framing o).Decodes r (some startRecvHeader) (Header.packed.put ⟨msgHelloProbe⟩)
      (r.decoded ++ [.helloProbe]) := by
  have hhandle : r.onRecvHeader o 0 (Header.packed.put ⟨msgHelloProbe⟩) =
      r.onMsgCode o msgHelloProbe := onRecv_put Header.packed ⟨msgHelloProbe⟩ _ _
  rw [← List.append_nil (Header.packed.put _)]
  exact .read (Header.packed.length_put _) Nat.one_pos (fun _ => hhandle)
    (fun _ => List.prefix_append _ _) fun _ => .done (F := framing o) _ trivial

/-- The same for the messages that the server casts. -/
theorem decodes_other {β : Type} {msgCode : UInt8} {p : Packed β} {msg : β} {of : β → OutMsg}
    (hcode : r.onMsgCode o msgCode = some (r, some ⟨p.size, .onRecvMsgOther msgCode⟩))
    (hsize : 0 < p.size)
    (hcast : ∀ buff, Reader.onSessionMessage o msgCode buff = some (of (p.get buff))) :
    (framing o).Decodes r (some startRecvHeader) (sendMsg msgCode p msg)
      (r.decoded ++ [of msg]) := by
  refine decodes_out o r hcode hsize ⟨r.session, ?_⟩
  show r.onRecvMsgOther o 0 (p.put msg) msgCode = some (r.decode r.session (of msg), _)
  rw [Reader.onRecvMsgOther, if_neg (by decide), hcast, p.get_put_self]
  rfl

theorem framed : (framing o).Framed where
  header_pos := Nat.one_pos
  decodes r msg _ := by
    cases msg with
    | hello msg =>
      exact decodes_out o r rfl (Nat.succ_pos _)
        ⟨_, r.onRecvHello_put (MsgHello.packed o) msg r.helloSession .hello⟩
    | helloProbe => exact decodes_helloProbe o r
    | helloFast msg =>
      exact decodes_out o r rfl (Nat.succ_pos _)
        ⟨_, r.onRecvHello_put (MsgHelloFast.packed o) msg r.helloFastSession .helloFast⟩
    | helloSymm msg =>
      exact decodes_out o r rfl (Nat.succ_pos _)
        ⟨_, r.onRecvHello_put (MsgHelloSymm.packed o) msg r.helloSymmSession .helloSymm⟩
    | connCreate msg => exact decodes_other o r rfl (Nat.succ_pos _) fun _ => rfl
    | connClose msg => exact decodes_other o r rfl (Nat.succ_pos _) fun _ => rfl
    | ready msg => exact decodes_other o r rfl (Nat.succ_pos _) fun _ => rfl
    | next msg => exact decodes_other o r rfl (Nat.succ_pos _) fun _ => rfl

end Framed

def fromProtocolConnId (connId : ProtocolConnId) : ConnId :=
  ⟨connId.nodeId.toNat, connId.connIdx.toNat⟩

def toUpMsg : OutMsg → UpMsg
  | .hello msg => .hello msg.nodeId.toNat msg.probeIp.toNat msg.probePort.toNat
  | .helloProbe => .helloProbe
  | .helloFast msg => .helloFast msg.nodeId.toNat (fromProtocolConnId msg.connId)
  | .helloSymm msg => .helloSymm msg.nodeId.toNat (fromProtocolConnId msg.connId)
  | .connCreate msg =>
    .connCreate (fromProtocolConnId msg.connId) msg.dstNodeId.toNat msg.remoteIp.toNat
      msg.remotePort.toNat (msg.bestEffort != 0)
  | .connClose msg => .connClose (fromProtocolConnId msg.connId) (msg.established != 0)
  | .ready msg => .ready (fromProtocolConnId msg.connId)
  | .next msg => .next (fromProtocolConnId msg.connId)

namespace Reader

variable {o : ByteOrder} {r r' : Reader}

/-- The session object after a message. -/
def sessionAfter (r : Reader) : OutMsg → Session
  | .hello msg => r.helloSession msg
  | .helloProbe => { r.session with type := .probe }
  | .helloFast msg => r.helloFastSession msg
  | .helloSymm msg => r.helloSymmSession msg
  | _ => r.session

/-- What a handler has done: made out one message, or none and left the session as it was. -/
def Decoded (r r' : Reader) : Prop :=
  (r'.decoded = r.decoded ∧ r'.session = r.session) ∨
    ∃ msg, r'.decoded = r.decoded ++ [msg] ∧ r'.session = r.sessionAfter msg

theorem onRecv_decoded {β : Type} {p : Packed β} {err : Int} {buff : List UInt8} {k : β → Next}
    {next : Option (Request Handler)} (h : onRecv p err buff (r.error err) k = some (r', next))
    (hk : ∀ msg, k msg = some (r', next) → r.Decoded r') : r.Decoded r' := by
  unfold onRecv at h
  split at h
  · cases h
    exact Or.inl ⟨rfl, rfl⟩
  · obtain ⟨-, h⟩ := Option.ite_none_right_eq_some.mp h
    exact hk _ h

theorem onMsgCode_decoded {msgCode : UInt8} {next : Option (Request Handler)}
    (h : r.onMsgCode o msgCode = some (r', next)) : r.Decoded r' := by
  by_cases hprobe : msgCode = msgHelloProbe
  · rw [hprobe] at h
    cases h
    exact Or.inr ⟨.helloProbe, rfl, rfl⟩
  · refine Or.inl ?_
    unfold onMsgCode at h
    rw [if_neg hprobe] at h
    split_ifs at h <;> (cases h; exact ⟨rfl, rfl⟩)

theorem onRecvMsgOther_decoded {err : Int} {buff : List UInt8} {msgCode : UInt8}
    {next : Option (Request Handler)}
    (h : r.onRecvMsgOther o err buff msgCode = some (r', next)) : r.Decoded r' := by
  unfold onRecvMsgOther at h
  split at h
  · cases h
    exact Or.inl ⟨rfl, rfl⟩
  · obtain ⟨msg, hmsg, ⟨⟩⟩ := Option.map_eq_some_iff.mp h
    refine Or.inr ⟨msg, rfl, ?_⟩
    unfold onSessionMessage at hmsg
    split_ifs at hmsg <;> (cases hmsg; rfl)

theorem handle_decoded {handler : Handler} {err : Int} {buff : List UInt8}
    {next : Option (Request Handler)} (h : r.handle o handler err buff = some (r', next)) :
    r.Decoded r' := by
  cases handler with
  | onRecvHeader =>
    rw [handle, onRecvHeader] at h
    exact onRecv_decoded h fun _ => onMsgCode_decoded
  | onRecvMsgHello =>
    rw [handle, onRecvMsgHello, onRecvHello] at h
    refine onRecv_decoded h fun msg hmsg => ?_
    cases hmsg
    exact Or.inr ⟨.hello msg, rfl, rfl⟩
  | onRecvMsgHelloFast =>
    rw [handle, onRecvMsgHelloFast, onRecvHello] at h
    refine onRecv_decoded h fun msg hmsg => ?_
    cases hmsg
    exact Or.inr ⟨.helloFast msg, rfl, rfl⟩
  | onRecvMsgHelloSymm =>
    rw [handle, onRecvMsgHelloSymm, onRecvHello] at h
    refine onRecv_decoded h fun msg hmsg => ?_
    cases hmsg
    exact Or.inr ⟨.helloSymm msg, rfl, rfl⟩
  | onRecvMsgOther msgCode => exact onRecvMsgOther_decoded h

end Reader

theorem onSessionStartPersistent_session (st : Server) (s : Nat) :
    (st.onSessionStartPersistent s).1.session = st.session := by
  rcases st.onSessionStartPersistent_cases s with h | ⟨other, -, -, -, hpers, h⟩
  · rw [h]
  · rw [h, Server.removeSession_persistent hpers]

/-- The server's session object changes as the reader's, message by message. -/
theorem onMessage_session (st : Server) (s : Nat) {r : Reader} (hsess : st.session s = r.session)
    (msg : OutMsg) : (st.onMessage s (toUpMsg msg)).1.session s = r.sessionAfter msg := by
  cases msg with
  | hello msg =>
    show (Server.onSessionStartPersistent _ s).1.session s = r.helloSession msg
    rw [onSessionStartPersistent_session]
    show Function.update st.session s _ s = _
    rw [Function.update_self, hsess]
    rfl
  | helloProbe =>
    show Function.update st.session s _ s = _
    rw [Function.update_self, hsess]
    rfl
  | helloFast msg =>
    show Function.update st.session s _ s = _
    rw [Function.update_self, hsess]
    rfl
  | helloSymm msg =>
    show Function.update st.session s _ s = _
    rw [Function.update_self, hsess]
    rfl
  | connCreate msg =>
    show (Server.onSessionConnCreate ..).1.session s = r.session
    rw [← hsess]
    rcases st.onSessionConnCreate_cases s _ _ _ _ _ with
      ⟨_, h⟩ | ⟨_, _, _, -, -, -, -, -, -, h⟩
    · rw [h]
    · rw [h]
  | connClose msg =>
    show (Server.onSessionConnClose ..).1.session s = r.session
    rw [← hsess]
    rcases st.onSessionConnClose_cases s _ _ with ⟨-, h⟩ | ⟨_, _, _, -, -, h⟩
    · rw [h]
    · rw [h]
  | ready msg => exact hsess
  | next msg => exact hsess

/-- A handler that makes out a message leaves the session as the server does on that message,
and one that does not leaves it alone. -/
theorem handle_onMessage {o : ByteOrder} {r r' : Reader} {handler : Handler} {err : Int}
    {buff : List UInt8} {next : Option (Request Handler)} (st : Server) (s : Nat)
    (hsess : st.session s = r.session)
    (h : r.handle o handler err buff = some (r', next)) :
    (r'.decoded = r.decoded ∧ r'.session = st.session s) ∨
      ∃ msg, r'.decoded = r.decoded ++ [msg] ∧
        r'.session = (st.onMessage s (toUpMsg msg)).1.session s := by
  rcases Reader.handle_decoded h with ⟨hnone, hsame⟩ | ⟨msg, hmsg, hafter⟩
  · exact Or.inl ⟨hnone, hsame.trans hsess.symm⟩
  · exact Or.inr ⟨msg, hmsg, hafter.trans (onMessage_session st s hsess msg).symm⟩

/-- The server after the messages of one session. -/
def replay (st : Server) (s : Nat) (msgs : List OutMsg) : Server :=
  msgs.foldl (fun st msg => (st.onMessage s (toUpMsg msg)).1) st

/-- At any moment of the read loop, on a stream that delivers in portions of any size, the session
is as it is at a server that was given the messages decoded so far, each as a whole. -/
theorem session_replay {o : ByteOrder} {st : Server} {s : Nat} {buff : List UInt8}
    {es : List (Framing.Event Unit OutMsg)} {f : Framing.State Reader Handler OutMsg}
    (h : Runs.exec (framing o).step ((framing o).start { session := st.session s } buff) es =
      some f) : f.app.session = (replay st s f.app.decoded).session s := by
  refine Framing.exec_app (I := fun r => r.session = (replay st s r.decoded).session s)
    (fun _ r _ _ r' _ hr hhandle => ?_) rfl h
  rcases handle_onMessage (replay st s r.decoded) s hr.symm hhandle with
    ⟨hnone, hsame⟩ | ⟨msg, hmsg, hafter⟩
  · rw [hnone, hsame]
  · rw [hmsg, hafter]
    simp only [replay, List.foldl_append, List.foldl_cons, List.foldl_nil]

/-- A hello, of which the structure comes in two portions. -/
def helloRun : List (Framing.Event Unit OutMsg) :=
  [.write (.hello ⟨7, 1, 2⟩), .arrive 11, .recv 1 (), .recv 4 (), .recv 6 ()]

theorem session_replay_helloRun :
    ∃ f, Runs.exec (framing .little).step ((framing .little).start {} []) helloRun = some f ∧
      f.app.session.nodeId = 7 ∧ f.app.session = (replay .init 0 f.app.decoded).session 0 := by
  exact Runs.exec_check_and (by decide +kernel) fun _ hrun _ => session_replay hrun

end DTun.Master.ReadLoop
