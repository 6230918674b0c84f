import DTun.Util.StreamRead
import DTun.Util.StreamWrite

/-!
# The two ends of a UTP stream

A connecting `UTPHandleImpl`, the one accepted for it, and the `UTPConnection` of each.
The connecting end writes one dummy byte as soon as libutp is connected and reports to the
application when that byte is acknowledged; the accepting end writes nothing before it has
seen and dropped the byte. Neither application sees it.

libutp is a reliable stream in each direction: it delivers what the other end has handed
to it in order and in chunks of any size that fits, and acknowledges in any counts. The
application creates the connection of the connecting end after the connect callback.
-/

namespace DTun.Util.UtpPair

open DTun.Lib DTun.Lib.Runs
open DTun.Util.StreamWrite (Call Answer Served)

variable {capacity : Nat}

/-- A `UTPHandleImpl` with a live socket. `connectCallback` tells that `connectCallback_` is
set, `attached` that a `UTPConnection` has set the other callbacks, `connects` is what the
connect callback was called with and `asserts` that the assertion of `onSent` has held. The
source has no `handed`, `acked` and `got`: they are the bytes given to libutp, how many of
them it acknowledged, and how many of the other end's bytes it delivered. -/
structure Endpoint (capacity : Nat) where
  waitDummy : Bool
  connectCallback : Bool
  attached : Bool
  writer : StreamWrite.Conn
  reader : StreamRead.Conn capacity
  connects : List Int
  asserts : Bool
  handed : List UInt8
  acked : Nat
  got : Nat

/-- A new handle: `connect` has been called or libutp has accepted. -/
def Endpoint.init (waitDummy connectCallback : Bool) : Endpoint capacity where
  waitDummy := waitDummy
  connectCallback := connectCallback
  attached := false
  writer := StreamWrite.init
  reader := StreamRead.init capacity .utp
  connects := []
  asserts := true
  handed := []
  acked := 0
  got := 0

namespace Endpoint

/-- `write` takes nothing while the dummy byte is awaited, else what `utp_write` takes. -/
def admits (h : Endpoint capacity) (_unacked numWritten : Nat) : Bool :=
  !h.waitDummy || numWritten == 0

/-- The connection after a call of the write path, with the bytes it has given to libutp. -/
def wrote (h : Endpoint capacity) (w : StreamWrite.Conn) : Endpoint capacity :=
  { h with writer := w, handed := h.handed ++ w.accepted.drop h.writer.accepted.length }

/-- `readCallback_`, if it is set. -/
def readCallback (h : Endpoint capacity) : Endpoint capacity :=
  if h.attached then { h with reader := StreamRead.onHandleRead h.reader } else h

/-- The dummy byte goes to libutp, which takes it. -/
def onConnect (h : Endpoint capacity) : Endpoint capacity := { h with handed := h.handed ++ [0] }

def onWriteable (h : Endpoint capacity) (answers : List Answer) : Option (Endpoint capacity) :=
  if h.attached then (StreamWrite.onHandleWrite h.admits h.writer 0 0 [] answers).map h.wrote
  else if answers = [] then some h else none

def onSent (h : Endpoint capacity) (numBytes : Nat) (script : List (List Call))
    (answers : List Answer) : Option (Endpoint capacity) :=
  let h := { h with acked := h.acked + numBytes }
  if h.connectCallback then
    if script = [] ∧ answers = [] then
      some { h with
        asserts := h.asserts && numBytes == 1
        connectCallback := false
        connects := h.connects ++ [0] }
    else none
  else if h.attached then
    (StreamWrite.onHandleWrite h.admits { h.writer with acked := h.writer.acked + numBytes } 0
      numBytes script answers).map h.wrote
  else if script = [] ∧ answers = [] then some h else none

/-- The first chunk loses its first byte, whatever else is in it, and lets `write` go on. -/
def onRead (h : Endpoint capacity) (data : List UInt8) (answers : List Answer) :
    Option (Endpoint capacity) :=
  if hfit : data.length ≤ capacity - h.reader.impl.rcvBuff.size then
    let rcvBuff := h.reader.impl.rcvBuff.insertEnd data hfit
    let h := { h with got := h.got + data.length }
    if h.waitDummy then
      let reader := { h.reader with
        impl := { h.reader.impl with rcvBuff := rcvBuff.eraseBegin 1 }
        delivered := h.reader.delivered ++ data.drop 1 }
      (onWriteable { h with reader := reader, waitDummy := false } answers).map readCallback
    else if answers = [] then
      let reader := { h.reader with
        impl := { h.reader.impl with rcvBuff := rcvBuff }
        delivered := h.reader.delivered ++ data }
      some (readCallback { h with reader := reader })
    else none
  else none

end Endpoint

/-- What happens at one end: `create`, `write` and `read` come from the application, the
others from libutp. -/
inductive Action where
  | create
  | write (call : Call)
  | read (len callback : Nat) (readAll : Bool)
  | writable (answers : List Answer)
  | sent (numBytes : Nat) (script : List (List Call)) (answers : List Answer)
  | deliver (numBytes : Nat) (answers : List Answer)
  deriving DecidableEq, Repr

/-- One action, where `stream` is what the other end has handed to libutp. -/
def Endpoint.step (h : Endpoint capacity) (stream : List UInt8) :
    Action → Option (Endpoint capacity)
  | .create =>
    if h.connectCallback = false ∧ h.attached = false then some { h with attached := true }
    else none
  | .write call =>
    if h.attached then (StreamWrite.onWrite h.admits h.writer call).map h.wrote else none
  | .read len callback readAll =>
    if h.attached then some { h with reader := StreamRead.onRead h.reader len callback readAll }
    else none
  | .writable answers => h.onWriteable answers
  | .sent numBytes script answers =>
    if 0 < numBytes ∧ h.acked + numBytes ≤ h.handed.length then h.onSent numBytes script answers
    else none
  | .deliver numBytes answers =>
    if 0 < numBytes ∧ h.got + numBytes ≤ stream.length then
      h.onRead ((stream.drop h.got).take numBytes) answers
    else none

structure Pair (capacity : Nat) where
  connected : Bool
  connector : Endpoint capacity
  acceptor : Endpoint capacity

def init (capacity : Nat) : Pair capacity where
  connected := false
  connector := .init false true
  acceptor := .init true false

/-- `connect` is libutp's report that the connection stands; it comes once. -/
inductive Event where
  | connect
  | connector (a : Action)
  | acceptor (a : Action)
  deriving DecidableEq, Repr

def step (p : Pair capacity) : Event → Option (Pair capacity)
  | .connect =>
    if p.connected then none
    else some { p with connected := true, connector := p.connector.onConnect }
  | .connector a =>
    (p.connector.step p.acceptor.handed a).map fun h => { p with connector := h }
  | .acceptor a =>
    (p.acceptor.step p.connector.handed a).map fun h => { p with acceptor := h }

/-- Requests are not empty, and libutp refuses no write while the socket is there. -/
def Action.Clean : Action → Prop
  | .write call => call.Clean
  | .writable answers => Served answers
  | .sent _ script answers => (∀ calls ∈ script, ∀ call ∈ calls, call.Clean) ∧ Served answers
  | .deliver _ answers => Served answers
  | .create => True
  | .read _ _ _ => True

def Event.Clean : Event → Prop
  | .connect => True
  | .connector a => a.Clean
  | .acceptor a => a.Clean

/-- The calls of `write` that an action makes. -/
def Action.calls : Action → List Call
  | .write call => [call]
  | .sent _ script _ => script.flatten
  | .create => []
  | .read _ _ _ => []
  | .writable _ => []
  | .deliver _ _ => []

def Event.connectorCalls : Event → List Call
  | .connector a => a.calls
  | .connect => []
  | .acceptor _ => []

def Event.acceptorCalls : Event → List Call
  | .acceptor a => a.calls
  | .connect => []
  | .connector _ => []

/-- The bytes of some calls of `write`, in order. -/
def written (calls : List Call) : List UInt8 := (calls.map Call.data).flatten

theorem onHandleRead_delivered (s : StreamRead.Conn capacity) :
    (StreamRead.onHandleRead s).delivered = s.delivered := by
  refine loop_invariant (I := fun t : StreamRead.Conn capacity => t.delivered = s.delivered)
    (fun t t' ht hturn => ?_) rfl _
  obtain ⟨_, _, _, _, _, _, _, _, rfl | ⟨_, rfl⟩⟩ := StreamRead.readTurn_cases hturn
  · exact ht
  · exact ht

theorem onRead_delivered (s : StreamRead.Conn capacity) (len callback : Nat) (readAll : Bool) :
    (StreamRead.onRead s len callback readAll).delivered = s.delivered := by
  simp only [StreamRead.onRead]
  split
  · exact onHandleRead_delivered _
  · rfl

/-- What has been reported and what waiting requests hold is a prefix of what was delivered. -/
theorem reported_of_delivered {s : StreamRead.Conn capacity} (h : StreamRead.Open s) :
    StreamRead.reported s.log ++ StreamRead.pending s <+: s.delivered := by
  rw [← h.account]
  exact List.prefix_append _ _

/-- One end, whose stream begins with `lead` ahead of the application's bytes, and which drops
the first `k` bytes of the other end's stream. -/
structure Sound (stream lead : List UInt8) (k : Nat) (h : Endpoint capacity) : Prop where
  writer : StreamWrite.Sound h.writer 0
  reader : StreamRead.Open h.reader
  lead_le : lead.length ≤ 1
  handed : h.handed = lead ++ h.writer.accepted
  acked : h.acked = (if h.connectCallback then 0 else lead.length) + h.writer.acked
  idle : h.attached = false → h.writer.accepted = []
  unattached : h.connectCallback = true → h.attached = false
  fired : k = 0 → h.connectCallback = false → lead ≠ []
  connects : h.connects = if h.connectCallback then [] else lead.map fun _ => 0
  asserts : h.asserts = true
  waiting : h.waitDummy = true → k = 1 ∧ h.got = 0 ∧ h.writer.accepted = []
  opened : h.waitDummy = false → k ≤ h.got
  got : h.got ≤ stream.length
  delivered : h.reader.delivered = (stream.take h.got).drop k

variable {stream lead : List UInt8} {k : Nat} {h h' : Endpoint capacity}

theorem Sound.attached_connected (hs : Sound stream lead k h) (hatt : h.attached = true) :
    h.connectCallback = false := by
  cases hc : h.connectCallback with
  | false => rfl
  | true => rw [hs.unattached hc] at hatt; cases hatt

/-- The write path of an attached connection, with `n` bytes acknowledged first. -/
theorem Sound.wrote (hs : Sound stream lead k h) (hatt : h.attached = true) {n : Nat}
    {calls : List Call} {w : StreamWrite.Conn} (hw : StreamWrite.Sound w 0)
    (hgrows : StreamWrite.Grows h.admits calls { h.writer with acked := h.writer.acked + n } w) :
    Sound stream lead k ({ h with acked := h.acked + n }.wrote w) := by
  have hconn := hs.attached_connected hatt
  obtain ⟨more, hmore⟩ := hgrows.accepted
  have haccepted : h.writer.accepted ++ w.accepted.drop h.writer.accepted.length = w.accepted := by
    rw [← hmore, List.drop_left]
  refine ⟨hw, hs.reader, hs.lead_le, ?_, ?_, fun hidle => ?_, hs.unattached, hs.fired, hs.connects,
    hs.asserts, fun hwait => ⟨(hs.waiting hwait).1, (hs.waiting hwait).2.1, ?_⟩, hs.opened, hs.got,
    hs.delivered⟩
  · simp only [Endpoint.wrote, hs.handed, List.append_assoc, haccepted]
  · simp only [Endpoint.wrote, hs.acked, hconn, hgrows.acked]
    omega
  · rw [show h.attached = false from hidle] at hatt
    cases hatt
  · -- nothing is admitted while the dummy byte is awaited
    have hshut := hgrows.shut fun _ j hj => by
      have hwait' : h.waitDummy = true := hwait
      simpa [Endpoint.admits, hwait'] using hj
    exact hshut.trans (hs.waiting hwait).2.2

theorem Sound.read (hs : Sound stream lead k h) {r : StreamRead.Conn capacity}
    (hopen : StreamRead.Open r) (hdelivered : r.delivered = h.reader.delivered) :
    Sound stream lead k { h with reader := r } where
  __ := hs
  reader := hopen
  delivered := hdelivered.trans hs.delivered

theorem Sound.readCallback (hs : Sound stream lead k h) : Sound stream lead k h.readCallback := by
  unfold Endpoint.readCallback
  split
  · exact hs.read (StreamRead.onHandleRead_open hs.reader) (onHandleRead_delivered _)
  · exact hs

theorem onWriteable_sound {answers : List Answer} (hserved : Served answers)
    (hs : Sound stream lead k h) (hw : h.onWriteable answers = some h') :
    Sound stream lead k h' := by
  unfold Endpoint.onWriteable at hw
  split at hw
  · rename_i hatt
    obtain ⟨w, hsend, rfl⟩ := Option.map_eq_some_iff.mp hw
    rw [StreamWrite.onHandleWrite_zero] at hsend
    exact hs.wrote (n := 0) hatt (StreamWrite.writeOut_sound hserved hs.writer hsend).1
      (StreamWrite.writeOut_grows hsend)
  · split at hw
    · rw [← Option.some.inj hw]
      exact hs
    · cases hw

/-- The bytes libutp can acknowledge are the dummy byte alone until the connect callback is
called, and those of the application from then on. -/
theorem onSent_sound {n : Nat} {script : List (List Call)} {answers : List Answer}
    (hclean : ∀ calls ∈ script, ∀ call ∈ calls, call.Clean) (hserved : Served answers)
    (hs : Sound stream lead k h) (hn : 0 < n ∧ h.acked + n ≤ h.handed.length)
    (hw : h.onSent n script answers = some h') :
    Sound stream lead k h' := by
  have hhanded := congrArg List.length hs.handed
  have hacked := hs.acked
  have hlead := hs.lead_le
  have hwriter := hs.writer.acked
  rw [List.length_append] at hhanded
  simp only [Endpoint.onSent] at hw
  split at hw
  · rename_i hconn
    split at hw
    · obtain rfl := Option.some.inj hw
      have hidle := hs.idle (hs.unattached hconn)
      rw [hidle, List.length_nil] at hhanded hwriter
      rw [hconn, if_pos rfl] at hacked
      have hone : n = 1 ∧ lead.length = 1 := by omega
      refine ⟨hs.writer, hs.reader, hlead, hs.handed, ?_, hs.idle, fun hc => ?_, fun _ _ hnil => ?_,
        ?_, ?_, hs.waiting, hs.opened, hs.got, hs.delivered⟩
      · simp only [Bool.false_eq_true, if_false]
        omega
      · cases hc
      · rw [hnil] at hone
        cases hone.2
      · obtain ⟨b, hb⟩ := List.length_eq_one_iff.mp hone.2
        simp [hs.connects, hconn, hb]
      · simp [hs.asserts, hone.1]
    · cases hw
  · split at hw
    · rename_i hconn hatt
      obtain ⟨w, hsend, rfl⟩ := Option.map_eq_some_iff.mp hw
      have hn' : 0 < n ∧ h.writer.acked + n ≤ h.writer.accepted.length := by
        rw [if_neg hconn] at hacked
        omega
      have hsent : StreamWrite.step h.admits h.writer (.sent n script answers) = some w := by
        rw [StreamWrite.step, if_pos hn']
        exact hsend
      exact hs.wrote hatt (StreamWrite.sent_sound hclean hserved hs.writer hsent).1
        (StreamWrite.onHandleWrite_grows hsend)
    · -- without a connection nothing of the application is in flight
      rename_i hconn hatt
      have hidle := hs.idle (by simpa using hatt)
      rw [hidle, List.length_nil] at hhanded
      rw [if_neg hconn] at hacked
      omega

/-- The next chunk of a stream. -/
theorem take_drop_chunk {got n : Nat} (hk : k ≤ got) (hgot : got ≤ stream.length) :
    (stream.take got).drop k ++ (stream.drop got).take n = (stream.take (got + n)).drop k := by
  rw [List.take_add, List.drop_append_of_le_length (by rw [List.length_take]; omega)]

/-- A chunk after the dummy byte. -/
theorem Sound.insert (hs : Sound stream lead k h) (hwait : h.waitDummy = false) {n : Nat}
    (hn : h.got + n ≤ stream.length) {data : List UInt8}
    (hdata : data = (stream.drop h.got).take n)
    (hfit : data.length ≤ capacity - h.reader.impl.rcvBuff.size) :
    Sound stream lead k { h with
      got := h.got + data.length
      reader := { h.reader with
        impl := { h.reader.impl with rcvBuff := h.reader.impl.rcvBuff.insertEnd data hfit }
        delivered := h.reader.delivered ++ data } } := by
  have hlen : data.length = n := by
    rw [hdata, List.length_take, List.length_drop]
    omega
  have hk := hs.opened hwait
  refine ⟨hs.writer, ⟨hs.reader.eof, hs.reader.socket, hs.reader.log, hs.reader.waiting, ?_⟩,
    hs.lead_le, hs.handed, hs.acked, hs.idle, hs.unattached, hs.fired, hs.connects, hs.asserts,
    fun hw => ?_, fun _ => Nat.le_trans hk (Nat.le_add_right _ _), ?_, ?_⟩
  · simp only [StreamRead.pending, CircularBuffer.content_insertEnd, ← hs.reader.account,
      List.append_assoc]
  · rw [hwait] at hw
    cases hw
  · rw [hlen]
    exact hn
  · change h.reader.delivered ++ data = (stream.take (h.got + data.length)).drop k
    rw [hs.delivered, hlen, ← take_drop_chunk hk hs.got, hdata]

/-- The first chunk, without its first byte. -/
theorem Sound.insertFirst (hs : Sound stream lead k h) (hwait : h.waitDummy = true) {n : Nat}
    (hn : 0 < n ∧ h.got + n ≤ stream.length) {data : List UInt8}
    (hdata : data = (stream.drop h.got).take n)
    (hfit : data.length ≤ capacity - h.reader.impl.rcvBuff.size) :
    Sound stream lead k { h with
      got := h.got + data.length
      reader := { h.reader with
        impl := { h.reader.impl with
          rcvBuff := (h.reader.impl.rcvBuff.insertEnd data hfit).eraseBegin 1 }
        delivered := h.reader.delivered ++ data.drop 1 }
      waitDummy := false } := by
  obtain ⟨rfl, hgot, haccepted⟩ := hs.waiting hwait
  have hlen : data.length = n := by
    rw [hdata, List.length_take, List.length_drop]
    omega
  have hnone : h.reader.delivered = [] := by rw [hs.delivered, hgot, List.take_zero, List.drop_nil]
  have haccount := hs.reader.account
  rw [hnone, List.append_eq_nil_iff] at haccount
  refine ⟨hs.writer, ⟨hs.reader.eof, hs.reader.socket, hs.reader.log, hs.reader.waiting, ?_⟩,
    hs.lead_le, hs.handed, hs.acked, hs.idle, hs.unattached, hs.fired, hs.connects, hs.asserts,
    fun hw => ?_, fun _ => ?_, ?_, ?_⟩
  · change StreamRead.reported h.reader.log ++ StreamRead.pending h.reader ++
      (h.reader.impl.rcvBuff.content ++ data).drop 1 = h.reader.delivered ++ data.drop 1
    simp only [haccount.1, haccount.2, hnone, List.nil_append]
  · cases hw
  · change 1 ≤ h.got + data.length
    omega
  · rw [hlen]
    exact hn.2
  · change h.reader.delivered ++ data.drop 1 = (stream.take (h.got + data.length)).drop 1
    rw [hnone, hlen, hgot, hdata, hgot, List.drop_zero, List.nil_append, Nat.zero_add]

theorem onRead_sound {n : Nat} {answers : List Answer} (hserved : Served answers)
    (hs : Sound stream lead k h) (hn : 0 < n ∧ h.got + n ≤ stream.length)
    (hr : h.onRead ((stream.drop h.got).take n) answers = some h') :
    Sound stream lead k h' := by
  simp only [Endpoint.onRead] at hr
  split at hr
  · rename_i hfit
    split at hr
    · rename_i hwait
      obtain ⟨m, hm, rfl⟩ := Option.map_eq_some_iff.mp hr
      exact (onWriteable_sound hserved (hs.insertFirst hwait hn rfl hfit) hm).readCallback
    · rename_i hwait
      split at hr
      · obtain rfl := Option.some.inj hr
        exact (hs.insert (by simpa using hwait) hn.2 rfl hfit).readCallback
      · cases hr
  · cases hr

theorem endpoint_step_sound {a : Action} (hclean : a.Clean) (hs : Sound stream lead k h)
    (hstep : h.step stream a = some h') : Sound stream lead k h' := by
  cases a with
  | create =>
    simp only [Endpoint.step] at hstep
    split at hstep
    · rename_i hnew
      obtain rfl := Option.some.inj hstep
      refine ⟨hs.writer, hs.reader, hs.lead_le, hs.handed, hs.acked, fun hc => ?_, fun hc => ?_,
        hs.fired, hs.connects, hs.asserts, hs.waiting, hs.opened, hs.got, hs.delivered⟩
      · cases hc
      · rw [show h.connectCallback = true from hc] at hnew
        cases hnew.1
    · cases hstep
  | write call =>
    simp only [Endpoint.step] at hstep
    split at hstep
    · rename_i hatt
      obtain ⟨w, hw, rfl⟩ := Option.map_eq_some_iff.mp hstep
      exact hs.wrote (n := 0) hatt (StreamWrite.onWrite_sound hclean hs.writer hw)
        (StreamWrite.onWrite_grows hw)
    · cases hstep
  | read len callback readAll =>
    simp only [Endpoint.step] at hstep
    split at hstep
    · obtain rfl := Option.some.inj hstep
      have hopen : StreamRead.Open (StreamRead.onRead h.reader len callback readAll) :=
        StreamRead.step_open (e := .read len callback readAll) hs.reader trivial
      exact hs.read hopen (onRead_delivered _ _ _ _)
    · cases hstep
  | writable answers => exact onWriteable_sound hclean hs hstep
  | sent n script answers =>
    simp only [Endpoint.step] at hstep
    split at hstep
    · rename_i hn
      exact onSent_sound hclean.1 hclean.2 hs hn hstep
    · cases hstep
  | deliver n answers =>
    simp only [Endpoint.step] at hstep
    split at hstep
    · rename_i hn
      exact onRead_sound hclean hs hn hstep
    · cases hstep

/-- Bytes handed to libutp stay handed, and requests are added as they are made. -/
structure Advances (calls : List Call) (h h' : Endpoint capacity) : Prop where
  handed : h.handed <+: h'.handed
  requests : h'.writer.requests = h.writer.requests ++ calls.map Call.data

theorem Advances.of_eq (hhanded : h'.handed = h.handed) (hwriter : h'.writer = h.writer) :
    Advances [] h h' where
  handed := ⟨[], by rw [List.append_nil, hhanded]⟩
  requests := by rw [hwriter, List.map_nil, List.append_nil]

theorem wrote_advances {n : Nat} {calls : List Call} {c w : StreamWrite.Conn}
    (hc : c.requests = h.writer.requests) (hgrows : StreamWrite.Grows h.admits calls c w) :
    Advances calls h ({ h with acked := n }.wrote w) where
  handed := List.prefix_append _ _
  requests := by
    rw [← hc]
    exact hgrows.requests

theorem onWriteable_advances {answers : List Answer} (hw : h.onWriteable answers = some h') :
    Advances [] h h' := by
  unfold Endpoint.onWriteable at hw
  split at hw
  · obtain ⟨w, hsend, rfl⟩ := Option.map_eq_some_iff.mp hw
    exact wrote_advances rfl (StreamWrite.onHandleWrite_grows hsend)
  · split at hw
    · rw [← Option.some.inj hw]
      exact .of_eq rfl rfl
    · cases hw

theorem onSent_advances {n : Nat} {script : List (List Call)} {answers : List Answer}
    (hw : h.onSent n script answers = some h') : Advances script.flatten h h' := by
  simp only [Endpoint.onSent] at hw
  split at hw
  · split at hw
    · rename_i hempty
      rw [← Option.some.inj hw, hempty.1]
      exact .of_eq rfl rfl
    · cases hw
  · split at hw
    · obtain ⟨w, hsend, rfl⟩ := Option.map_eq_some_iff.mp hw
      have hgrows := StreamWrite.onHandleWrite_grows hsend
      refine wrote_advances ?_ hgrows
      rfl
    · split at hw
      · rename_i hempty
        rw [← Option.some.inj hw, hempty.1]
        exact .of_eq rfl rfl
      · cases hw

theorem readCallback_advances {calls : List Call} (ha : Advances calls h h') :
    Advances calls h h'.readCallback := by
  unfold Endpoint.readCallback
  split
  · exact ⟨ha.handed, ha.requests⟩
  · exact ha

theorem onRead_advances {data : List UInt8} {answers : List Answer}
    (hr : h.onRead data answers = some h') : Advances [] h h' := by
  simp only [Endpoint.onRead] at hr
  split at hr
  · split at hr
    · obtain ⟨m, hm, rfl⟩ := Option.map_eq_some_iff.mp hr
      have hwritten := onWriteable_advances hm
      exact readCallback_advances ⟨hwritten.handed, hwritten.requests⟩
    · split at hr
      · rw [← Option.some.inj hr]
        exact readCallback_advances (.of_eq rfl rfl)
      · cases hr
  · cases hr

theorem endpoint_step_advances {a : Action} (hstep : h.step stream a = some h') :
    Advances a.calls h h' := by
  cases a with
  | create =>
    simp only [Endpoint.step] at hstep
    split at hstep
    · rw [← Option.some.inj hstep]
      exact .of_eq rfl rfl
    · cases hstep
  | write call =>
    simp only [Endpoint.step] at hstep
    split at hstep
    · obtain ⟨w, hw, rfl⟩ := Option.map_eq_some_iff.mp hstep
      exact wrote_advances rfl (StreamWrite.onWrite_grows hw)
    · cases hstep
  | read len callback readAll =>
    simp only [Endpoint.step] at hstep
    split at hstep
    · rw [← Option.some.inj hstep]
      exact .of_eq rfl rfl
    · cases hstep
  | writable answers => exact onWriteable_advances hstep
  | sent n script answers =>
    simp only [Endpoint.step] at hstep
    split at hstep
    · exact onSent_advances hstep
    · cases hstep
  | deliver n answers =>
    simp only [Endpoint.step] at hstep
    split at hstep
    · exact onRead_advances hstep
    · cases hstep

/-- What has been delivered stays so when the other end hands over more. -/
theorem Sound.extend (hs : Sound stream lead k h) {stream' : List UInt8}
    (hext : stream <+: stream') : Sound stream' lead k h where
  __ := hs
  got := Nat.le_trans hs.got hext.length_le
  delivered := by
    obtain ⟨more, rfl⟩ := hext
    rw [hs.delivered, List.take_append_of_le_length hs.got]

/-- While the connect callback is due nothing of the application is handed over. -/
theorem Sound.idle_of_due (hs : Sound stream lead k h) (hconn : h.connectCallback = true) :
    h.writer.accepted = [] :=
  hs.idle (hs.unattached hconn)

/-- Without the dummy byte the connect callback is due. -/
theorem Sound.due (hs : Sound stream [] 0 h) : h.connectCallback = true := by
  cases hc : h.connectCallback with
  | true => rfl
  | false => exact absurd rfl (hs.fired rfl hc)

/-- The dummy byte is ahead of everything the application writes. -/
theorem Sound.onConnect (hs : Sound stream [] 0 h) : Sound stream [0] 0 h.onConnect := by
  have hconn := hs.due
  have hidle := hs.idle_of_due hconn
  refine ⟨hs.writer, hs.reader, Nat.le_refl _, ?_, ?_, hs.idle, hs.unattached, ?_, ?_, hs.asserts,
    hs.waiting, hs.opened, hs.got, hs.delivered⟩
  · simp [Endpoint.onConnect, hs.handed, hidle]
  · simp [Endpoint.onConnect, hs.acked, hconn]
  · exact fun _ _ => List.cons_ne_nil _ _
  · simp [Endpoint.onConnect, hs.connects, hconn]

/-- The bytes the connecting end hands over before those of its application. -/
def dummy (p : Pair capacity) : List UInt8 := if p.connected then [0] else []

structure Inv (es : List Event) (p : Pair capacity) : Prop where
  connector : Sound p.acceptor.handed (dummy p) 0 p.connector
  acceptor : Sound p.connector.handed [] 1 p.acceptor
  connectorRequests : p.connector.writer.requests = (es.flatMap Event.connectorCalls).map Call.data
  acceptorRequests : p.acceptor.writer.requests = (es.flatMap Event.acceptorCalls).map Call.data

theorem init_inv : Inv [] (init capacity) := by
  refine ⟨⟨StreamWrite.init_sound, StreamRead.init_open _,
      ?_, ?_, ?_, ?_, ?_, ?_, ?_, ?_, ?_, ?_, ?_, ?_⟩,
    ⟨StreamWrite.init_sound, StreamRead.init_open _,
      ?_, ?_, ?_, ?_, ?_, ?_, ?_, ?_, ?_, ?_, ?_, ?_⟩,
    rfl, rfl⟩ <;> simp [init, Endpoint.init, dummy, StreamWrite.init, StreamRead.init]

theorem step_inv {es : List Event} {e : Event} {p p' : Pair capacity} (hclean : e.Clean)
    (hi : Inv es p) (hs : step p e = some p') : Inv (es ++ [e]) p' := by
  cases e with
  | connect =>
    simp only [step] at hs
    split at hs
    · cases hs
    · rename_i hnew
      obtain rfl := Option.some.inj hs
      have hconnector := hi.connector
      rw [dummy, if_neg hnew] at hconnector
      refine ⟨hconnector.onConnect, hi.acceptor.extend (List.prefix_append _ _), ?_, ?_⟩
      · simpa [Event.connectorCalls, Endpoint.onConnect] using hi.connectorRequests
      · simpa [Event.acceptorCalls] using hi.acceptorRequests
  | connector a =>
    obtain ⟨h, hstep, rfl⟩ := Option.map_eq_some_iff.mp hs
    have hadvances := endpoint_step_advances hstep
    refine ⟨endpoint_step_sound hclean hi.connector hstep,
      hi.acceptor.extend hadvances.handed, ?_, ?_⟩
    · rw [hadvances.requests, hi.connectorRequests]
      simp [Event.connectorCalls]
    · simpa [Event.acceptorCalls] using hi.acceptorRequests
  | acceptor a =>
    obtain ⟨h, hstep, rfl⟩ := Option.map_eq_some_iff.mp hs
    have hadvances := endpoint_step_advances hstep
    refine ⟨hi.connector.extend hadvances.handed,
      endpoint_step_sound hclean hi.acceptor hstep, ?_, ?_⟩
    · simpa [Event.connectorCalls] using hi.connectorRequests
    · rw [hadvances.requests, hi.acceptorRequests]
      simp [Event.acceptorCalls]

theorem run_inv {es : List Event} {p : Pair capacity} (hclean : ∀ e ∈ es, e.Clean)
    (hrun : exec step (init capacity) es = some p) : Inv es p := by
  refine exec_induction (motive := fun es p => (∀ e ∈ es, e.Clean) → Inv es p) (fun _ => init_inv)
    (fun es p e p' _ ih hs hall => ?_) hrun hclean
  refine step_inv (hall e (List.mem_append_right _ List.mem_cons_self)) (ih fun e' he' => ?_) hs
  exact hall e' (List.mem_append_left _ he')

/-- What an application has been given is a prefix of what has been handed over to it. -/
theorem Sound.given_of_handed (hs : Sound stream lead k h) :
    StreamRead.reported h.reader.log ++ StreamRead.pending h.reader <+: stream.drop k := by
  refine (reported_of_delivered hs.reader).trans ?_
  rw [hs.delivered, List.drop_take]
  exact List.take_prefix _ _

theorem Sound.accepted_of_written (hs : Sound stream lead k h) {calls : List Call}
    (hreq : h.writer.requests = calls.map Call.data) : h.writer.accepted <+: written calls := by
  rw [written, ← hreq, ← hs.writer.account]
  exact List.prefix_append _ _

/-- Without its first byte the connecting end's stream is its application's. -/
theorem Inv.connector_stream {es : List Event} {p : Pair capacity} (hi : Inv es p) :
    p.connector.handed.drop 1 = p.connector.writer.accepted := by
  have hconnector := hi.connector
  rw [hconnector.handed, dummy]
  split
  · rfl
  · rename_i hnew
    rw [dummy, if_neg hnew] at hconnector
    rw [hconnector.idle_of_due hconnector.due]
    rfl

/-- What the connecting end hands over first is the dummy byte. -/
theorem Inv.first_byte {es : List Event} {p : Pair capacity} (hi : Inv es p)
    (hne : p.connector.handed ≠ []) : p.connector.handed.head? = some 0 := by
  have hconnector := hi.connector
  cases hnew : p.connected with
  | true => rw [hconnector.handed, dummy, hnew, if_pos rfl, List.cons_append, List.head?_cons]
  | false =>
    rw [dummy, hnew, if_neg Bool.false_ne_true] at hconnector
    refine absurd ?_ hne
    rw [hconnector.handed, hconnector.idle_of_due hconnector.due]
    rfl

/-- The connect callback is called by the first acknowledgement. -/
theorem Inv.connects {es : List Event} {p : Pair capacity} (hi : Inv es p) :
    p.connector.connects = if 0 < p.connector.acked then [0] else [] := by
  have hacked := hi.connector.acked
  cases hc : p.connector.connectCallback with
  | true =>
    have hwriter := hi.connector.writer.acked.2
    rw [hi.connector.idle_of_due hc, List.length_nil] at hwriter
    rw [hc, if_pos rfl] at hacked
    rw [hi.connector.connects, hc, if_pos rfl, if_neg (by omega)]
  | false =>
    have hdummy : dummy p = [0] := by
      have hne := hi.connector.fired rfl hc
      unfold dummy at hne ⊢
      split
      · rfl
      · rename_i hnew
        exact absurd (if_neg hnew) hne
    rw [hc, if_neg Bool.false_ne_true, hdummy, List.length_singleton] at hacked
    rw [hi.connector.connects, hc, if_neg Bool.false_ne_true, hdummy, if_pos (by omega)]
    rfl

/-- For every run of the two ends over libutp, with non-empty write requests and any reads: the
bytes given to each application are a prefix of those the other one has written; the
connect callback has been called, with 0 and once, exactly when the first byte of the
connecting end has been acknowledged, which is the dummy byte; the assertion on that count
holds; and the accepting end has handed nothing to libutp before it consumed that byte. -/
theorem stream_refinement {es : List Event} {p : Pair capacity} (hclean : ∀ e ∈ es, e.Clean)
    (hrun : exec step (init capacity) es = some p) :
    StreamRead.reported p.acceptor.reader.log ++ StreamRead.pending p.acceptor.reader <+:
      written (es.flatMap Event.connectorCalls) ∧
    StreamRead.reported p.connector.reader.log ++ StreamRead.pending p.connector.reader <+:
      written (es.flatMap Event.acceptorCalls) ∧
    p.connector.connects = (if 0 < p.connector.acked then [0] else []) ∧
    (p.connector.handed ≠ [] → p.connector.handed.head? = some 0) ∧
    p.connector.asserts = true ∧
    (p.acceptor.waitDummy = true → p.acceptor.got = 0 ∧ p.acceptor.handed = []) ∧
    (p.acceptor.waitDummy = false → 0 < p.acceptor.got) := by
  have hi := run_inv hclean hrun
  refine ⟨?_, ?_, hi.connects, hi.first_byte, hi.connector.asserts, ?_, hi.acceptor.opened⟩
  · have hgiven := hi.acceptor.given_of_handed
    rw [hi.connector_stream] at hgiven
    exact hgiven.trans (hi.connector.accepted_of_written hi.connectorRequests)
  · have hgiven := hi.connector.given_of_handed
    rw [hi.acceptor.handed, List.nil_append, List.drop_zero] at hgiven
    exact hgiven.trans (hi.acceptor.accepted_of_written hi.acceptorRequests)
  · intro hwait
    obtain ⟨_, hgot, haccepted⟩ := hi.acceptor.waiting hwait
    refine ⟨hgot, ?_⟩
    rw [hi.acceptor.handed, haccepted]
    rfl

/-- The accepting application writes before the dummy byte has come. Byte and data arrive in
one chunk, and each application reads what the other one wrote. -/
theorem stream_refinement_early_write :
    ∃ p, exec step (init 8)
        [.acceptor .create, .acceptor (.write ⟨[7, 8], [.took 0]⟩), .connect,
          .connector (.sent 1 [] []), .connector .create,
          .connector (.write ⟨[1, 2, 3], [.took 2, .took 0]⟩), .acceptor (.read 2 0 true),
          .acceptor (.deliver 3 [.took 2]), .connector (.read 4 0 false),
          .connector (.deliver 1 []), .connector (.sent 2 [] [.took 1])] = some p ∧
      (StreamRead.reported p.acceptor.reader.log = [1, 2] ∧
        StreamRead.reported p.connector.reader.log = [7] ∧ p.connector.acked = 3) ∧
      p.connector.connects = [0] := by
  refine exec_check_and (by decide +kernel) fun p hrun hp => ?_
  rw [(stream_refinement ?_ hrun).2.2.1, hp.2.2]
  · rfl
  · simp [Event.Clean, Action.Clean, StreamWrite.Call.Clean, Served, StreamWrite.Answer.isTook]

end DTun.Util.UtpPair
