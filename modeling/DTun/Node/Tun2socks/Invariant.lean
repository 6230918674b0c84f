import DTun.Node.Tun2socks.Client

/-!
# No client is used after it was freed

What holds of a client between the handlers, by phases: while its connection is there
(`Opened`), when the connection is gone and data for DTCP is left (`Closed`), and when it is
freed (`Freed`). The functions that close a side lead from one phase to another.
-/

namespace DTun.Node.Tun2socks

theorem ok_bind {α β : Type} (a : α) (f : α → Except Fault β) :
    (Except.ok a >>= f) = f a := rfl

theorem require_bind {α : Type} {p : Prop} [Decidable p] (h : p) {f : Unit → Except Fault α} :
    (require p >>= f) = f () := by
  rw [require, if_pos h, ok_bind]

namespace State

variable {s s' : State} {a : Answers} {n : Nat} {α : Type} {f : Unit → Except Fault α}

theorem alive_bind (h : s.freed = false) : (s.alive >>= f) = f () := by
  rw [alive, h]
  rfl

theorem usePcb_bind (h : s.pcb.stage.usable = true) : (s.usePcb >>= f) = f () := by
  rw [usePcb, if_pos h, ok_bind]

/-- The part of `dtcp_recv_buf` that `tcp_write` has not taken. -/
def unwritten (s : State) : List UInt8 :=
  match s.dtcpRecvBuf with
  | none => []
  | some data => data.drop s.dtcpRecvBufSent

/-- All that came from DTCP was written to the connection and acknowledged. -/
def Flushed (s : State) : Prop := s.dtcpClosed = true ∧ s.unwritten = [] ∧ s.pcb.unacked = 0

/-- What holds even of a client that was freed. -/
structure Base (s : State) : Prop where
  /-- A callback knows whether `tcp_abort` was called in it, and whether the client was freed. -/
  frames : ∀ f ∈ s.frame, f.prev = none ∧ f.abortCalled = s.aborted ∧
    f.dead = if s.aborted then 1 else if s.freed then -1 else 0
  returned : ∀ r ∈ s.returned, r.1 = if r.2 then .abrt else .ok
  /-- No byte is lost, added or moved. -/
  toDtcp : s.received = s.toDtcp ++ s.buf
  fromDtcp : s.fromDtcp = s.written ++ s.unwritten

/-- A client that is not freed, whatever has become of its connection. -/
structure Core (s : State) : Prop extends Base s where
  notFreed : s.freed = false
  /-- `dead_aborted` points to the frame of the callback that is being executed. -/
  dead : s.aborted = false → s.deadAborted = s.frame.map Frame.no
  dtcpFreed : s.dtcp.freed = s.dtcpClosed
  up : s.dtcp.up = s.dtcpUp
  notUp : s.dtcpUp = false →
    s.dtcpRecvBuf = none ∧ s.dtcpRecvTcpPending = 0 ∧ s.dtcp.send = none ∧ s.dtcp.recv = false
  send : s.dtcpClosed = false → s.dtcpUp = true → (s.dtcp.send = none ↔ s.buf = [])
  /-- The memory that was handed to the sender has not changed. -/
  sending : ∀ data ∈ s.dtcp.send, data <+: s.buf
  recv : s.dtcp.recv = true → s.dtcpRecvBuf = none

/-- The connection is there. -/
structure Live (s : State) : Prop extends Core s where
  clientClosed : s.clientClosed = false
  aborted : s.aborted = false
  usable : s.pcb.stage.usable = true
  failed : s.dtcpClosed = true → s.dtcp.failed = true

theorem Live.not_closed (h : s.Live) : ¬s.clientClosed = true :=
  h.clientClosed ▸ Bool.false_ne_true

structure Connected (s : State) : Prop extends Live s where
  errFunc : s.pcb.errFunc = true
  recvFunc : s.pcb.recvFunc = !s.dtcpClosed
  sentFunc : s.pcb.sentFunc = s.dtcpUp
  pending : s.dtcpRecvTcpPending = s.pcb.unacked
  window : s.pcb.rcvWnd + s.buf.length = tcpWnd

structure Opened (s : State) : Prop extends Connected s where
  /-- What is left in the buffer waits for an acknowledgement. -/
  waiting : ∀ data ∈ s.dtcpRecvBuf, s.dtcpRecvWaiting = true ∧ s.dtcpRecvBufSent < data.length ∧
    0 < s.dtcpRecvTcpPending
  receiving : s.dtcpClosed = false → s.dtcpUp = true → s.dtcpRecvBuf = none → s.dtcp.recv = true
  flushing : s.dtcpClosed = true → s.dtcpUp = true ∧ 0 < s.dtcpRecvTcpPending

/-- The connection is gone. It was closed when its data had ended, or when it had got all data. -/
structure Gone (s : State) : Prop extends Core s where
  unusable : s.pcb.stage.usable = false
  inOrder : s.pcb.stage = .closed → s.eof = true ∨ s.Flushed

structure Closed (s : State) : Prop extends Gone s where
  clientClosed : s.clientClosed = true
  dtcpClosed : s.dtcpClosed = false
  buffered : s.buf ≠ []

/-- DTCP has failed, the program ends, or DTCP has taken all data. -/
def Drained (s : State) : Prop := s.dtcp.failed = true ∨ s.quitting = true ∨ s.buf = []

structure Freed (s : State) : Prop extends Base s where
  freed : s.freed = true
  unusable : s.pcb.stage.usable = false
  inOrder : s.pcb.stage = .closed → s.eof = true ∨ s.Flushed
  dtcpFreed : s.dtcp.freed = true
  drained : s.Drained

inductive Inv (s : State) : Prop where
  | opened (h : s.Opened)
  | closed (h : s.Closed)
  | freed (h : s.Freed)

/-- The handler comes to its end, and the invariant holds. -/
def Fine (r : Res) : Prop := ∃ s', r = .ok s' ∧ s'.Inv

theorem Fine.ok (h : s.Inv) : Fine (.ok s) := ⟨s, rfl, h⟩

theorem deadKillWith_eq (h : s.deadAborted = s.frame.map Frame.no) (val : Int) :
    s.deadKillWith val = .ok (s.kill val) := by
  rw [deadKillWith, if_pos h]
  split
  · rename_i hnone
    have hframe : s.frame = none := by simpa [h] using hnone
    obtain ⟨⟩ := s
    cases hframe
    rfl
  · rfl

/-- A client is freed when both of its sides are closed. -/
theorem Gone.clientDealloc (h : s.Gone) (hc : s.clientClosed = true) (hd : s.dtcpClosed = true)
    (hdrained : s.Drained) : Fine s.clientDealloc := by
  have hdtcp : s.dtcp.freed = true := h.dtcpFreed.trans hd
  rw [State.clientDealloc, alive_bind h.notFreed, require_bind ⟨hc, hd⟩]
  cases ha : s.aborted with
  | true =>
    refine .ok (.freed { h with
      freed := rfl, frames := ?_, dtcpFreed := hdtcp, drained := hdrained })
    intro f hf
    have := h.frames f hf
    simp_all
  | false =>
    rw [if_neg Bool.false_ne_true, deadKillWith_eq (h.dead ha), ok_bind]
    refine .ok (.freed { h with
      freed := rfl, frames := ?_, dtcpFreed := hdtcp, drained := hdrained })
    intro f hf
    obtain ⟨g, hg, rfl⟩ := Option.map_eq_some_iff.mp hf
    have := h.frames g hg
    simp_all [kill]

theorem Core.dnodeTCPClientFree (h : s.Core) : s.dnodeTCPClientFree.Core :=
  { h with
    dtcpFreed := rfl
    notUp := fun hup => ⟨(h.notUp hup).1, (h.notUp hup).2.1, rfl, rfl⟩
    send := by rintro ⟨⟩
    sending := by rintro _ ⟨⟩
    recv := by rintro ⟨⟩ }

/-- DTCP is freed after the connection. -/
theorem Gone.clientFreeDtcp (h : s.Gone) (hc : s.clientClosed = true) (hd : s.dtcpClosed = false)
    (hdrained : s.Drained) : Fine (clientFreeDtcp (n + 1) s a) := by
  have hgone : s.dnodeTCPClientFree.Gone := { h with
    toCore := h.toCore.dnodeTCPClientFree
    inOrder := fun hclosed => (h.inOrder hclosed).imp_right fun hf => ⟨rfl, hf.2⟩ }
  have hsent : ¬s.dnodeTCPClientFree.unsentToClient = true := by
    simp [unsentToClient, dnodeTCPClientFree, hc]
  rw [State.clientFreeDtcp, alive_bind h.notFreed, require_bind hd, stopReceiving,
    if_neg (by simp [hc]), ok_bind, if_neg hsent, if_neg (by simp [dnodeTCPClientFree, hc])]
  exact hgone.clientDealloc hc rfl hdrained

theorem Gone.clientHandleFreedClient (h : s.Gone) (hc : s.clientClosed = false)
    (hfailed : s.dtcpClosed = true → s.dtcp.failed = true) :
    Fine (clientHandleFreedClient (n + 2) s a) := by
  have hgone : s.setClientClosed.Gone := { h with }
  rw [State.clientHandleFreedClient, alive_bind h.notFreed, require_bind hc]
  dsimp only
  split_ifs with hleft hd
  · exact .ok (.closed { hgone with
      clientClosed := rfl, dtcpClosed := hleft.2, buffered := hleft.1 })
  · have hempty : s.buf = [] := not_not.mp fun hne => hleft ⟨hne, hd⟩
    exact hgone.clientFreeDtcp rfl hd (.inr (.inr hempty))
  · have hd : s.dtcpClosed = true := Bool.not_eq_false _ ▸ hd
    exact hgone.clientDealloc rfl hd (.inl (hfailed hd))

/-- After `client_abort_pcb`. -/
def pcbAborted (s : State) : State := kill { s.removeCallbacks.tcpAbort with aborted := true } 1

theorem Live.clientAbortPcb (h : s.Live) : s.removeCallbacks.clientAbortPcb = .ok s.pcbAborted := by
  have haborted : s.removeCallbacks.aborted = false := h.aborted
  rw [State.clientAbortPcb, require_bind haborted,
    usePcb_bind (s := s.removeCallbacks) h.usable]
  refine deadKillWith_eq ?_ 1
  show s.deadAborted = (s.frame.map _).map Frame.no
  rw [h.dead h.aborted, Option.map_map]
  rfl

theorem Live.pcbAborted (h : s.Live) : s.pcbAborted.Gone := by
  refine { h with unusable := rfl, inOrder := by rintro ⟨⟩, frames := ?_, dead := by rintro ⟨⟩ }
  intro f hf
  obtain ⟨g, hg, rfl⟩ := Option.map_eq_some_iff.mp hf
  obtain ⟨g', hg', rfl⟩ := Option.map_eq_some_iff.mp hg
  exact ⟨(h.frames g' hg').1, rfl, rfl⟩

theorem Live.clientFreeClient (h : s.Live) (horder : s.eof = true ∨ s.Flushed) :
    Fine (clientFreeClient (n + 3) s a) := by
  rw [State.clientFreeClient, alive_bind h.notFreed, require_bind h.clientClosed,
    usePcb_bind h.usable, closePcb]
  split
  · have hgone : (s.removeCallbacks.setStage .closed).Gone :=
      { h with unusable := rfl, inOrder := fun _ => horder }
    exact hgone.clientHandleFreedClient h.clientClosed h.failed
  · rw [h.clientAbortPcb, ok_bind]
    exact h.pcbAborted.clientHandleFreedClient h.clientClosed h.failed

theorem Live.clientAbortClient (h : s.Live) : Fine (s.clientAbortClient a) := by
  rw [State.clientAbortClient, alive_bind h.notFreed, require_bind h.clientClosed,
    usePcb_bind h.usable, h.clientAbortPcb, ok_bind]
  exact h.pcbAborted.clientHandleFreedClient h.clientClosed h.failed

theorem Live.dnodeTCPClientFree (h : s.Live) (hf : s.dtcp.failed = true) :
    s.dnodeTCPClientFree.Live :=
  { h with toCore := h.toCore.dnodeTCPClientFree, failed := fun _ => hf }

theorem Connected.unsentToClient (h : s.Connected) (hup : s.dtcpUp = true) :
    s.removeRecvFunc.dnodeTCPClientFree.unsentToClient = true ↔
      s.dtcpRecvBuf ≠ none ∨ 0 < s.dtcpRecvTcpPending := by
  simp [State.unsentToClient, State.dnodeTCPClientFree, removeRecvFunc, hup, h.clientClosed,
    Option.isSome_iff_ne_none]

/-- The data of DTCP that is left is still sent to the connection. -/
theorem Opened.flush (h : s.Opened) (hf : s.dtcp.failed = true) (hup : s.dtcpUp = true)
    (hleft : s.dtcpRecvBuf ≠ none ∨ 0 < s.dtcpRecvTcpPending) :
    s.removeRecvFunc.dnodeTCPClientFree.Opened := by
  have hpos : 0 < s.dtcpRecvTcpPending := by
    rcases hleft with hbuf | hpos
    · obtain ⟨data, hdata⟩ := Option.ne_none_iff_exists'.mp hbuf
      exact (h.waiting data hdata).2.2
    · exact hpos
  exact { h.toLive.dnodeTCPClientFree hf, h with
    recvFunc := rfl
    receiving := by rintro ⟨⟩
    flushing := fun _ => ⟨hup, hpos⟩ }

theorem Opened.clientFreeDtcp (h : s.Opened) (hd : s.dtcpClosed = false)
    (hf : s.dtcp.failed = true) : Fine (clientFreeDtcp (n + 4) s a) := by
  have hlive := h.toLive.dnodeTCPClientFree hf
  have hflushed (hbuf : s.dtcpRecvBuf = none) (hpending : s.dtcpRecvTcpPending = 0) :
      s.dnodeTCPClientFree.Flushed := by
    refine ⟨rfl, ?_, h.pending.symm.trans hpending⟩
    show s.unwritten = []
    rw [unwritten, hbuf]
  rw [State.clientFreeDtcp, alive_bind h.notFreed, require_bind hd, stopReceiving]
  cases hup : s.dtcpUp with
  | false =>
    obtain ⟨hbuf, hpending, -⟩ := h.notUp hup
    have hsent : ¬s.dnodeTCPClientFree.unsentToClient = true := by
      simp [State.unsentToClient, State.dnodeTCPClientFree, hup]
    rw [Bool.false_and, if_neg Bool.false_ne_true, ok_bind, if_neg hsent,
      if_pos (show s.dnodeTCPClientFree.clientClosed = false from h.clientClosed)]
    exact hlive.clientFreeClient (.inr (hflushed hbuf hpending))
  | true =>
    rw [if_pos (by simp [h.clientClosed]), usePcb_bind h.usable]
    show Fine (if s.removeRecvFunc.dnodeTCPClientFree.unsentToClient = true then _ else
      if s.clientClosed = false then _ else _)
    rw [if_pos h.clientClosed]
    split
    · rename_i hleft
      exact .ok (.opened (h.flush hf hup ((h.unsentToClient hup).mp hleft)))
    · rename_i hleft
      rw [h.unsentToClient hup, not_or, not_not] at hleft
      have hlive' : s.removeRecvFunc.dnodeTCPClientFree.Live := { hlive with }
      exact hlive'.clientFreeClient (.inr (hflushed hleft.1 (Nat.eq_zero_of_not_pos hleft.2)))

end State

end DTun.Node.Tun2socks
