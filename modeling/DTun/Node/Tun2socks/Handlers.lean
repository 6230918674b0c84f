import DTun.Node.Tun2socks.Invariant

/-!
# What each handler does

Each handler, called in a phase of the client in which lwIP or DTCP may call it, comes to its end
and keeps the invariant.
-/

namespace DTun.Node.Tun2socks

namespace State

variable {s s' : State} {a : Answers} {bytes : List UInt8} {k len : Nat}

theorem Connected.deadEnter (h : s.Connected) (hf : s.frame = none) : s.deadEnter.Connected := by
  refine { h with frames := ?_, dead := fun _ => rfl }
  rintro f ⟨⟩
  have hdead := h.dead h.aborted
  simp [hdead, hf, State.deadEnter, h.aborted, h.notFreed]

theorem Connected.syncCommit (h : s.Connected) : s.syncCommit.Connected := by
  refine { h with frames := ?_, dead := fun ha => ?_ }
  · rintro f hf
    obtain ⟨g, hg, rfl⟩ := Option.map_eq_some_iff.mp hf
    exact h.frames g hg
  · show s.deadAborted = (s.frame.map _).map Frame.no
    rw [h.dead ha, Option.map_map]
    rfl

theorem Opened.deadEnter (h : s.Opened) (hf : s.frame = none) : s.deadEnter.Opened :=
  ⟨h.toConnected.deadEnter hf, h.waiting, h.receiving, h.flushing⟩

theorem Opened.syncCommit (h : s.Opened) : s.syncCommit.Opened :=
  ⟨h.toConnected.syncCommit, h.waiting, h.receiving, h.flushing⟩

theorem listenerAcceptFunc_opened : listenerAcceptFunc.Opened := by
  refine Opened.syncCommit ⟨?_, by rintro _ ⟨⟩, by rintro _ ⟨⟩, by rintro ⟨⟩⟩
  refine Connected.deadEnter ⟨⟨⟨⟨?_, ?_, rfl, rfl⟩, rfl, fun _ => rfl, rfl, rfl, fun _ =>
    ⟨rfl, rfl, rfl, rfl⟩, ?_, ?_, ?_⟩, rfl, rfl, rfl, ?_⟩, rfl, rfl, rfl, rfl, rfl⟩ rfl
  · rintro _ ⟨⟩
  · rintro _ ⟨⟩
  · rintro _ ⟨⟩
  · rintro _ ⟨⟩
  · rintro ⟨⟩
  · rintro ⟨⟩

/-- The sender is given what is in the buffer. -/
def sendStarted (s : State) : State := { s with dtcp := { s.dtcp with send := some s.buf } }

theorem senderSend_eq (h : s.dtcp.send = none) : s.senderSend = .ok s.sendStarted := by
  rw [senderSend, require_bind h]
  rfl

theorem clientSendToDtcp_eq (hfreed : s.freed = false) (hd : s.dtcpClosed = false)
    (hup : s.dtcpUp = true) (hne : s.buf ≠ []) (hsend : s.dtcp.send = none) :
    s.clientSendToDtcp = .ok s.sendStarted := by
  rw [clientSendToDtcp, alive_bind hfreed, require_bind ⟨hd, hup, hne⟩, senderSend_eq hsend]

/-- The buffer changes, and with it what the sender is given. -/
theorem Core.setBuf (h : s.Core) {buf toDtcp received : List UInt8} (send : Option (List UInt8))
    (hdata : received = toDtcp ++ buf) (hnotUp : s.dtcpUp = false → send = none)
    (hsend : s.dtcpClosed = false → s.dtcpUp = true → (send = none ↔ buf = []))
    (hsending : ∀ data ∈ send, data <+: buf) :
    Core { s with buf, toDtcp, received, dtcp := { s.dtcp with send } } :=
  { h with
    toDtcp := hdata
    notUp := fun hup => ⟨(h.notUp hup).1, (h.notUp hup).2.1, hnotUp hup, (h.notUp hup).2.2.2⟩
    send := hsend
    sending := hsending }

theorem Connected.window_buffered (h : s.Connected) (hlen : bytes.length ≤ s.pcb.rcvWnd) :
    s.pcb.rcvWnd - bytes.length + (s.buf ++ bytes).length = tcpWnd := by
  rw [List.length_append]
  have := h.window
  omega

theorem Opened.clientRecvFunc (h : s.Opened) (hf : s.frame = none) (hrecv : s.pcb.recvFunc = true)
    (hne : bytes ≠ []) (hlen : bytes.length ≤ s.pcb.rcvWnd) : Fine (s.clientRecvFunc bytes) := by
  have hd : s.dtcpClosed = false := by
    have := h.recvFunc
    rw [hrecv] at this
    simpa using this.symm
  have hroom : ¬tcpWnd - s.buf.length < bytes.length := by
    have := h.window
    omega
  have hin := h.deadEnter hf
  have hdata : s.received ++ bytes = s.toDtcp ++ (s.buf ++ bytes) := by
    rw [h.toDtcp, List.append_assoc]
  rw [State.clientRecvFunc, alive_bind h.notFreed, require_bind ⟨h.clientClosed, hne⟩,
    if_neg hroom]
  show Fine (if (s.buf ++ bytes).length = bytes.length ∧ s.dtcpUp = true then _ else _)
  split
  · rename_i hfirst
    have hempty : s.buf = [] := by
      have := hfirst.1
      rw [List.length_append] at this
      exact List.length_eq_zero_iff.mp (by omega)
    have hsend : s.dtcp.send = none := (h.send hd hfirst.2).mpr hempty
    rw [require_bind (show (s.deadEnter.buffered bytes).dtcpClosed = false from hd),
      clientSendToDtcp_eq (s := s.deadEnter.buffered bytes) h.notFreed hd hfirst.2
        (by simp [State.buffered, hne]) hsend, ok_bind]
    -- the first data in the buffer is sent at once
    have hcore := hin.toCore.setBuf (some (s.buf ++ bytes)) hdata
      (fun hup => by cases hfirst.2.symm.trans hup) (fun _ _ => by simp [hne])
      (by rintro _ ⟨⟩; exact List.prefix_rfl)
    have hopened : (s.deadEnter.buffered bytes).sendStarted.Opened :=
      { hcore, hin with window := h.window_buffered hlen }
    exact .ok (.opened hopened.syncCommit)
  · rename_i hnot
    have hcore := hin.toCore.setBuf s.dtcp.send hdata (fun hup => (h.notUp hup).2.2.1)
      (fun _ hup => by
        have hbuf : s.buf ≠ [] := fun hempty => hnot ⟨by rw [hempty]; rfl, hup⟩
        rw [h.send hd hup]
        simp [hbuf])
      fun data hdata => (h.sending data hdata).trans (List.prefix_append _ _)
    exact .ok (.opened { hcore, hin with window := h.window_buffered hlen })

theorem Opened.clientRecvFin (h : s.Opened) (hf : s.frame = none) : Fine (s.clientRecvFin a) := by
  have hlive : s.deadEnter.setEof.Live := { (h.deadEnter hf).toLive with }
  rw [State.clientRecvFin, alive_bind h.notFreed, require_bind h.clientClosed]
  exact hlive.clientFreeClient (.inl rfl)

theorem Opened.clientErrFunc (h : s.Opened) : Fine (s.clientErrFunc a) := by
  have hgone : (s.setStage .lost).Gone := { h with unusable := rfl, inOrder := by rintro ⟨⟩ }
  rw [State.clientErrFunc, alive_bind h.notFreed, require_bind h.clientClosed]
  exact hgone.clientHandleFreedClient h.clientClosed h.failed

theorem tcpWrite_append (s : State) (x y : List UInt8) :
    (s.tcpWrite x).tcpWrite y = s.tcpWrite (x ++ y) := by
  simp only [tcpWrite, List.length_append, List.append_assoc, Nat.add_assoc]

theorem tcpWrite_nil (s : State) : s.tcpWrite [] = s := by
  simp only [tcpWrite, List.length_nil, Nat.add_zero, List.append_nil]

/-- The next `k` bytes are written. -/
def wrote (s : State) (bytes : List UInt8) (k : Nat) : State :=
  s.tcpWrite ((bytes.drop s.dtcpRecvBufSent).take k)

theorem length_next (hk : k ≤ bytes.length - s.dtcpRecvBufSent) :
    ((bytes.drop s.dtcpRecvBufSent).take k).length = k := by
  rw [List.length_take, List.length_drop]
  omega

/-- The loop writes a part of what is left, at once or in pieces. -/
theorem writeLoop_eq (bytes : List UInt8) (writes : List (Nat × WriteResult)) (s : State)
    (hs : s.dtcpRecvBufSent ≤ bytes.length) :
    ∃ k ≤ bytes.length - s.dtcpRecvBufSent, (writeLoop bytes writes s).2 = s.wrote bytes k := by
  induction writes generalizing s with
  | nil => exact ⟨0, Nat.zero_le _, (tcpWrite_nil s).symm⟩
  | cons w rest ih =>
    have hnone : ∃ k ≤ bytes.length - s.dtcpRecvBufSent, s = s.wrote bytes k :=
      ⟨0, Nat.zero_le _, (tcpWrite_nil s).symm⟩
    have hmin := Nat.min_le_left (bytes.length - s.dtcpRecvBufSent) w.1
    unfold writeLoop
    dsimp only
    generalize min (bytes.length - s.dtcpRecvBufSent) w.1 = n at hmin
    split
    · exact hnone
    · split
      · exact hnone
      · exact hnone
      · have hsent : (s.wrote bytes n).dtcpRecvBufSent = s.dtcpRecvBufSent + n :=
          congrArg (s.dtcpRecvBufSent + ·) (length_next hmin)
        rw [← wrote]
        split
        · obtain ⟨k, hk, hrest⟩ := ih (s.wrote bytes n) (by rw [hsent]; omega)
          rw [hsent] at hk
          refine ⟨n + k, by omega, ?_⟩
          rw [hrest, wrote, hsent, wrote, tcpWrite_append, wrote, List.take_add, List.drop_drop]
        · exact ⟨n, hmin, rfl⟩

/-- `bytes` in `dtcp_recv_buf` can be written. -/
structure Sendable (s : State) (bytes : List UInt8) : Prop extends Connected s where
  isUp : s.dtcpUp = true
  recvBuf : s.dtcpRecvBuf = some bytes
  sent : s.dtcpRecvBufSent < bytes.length

theorem Sendable.wrote (h : s.Sendable bytes) (hk : k ≤ bytes.length - s.dtcpRecvBufSent) :
    (s.wrote bytes k).Connected ∧
      s.fromDtcp = (s.wrote bytes k).written ++ bytes.drop (s.wrote bytes k).dtcpRecvBufSent := by
  have hdata : s.fromDtcp = (s.wrote bytes k).written ++
      bytes.drop (s.wrote bytes k).dtcpRecvBufSent := by
    show _ = (s.written ++ _) ++ bytes.drop (s.dtcpRecvBufSent + _)
    rw [h.fromDtcp, unwritten, h.recvBuf, List.append_assoc, length_next hk, ← List.drop_drop,
      List.take_append_drop]
  refine ⟨{ h with
    notUp := fun hnot => by cases h.isUp.symm.trans hnot
    fromDtcp := ?_
    pending := congrArg (· + _) h.pending }, hdata⟩
  rw [unwritten, show (s.wrote bytes k).dtcpRecvBuf = some bytes from h.recvBuf]
  exact hdata

/-- How `client_dtcp_recv_send_out` ends when the connection is still up: with data that waits for
an acknowledgement, or with an empty buffer. In both cases something is not acknowledged. -/
structure SentOut (s s' : State) : Prop extends Connected s' where
  dtcp_eq : s'.dtcp = s.dtcp
  dtcpClosed_eq : s'.dtcpClosed = s.dtcpClosed
  isUp : s'.dtcpUp = true
  pos : 0 < s'.dtcpRecvTcpPending
  waiting : ∀ data ∈ s'.dtcpRecvBuf, s'.dtcpRecvWaiting = true ∧ s'.dtcpRecvBufSent < data.length

theorem Sendable.clientDtcpRecvSendOut (h : s.Sendable bytes) (hw : s.dtcpRecvWaiting = false)
    (a : Answers) :
    ∃ up s', s.clientDtcpRecvSendOut a = .ok (up, s') ∧
      (up = false → s'.Inv) ∧ (up = true → SentOut s s') := by
  have hne : bytes ≠ [] := by
    rintro rfl
    exact Nat.not_lt_zero _ h.sent
  obtain ⟨k, hk, hloop⟩ := writeLoop_eq bytes a.writes s (Nat.le_of_lt h.sent)
  obtain ⟨hwrote, hdata⟩ := h.wrote hk
  obtain ⟨s', habort, hinv⟩ := hwrote.clientAbortClient (a := a)
  rw [State.clientDtcpRecvSendOut, alive_bind h.notFreed, require_bind ⟨h.clientClosed, h.isUp⟩,
    h.recvBuf]
  dsimp only
  rw [require_bind ⟨hne, h.sent, hw⟩, usePcb_bind h.usable, hloop, habort]
  split_ifs with hfailed hmore hzero
  · exact ⟨false, s', rfl, fun _ => hinv, by rintro ⟨⟩⟩
  · exact ⟨false, s', rfl, fun _ => hinv, by rintro ⟨⟩⟩
  · refine ⟨true, _, rfl, by rintro ⟨⟩, fun _ => { hwrote with
      dtcp_eq := rfl
      dtcpClosed_eq := rfl
      isUp := h.isUp
      pos := Nat.pos_of_ne_zero hzero
      waiting := ?_ }⟩
    intro data hdata
    cases h.recvBuf.symm.trans hdata
    exact ⟨rfl, hmore⟩
  · refine ⟨true, _, rfl, by rintro ⟨⟩, fun _ => { hwrote with
      notUp := fun hnot => by cases h.isUp.symm.trans hnot
      recv := fun _ => rfl
      fromDtcp := ?_
      dtcp_eq := rfl
      dtcpClosed_eq := rfl
      isUp := h.isUp
      pos := ?_
      waiting := by rintro _ ⟨⟩ }⟩
    · rw [List.drop_eq_nil_of_le (Nat.le_of_not_lt hmore)] at hdata
      exact hdata
    · have hlen := length_next hk
      have hsent := h.sent
      simp only [State.wrote, tcpWrite] at hmore ⊢
      omega

def recvStarted (s : State) : State := { s with dtcp := { s.dtcp with recv := true } }

theorem clientDtcpRecvInitiate_eq (hfreed : s.freed = false) (hc : s.clientClosed = false)
    (hd : s.dtcpClosed = false) (hup : s.dtcpUp = true) (hbuf : s.dtcpRecvBuf = none)
    (hrecv : s.dtcp.recv = false) : s.clientDtcpRecvInitiate = .ok s.recvStarted := by
  rw [clientDtcpRecvInitiate, alive_bind hfreed, require_bind ⟨hc, hd, hup⟩,
    require_bind ⟨hbuf, hrecv⟩]
  rfl

theorem SentOut.opened (h : SentOut s s')
    (hr : s'.dtcpClosed = false → s'.dtcpRecvBuf ≠ none) : s'.Opened :=
  { h with
    waiting := fun data hdata => ⟨(h.waiting data hdata).1, (h.waiting data hdata).2, h.pos⟩
    receiving := fun hd _ hbuf => absurd hbuf (hr hd)
    flushing := fun _ => ⟨h.isUp, h.pos⟩ }

/-- The client asks for more when the buffer is empty. -/
theorem SentOut.clientDtcpRecvInitiate (h : SentOut s s') (hd : s'.dtcpClosed = false)
    (hbuf : s'.dtcpRecvBuf = none) (hrecv : s.dtcp.recv = false) :
    s'.clientDtcpRecvInitiate = .ok s'.recvStarted ∧ s'.recvStarted.Opened :=
  ⟨clientDtcpRecvInitiate_eq h.notFreed h.clientClosed hd h.isUp hbuf (h.dtcp_eq ▸ hrecv),
    { h with
      notUp := fun hnot => by cases h.isUp.symm.trans hnot
      recv := fun _ => hbuf
      waiting := fun data hdata => by cases hbuf.symm.trans hdata
      receiving := fun _ _ _ => rfl
      flushing := fun hclosed => by cases hd.symm.trans hclosed }⟩

theorem Core.up_of_recv (h : s.Core) (hrecv : s.dtcp.recv = true) : s.dtcpUp = true := by
  cases hup : s.dtcpUp with
  | true => rfl
  | false => cases hrecv.symm.trans (h.notUp hup).2.2.2

theorem Opened.clientDtcpRecvHandlerDone (h : s.Opened) (hd : s.dtcpClosed = false)
    (hrecv : s.dtcp.recv = true) (hne : bytes ≠ [])
    (hlen : bytes.length ≤ clientDtcpRecvBufSize) :
    Fine (s.clientDtcpRecvHandlerDone bytes a) := by
  have hup := h.up_of_recv hrecv
  have hbuf := h.recv hrecv
  have hsend : (s.recvBuffered bytes).Sendable bytes := { h with
    notUp := fun hnot => by cases hup.symm.trans hnot
    recv := by rintro ⟨⟩
    fromDtcp := by
      show s.fromDtcp ++ bytes = s.written ++ bytes.drop 0
      rw [h.fromDtcp, unwritten, hbuf, List.append_nil, List.drop_zero]
    isUp := hup
    recvBuf := rfl
    sent := List.length_pos_iff.mpr hne }
  obtain ⟨up, s', hout, hdown, hgo⟩ := hsend.clientDtcpRecvSendOut rfl a
  rw [State.clientDtcpRecvHandlerDone, alive_bind h.notFreed, require_bind ⟨hne, hlen⟩,
    require_bind ⟨hd, hup, hbuf⟩, if_neg h.not_closed, hout, ok_bind]
  cases up with
  | false => exact .ok (hdown rfl)
  | true =>
    have hs := hgo rfl
    dsimp only
    rw [if_neg (by simp)]
    split
    · rename_i hnone
      obtain ⟨heq, hopened⟩ := hs.clientDtcpRecvInitiate (hs.dtcpClosed_eq.trans hd) hnone rfl
      rw [heq]
      exact .ok (.opened hopened)
    · rename_i hsome
      exact .ok (.opened (hs.opened fun _ => hsome))

theorem Connected.acked (h : s.Connected) (hup : s.dtcpUp = true) : (s.acked len).Connected :=
  { h with
    notUp := fun hnot => by cases hup.symm.trans hnot
    pending := congrArg (· - len) h.pending }

theorem Sendable.continueQueuing (h : s.Sendable bytes) (hw : s.dtcpRecvWaiting = true) :
    Fine (s.continueQueuing bytes a) := by
  have hrecv : s.dtcp.recv = false := by
    rw [← Bool.not_eq_true]
    exact fun hrecv => by cases h.recvBuf.symm.trans (h.recv hrecv)
  have hsend : Sendable { s with dtcpRecvWaiting := false } bytes := { h with }
  obtain ⟨up, s', hout, hdown, hgo⟩ := hsend.clientDtcpRecvSendOut rfl a
  rw [State.continueQueuing, require_bind ⟨hw, h.sent⟩, hout, ok_bind]
  cases up with
  | false => exact .ok (hdown rfl)
  | true =>
    have hs := hgo rfl
    dsimp only
    rw [if_neg (by simp), require_bind hs.pos]
    split
    · rename_i hnone
      obtain ⟨heq, hopened⟩ := hs.clientDtcpRecvInitiate hnone.2 hnone.1 hrecv
      rw [heq, ok_bind]
      exact .ok (.opened hopened.syncCommit)
    · rename_i hnot
      exact .ok (.opened (hs.opened fun hd hnone => hnot ⟨hnone, hd⟩))

theorem Opened.clientSentFunc (h : s.Opened) (hf : s.frame = none) (hfunc : s.pcb.sentFunc = true)
    (hpos : 0 < len) (hlen : len ≤ s.pcb.unacked) : Fine (s.clientSentFunc len a) := by
  have hup : s.dtcpUp = true := h.sentFunc.symm.trans hfunc
  have hin : (s.deadEnter.acked len).Connected := (h.deadEnter hf).toConnected.acked hup
  rw [State.clientSentFunc, alive_bind h.notFreed,
    require_bind ⟨h.clientClosed, hup, hpos, h.pending.symm ▸ hlen⟩]
  dsimp only
  split
  · rename_i data hbuf
    obtain ⟨hw, hsent, -⟩ := h.waiting data hbuf
    have hsend : (s.deadEnter.acked len).Sendable data :=
      { hin with isUp := hup, recvBuf := hbuf, sent := hsent }
    exact hsend.continueQueuing hw
  · rename_i hbuf
    split
    · rename_i hdone
      refine hin.clientFreeClient (.inr ⟨hdone.1, ?_, hin.pending.symm.trans hdone.2⟩)
      rw [unwritten, hbuf]
    · rename_i hleft
      exact .ok (.opened { hin with
        waiting := fun data hdata => by cases hbuf.symm.trans hdata
        receiving := h.receiving
        flushing := fun hd => ⟨hup, Nat.pos_of_ne_zero fun hzero => hleft ⟨hd, hzero⟩⟩ })

/-- What `client_dtcp_send_handler_done` needs is there while DTCP sends. -/
theorem Core.sendable (h : s.Core) (hr : s.DtcpReady) (hsend : s.dtcp.send = some bytes) :
    s.dtcpClosed = false ∧ s.dtcpUp = true ∧ s.buf ≠ [] ∧ bytes.length ≤ s.buf.length := by
  have hd : s.dtcpClosed = false := h.dtcpFreed.symm.trans hr.1
  have hup : s.dtcpUp = true := by
    rw [← Bool.not_eq_false]
    exact fun hup => by cases hsend.symm.trans (h.notUp hup).2.2.1
  refine ⟨hd, hup, fun hempty => ?_, (h.sending bytes hsend).length_le⟩
  cases hsend.symm.trans ((h.send hd hup).mpr hempty)

/-- What DTCP has read and what is left in the buffer is what was there. -/
theorem Core.toDtcp_sent (h : s.Core) (hsend : s.dtcp.send = some bytes)
    (hlen : len ≤ bytes.length) :
    s.received = (s.sentToDtcp len).toDtcp ++ (s.sentToDtcp len).buf := by
  obtain ⟨rest, hrest⟩ := h.sending bytes hsend
  show _ = (s.toDtcp ++ (s.dtcp.send.getD []).take len) ++ s.buf.drop len
  rw [h.toDtcp, hsend, ← hrest, List.append_assoc, List.drop_append_of_le_length hlen,
    Option.getD_some, ← List.append_assoc (bytes.take len), List.take_append_drop]

theorem Core.sentAll (h : s.Core) (hsend : s.dtcp.send = some bytes) (hlen : len ≤ bytes.length)
    (hall : s.buf.drop len = []) : (s.sentToDtcp len).Core :=
  h.setBuf none (h.toDtcp_sent hsend hlen) (fun _ => rfl)
    (fun _ _ => ⟨fun _ => hall, fun _ => rfl⟩) (by rintro _ ⟨⟩)

theorem Core.sentPart (h : s.Core) (hsend : s.dtcp.send = some bytes) (hlen : len ≤ bytes.length)
    (hup : s.dtcpUp = true) (hmore : s.buf.drop len ≠ []) : (s.sentToDtcp len).sendStarted.Core :=
  h.setBuf (some (s.buf.drop len)) (h.toDtcp_sent hsend hlen)
    (fun hnot => by cases hup.symm.trans hnot)
    (fun _ _ => ⟨by rintro ⟨⟩, fun hall => absurd hall hmore⟩)
    (by rintro _ ⟨⟩; exact List.prefix_rfl)

theorem Opened.clientDtcpSendHandlerDone (h : s.Opened) (hr : s.DtcpReady)
    (hsend : s.dtcp.send = some bytes) (hpos : 0 < len) (hlen : len ≤ bytes.length) :
    Fine (s.clientDtcpSendHandlerDone len a) := by
  obtain ⟨hd, hup, hne, hle⟩ := h.toCore.sendable hr hsend
  have hwindow : min (s.pcb.rcvWnd + len) tcpWnd + (s.buf.drop len).length = tcpWnd := by
    rw [List.length_drop]
    have := h.window
    omega
  rw [State.clientDtcpSendHandlerDone, alive_bind h.notFreed, require_bind ⟨hd, hup, hne⟩,
    require_bind ⟨hpos, Nat.le_trans hlen hle⟩, tcpRecved,
    if_neg (show ¬(s.sentToDtcp len).clientClosed = true from h.not_closed),
    usePcb_bind (s := s.sentToDtcp len) h.usable]
  show Fine (if s.buf.drop len ≠ [] then _ else if s.clientClosed then _ else _)
  rw [if_neg h.not_closed]
  split
  · rename_i hmore
    have hcore := h.toCore.sentPart hsend hlen hup hmore
    exact .ok (.opened { hcore, h with window := hwindow })
  · rename_i hall
    have hcore := h.toCore.sentAll hsend hlen (not_not.mp hall)
    exact .ok (.opened { hcore, h with window := hwindow })

theorem Closed.clientDtcpSendHandlerDone (h : s.Closed) (hr : s.DtcpReady)
    (hsend : s.dtcp.send = some bytes) (hpos : 0 < len) (hlen : len ≤ bytes.length) :
    Fine (s.clientDtcpSendHandlerDone len a) := by
  obtain ⟨hd, hup, hne, hle⟩ := h.toCore.sendable hr hsend
  rw [State.clientDtcpSendHandlerDone, alive_bind h.notFreed, require_bind ⟨hd, hup, hne⟩,
    require_bind ⟨hpos, Nat.le_trans hlen hle⟩, tcpRecved,
    if_pos (show (s.sentToDtcp len).clientClosed = true from h.clientClosed), ok_bind]
  split
  · rename_i hmore
    have hcore := h.toCore.sentPart hsend hlen hup hmore
    exact .ok (.closed { hcore, h with buffered := hmore })
  · rename_i hall
    have hall : s.buf.drop len = [] := not_not.mp hall
    have hgone : (s.sentToDtcp len).Gone := { h.toCore.sentAll hsend hlen hall, h with }
    rw [if_pos (show (s.sentToDtcp len).clientClosed = true from h.clientClosed)]
    exact hgone.clientFreeDtcp h.clientClosed hd (.inr (.inr hall))

/-- DTCP is up and has been given what is in the buffer. -/
def dtcpStarted (s : State) : State :=
  { s.initReceiving with
    dtcp := { s.initReceiving.dtcp with send := if s.buf ≠ [] then some s.buf else none } }

theorem Core.dtcpStarted (h : s.Core) (hd : s.dtcpClosed = false) (hup : s.dtcpUp = false) :
    (if s.initReceiving.buf ≠ [] then s.initReceiving.clientSendToDtcp else .ok s.initReceiving) =
      .ok s.dtcpStarted ∧ s.dtcpStarted.Core := by
  obtain ⟨hbuf, -, hsend, hrecv⟩ := h.notUp hup
  have hfrom : s.fromDtcp = s.written ++ [] := by
    have := h.fromDtcp
    rwa [unwritten, hbuf] at this
  have hcore {send : Option (List UInt8)} (hs : send = none ↔ s.buf = [])
      (hp : ∀ data ∈ send, data <+: s.buf) :
      Core { s.initReceiving with dtcp := { s.initReceiving.dtcp with send } } :=
    { h with
      up := rfl
      notUp := by rintro ⟨⟩
      send := fun _ _ => hs
      sending := hp
      recv := fun _ => rfl
      fromDtcp := hfrom }
  rw [State.dtcpStarted]
  show (if s.buf ≠ [] then _ else _) = _ ∧ _
  split
  · rename_i hne
    exact ⟨clientSendToDtcp_eq (s := s.initReceiving) h.notFreed hd rfl hne hsend,
      hcore (by simp [hne]) (by rintro _ ⟨⟩; exact List.prefix_rfl)⟩
  · rename_i hempty
    refine ⟨?_, hcore (by simp [not_not.mp hempty]) (by rintro _ ⟨⟩)⟩
    rw [← hsend]
    rfl

/-- `tcp_sent` was called. -/
def sentFuncSet (s : State) : State := { s with pcb := { s.pcb with sentFunc := true } }

theorem Opened.clientDtcpHandlerUp (h : s.Opened) (hd : s.dtcpClosed = false)
    (hup : s.dtcpUp = false) : Fine s.clientDtcpHandlerUp := by
  obtain ⟨-, hpending, -, hrecv⟩ := h.notUp hup
  have hset : s.setSentFunc = .ok s.sentFuncSet := by
    rw [setSentFunc, if_neg h.not_closed, usePcb_bind h.usable]
    rfl
  obtain ⟨hstart, hcore⟩ := Core.dtcpStarted (s := s.sentFuncSet) { h.toCore with } hd hup
  rw [State.clientDtcpHandlerUp, alive_bind h.notFreed, require_bind ⟨hd, hup⟩, hset, ok_bind]
  dsimp only
  rw [hstart, ok_bind,
    if_pos (show s.sentFuncSet.dtcpStarted.clientClosed = false from h.clientClosed),
    clientDtcpRecvInitiate_eq (s := s.sentFuncSet.dtcpStarted) h.notFreed h.clientClosed hd rfl rfl
      hrecv]
  exact .ok (.opened { hcore, h with
    notUp := by rintro ⟨⟩
    recv := fun _ => rfl
    sentFunc := rfl
    pending := hpending.symm.trans h.pending
    waiting := by rintro _ ⟨⟩
    receiving := fun _ _ _ => rfl
    flushing := fun hclosed => by cases hd.symm.trans hclosed })

theorem Closed.clientDtcpHandlerUp (h : s.Closed) (hup : s.dtcpUp = false) :
    Fine s.clientDtcpHandlerUp := by
  obtain ⟨hstart, hcore⟩ := h.toCore.dtcpStarted h.dtcpClosed hup
  rw [State.clientDtcpHandlerUp, alive_bind h.notFreed, require_bind ⟨h.dtcpClosed, hup⟩,
    setSentFunc, if_pos h.clientClosed, ok_bind]
  dsimp only
  rw [hstart, ok_bind, if_neg (show ¬s.dtcpStarted.clientClosed = false from by
    simp [State.dtcpStarted, initReceiving, h.clientClosed])]
  exact .ok (.closed { hcore, h with
    inOrder := fun hclosed => (h.inOrder hclosed).imp_right fun hf => by
      cases h.dtcpClosed.symm.trans hf.1 })

theorem Closed.clientDtcpRecvHandlerDone (h : s.Closed) (hrecv : s.dtcp.recv = true)
    (hne : bytes ≠ []) (hlen : bytes.length ≤ clientDtcpRecvBufSize) :
    Fine (s.clientDtcpRecvHandlerDone bytes a) := by
  have hup := h.up_of_recv hrecv
  rw [State.clientDtcpRecvHandlerDone, alive_bind h.notFreed, require_bind ⟨hne, hlen⟩,
    require_bind ⟨h.dtcpClosed, hup, h.recv hrecv⟩, if_pos h.clientClosed]
  exact .ok (.closed { h with
    notUp := fun hnot => by cases hup.symm.trans hnot
    recv := by rintro ⟨⟩ })

theorem Gone.murder (h : s.Gone) (hc : s.clientClosed = true) (hq : s.quitting = true) :
    Fine ((if s.dtcpClosed then s else s.dnodeTCPClientFree).clientDealloc) := by
  split
  · rename_i hd
    exact h.clientDealloc hc hd (.inr (.inl hq))
  · have hgone : s.dnodeTCPClientFree.Gone := { h.toCore.dnodeTCPClientFree, h with
      inOrder := fun hclosed => (h.inOrder hclosed).imp_right fun hf => ⟨rfl, hf.2⟩ }
    exact hgone.clientDealloc hc rfl (.inr (.inl hq))

theorem Live.clientMurder (h : s.Live) (hq : s.quitting = true) : Fine s.clientMurder := by
  have hgone : s.pcbAborted.setClientClosed.Gone := { h.pcbAborted with }
  rw [State.clientMurder, alive_bind h.notFreed, murderPcb, if_neg h.not_closed,
    usePcb_bind h.usable, h.clientAbortPcb]
  exact hgone.murder rfl hq

theorem Closed.clientMurder (h : s.Closed) (hq : s.quitting = true) : Fine s.clientMurder := by
  rw [State.clientMurder, alive_bind h.notFreed, murderPcb, if_pos h.clientClosed, ok_bind]
  exact h.toGone.murder h.clientClosed hq

/-- The callback has returned. -/
def left (s : State) : State :=
  { s with
    deadAborted := if s.aborted || s.freed then s.deadAborted else none
    frame := none
    returned := s.returned ++ [(if s.aborted then .abrt else .ok, s.aborted)] }

theorem Base.deadLeave (h : s.Base) (hf : s.frame ≠ none) :
    s.deadLeave = .ok s.left ∧ s.left.Base := by
  obtain ⟨f, hf⟩ := Option.ne_none_iff_exists'.mp hf
  obtain ⟨hprev, habort, hdead⟩ := h.frames f hf
  constructor
  · rw [State.deadLeave, hf]
    simp only [deadRestore, hprev, habort, hdead, left]
    cases ha : s.aborted <;> cases hfr : s.freed <;> simp [ha, hfr, alive]
  · refine { h with frames := by rintro f ⟨⟩, returned := fun r hr => ?_ }
    rcases List.mem_append.mp hr with hr | hr
    · exact h.returned r hr
    · rw [List.mem_singleton.mp hr]

theorem Core.left (h : s.Core) (hf : s.frame ≠ none) : s.left.Core :=
  { (h.toBase.deadLeave hf).2, h with
    dead := fun ha => by
      show (if s.aborted || s.freed then s.deadAborted else none) = none
      rw [show s.aborted = false from ha, h.notFreed]
      rfl }

theorem Opened.deadLeave (h : s.Opened) (hf : s.frame ≠ none) : Fine s.deadLeave :=
  ⟨s.left, (h.toBase.deadLeave hf).1, .opened { h.toCore.left hf, h with }⟩

theorem Closed.deadLeave (h : s.Closed) (hf : s.frame ≠ none) : Fine s.deadLeave :=
  ⟨s.left, (h.toBase.deadLeave hf).1, .closed { h.toCore.left hf, h with }⟩

theorem Freed.deadLeave (h : s.Freed) (hf : s.frame ≠ none) : Fine s.deadLeave :=
  ⟨s.left, (h.toBase.deadLeave hf).1, .freed { (h.toBase.deadLeave hf).2, h with }⟩

end State

end DTun.Node.Tun2socks
