import DTun.Lib.Calls
import DTun.Node.Tun2socks.Handlers

/-!
# A client over a whole run

What the handlers do one by one, put together: no run gets to a failed assertion or to a use of
freed memory, the data passes in order and complete, each side is closed only when the other has
got its data, and a client that is not freed always has something to wait for.
-/

namespace DTun.Node.Tun2socks

open Lib.Runs

namespace State

variable {s s' : State} {e : Event} {es : List Event} {a : Answers}

theorem Core.dtcpOpen (h : s.Core) (hr : s.DtcpReady) : s.dtcpClosed = false :=
  h.dtcpFreed.symm.trans hr.1

theorem Core.dtcpError (h : s.Core) {closed : Bool} (he : s.Enabled (.dtcpError closed a))
    (hfree : Fine (clientFreeDtcp rounds { s with dtcp := { s.dtcp with failed := true } } a)) :
    Fine (s.handle (.dtcpError closed a)) := by
  have herror : Fine (s.clientDtcpHandlerError a) := by
    rwa [clientDtcpHandlerError, alive_bind h.notFreed, require_bind (h.dtcpOpen he.1)]
  cases closed with
  | false => exact herror
  | true =>
    rw [handle, if_pos rfl, require_bind (h.up.symm.trans (he.2 rfl))]
    exact herror

theorem Opened.handle (h : s.Opened) (he : s.Enabled e) : Fine (s.handle e) := by
  cases e with
  | recv data =>
    rw [State.handle]
    split
    · rename_i hrecv
      exact h.clientRecvFunc he.1.1 hrecv he.2.2.1 he.2.2.2
    · exact .ok (.opened h)
  | fin a =>
    have hfin : s.setFin.Opened := { h with }
    rw [State.handle]
    split
    · exact hfin.clientRecvFin he.1.1
    · exact .ok (.opened hfin)
  | err a => exact h.clientErrFunc
  | sent len a => exact h.clientSentFunc he.1.1 he.2.1 he.2.2.1 he.2.2.2
  | leave => exact h.deadLeave he
  | dtcpUp => exact h.clientDtcpHandlerUp (h.dtcpOpen he.1) (h.up.symm.trans he.2)
  | dtcpError closed a =>
    exact h.dtcpError he (Opened.clientFreeDtcp { h with failed := fun _ => rfl }
      (h.dtcpOpen he.1) rfl)
  | sendDone len a =>
    obtain ⟨hr, data, hsend, hpos, hlen⟩ := he
    exact h.clientDtcpSendHandlerDone hr hsend hpos hlen
  | recvDone data a => exact h.clientDtcpRecvHandlerDone (h.dtcpOpen he.1) he.2.1 he.2.2.1 he.2.2.2
  | murder => exact Live.clientMurder { h.toLive with } rfl

theorem Closed.handle (h : s.Closed) (he : s.Enabled e) : Fine (s.handle e) := by
  cases e with
  | recv _ | fin _ | err _ | sent _ _ => cases h.unusable.symm.trans he.1.2
  | leave => exact h.deadLeave he
  | dtcpUp => exact h.clientDtcpHandlerUp (h.up.symm.trans he.2)
  | dtcpError closed a =>
    exact h.dtcpError he (Gone.clientFreeDtcp { h.toGone with } h.clientClosed h.dtcpClosed
      (.inl rfl))
  | sendDone len a =>
    obtain ⟨hr, data, hsend, hpos, hlen⟩ := he
    exact h.clientDtcpSendHandlerDone hr hsend hpos hlen
  | recvDone data a => exact h.clientDtcpRecvHandlerDone he.2.1 he.2.2.1 he.2.2.2
  | murder => exact Closed.clientMurder { h with } rfl

/-- Without a connection and without DTCP, only a callback that has not returned or the end of the
program is left. -/
theorem enabled_of_lost (hp : s.pcb.stage.usable = false) (hd : s.dtcp.freed = true)
    (he : s.Enabled e) : e = .leave ∨ e = .murder := by
  cases e with
  | leave => exact .inl rfl
  | murder => exact .inr rfl
  | recv _ | fin _ | err _ | sent _ _ => cases hp.symm.trans he.1.2
  | dtcpUp | dtcpError _ _ | sendDone _ _ | recvDone _ _ => cases hd.symm.trans he.1.1

theorem Inv.handle (h : s.Inv) (he : s.Enabled e) : Fine (s.handle e) := by
  cases h with
  | opened h => exact h.handle he
  | closed h => exact h.handle he
  | freed h =>
    rcases enabled_of_lost h.unusable h.dtcpFreed he with rfl | rfl
    · exact h.deadLeave he
    · cases h.freed.symm.trans he.2

theorem Run.inv (h : Run es s) : s.Inv := by
  refine exec_invariant ?_ (.opened listenerAcceptFunc_opened) h
  intro m e m' hinv hstep
  rw [step] at hstep
  split at hstep
  · rename_i he
    obtain ⟨r, hr, hr'⟩ := hinv.handle he
    cases (Lib.Calls.toOption_eq_some hstep).symm.trans hr
    exact hr'
  · cases hstep

theorem run_check (es : List Event) (p : State → Prop) [DecidablePred p]
    (h : (exec step listenerAcceptFunc es).any (fun s => decide (p s)) = true) :
    ∃ s, Run es s ∧ p s :=
  exec_check h

/-- Every event that may come is handled to its end: no assertion fails, neither the client nor
the pcb is used after it was freed, and no frame is written to after it has returned. -/
theorem handle_returns (h : Run es s) (he : s.Enabled e) : ∃ s', s.handle e = .ok s' := by
  obtain ⟨s', hs', -⟩ := (Run.inv h).handle he
  exact ⟨s', hs'⟩

/-- DTCP is closed by its peer with data in both directions, and then the connection sends more and
ends: it has not acknowledged what came from DTCP. -/
def crossedRun : List Event :=
  [.leave, .dtcpUp, .recv [1, 2, 3], .leave,
    .recvDone [4, 5, 6] { writes := [(2, .ok), (0, .ok)] }, .dtcpError true {}, .recv [7], .fin {}]

theorem handle_returns_crossedRun :
    ∃ s, Run crossedRun s ∧ s.pcb.fin = true ∧ s.Enabled (.sent 2 { writes := [(100, .ok)] }) ∧
      ∃ s', s.handle (.sent 2 { writes := [(100, .ok)] }) = .ok s' := by
  obtain ⟨s, hrun, hfin, he⟩ := run_check crossedRun
    (fun s => s.pcb.fin = true ∧ s.Enabled (.sent 2 { writes := [(100, .ok)] })) (by decide +kernel)
  exact ⟨s, hrun, hfin, he, handle_returns hrun he⟩

theorem Inv.base (h : s.Inv) : s.Base := by
  cases h with
  | opened h => exact h.toBase
  | closed h => exact h.toBase
  | freed h => exact h.toBase

/-- A callback returns `ERR_ABRT` if and only if `tcp_abort` was called in it, which is what lwIP
relies on, and it never refuses data with `ERR_MEM`. -/
theorem returned_abrt_iff (h : Run es s) {r : Err × Bool} (hr : r ∈ s.returned) :
    (r.1 = .abrt ↔ r.2 = true) ∧ r.1 ≠ .mem := by
  rw [(Run.inv h).base.returned r hr]
  cases r.2 <;> simp

/-- `tcp_write` fails in `client_sent_func`. -/
def abortRun : List Event :=
  [.leave, .dtcpUp, .recvDone [4, 5] { writes := [(1, .ok), (0, .ok)] },
    .sent 1 { writes := [(100, .failed)] }, .leave]

theorem returned_abrt_iff_abortRun :
    ∃ s, Run abortRun s ∧ s.returned = [(.ok, false), (.abrt, true)] ∧
      ∀ r ∈ s.returned, (r.1 = .abrt ↔ r.2 = true) ∧ r.1 ≠ .mem := by
  obtain ⟨s, hrun, hret⟩ := run_check abortRun
    (fun s => s.returned = [(.ok, false), (.abrt, true)]) (by decide +kernel)
  exact ⟨s, hrun, hret, fun r hr => returned_abrt_iff hrun hr⟩

/-- In both directions data arrives in order, and what has not arrived yet is in the buffer: what
DTCP has read out of the memory it was given is what `client_recv_func` was given, up to `buf`, and
what was written to the connection is what DTCP delivered while there was a connection, up to the
rest of `dtcp_recv_buf`. -/
theorem relayed (h : Run es s) :
    s.received = s.toDtcp ++ s.buf ∧ s.fromDtcp = s.written ++ s.unwritten :=
  ⟨(Run.inv h).base.toDtcp, (Run.inv h).base.fromDtcp⟩

/-- Data in both directions, each taken in parts. -/
def partsRun : List Event :=
  [.leave, .recv [1, 2, 3], .leave, .dtcpUp, .recv [4], .leave, .sendDone 2 {},
    .recvDone [5, 6, 7] { writes := [(2, .ok), (0, .ok)] }]

theorem relayed_partsRun :
    ∃ s, Run partsRun s ∧ s.buf = [3, 4] ∧ s.unwritten = [7] ∧ s.received = s.toDtcp ++ s.buf ∧
      s.fromDtcp = s.written ++ s.unwritten := by
  obtain ⟨s, hrun, hbuf, hleft⟩ := run_check partsRun
    (fun s => s.buf = [3, 4] ∧ s.unwritten = [7]) (by decide +kernel)
  exact ⟨s, hrun, hbuf, hleft, relayed hrun⟩

theorem Inv.drained (h : s.Inv) (hd : s.dtcp.freed = true) : s.Drained := by
  cases h with
  | opened h => exact .inl (h.failed (h.dtcpFreed.symm.trans hd))
  | closed h => cases h.dtcpClosed.symm.trans (h.dtcpFreed.symm.trans hd)
  | freed h => exact h.drained

theorem Inv.inOrder (h : s.Inv) (hclosed : s.pcb.stage = .closed) :
    s.eof = true ∨ s.Flushed ∧ s.dtcp.freed = true := by
  cases h with
  | opened h =>
    have husable := h.usable
    rw [hclosed] at husable
    cases husable
  | closed h =>
    exact (h.inOrder hclosed).imp_right fun hf => ⟨hf, h.dtcpFreed.trans hf.1⟩
  | freed h => exact (h.inOrder hclosed).imp_right fun hf => ⟨hf, h.dtcpFreed⟩

/-- tun2socks closes each side in order. It frees DTCP only when DTCP has reported an error or its
end, the program ends, or DTCP has read all data that `client_recv_func` was given. It calls
`tcp_close` only when `client_recv_func` was told of the end of the data, or when DTCP is gone and
all its data was written to the connection and acknowledged. A FIN that comes after DTCP is gone
closes nothing. -/
theorem closed_in_order (h : Run es s) :
    (s.dtcp.freed = true → s.dtcp.failed = true ∨ s.quitting = true ∨ s.toDtcp = s.received) ∧
      (s.pcb.stage = .closed → s.eof = true ∨
        s.dtcp.freed = true ∧ s.written = s.fromDtcp ∧ s.pcb.unacked = 0) := by
  have hinv := Run.inv h
  constructor
  · intro hd
    refine (hinv.drained hd).imp_right (Or.imp_right fun hempty => ?_)
    rw [hinv.base.toDtcp, hempty, List.append_nil]
  · intro hclosed
    refine (hinv.inOrder hclosed).imp_right fun hf => ⟨hf.2, ?_, hf.1.2.2⟩
    rw [hinv.base.fromDtcp, hf.1.2.1, List.append_nil]

/-- DTCP is closed while data for the connection is left, and the peer of the connection sends its
FIN before it acknowledges that. -/
def flushRun : List Event :=
  [.leave, .dtcpUp, .recvDone [5, 6, 7] { writes := [(2, .ok), (0, .ok)] }, .dtcpError true {},
    .fin {}, .sent 2 { writes := [(100, .ok)] }, .leave, .sent 1 {}, .leave]

theorem closed_in_order_flushRun :
    ∃ s, Run flushRun s ∧ s.pcb.stage = .closed ∧ s.eof = false ∧ s.written = [5, 6, 7] ∧
      (s.eof = true ∨ s.dtcp.freed = true ∧ s.written = s.fromDtcp ∧ s.pcb.unacked = 0) := by
  obtain ⟨s, hrun, hclosed, heof, hwritten⟩ := run_check flushRun
    (fun s => s.pcb.stage = .closed ∧ s.eof = false ∧ s.written = [5, 6, 7]) (by decide +kernel)
  exact ⟨s, hrun, hclosed, heof, hwritten, (closed_in_order hrun).2 hclosed⟩

/-- A client that is not freed always has something to wait for: for DTCP to be up, to take data or
to deliver data, or for an acknowledgement. -/
structure Awaits (s : State) : Prop where
  /-- Data in `buf` is being sent, or DTCP is not up yet. -/
  sending : s.dtcp.freed = false → s.buf ≠ [] → s.dtcp.up = false ∨ s.dtcp.send ≠ none
  /-- With an empty `dtcp_recv_buf` more data is asked for. -/
  receiving : s.dtcp.freed = false → s.clientClosed = false → s.dtcpRecvBuf = none →
    s.dtcp.up = false ∨ s.dtcp.recv = true
  /-- With data in `dtcp_recv_buf` the client will be called for an acknowledgement. -/
  writing : s.clientClosed = false → s.dtcpRecvBuf ≠ none →
    s.pcb.sentFunc = true ∧ 0 < s.pcb.unacked
  /-- Without DTCP, too. -/
  flushing : s.dtcp.freed = true →
    s.pcb.stage.usable = true ∧ s.pcb.sentFunc = true ∧ 0 < s.pcb.unacked
  /-- Without the connection there is data for DTCP. -/
  draining : s.clientClosed = true → s.dtcp.freed = false ∧ s.buf ≠ []

theorem Core.awaits_sending (h : s.Core) (hd : s.dtcp.freed = false) (hbuf : s.buf ≠ []) :
    s.dtcp.up = false ∨ s.dtcp.send ≠ none := by
  rw [h.up]
  cases hup : s.dtcpUp with
  | false => exact .inl rfl
  | true => exact .inr fun hsend => hbuf ((h.send (h.dtcpFreed.symm.trans hd) hup).mp hsend)

theorem Opened.awaits (h : s.Opened) : s.Awaits where
  sending := h.awaits_sending
  receiving hd _ hbuf := by
    rw [h.up]
    cases hup : s.dtcpUp with
    | false => exact .inl rfl
    | true => exact .inr (h.receiving (h.dtcpFreed.symm.trans hd) hup hbuf)
  writing _ hbuf := by
    obtain ⟨data, hdata⟩ := Option.ne_none_iff_exists'.mp hbuf
    have hup : s.dtcpUp = true := by
      rw [← Bool.not_eq_false]
      exact fun hup => hbuf (h.notUp hup).1
    exact ⟨h.sentFunc.trans hup, h.pending ▸ (h.waiting data hdata).2.2⟩
  flushing hd := by
    obtain ⟨hup, hpos⟩ := h.flushing (h.dtcpFreed.symm.trans hd)
    exact ⟨h.usable, h.sentFunc.trans hup, h.pending ▸ hpos⟩
  draining hc := by cases h.clientClosed.symm.trans hc

theorem Closed.awaits (h : s.Closed) : s.Awaits where
  sending := h.awaits_sending
  receiving _ hc := by cases h.clientClosed.symm.trans hc
  writing hc := by cases h.clientClosed.symm.trans hc
  flushing hd := by cases h.dtcpClosed.symm.trans (h.dtcpFreed.symm.trans hd)
  draining _ := ⟨h.dtcpFreed.trans h.dtcpClosed, h.buffered⟩

theorem awaits_of_run (h : Run es s) (hf : s.freed = false) : s.Awaits := by
  cases Run.inv h with
  | opened h => exact h.awaits
  | closed h => exact h.awaits
  | freed h => cases hf.symm.trans h.freed

theorem awaits_of_run_partsRun : ∃ s, Run partsRun s ∧ s.Awaits := by
  obtain ⟨s, hrun, hf⟩ := run_check partsRun (fun s => s.freed = false) (by decide +kernel)
  exact ⟨s, hrun, awaits_of_run hrun hf⟩

end State

end DTun.Node.Tun2socks
