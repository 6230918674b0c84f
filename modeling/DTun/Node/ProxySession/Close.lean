import DTun.Node.ProxySession.Relay

/-!
# The end of a session

A session is done when a handler gets an error, or when the last relayed byte has gone to the
remote connection after the local end of file. The second is noticed only by the completion of
a remote write, so an end of file that comes after the last completion ends nothing. And the
close of the remote connection is an error like any other: bytes on their way to the local
connection are not waited for.
-/

namespace DTun.Node.ProxySession

open DTun.Lib DTun.Lib.Runs

namespace Session

variable {s s' : Session} {e : Event} {err : Int} {data : List UInt8} {f : Flow} {es : List Event}

/-- The local end of file is reported while relayed bytes are on their way. -/
def EofWaits (s : Session) : Event → Prop
  | .localRecv err data => err = 0 → data = [] → s.done = false → 0 < s.toRemote.sndBuffBytes
  | _ => True

instance EofWaits.instDecidable (s : Session) : ∀ e, Decidable (EofWaits s e)
  | .localRecv err data =>
    inferInstanceAs (Decidable (err = 0 → data = [] → s.done = false → 0 < s.toRemote.sndBuffBytes))
  | .localConnect _ => .isTrue trivial
  | .remoteConnect _ => .isTrue trivial
  | .remoteRecv _ _ => .isTrue trivial
  | .remoteRecvAgain _ => .isTrue trivial
  | .localSend _ => .isTrue trivial
  | .remoteSend _ => .isTrue trivial
  | .localTransmit _ => .isTrue trivial
  | .remoteTransmit _ => .isTrue trivial

/-- After the end of file the session is done, or waits for relayed bytes. -/
def Closing (s : Session) : Prop :=
  s.localEof = true → s.done = true ∨ (s.localShutdown = true ∧ 0 < s.toRemote.sndBuffBytes)

theorem Closing.of_done (h : s.done = true) : Closing s := fun _ => Or.inl h

/-- Nothing that the property is about has changed. -/
theorem Closing.congr (h : Closing s) (heof : s'.localEof = s.localEof) (hdone : s'.done = s.done)
    (hshut : s'.localShutdown = s.localShutdown)
    (hbytes : s'.toRemote.sndBuffBytes = s.toRemote.sndBuffBytes) : Closing s' := by
  intro he
  rw [hdone, hshut, hbytes]
  exact h (heof ▸ he)

theorem recv_bytes (f : Flow) : f.recv.sndBuffBytes = f.sndBuffBytes := by
  unfold Flow.recv
  dsimp only
  split <;> rfl

theorem answer_bytes {f' : Flow} (h : f.answer err data = some f') :
    f'.sndBuffBytes = f.sndBuffBytes := by
  unfold Flow.answer at h
  split at h
  · cases h
  · obtain ⟨_, heq⟩ := Option.ite_none_right_eq_some.mp h
    cases heq
    rfl

theorem Closing.onBothConnected (h : Closing s) : Closing s.onBothConnected :=
  h.congr rfl rfl rfl (recv_bytes _)

theorem Closing.onLocalConnect (h : Closing s) : Closing (s.onLocalConnect err) := by
  simp only [Session.onLocalConnect]
  split_ifs
  · exact h
  · exact .of_done rfl
  · exact Closing.onBothConnected (h.congr rfl rfl rfl rfl)
  · exact h.congr rfl rfl rfl rfl

theorem Closing.onRemoteConnect (h : Closing s) : Closing (s.onRemoteConnect err) := by
  simp only [Session.onRemoteConnect]
  split_ifs
  · exact h
  · exact .of_done rfl
  · exact Closing.onBothConnected (h.congr rfl rfl rfl rfl)
  · exact h.congr rfl rfl rfl rfl

theorem Closing.onLocalRecv (h : Closing s) (hinv : Inv s) (hc : s.connected = true)
    (ha : s.toRemote.answer err data = some f) (hwait : EofWaits s (.localRecv err data)) :
    Closing ({ s with
      toRemote := f
      localEof := s.localEof || (err = 0 && data.isEmpty) }.onLocalRecv err data) := by
  simp only [Session.onLocalRecv]
  split_ifs with hdone herr hlen
  · exact .of_done hdone
  · exact .of_done rfl
  all_goals
    have hdone : s.done = false := by simpa using hdone
    have herr : err = 0 := by simpa using herr
    subst herr
    have hlive := (hinv.live hc hdone).1
  · intro heof
    -- A source that has reported its end is not read again.
    have hbefore : s.localEof = true := by
      simp only [sendRemote, recvLocal, Bool.or_eq_true, Bool.and_eq_true, List.isEmpty_iff] at heof
      rcases heof with heof | ⟨_, hnil⟩
      · exact heof
      · simp [hnil] at hlen
    rcases h hbefore with hd | ⟨hshut, _⟩
    · cases hdone.symm.trans hd
    · cases (hlive.answer ha).1.symm.trans hshut
  · have hnil : data = [] := List.eq_nil_of_length_eq_zero (by omega)
    exact fun _ => Or.inr ⟨rfl, answer_bytes ha ▸ hwait rfl hnil hdone⟩

theorem Closing.onRemoteSend (h : Closing s) {n : Nat} : Closing (s.onRemoteSend err n) := by
  simp only [Session.onRemoteSend]
  split_ifs with hdone herr hlast hfire
  · exact .of_done hdone
  · exact .of_done rfl
  · exact .of_done rfl
  · intro heof
    rcases h heof with hd | ⟨hshut, _⟩
    · exact absurd hd hdone
    · simp [hshut] at hfire
  · intro heof
    rcases h heof with hd | ⟨hshut, _⟩
    · exact absurd hd hdone
    · refine Or.inr ⟨hshut, ?_⟩
      simpa [hshut] using hlast

theorem complete_bytes {w : Write} (hinv : s.toRemote.Sound s.greeting)
    (hf : s.toRemote.complete err = some (w, f)) :
    f.sndBuffBytes = s.toRemote.sndBuffBytes := (hinv.complete hf).2.2.1

/-- A handler that does not touch the way to the remote connection. -/
theorem Closing.of_same (h : Closing s) (heof : s'.localEof = s.localEof)
    (hshut : s'.localShutdown = s.localShutdown) (hto : s'.toRemote = s.toRemote)
    (hdone : s'.done = s.done ∨ s'.done = true) : Closing s' := by
  rcases hdone with hdone | hdone
  · exact h.congr heof hdone hshut (by rw [hto])
  · exact .of_done hdone

theorem step_closing (h : Closing s) (hinv : Inv s) (hwait : EofWaits s e)
    (hs : s.step e = some s') : Closing s' := by
  cases e with
  | localConnect err =>
    obtain ⟨_, heq⟩ := Option.ite_none_right_eq_some.mp hs
    cases heq
    exact Closing.onLocalConnect (h.congr rfl rfl rfl rfl)
  | remoteConnect err =>
    obtain ⟨_, heq⟩ := Option.ite_none_right_eq_some.mp hs
    cases heq
    exact Closing.onRemoteConnect (h.congr rfl rfl rfl rfl)
  | localRecv err data =>
    obtain ⟨f, ha, heq⟩ := Option.map_eq_some_iff.mp hs
    subst heq
    have hreads : s.toRemote.reads ≠ [] := by
      intro hnil
      simp [Flow.answer, hnil] at ha
    exact h.onLocalRecv hinv (hinv.connected_of_request (Or.inl hreads)) ha hwait
  | remoteRecv err data =>
    obtain ⟨f, ha, heq⟩ := Option.map_eq_some_iff.mp hs
    subst heq
    simp only [onRemoteRecv]
    split_ifs
    · exact h.of_same rfl rfl rfl (Or.inl rfl)
    · exact .of_done rfl
    · exact h.of_same rfl rfl rfl (Or.inl rfl)
  | remoteRecvAgain err =>
    obtain ⟨hguard, heq⟩ := Option.ite_none_right_eq_some.mp hs
    cases heq
    simp only [onRemoteRecv]
    split_ifs
    · exact h
    · exact .of_done rfl
    · exact h.of_same rfl rfl rfl (Or.inl rfl)
  | localSend err =>
    obtain ⟨⟨w, f⟩, hf, heq⟩ := Option.map_eq_some_iff.mp hs
    subst heq
    simp only [onLocalSend]
    split_ifs
    · exact h.of_same rfl rfl rfl (Or.inl rfl)
    · exact .of_done rfl
    · exact h.of_same rfl rfl rfl (Or.inl rfl)
    · exact h.of_same rfl rfl rfl (Or.inl rfl)
  | remoteSend err =>
    obtain ⟨⟨w, f⟩, hf, heq⟩ := Option.map_eq_some_iff.mp hs
    subst heq
    have hsame : Closing { s with toRemote := f } :=
      h.congr rfl rfl rfl (complete_bytes hinv.toRemote hf)
    dsimp only
    split
    · simp only [onHandshakeSend]
      split_ifs
      · exact hsame
      · exact .of_done rfl
      · exact hsame
    · exact hsame.onRemoteSend
  | localTransmit k =>
    obtain ⟨f, ht, heq⟩ := Option.map_eq_some_iff.mp hs
    subst heq
    exact h.of_same rfl rfl rfl (Or.inl rfl)
  | remoteTransmit k =>
    obtain ⟨f, ht, heq⟩ := Option.map_eq_some_iff.mp hs
    subst heq
    obtain ⟨_, heq⟩ := Option.ite_none_left_eq_some.mp ht
    cases heq
    exact h.congr rfl rfl rfl rfl

/-- An end of file that finds nothing on its way to the remote connection leaves the session as
it was. -/
theorem eof_ignored (hinv : Inv s) (hdone : s.done = false)
    (hs : s.step (.localRecv 0 []) = some s') (hnone : ¬0 < s.toRemote.sndBuffBytes) :
    s'.localEof = true ∧ s'.toRemote.sndBuffBytes = 0 ∧ s'.done = false := by
  obtain ⟨f, ha, rfl⟩ := Option.map_eq_some_iff.mp hs
  have hcovers := hinv.toRemote.covers
  have hbytes : f.sndBuffBytes = 0 := by
    rw [answer_bytes ha]
    omega
  simp [onLocalRecv, hdone, hbytes]

/-- Once the local end of file is reported and the last relayed byte has gone, the session is done
and has said so once. This holds in every state of a run exactly when every local end of file comes
while relayed bytes are on their way. -/
theorem local_close_propagated (hrun : Run es s) :
    (∀ pre post m, es = pre ++ post → Run pre m → m.localEof = true →
        m.toRemote.sndBuffBytes = 0 → m.done = true ∧ m.calls = 1) ↔
      Along step EofWaits init es := by
  constructor
  · intro hall
    refine along_iff.mpr fun pre e post m hsplit hm => ?_
    cases e with
    | localRecv err data =>
      rintro rfl rfl hdone
      subst hsplit
      obtain ⟨a, ha, hrest⟩ := Option.bind_eq_some_iff.mp ((exec_append _ _ _).symm.trans hrun)
      cases hm.symm.trans ha
      obtain ⟨m', hm', -⟩ := Option.bind_eq_some_iff.mp hrest
      by_contra hnone
      obtain ⟨heof, hzero, hopen⟩ := eof_ignored (Run.inv hm) hdone hm' hnone
      have hprop := hall (pre ++ [.localRecv 0 []]) post m' (by simp)
        (exec_snoc_iff.mpr ⟨m, hm, hm'⟩) heof hzero
      cases hopen.symm.trans hprop.1
    | _ => trivial
  · rintro hwait pre post m rfl hm heof hzero
    have hboth : Inv m ∧ Closing m :=
      exec_invariant_along (I := fun s => Inv s ∧ Closing s)
        (fun _ _ _ h hw hs => ⟨step_inv h.1 hs, step_closing h.2 h.1 hw hs⟩)
        ⟨Inv.init, fun h => by cases h⟩ (along_append.mp hwait).1 hm
    rcases hboth.2 heof with hdone | ⟨_, hpos⟩
    · exact ⟨hdone, by rw [hboth.1.calls, hdone]; rfl⟩
    · omega

/-- The end of file comes before the relayed byte has gone. -/
theorem local_close_propagated_late :
    ∃ s, Run [.localConnect 0, .remoteConnect 0, .localRecv 0 [7], .localRecv 0 [],
        .remoteSend 0, .remoteSend 0] s ∧
      (s.localEof = true ∧ s.toRemote.sndBuffBytes = 0) ∧ s.done = true ∧ s.calls = 1 := by
  exact exec_check_and (by decide +kernel) fun s hrun hstate =>
    (local_close_propagated hrun).mpr (by decide +kernel) _ [] s (List.append_nil _).symm hrun
      hstate.1 hstate.2

/-- The end of file comes after the relayed byte has gone: the session stays. -/
theorem local_close_lost :
    ∃ s, Run [.localConnect 0, .remoteConnect 0, .localRecv 0 [7], .remoteSend 0, .remoteSend 0,
        .localRecv 0 []] s ∧
      s.connected = true ∧ s.localEof = true ∧ s.toRemote.sndBuffBytes = 0 ∧
      s.toRemote.pending = 0 ∧ s.toRemote.wire = [0xE1, 7] ∧ s.done = false ∧ s.calls = 0 :=
  exec_check (by decide +kernel)

/-- The event is an error of the local connection. -/
def localError : Event → Bool
  | .localConnect err => err ≠ 0
  | .localRecv err _ => err ≠ 0
  | .localSend err => err ≠ 0
  | _ => false

/-- The way to the local connection is as before, except for a read that may be answered. -/
structure SameWay (f f' : Flow) : Prop where
  bytes : f'.sndBuffBytes = f.sndBuffBytes
  writes : f'.writes = f.writes
  wire : f'.wire = f.wire
  given : f'.given = f.given

theorem SameWay.of_eq {f f' : Flow} (h : f' = f) : SameWay f f' := by
  subst h
  exact ⟨rfl, rfl, rfl, rfl⟩

theorem SameWay.of_answer {f f' : Flow} (h : f.answer err data = some f') (herr : err ≠ 0) :
    SameWay f f' := by
  unfold Flow.answer at h
  split at h
  · cases h
  · obtain ⟨_, heq⟩ := Option.ite_none_right_eq_some.mp h
    cases heq
    exact ⟨rfl, rfl, rfl, by simp [herr]⟩

/-- Every handler returns when the session is done and finishes it on an error. If the rest of
the handler does not call `callback_`, a call is due to the error. -/
theorem calls_of_error {rest : Session} (hrest : rest.calls = s.calls)
    (h : (if s.done then s else if err ≠ 0 then s.finish else rest).calls ≠ s.calls) :
    s.done = false ∧ err ≠ 0 ∧
      (if s.done then s else if err ≠ 0 then s.finish else rest).toLocal = s.toLocal := by
  split_ifs at h ⊢ with hdone herr
  · exact absurd rfl h
  · exact ⟨by simpa using hdone, herr, rfl⟩
  · exact absurd hrest h

theorem onRemoteSend_calls {n : Nat} (h : (s.onRemoteSend err n).calls ≠ s.calls) :
    s.done = false ∧ (s.onRemoteSend err n).toLocal = s.toLocal := by
  simp only [onRemoteSend] at h ⊢
  split_ifs at h ⊢ with hdone herr hlast hfire
  · exact absurd rfl h
  · exact ⟨by simpa using hdone, rfl⟩
  · exact ⟨by simpa using hdone, rfl⟩
  · exact absurd rfl h
  · exact absurd rfl h

/-- What calls `callback_`, when it is not an error of the local connection, leaves the way to the
local connection alone. -/
theorem step_calls (hs : s.step e = some s') (hcall : s'.calls ≠ s.calls)
    (hlocal : localError e = false) : s.done = false ∧ SameWay s.toLocal s'.toLocal := by
  cases e with
  | localConnect err =>
    obtain ⟨_, heq⟩ := Option.ite_none_right_eq_some.mp hs
    cases heq
    obtain ⟨-, herr, -⟩ := calls_of_error (by dsimp only; split <;> rfl) hcall
    simp [localError, herr] at hlocal
  | remoteConnect err =>
    obtain ⟨_, heq⟩ := Option.ite_none_right_eq_some.mp hs
    cases heq
    obtain ⟨hdone, -, hto⟩ := calls_of_error (by dsimp only; split <;> rfl) hcall
    exact ⟨hdone, .of_eq hto⟩
  | localRecv err data =>
    obtain ⟨f, ha, rfl⟩ := Option.map_eq_some_iff.mp hs
    obtain ⟨-, herr, -⟩ := calls_of_error (by dsimp only; split <;> rfl) hcall
    simp [localError, herr] at hlocal
  | remoteRecv err data =>
    obtain ⟨f, ha, rfl⟩ := Option.map_eq_some_iff.mp hs
    obtain ⟨hdone, herr, hto⟩ := calls_of_error (by rfl) hcall
    exact ⟨hdone, hto ▸ .of_answer ha herr⟩
  | remoteRecvAgain err =>
    obtain ⟨_, heq⟩ := Option.ite_none_right_eq_some.mp hs
    cases heq
    obtain ⟨hdone, -, hto⟩ := calls_of_error (by rfl) hcall
    exact ⟨hdone, .of_eq hto⟩
  | localSend err =>
    obtain ⟨⟨w, f⟩, hf, rfl⟩ := Option.map_eq_some_iff.mp hs
    obtain ⟨-, herr, -⟩ := calls_of_error (by dsimp only; split <;> rfl) hcall
    simp [localError, herr] at hlocal
  | remoteSend err =>
    obtain ⟨⟨w, f⟩, hf, rfl⟩ := Option.map_eq_some_iff.mp hs
    dsimp only at hcall ⊢
    split_ifs at hcall ⊢ with hhand
    · obtain ⟨hdone, -, hto⟩ := calls_of_error (by rfl) hcall
      exact ⟨hdone, .of_eq hto⟩
    · obtain ⟨hdone, hto⟩ := onRemoteSend_calls hcall
      exact ⟨hdone, .of_eq hto⟩
  | localTransmit k =>
    obtain ⟨f, _, rfl⟩ := Option.map_eq_some_iff.mp hs
    exact absurd rfl hcall
  | remoteTransmit k =>
    obtain ⟨f, _, rfl⟩ := Option.map_eq_some_iff.mp hs
    exact absurd rfl hcall

theorem length_flatMap_load {ws : List Write} (h : ∀ w ∈ ws, w.handshake = false) :
    (ws.flatMap f.load).length = Flow.bytesOf ws := by
  induction ws with
  | nil => rfl
  | cons w ws ih =>
    have hw : w.handshake = false := h w List.mem_cons_self
    have hlen : (f.load w).length = w.piece.len := by
      simp [Flow.load, hw, Ring.load, Piece.cells]
    have hrest := ih fun w' hw' => h w' (List.mem_cons_of_mem _ hw')
    rw [List.flatMap_cons, List.length_append, hlen, hrest, Flow.bytesOf, Flow.bytesOf,
      Flow.relayWrites_cons hw, List.map_cons, List.sum_cons]

/-- No byte is pending exactly when no uncompleted write holds one. -/
theorem pending_eq_zero_iff (hs : f.Sound []) :
    f.pending = 0 ↔ ∀ w ∈ f.writes, w.issued = [] := by
  have hlen : (f.writes.flatMap f.load).length = f.pending := length_flatMap_load (hs.plain rfl)
  rw [← hlen, List.length_eq_zero_iff, List.flatMap_eq_nil_iff]
  exact forall₂_congr fun w hw => by rw [hs.memory w hw]

/-- With nothing pending, all that was delivered has been written. -/
theorem wire_of_pending (hs : f.Sound []) (hl : f.Live false) (hpend : f.pending = 0) :
    f.wire = f.given := by
  have hlen : (f.writes.flatMap f.load).length = 0 :=
    (length_flatMap_load (hs.plain rfl)).trans hpend
  have hunsent : f.unsent = [] := by
    rw [Flow.unsent, List.eq_nil_of_length_eq_zero hlen, List.drop_nil]
  have hstream := hs.stream hl.unbroken
  rwa [hunsent, List.append_nil, List.nil_append, hl.relayed] at hstream

/-- The local connection has called back for every write that holds a byte. -/
def LocalIdle (s : Session) : Prop := ∀ w ∈ s.toLocal.writes, w.issued = []

instance (s : Session) : Decidable s.LocalIdle :=
  inferInstanceAs (Decidable (∀ w ∈ s.toLocal.writes, w.issued = []))

/-- When `callback_` is called for another reason than an error of the local connection, the
counter of bytes for the local connection is 0 exactly when that had no write left to complete. Then
all that the remote connection has delivered is written to it. -/
theorem remote_data_flushed (hrun : Run es s) (hc : s.connected = true)
    (hlocal : localError e = false) (hstep : s.step e = some s')
    (hcall : s'.calls = s.calls + 1) :
    (s'.toLocal.sndBuffBytes = 0 ↔ s.LocalIdle) ∧
      (s.LocalIdle → s'.toLocal.pending = 0 ∧ s'.toLocal.wire = s'.toLocal.given) := by
  have hinv := Run.inv hrun
  obtain ⟨hdone, hsame⟩ := step_calls hstep (by omega) hlocal
  have hlive := (hinv.live hc hdone).2
  rw [LocalIdle, ← pending_eq_zero_iff hinv.toLocal]
  constructor
  · rw [hsame.bytes, hlive.bytes]
    omega
  · intro hzero
    constructor
    · rw [Flow.pending, hsame.writes]
      exact hzero
    · rw [hsame.wire, hsame.given]
      exact wire_of_pending hinv.toLocal hlive hzero

/-- The remote connection closes after its byte has been written. -/
theorem remote_data_flushed_late :
    ∃ s s', Run [.localConnect 0, .remoteConnect 0, .remoteRecv 0 [9], .localSend 0] s ∧
      s.step (.remoteRecv errConnClosed []) = some s' ∧ s'.calls = s.calls + 1 ∧
      s'.toLocal.given = [9] ∧ s'.toLocal.sndBuffBytes = 0 ∧ s'.toLocal.pending = 0 ∧
      s'.toLocal.wire = s'.toLocal.given := by
  obtain ⟨s, hrun, hc, hidle, hany⟩ : ∃ s, Run [.localConnect 0, .remoteConnect 0,
      .remoteRecv 0 [9], .localSend 0] s ∧ (s.connected = true ∧ s.LocalIdle ∧
        ((s.step (.remoteRecv errConnClosed [])).any
          fun s' => s'.calls = s.calls + 1 ∧ s'.toLocal.given = [9]) = true) :=
    exec_check (by decide +kernel)
  obtain ⟨s', hstep, hs'⟩ := (Option.any_eq_true _ _).mp hany
  obtain ⟨hcall, hgiven⟩ := of_decide_eq_true hs'
  obtain ⟨hcounter, hwritten⟩ := remote_data_flushed hrun hc rfl hstep hcall
  exact ⟨s, s', hrun, hstep, hcall, hgiven, hcounter.mpr hidle, hwritten hidle⟩

/-- The remote connection delivers a byte and closes: the callback is called while the byte
has not been written. -/
theorem remote_data_dropped :
    ∃ s, Run [.localConnect 0, .remoteConnect 0, .remoteRecv 0 [9],
        .remoteRecvAgain errConnClosed] s ∧
      s.connected = true ∧ s.calls = 1 ∧ s.toLocal.given = [9] ∧ s.toLocal.wire = [] ∧
      s.toLocal.sndBuffBytes = 1 :=
  exec_check (by decide +kernel)

end Session

end DTun.Node.ProxySession
