import DTun.Node.ProxySession.Relay

/-!
# Flow control of the relay

A direction of a session that goes on is never stuck: its source is being read, or the ring is
full and the completion of a pending write issues the next read, or the local source has
reported its end. Writes that carry no byte complete without an effect; when the ring is full
there is one after them that carries some.
-/

namespace DTun.Node.ProxySession

open DTun.Lib DTun.Lib.Runs

/-- Exactly one of three. -/
def ExactlyOne (p q r : Prop) : Prop :=
  (p ∧ ¬q ∧ ¬r) ∨ (¬p ∧ q ∧ ¬r) ∨ (¬p ∧ ¬q ∧ r)

namespace Session

variable {s s' : Session} {flow : Session → Flow} {e : Event} {w : Write} {rest : List Write}

/-- The writes complete one after the other, each by the event `e`. The completion of one of
those that are pending, and none before it, issues a read. -/
def WillRead (flow : Session → Flow) (e : Event) (s : Session) : Prop :=
  ∃ before w after s₁ s₂, (flow s).writes = before ++ w :: after ∧ w.handshake = false ∧
    exec step s (List.replicate before.length e) = some s₁ ∧ (flow s₁).reads = [] ∧
    s₁.step e = some s₂ ∧ (flow s₂).writes = after ∧ (flow s₂).reads ≠ []

/-- The session goes on, with this ring full. -/
structure Full (flow : Session → Flow) (s : Session) : Prop where
  inv : Inv s
  connected : s.connected = true
  notDone : s.done = false
  pending : (flow s).pending = buffSize
  reads : (flow s).reads = []

/-- Event `e` completes a write of the flow: one with bytes issues a read, any other one
leaves the ring full. -/
def Completes (flow : Session → Flow) (e : Event) : Prop :=
  ∀ s w rest, Full flow s → (flow s).writes = w :: rest →
    ∃ s', s.step e = some s' ∧ (flow s').writes = rest ∧
      ((w.handshake = false ∧ 0 < w.piece.len ∧ (flow s').reads ≠ []) ∨
        ((w.handshake = true ∨ w.piece.len = 0) ∧ Full flow s'))

theorem willRead_of_full (hcompletes : Completes flow e) (h : Full flow s) :
    WillRead flow e s := by
  -- The bytes of a full ring are in some write, so the list of writes does not run out.
  generalize hws : (flow s).writes = ws
  induction ws generalizing s with
  | nil =>
    have hzero : (flow s).pending = 0 := by rw [Flow.pending, hws]; rfl
    have hpos := Flow.buffSize_pos
    have hfull := h.pending
    omega
  | cons w rest ih =>
    obtain ⟨s', hstep, hrest, ⟨hrelay, _, hreads⟩ | ⟨_, hfull⟩⟩ := hcompletes s w rest h hws
    · exact ⟨[], w, rest, s, s', hws, hrelay, rfl, h.reads, hstep, hrest, hreads⟩
    · obtain ⟨before, w', after, s₁, s₂, hsplit, hrelay, hexec, hnil, hlast, hafter, hreads⟩ :=
        ih hfull hrest
      refine ⟨w :: before, w', after, s₁, s₂, ?_, hrelay, ?_, hnil, hlast, hafter, hreads⟩
      · rw [hws, ← hrest, hsplit]
        rfl
      · rw [List.length_cons, List.replicate_succ, exec_cons, hstep]
        exact hexec

/-- What the flow is after a relay write has completed while the ring was full. -/
theorem sent_of_full {f f' : Flow} {head : List UInt8} (hs : f.Sound head) (hl : f.Live false)
    (hpend : f.pending = buffSize) (hc : f.complete 0 = some (w, f'))
    (hrelay : w.handshake = false) :
    f'.full = true ∧
    ((w.piece.len = 0 ∧ (f'.sent w.piece.len).recv.pending = buffSize ∧
        (f'.sent w.piece.len).recv.reads = []) ∨
      (0 < w.piece.len ∧ (f'.sent w.piece.len).recv.reads ≠ [])) := by
  obtain ⟨hsound, hbytes, _, _, hnext⟩ := hl.completed hs hc hrelay
  obtain ⟨_, _, hbytes', _, _, _, _, _, hsplit⟩ := hs.complete hc
  rcases hsplit with ⟨hhand, _⟩ | ⟨_, hsplit⟩
  · cases hhand.symm.trans hrelay
  have hbytes₀ := hl.bytes
  have hfull : f'.full = true := by
    simp only [Flow.full, decide_eq_true_eq]
    omega
  rcases hnext with ⟨_, _, hreads⟩ | ⟨hnot, _⟩
  swap
  · cases hfull.symm.trans hnot
  have hpend' : (f'.sent w.piece.len).pending = f'.pending := rfl
  have hchunk := Flow.chunkSize_pos
  refine ⟨hfull, ?_⟩
  unfold Flow.recv
  dsimp only
  split_ifs with hle
  · exact Or.inl ⟨by omega, by omega, hreads⟩
  · exact Or.inr ⟨by omega, by simp⟩

theorem complete_of_cons {f : Flow} (hw : f.writes = w :: rest) (hbroken : f.broken = false) :
    ∃ f', f.complete 0 = some (w, f') ∧ f'.writes = rest := by
  unfold Flow.complete
  rw [hw]
  simp only [hbroken, if_true, Bool.false_eq_true, if_false]
  exact ⟨_, rfl, rfl⟩

/-- A full ring means that the local source has not reported its end. -/
theorem Full.not_shut (h : Full toRemote s) :
    s.localShutdown = false ∧ s.toRemote.Live s.localShutdown := by
  have hlive := (h.inv.live h.connected h.notDone).1
  have hpend := h.pending
  refine ⟨?_, hlive⟩
  rcases hlive.armed with ⟨hshut, _⟩ | ⟨hshut, _⟩ | ⟨_, _, hlt⟩
  · exact hshut
  · exact hshut
  · omega

/-- Asking for more leaves the writes as they are. -/
theorem recv_writes (f : Flow) : f.recv.writes = f.writes := by
  unfold Flow.recv
  dsimp only
  split_ifs <;> rfl

theorem completes_toRemote : Completes toRemote (.remoteSend 0) := by
  intro s w rest h hw
  obtain ⟨hshut, hlive⟩ := h.not_shut
  obtain ⟨f, hf, hrest⟩ := complete_of_cons hw hlive.unbroken
  have hmap : s.step (.remoteSend 0) = some (if w.handshake then
      { s with toRemote := f }.onHandshakeSend 0
    else { s with toRemote := f }.onRemoteSend 0 w.piece.len) := by
    simp only [step, hf, Option.map_some]
  refine ⟨_, hmap, ?_⟩
  have hinv := step_inv h.inv hmap
  obtain ⟨_, _, _, hreads, _, _, _, _, hpend⟩ := h.inv.toRemote.complete hf
  cases hhand : w.handshake with
  | true =>
    have heq : (if w.handshake then { s with toRemote := f }.onHandshakeSend 0
        else { s with toRemote := f }.onRemoteSend 0 w.piece.len) = { s with toRemote := f } := by
      simp [hhand, onHandshakeSend]
    rw [hhand] at heq hinv
    rw [heq] at hinv ⊢
    rcases hpend with ⟨_, hpend⟩ | ⟨hrelay, _⟩
    · exact ⟨hrest, Or.inr ⟨Or.inl rfl, hinv, h.connected, h.notDone, hpend.symm.trans h.pending,
        hreads.trans h.reads⟩⟩
    · cases hhand.symm.trans hrelay
  | false =>
    rw [hshut] at hlive
    obtain ⟨hfull, hnext⟩ := sent_of_full h.inv.toRemote hlive h.pending hf hhand
    have heq : (if w.handshake then { s with toRemote := f }.onHandshakeSend 0
        else { s with toRemote := f }.onRemoteSend 0 w.piece.len) =
        { s with toRemote := f.sent w.piece.len }.recvLocal := by
      simp [hhand, onRemoteSend, h.notDone, hshut, hfull]
    rw [hhand] at heq hinv
    rw [heq] at hinv ⊢
    refine ⟨?_, ?_⟩
    · exact (recv_writes _).trans hrest
    · rcases hnext with ⟨hzero, hpend', hnil⟩ | ⟨hpos, hne⟩
      · exact Or.inr ⟨Or.inr hzero, hinv, h.connected, h.notDone, hpend', hnil⟩
      · exact Or.inl ⟨rfl, hpos, hne⟩

theorem completes_toLocal : Completes toLocal (.localSend 0) := by
  intro s w rest h hw
  have hlive := (h.inv.live h.connected h.notDone).2
  obtain ⟨f, hf, hrest⟩ := complete_of_cons hw hlive.unbroken
  have hhand : w.handshake = false := h.inv.toLocal.plain rfl w (by rw [hw]; simp)
  obtain ⟨hfull, hnext⟩ := sent_of_full h.inv.toLocal hlive h.pending hf hhand
  have hmap : s.step (.localSend 0) =
      some { s with toLocal := f.sent w.piece.len }.recvRemote := by
    simp [step, hf, onLocalSend, h.notDone, hfull]
  have hinv := step_inv h.inv hmap
  refine ⟨_, hmap, ?_, ?_⟩
  · exact (recv_writes _).trans hrest
  · rcases hnext with ⟨hzero, hpend', hnil⟩ | ⟨hpos, hne⟩
    · exact Or.inr ⟨Or.inr hzero, hinv, h.connected, h.notDone, hpend', hnil⟩
    · exact Or.inl ⟨hhand, hpos, hne⟩

/-- In each direction exactly one thing is awaited. -/
theorem flow_control {es : List Event} (hrun : Run es s) (hc : s.connected = true)
    (hdone : s.done = false) :
    ExactlyOne (s.toRemote.reads ≠ [])
      (s.toRemote.sndBuffBytes = buffSize ∧ WillRead toRemote (.remoteSend 0) s)
      (s.localShutdown = true) ∧
    ExactlyOne (s.toLocal.reads ≠ [])
      (s.toLocal.sndBuffBytes = buffSize ∧ WillRead toLocal (.localSend 0) s) False := by
  have h := Run.inv hrun
  obtain ⟨hr, hl⟩ := h.live hc hdone
  have hbr := hr.bytes
  have hbl := hl.bytes
  constructor
  · rcases hr.armed with ⟨hshut, n, hn, _, hpos, hroom⟩ | ⟨hshut, hnil, hfull⟩ | ⟨hshut, hnil, hlt⟩
    · exact Or.inl ⟨by simp [hn], fun hq => by omega, by simp [hshut]⟩
    · have hwill := willRead_of_full completes_toRemote ⟨h, hc, hdone, hfull, hnil⟩
      exact Or.inr (Or.inl ⟨by simp [hnil], ⟨by omega, hwill⟩, by simp [hshut]⟩)
    · exact Or.inr (Or.inr ⟨by simp [hnil], fun hq => by omega, hshut⟩)
  · rcases hl.armed with ⟨_, n, hn, _, hpos, hroom⟩ | ⟨_, hnil, hfull⟩ | ⟨hshut, _⟩
    · exact Or.inl ⟨by simp [hn], fun hq => by omega, not_false⟩
    · have hwill := willRead_of_full completes_toLocal ⟨h, hc, hdone, hfull, hnil⟩
      exact Or.inr (Or.inl ⟨by simp [hnil], ⟨by omega, hwill⟩, not_false⟩)
    · cases hshut

/-- After the local end of file the remote source is still read. -/
theorem flow_control_shutdown :
    ∃ s, Run [.localConnect 0, .remoteConnect 0, .localRecv 0 [7], .localRecv 0 []] s ∧
      (s.connected = true ∧ s.done = false ∧ s.localShutdown = true) ∧
      ExactlyOne (s.toRemote.reads ≠ [])
        (s.toRemote.sndBuffBytes = buffSize ∧ WillRead toRemote (.remoteSend 0) s)
        (s.localShutdown = true) ∧
      ExactlyOne (s.toLocal.reads ≠ [])
        (s.toLocal.sndBuffBytes = buffSize ∧ WillRead toLocal (.localSend 0) s) False := by
  exact exec_check_and (by decide +kernel) fun _ hrun hstate =>
    flow_control hrun hstate.1 hstate.2.1

end Session

end DTun.Node.ProxySession
