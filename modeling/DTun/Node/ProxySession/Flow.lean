import DTun.Node.ProxySession.Model

/-!
# One direction of the relay

The ring is empty between handlers, but the cells behind its start still belong to the
uncompleted writes. Since writes complete in order, these cells are the last ones that were
filled, as many as the uncompleted writes have bytes; `send` fills the cells after the start,
and no more of them than the others leave.
-/

namespace DTun.Node.ProxySession

open DTun.Lib

namespace Flow

variable {f f' : Flow} {w : Write} {data head : List UInt8} {err : Int} {k : Nat}

/-- The writes that point into the ring. -/
def relayWrites (ws : List Write) : List Write := ws.filter fun w => !w.handshake

/-- How many bytes are in these writes. -/
def bytesOf (ws : List Write) : Nat := ((relayWrites ws).map fun w => w.piece.len).sum

/-- The cells they point to. -/
def cellsOf (ws : List Write) : List Nat := (relayWrites ws).flatMap fun w => w.piece.cells

/-- The number of bytes in the uncompleted relay writes. -/
def pending (f : Flow) : Nat := bytesOf f.writes

section Writes

variable {ws ws' : List Write}

theorem bytesOf_append : bytesOf (ws ++ ws') = bytesOf ws + bytesOf ws' := by
  simp [bytesOf, relayWrites]

theorem cellsOf_append : cellsOf (ws ++ ws') = cellsOf ws ++ cellsOf ws' := by
  simp [cellsOf, relayWrites]

theorem relayWrites_handshake (h : w.handshake = true) :
    relayWrites (w :: ws) = relayWrites ws := List.filter_cons_of_neg (by simp [h])

theorem relayWrites_cons (h : w.handshake = false) :
    relayWrites (w :: ws) = w :: relayWrites ws := List.filter_cons_of_pos (by simp [h])

end Writes

/-- What holds of a direction at any time, with `head` on the wire before the first relayed
byte. -/
structure Sound (f : Flow) (head : List UInt8) : Prop where
  size : f.sndBuff.size = 0
  first : f.sndBuff.first = f.relayed.length % buffSize
  le : f.pending ≤ f.relayed.length
  fits : f.pending ≤ buffSize
  cells : cellsOf f.writes = window buffSize (f.relayed.length - f.pending) f.pending
  memory : ∀ w ∈ f.writes, f.load w = w.issued
  taken : f.taken ≤ (f.writes.flatMap f.load).length
  stream : f.broken = false → f.wire ++ f.unsent = head ++ f.relayed
  wire : f.wire <+: head ++ f.relayed
  source : f.relayed <+: f.given
  covers : (f.pending : Int) ≤ f.sndBuffBytes
  bound : f.sndBuffBytes ≤ buffSize
  reads : f.reads.length ≤ 1
  plain : head = [] → ∀ w ∈ f.writes, w.handshake = false
  ok : f.ok = true

theorem buffSize_pos : 0 < buffSize := by decide

theorem chunkSize_pos : 0 < chunkSize := by decide

theorem Sound.empty : Sound {} [] where
  size := rfl
  first := rfl
  le := Nat.le_refl _
  fits := Nat.zero_le _
  cells := rfl
  memory := by simp
  taken := Nat.zero_le _
  stream := fun _ => rfl
  wire := List.prefix_rfl
  source := List.prefix_rfl
  covers := Int.le_refl _
  bound := Int.natCast_nonneg _
  reads := Nat.zero_le _
  plain := by simp
  ok := rfl

/-- The source delivers: only its own end changes. -/
theorem Sound.answer (h : f.Sound head) (ha : f.answer err data = some f') : f'.Sound head := by
  unfold Flow.answer at ha
  split at ha
  · cases ha
  · rename_i n rest hreads
    obtain ⟨_, heq⟩ := Option.ite_none_right_eq_some.mp ha
    cases heq
    have hone := h.reads
    rw [hreads, List.length_cons] at hone
    exact { h with
      source := h.source.trans (List.prefix_append _ _)
      reads := by dsimp only; omega }

theorem Sound.transmit (h : f.Sound head) (ht : f.transmit k = some f') : f'.Sound head := by
  obtain ⟨hbroken, heq⟩ := Option.ite_none_left_eq_some.mp ht
  cases heq
  have hbroken : f.broken = false := by
    simp only [Bool.or_eq_true, not_or, Bool.not_eq_true] at hbroken
    exact hbroken.1
  have hstream := h.stream hbroken
  have hunsent : f.unsent.take k ++
      (f.writes.flatMap f.load).drop (f.taken + (f.unsent.take k).length) = f.unsent := by
    conv_rhs => rw [← List.take_append_drop (f.unsent.take k).length f.unsent]
    rw [List.length_take, ← List.take_take, List.take_length, ← List.drop_drop]
    rfl
  have hstream' : f.wire ++ f.unsent.take k ++
      (f.writes.flatMap f.load).drop (f.taken + (f.unsent.take k).length) = head ++ f.relayed := by
    rw [List.append_assoc, hunsent, hstream]
  refine { h with
    taken := ?_
    stream := fun _ => hstream'
    wire := ⟨_, hstream'⟩ }
  have hle : (f.unsent.take k).length ≤ f.unsent.length := by
    rw [List.length_take]
    exact Nat.min_le_right _ _
  have htaken := h.taken
  have hlen : f.unsent.length = (f.writes.flatMap f.load).length - f.taken := List.length_drop
  dsimp only
  change f.taken + _ ≤ (f.writes.flatMap f.load).length
  omega

/-- The oldest write leaves: its cells are the first of the window. -/
theorem cells_pop {rest : List Write} {total : Nat} (hle : bytesOf (w :: rest) ≤ total)
    (hcells : cellsOf (w :: rest) =
      window buffSize (total - bytesOf (w :: rest)) (bytesOf (w :: rest))) :
    (w.handshake = true ∧ bytesOf (w :: rest) = bytesOf rest ∨
      w.handshake = false ∧ bytesOf (w :: rest) = w.piece.len + bytesOf rest) ∧
    cellsOf rest = window buffSize (total - bytesOf rest) (bytesOf rest) := by
  unfold bytesOf cellsOf at *
  cases hhand : w.handshake with
  | true =>
    rw [relayWrites_handshake hhand] at hcells ⊢
    exact ⟨Or.inl ⟨rfl, rfl⟩, hcells⟩
  | false =>
    rw [relayWrites_cons hhand, List.map_cons, List.sum_cons] at hle hcells ⊢
    refine ⟨Or.inr ⟨rfl, rfl⟩, ?_⟩
    rw [List.flatMap_cons, window_append] at hcells
    have hlen : w.piece.cells.length = w.piece.len := List.length_range'
    have hrest := (List.append_inj hcells (by rw [hlen, length_window])).2
    rw [hrest]
    congr 1
    omega

/-- The destination completes a write. -/
theorem Sound.complete (h : f.Sound head) (hc : f.complete err = some (w, f')) :
    f'.Sound head ∧ f.writes = w :: f'.writes ∧ f'.sndBuffBytes = f.sndBuffBytes ∧
      f'.reads = f.reads ∧ f'.rcvBuff = f.rcvBuff ∧ f'.given = f.given ∧
      f'.relayed = f.relayed ∧ (err = 0 → f'.broken = f.broken) ∧
      (w.handshake = true ∧ f.pending = f'.pending ∨
        w.handshake = false ∧ f.pending = w.piece.len + f'.pending) := by
  unfold Flow.complete at hc
  split at hc
  · cases hc
  rename_i w₀ rest hw
  have hle := h.le
  have hcells := h.cells
  unfold pending at hle hcells ⊢
  rw [hw] at hle hcells
  obtain ⟨hpend, hrest⟩ := cells_pop hle hcells
  have hless : bytesOf rest ≤ f.pending := by
    rw [pending, hw]
    rcases hpend with ⟨_, heq⟩ | ⟨_, heq⟩ <;> omega
  have hmemory : ∀ w ∈ rest, f.load w = w.issued :=
    fun w hmem => h.memory w (by rw [hw]; exact List.mem_cons_of_mem _ hmem)
  have hplain : head = [] → ∀ w ∈ rest, w.handshake = false :=
    fun hn w hmem => h.plain hn w (by rw [hw]; exact List.mem_cons_of_mem _ hmem)
  have htaken := h.taken
  rw [hw, List.flatMap_cons, List.length_append] at htaken
  split_ifs at hc with herr hbroken
  · cases hc
    have hstream := h.stream (by simpa using hbroken)
    rw [unsent, hw, List.flatMap_cons, List.drop_append, ← List.append_assoc] at hstream
    refine ⟨{ h with
      le := hless.trans h.le
      fits := hless.trans h.fits
      cells := hrest
      memory := hmemory
      taken := ?_
      stream := fun _ => hstream
      wire := ⟨_, hstream⟩
      plain := hplain
      covers := le_trans (Int.ofNat_le.mpr hless) h.covers }, hw, rfl, rfl, rfl, rfl, rfl,
      fun _ => rfl, hw ▸ hpend⟩
    change f.taken - _ ≤ (rest.flatMap f.load).length
    omega
  · cases hc
    exact ⟨{ h with
      le := hless.trans h.le
      fits := hless.trans h.fits
      cells := hrest
      memory := hmemory
      taken := Nat.zero_le _
      stream := fun hb => by cases hb
      plain := hplain
      covers := le_trans (Int.ofNat_le.mpr hless) h.covers }, hw, rfl, rfl, rfl, rfl, rfl,
      fun he => absurd he herr, hw ▸ hpend⟩

theorem issues_spec (buff : Ring UInt8 buffSize) :
    cellsOf (issues buff) = buff.arrayOne.cells ++ buff.arrayTwo.cells ∧
    bytesOf (issues buff) = buff.arrayOne.len + buff.arrayTwo.len ∧
    (issues buff).flatMap Write.issued = buff.load buff.arrayOne ++ buff.load buff.arrayTwo ∧
    ∀ w ∈ issues buff, w.handshake = false ∧ buff.load w.piece = w.issued := by
  unfold issues
  split
  · refine ⟨by simp [cellsOf, relayWrites, issue], by simp [bytesOf, relayWrites, issue],
      by simp [issue], ?_⟩
    simp [issue]
  · rename_i hzero
    have hlen : buff.arrayTwo.len = 0 := by omega
    have hcells : buff.arrayTwo.cells = [] := by rw [Piece.cells, hlen, List.range'_zero]
    refine ⟨by simp [cellsOf, relayWrites, issue, hcells],
      by simp [bytesOf, relayWrites, issue, hlen], by simp [issue, Ring.load, hcells], ?_⟩
    simp [issue]

theorem mem_cellsOf {ws : List Write} {c : Nat} (hw : w ∈ ws) (hhand : w.handshake = false)
    (hc : c ∈ w.piece.cells) : c ∈ cellsOf ws :=
  List.mem_flatMap.mpr ⟨w, List.mem_filter.mpr ⟨hw, by simp [hhand]⟩, hc⟩

/-- The memory of an uncompleted write is not touched by `send`. -/
theorem load_send (h : f.Sound head) (hfit : data.length ≤ buffSize - f.pending)
    (hw : w ∈ f.writes) : (f.send data).load w = f.load w := by
  unfold load
  cases hhand : w.handshake with
  | true => rfl
  | false =>
    refine Ring.load_insertEnd h.first h.size fun c hc => ?_
    have hmem := mem_cellsOf hw hhand hc
    rw [h.cells] at hmem
    have hle := h.le
    have hfits := h.fits
    have hnot := not_mem_window_of_mem (n := data.length) (by omega) hmem
    rwa [Nat.sub_add_cancel hle] at hnot

/-- The data goes to the end of what is to be transmitted. -/
theorem flatMap_load_send (h : f.Sound head) (hfit : data.length ≤ buffSize - f.pending) :
    (f.send data).writes.flatMap (f.send data).load = f.writes.flatMap f.load ++ data := by
  have hold : f.writes.flatMap (f.send data).load = f.writes.flatMap f.load :=
    List.flatMap_congr fun w hw => load_send h hfit hw
  obtain ⟨_, _, hissued, hnew⟩ := issues_spec (f.sndBuff.insertEnd data)
  have hload : (issues (f.sndBuff.insertEnd data)).flatMap (f.send data).load =
      (issues (f.sndBuff.insertEnd data)).flatMap Write.issued := by
    refine List.flatMap_congr fun w hw => ?_
    obtain ⟨hhand, heq⟩ := hnew w hw
    rw [load, hhand]
    exact heq
  have hfits := h.fits
  change (f.writes ++ issues (f.sndBuff.insertEnd data)).flatMap _ = _
  rw [List.flatMap_append, hold, hload, hissued,
    (Ring.insertEnd_arrays h.first h.size buffSize_pos (by omega)).2]

theorem Sound.pending_send (h : f.Sound head) (data : List UInt8) :
    (f.send data).pending = f.pending + data.length := by
  change bytesOf (f.writes ++ issues (f.sndBuff.insertEnd data)) = _
  rw [bytesOf_append, (issues_spec (f.sndBuff.insertEnd data)).2.1,
    Ring.arrays_len data h.size]
  rfl

theorem Sound.send (h : f.Sound head) (hbytes : f.sndBuffBytes = f.pending)
    (hfit : data.length ≤ buffSize - f.pending) (hrcv : data.length ≤ f.rcvBuff)
    (hsource : f.relayed ++ data <+: f.given) : (f.send data).Sound head := by
  have hfits := h.fits
  have hle := h.le
  have hpending := h.pending_send data
  obtain ⟨hcells, _, _, hnew⟩ := issues_spec (f.sndBuff.insertEnd data)
  rw [(Ring.insertEnd_arrays h.first h.size buffSize_pos (by omega)).1] at hcells
  have htotal : (f.send data).relayed.length = f.relayed.length + data.length :=
    List.length_append
  have hloads := flatMap_load_send h hfit
  have hstream : f.broken = false →
      (f.send data).wire ++ (f.send data).unsent = head ++ (f.send data).relayed := by
    intro hb
    have htaken := h.taken
    rw [unsent, hloads]
    change f.wire ++ (f.writes.flatMap f.load ++ data).drop f.taken = head ++ (f.relayed ++ data)
    rw [List.drop_append_of_le_length htaken, ← List.append_assoc, ← List.append_assoc]
    exact congrArg (· ++ data) (h.stream hb)
  refine ⟨?_, ?_, ?_, ?_, ?_, ?_, ?_, hstream, ?_, hsource, ?_, ?_, h.reads, ?_, ?_⟩
  · change f.sndBuff.size + data.length - data.length = 0
    rw [h.size]
    omega
  · change (f.sndBuff.first + data.length) % buffSize = _
    rw [h.first, htotal, Nat.mod_add_mod]
  · omega
  · omega
  · rw [hpending, htotal]
    change cellsOf (f.writes ++ issues (f.sndBuff.insertEnd data)) = _
    rw [cellsOf_append, h.cells, hcells, window_append, Nat.add_sub_add_right,
      Nat.sub_add_cancel hle]
  · intro w hw
    rcases List.mem_append.mp hw with hw | hw
    · rw [load_send h hfit hw]
      exact h.memory w hw
    · obtain ⟨hhand, heq⟩ := hnew w hw
      rw [load, hhand]
      exact heq
  · rw [hloads, List.length_append]
    have htaken := h.taken
    change f.taken ≤ _
    omega
  · exact h.wire.trans ⟨data, by rw [List.append_assoc]; rfl⟩
  · rw [hpending]
    change _ ≤ f.sndBuffBytes + (data.length : Int)
    omega
  · change f.sndBuffBytes + (data.length : Int) ≤ buffSize
    omega
  · intro hnil w hw
    rcases List.mem_append.mp hw with hw | hw
    · exact h.plain hnil w hw
    · exact (hnew w hw).1
  · change (f.ok && _) = true
    rw [h.ok, Bool.true_and, Bool.and_eq_true, decide_eq_true_eq, decide_eq_true_eq]
    exact ⟨hrcv, by omega⟩

/-- A direction of a session that is connected and not done: its counter is exact, and its
source is being read, or the ring is full, or the source is at its end. -/
structure Live (f : Flow) (shut : Bool) : Prop where
  bytes : f.sndBuffBytes = f.pending
  relayed : f.relayed = f.given
  unbroken : f.broken = false
  armed : (shut = false ∧ ∃ n, f.reads = [n] ∧ f.rcvBuff = n ∧ 0 < n ∧ n ≤ buffSize - f.pending) ∨
    (shut = false ∧ f.reads = [] ∧ f.pending = buffSize) ∨
    (shut = true ∧ f.reads = [] ∧ f.pending < buffSize)

theorem Sound.recv (h : f.Sound head) (hreads : f.reads = []) : f.recv.Sound head := by
  simp only [Flow.recv]
  split
  · exact h
  · exact { h with reads := by simp [hreads] }

theorem Live.recv (h : f.Sound head) (hbytes : f.sndBuffBytes = f.pending)
    (hrelayed : f.relayed = f.given) (hbroken : f.broken = false) (hreads : f.reads = []) :
    f.recv.Live false := by
  have hfits := h.fits
  have hchunk := chunkSize_pos
  simp only [Flow.recv]
  split
  · rename_i hle
    refine ⟨hbytes, hrelayed, hbroken, Or.inr (Or.inl ⟨rfl, hreads, ?_⟩)⟩
    omega
  · rename_i hpos
    generalize hrecv : min ((buffSize : Int) - f.sndBuffBytes) chunkSize = toRecv at hpos ⊢
    refine ⟨hbytes, hrelayed, hbroken,
      Or.inl ⟨rfl, toRecv.toNat, by rw [hreads]; rfl, rfl, by omega, ?_⟩⟩
    change toRecv.toNat ≤ buffSize - f.pending
    omega

theorem Sound.assert {b : Bool} (h : f.Sound head) (hb : b = true) : (f.assert b).Sound head :=
  { h with ok := by rw [Flow.assert, hb, h.ok]; rfl }

/-- The counter goes down by what has been completed. -/
theorem Sound.sent {n : Nat} (h : f.Sound head) (hbytes : f.sndBuffBytes = f.pending + n) :
    (f.sent n).Sound head ∧ (f.sent n).sndBuffBytes = (f.sent n).pending := by
  have hbound := h.bound
  have hassert : (!f.full || decide (f.sndBuffBytes = buffSize)) = true := by
    unfold full
    by_cases hge : f.sndBuffBytes ≥ buffSize
    · simp only [hge, decide_true, Bool.not_true, Bool.false_or, decide_eq_true_eq]
      omega
    · simp [hge]
  refine ⟨{ h.assert hassert with covers := ?_, bound := ?_ }, ?_⟩
  · change (f.pending : Int) ≤ f.sndBuffBytes - n
    omega
  · change f.sndBuffBytes - n ≤ buffSize
    omega
  · change f.sndBuffBytes - n = f.pending
    omega

/-- The flow that the handshake is written to. -/
theorem Sound.greet : (greet {}).Sound [0xE1] where
  size := rfl
  first := rfl
  le := Nat.le_refl _
  fits := Nat.zero_le _
  cells := rfl
  memory := by
    intro w hw
    obtain rfl := List.mem_singleton.mp hw
    rfl
  taken := Nat.zero_le _
  stream := fun _ => rfl
  wire := List.nil_prefix
  source := List.prefix_rfl
  covers := Int.le_refl _
  bound := Int.natCast_nonneg _
  reads := Nat.zero_le _
  plain := by simp
  ok := rfl

variable {shut : Bool}

theorem Live.transmit (h : f.Live shut) (ht : f.transmit k = some f') : f'.Live shut := by
  obtain ⟨_, heq⟩ := Option.ite_none_left_eq_some.mp ht
  cases heq
  exact ⟨h.bytes, h.relayed, h.unbroken, h.armed⟩

/-- A relay write completes. -/
theorem Live.completed (h : f.Live shut) (hs : f.Sound head)
    (hc : f.complete 0 = some (w, f')) (hrelay : w.handshake = false) :
    (f'.sent w.piece.len).Sound head ∧
    (f'.sent w.piece.len).sndBuffBytes = (f'.sent w.piece.len).pending ∧
    (f'.sent w.piece.len).relayed = (f'.sent w.piece.len).given ∧
    (f'.sent w.piece.len).broken = false ∧
    ((f'.full = true ∧ shut = false ∧ (f'.sent w.piece.len).reads = []) ∨
      (f'.full = false ∧ (f'.sent w.piece.len).Live shut)) := by
  obtain ⟨hs', _, hbytes', hreads, hrcv, hgiven, hrelayed, hbroken, hpend⟩ := hs.complete hc
  rcases hpend with ⟨hhand, _⟩ | ⟨_, hpend⟩
  · rw [hrelay] at hhand
    cases hhand
  have hbytes := h.bytes
  obtain ⟨hs₁, hbytes₁⟩ := hs'.sent (n := w.piece.len) (by omega)
  have hrelayed₁ : f'.relayed = f'.given := by rw [hrelayed, hgiven, h.relayed]
  have hbroken₁ : f'.broken = false := (hbroken rfl).trans h.unbroken
  have hpending₁ : (f'.sent w.piece.len).pending = f'.pending := rfl
  refine ⟨hs₁, hbytes₁, hrelayed₁, hbroken₁, ?_⟩
  have hnotfull : f.pending < buffSize → f'.full = false := by
    intro hlt
    simp only [full, decide_eq_false_iff_not]
    omega
  rcases h.armed with ⟨hshut, n, hn, hsize, hpos, hroom⟩ | ⟨hshut, hnil, hfull⟩ | ⟨hshut, hnil, hlt⟩
  · refine Or.inr ⟨hnotfull (by omega), hbytes₁, hrelayed₁, hbroken₁,
      Or.inl ⟨hshut, n, hreads.trans hn, hrcv.trans hsize, hpos, ?_⟩⟩
    rw [hpending₁]
    omega
  · refine Or.inl ⟨?_, hshut, hreads.trans hnil⟩
    simp only [full, decide_eq_true_eq]
    omega
  · refine Or.inr ⟨hnotfull hlt, hbytes₁, hrelayed₁, hbroken₁,
      Or.inr (Or.inr ⟨hshut, hreads.trans hnil, ?_⟩)⟩
    rw [hpending₁]
    omega

/-- The handshake completes: nothing that is counted changes. -/
theorem Live.greeted (h : f.Live shut) (hs : f.Sound head)
    (hc : f.complete 0 = some (w, f')) (hhand : w.handshake = true) : f'.Live shut := by
  obtain ⟨_, _, hbytes, hreads, hrcv, hgiven, hrelayed, hbroken, hpend⟩ := hs.complete hc
  rcases hpend with ⟨_, hpend⟩ | ⟨hrelay, _⟩
  · refine ⟨by rw [hbytes, ← hpend, h.bytes], by rw [hrelayed, hgiven, h.relayed],
      (hbroken rfl).trans h.unbroken, ?_⟩
    rw [hreads, hrcv, ← hpend]
    exact h.armed
  · rw [hhand] at hrelay
    cases hrelay

/-- The source has delivered; the bytes are not passed on yet. -/
structure Answered (f : Flow) (data : List UInt8) : Prop where
  bytes : f.sndBuffBytes = f.pending
  given : f.given = f.relayed ++ data
  unbroken : f.broken = false
  reads : f.reads = []
  rcv : data.length ≤ f.rcvBuff
  room : data.length ≤ buffSize - f.pending
  notFull : f.pending < buffSize

theorem Live.answer (h : f.Live shut) (ha : f.answer 0 data = some f') :
    shut = false ∧ f'.Answered data := by
  unfold Flow.answer at ha
  split at ha
  · cases ha
  rename_i n rest hreads
  obtain ⟨hle, heq⟩ := Option.ite_none_right_eq_some.mp ha
  cases heq
  rcases h.armed with ⟨hshut, m, hm, hsize, hpos, hroom⟩ | ⟨_, hnil, _⟩ | ⟨_, hnil, _⟩
  · rw [hreads] at hm
    obtain ⟨rfl, rfl⟩ := List.cons.inj hm
    refine ⟨hshut, h.bytes, ?_, h.unbroken, rfl, hle.trans hsize.symm.le, hle.trans hroom, ?_⟩
    · rw [if_pos rfl, h.relayed]
    · change f.pending < buffSize
      omega
  · rw [hnil] at hreads
    cases hreads
  · rw [hnil] at hreads
    cases hreads

theorem Answered.relay (h : f.Answered data) (hs : f.Sound head) :
    (f.send data).recv.Sound head ∧ (f.send data).recv.Live false := by
  have hsource : f.relayed ++ data <+: f.given := h.given ▸ List.prefix_rfl
  have hs' := hs.send h.bytes h.room h.rcv hsource
  have hbytes : (f.send data).sndBuffBytes = (f.send data).pending := by
    have hbytes := h.bytes
    rw [hs.pending_send]
    change f.sndBuffBytes + (data.length : Int) = _
    omega
  exact ⟨hs'.recv h.reads, Live.recv hs' hbytes h.given.symm h.unbroken h.reads⟩

end Flow

end DTun.Node.ProxySession
