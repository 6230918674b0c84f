import DTun.Node.ProxyTCPClient.Model

/-!
# Data before the end of the stream

The handler looks at the state first and stops there when it is an error, so that it passes
on what was received only if it has read `STATE_UP` before the end of the stream was reported.
Data is `Owed` from the call of `onRecv` to that of `StreamRecvInterface_Done`; there is never
more than one piece of it, because tun2socks asks for the next one after that.
-/

namespace DTun.Node.ProxyTCPClient

open Lib.Runs

namespace State

variable {s s' : State} {e : Event} {es : List Event}

/-- The steps, with what each of them needs. -/
inductive Step (s : State) : Event → State → Prop where
  | onConnectionRegister {err connects : Bool} (hstage : s.stage = .registering) :
    Step s (.onConnectionRegister err connects) (s.onConnectionRegister err connects)
  | onConnect {err : Bool} (hstage : s.stage = .connecting) :
    Step s (.onConnect err) (s.onConnect err)
  | onHandshakeRecv {err : Bool} {byte : Nat} (hstage : s.stage = .handshaking) :
    Step s (.onHandshakeRecv err byte) (s.onHandshakeRecv err byte)
  | onSend {err : Bool} {numBytes : Nat} (hwriting : s.writing = some numBytes) :
    Step s (.onSend err) (s.onSend err numBytes)
  | onRecvData {numBytes : Nat} (hreading : s.reading = true) :
    Step s (.onRecvData numBytes) (s.onRecvData numBytes)
  | onRecvErr {closed late : Bool} (hread : (if late then s.readReported else s.reading) = true) :
    Step s (.onRecvErr closed late) (s.onRecvErr closed late)
  | recv (hpc : s.pc = .idle) (hw : s.dtcp.wasConnected = true) (hr : s.dtcp.receiving = false) :
    Step s .recv s.recvHandler
  | send {dataLen : Nat} (hpc : s.pc = .idle) : Step s (.send dataLen) (s.sendHandler dataLen)
  | connTimer (hpc : s.pc = .idle) : Step s .connTimer s.connTimerHandler
  | destroy (hpc : s.pc = .idle) : Step s .destroy { s with destroyed := true }
  | signal {left : Nat} (hpc : s.pc = .idle) :
    Step s (.signal left) { s with signals := left, pc := .sampled s.client.state }
  | handleState {newState : ConnState} (hpc : s.pc = .sampled newState) :
    Step s .handle (s.handleState newState)
  | handleReceiving (hpc : s.pc = .receiving) : Step s .handle s.handleReceiving
  | handleSending (hpc : s.pc = .sending) : Step s .handle s.handleSending

theorem step_cases (hstep : s.step e = some s') : s.destroyed = false ∧ Step s e s' := by
  unfold step at hstep
  split at hstep
  · cases hstep
  · rename_i hd
    refine ⟨Bool.eq_false_iff.mpr hd, ?_⟩
    cases e with
    | onSend err =>
      obtain ⟨n, hn, rfl⟩ := Option.map_eq_some_iff.mp hstep
      exact .onSend hn
    | handle =>
      dsimp only at hstep
      split at hstep
      · cases hstep
      · rename_i hpc
        cases hstep
        exact .handleState hpc
      · rename_i hpc
        cases hstep
        exact .handleReceiving hpc
      · rename_i hpc
        cases hstep
        exact .handleSending hpc
    | onConnectionRegister err connects =>
      obtain ⟨hguard, ⟨⟩⟩ := Option.ite_none_right_eq_some.mp hstep
      exact .onConnectionRegister hguard
    | onConnect err =>
      obtain ⟨hguard, ⟨⟩⟩ := Option.ite_none_right_eq_some.mp hstep
      exact .onConnect hguard
    | onHandshakeRecv err byte =>
      obtain ⟨hguard, ⟨⟩⟩ := Option.ite_none_right_eq_some.mp hstep
      exact .onHandshakeRecv hguard
    | onRecvData numBytes =>
      obtain ⟨hguard, ⟨⟩⟩ := Option.ite_none_right_eq_some.mp hstep
      exact .onRecvData (Bool.and_eq_true_iff.mp hguard).1
    | onRecvErr closed late =>
      obtain ⟨hguard, ⟨⟩⟩ := Option.ite_none_right_eq_some.mp hstep
      exact .onRecvErr hguard
    | recv =>
      obtain ⟨hguard, ⟨⟩⟩ := Option.ite_none_right_eq_some.mp hstep
      exact .recv hguard.1 hguard.2.1 (by simpa using hguard.2.2)
    | send dataLen =>
      obtain ⟨hguard, ⟨⟩⟩ := Option.ite_none_right_eq_some.mp hstep
      exact .send hguard.1
    | connTimer =>
      obtain ⟨hguard, ⟨⟩⟩ := Option.ite_none_right_eq_some.mp hstep
      exact .connTimer hguard.1
    | destroy =>
      obtain ⟨hguard, ⟨⟩⟩ := Option.ite_none_right_eq_some.mp hstep
      exact .destroy hguard
    | signal left =>
      obtain ⟨hguard, ⟨⟩⟩ := Option.ite_none_right_eq_some.mp hstep
      exact .signal hguard.1

/-- Data was received and not passed on yet. -/
def Owed (s : State) : Prop := s.dtcp.receiving = true ∧ s.client.receiving = false

instance (s : State) : Decidable s.Owed := inferInstanceAs (Decidable (_ ∧ _))

/-- The handler has read `STATE_UP` and is going to call `isReceiving`. -/
def Collecting (s : State) : Prop := s.pc = .sampled .up ∨ s.pc = .receiving

instance (s : State) : Decidable s.Collecting := inferInstanceAs (Decidable (_ ∨ _))

/-- The stream does not end while there is data that the handler is not about to collect. -/
def Collected (s : State) : Event → Prop
  | .onRecvErr true _ => s.client.eof = false → s.Owed → s.Collecting
  | _ => True

instance (s : State) (e : Event) : Decidable (s.Collected e) :=
  match e with
  | .onRecvErr true _ => inferInstanceAs (Decidable (_ → _ → _))
  | .onRecvErr false _ | .onConnectionRegister .. | .onConnect .. | .onHandshakeRecv ..
  | .onSend .. | .onRecvData .. | .recv | .send .. | .connTimer | .destroy | .signal ..
  | .handle => inferInstanceAs (Decidable True)

/-- What holds of the flags in every state. Before the handshake there is no data. -/
structure Flags (s : State) : Prop where
  reading : s.reading = true → s.client.receiving = true
  receiving : s.client.receiving = true → s.dtcp.receiving = true
  up : s.client.state = .up → s.stage = .connected
  sampled : s.pc = .sampled .up → s.stage = .connected
  wasConnected : s.dtcp.wasConnected = true → s.stage = .connected
  requested : s.dtcp.receiving = true → s.stage = .connected
  reported : s.readReported = true → s.stage = .connected
  eof : s.client.eof = true → s.client.state = .err ∧ s.stage = .connected
  raised : .errorClosed ∈ s.raised → s.client.eof = true ∧ s.destroyed = true ∧ s.pc = .idle

theorem flags_init : Flags {} where
  reading := by decide
  receiving := by decide
  up := by decide
  sampled := by decide
  wasConnected := by decide
  requested := by decide
  reported := by decide
  eof := by decide
  raised := by decide

theorem Flags.not_raised (h : Flags s) (hd : s.destroyed = false) : .errorClosed ∉ s.raised := by
  intro hmem
  rw [(h.raised hmem).2.1] at hd
  cases hd

theorem Flags.signalReactor (h : Flags s) : Flags s.signalReactor := by
  rw [State.signalReactor]
  split
  · exact { h with }
  · exact h

theorem Flags.setErr (h : Flags s) : Flags (s.setState .err) :=
  Flags.signalReactor (s := { s with client := { s.client with state := .err } })
    { h with
      up := fun hup => by cases hup
      eof := fun heof => ⟨rfl, (h.eof heof).2⟩ }

theorem setState_stage (s : State) (state : ConnState) : (s.setState state).stage = s.stage := by
  rw [setState, State.signalReactor]
  split
  · rfl
  · rfl

/-- One stage leads to another until the handshake is done. -/
theorem Flags.setStage (h : Flags s) (hstage : s.stage ≠ .connected) (stage : Stage) :
    Flags { s with stage := stage } :=
  { h with
    up := fun hup => absurd (h.up hup) hstage
    sampled := fun hs => absurd (h.sampled hs) hstage
    wasConnected := fun hw => absurd (h.wasConnected hw) hstage
    requested := fun hr => absurd (h.requested hr) hstage
    reported := fun hr => absurd (h.reported hr) hstage
    eof := fun heof => absurd (h.eof heof).2 hstage }

theorem Flags.onConnectionRegister (h : Flags s) (hstage : s.stage = .registering)
    (err connects : Bool) : Flags (s.onConnectionRegister err connects) := by
  have hne : s.stage ≠ .connected := by rw [hstage]; decide
  rw [State.onConnectionRegister]
  split
  · exact h.setStage hne _
  · split
    · exact h.setErr.setStage (by rw [setState_stage]; exact hne) _
    · exact h.setStage hne _

theorem Flags.onConnect (h : Flags s) (hstage : s.stage = .connecting) (err : Bool) :
    Flags (s.onConnect err) := by
  have hne : s.stage ≠ .connected := by rw [hstage]; decide
  rw [State.onConnect]
  split
  · split
    · exact h.setErr.setStage (by rw [setState_stage]; exact hne) _
    · have herr : Flags { s with client := { s.client with state := .err } } :=
        { h with
          up := fun hup => by cases hup
          eof := fun heof => ⟨rfl, (h.eof heof).2⟩ }
      exact herr.setStage hne _
  · split
    · exact h.setStage hne _
    · exact h.setStage hne _

theorem Flags.onHandshakeRecv (h : Flags s) (hstage : s.stage = .handshaking) (err : Bool)
    (byte : Nat) : Flags (s.onHandshakeRecv err byte) := by
  have hne : s.stage ≠ .connected := by rw [hstage]; decide
  rw [State.onHandshakeRecv]
  split
  · exact h.setErr.setStage (by rw [setState_stage]; exact hne) _
  · have hup : Flags { s with
        client := { s.client with state := .up }
        stage := .connected } :=
      { h.setStage hne .connected with
        up := fun _ => rfl
        eof := fun heof => absurd (h.eof heof).2 hne }
    rw [setState, State.signalReactor]
    split
    · exact { hup with }
    · exact hup

theorem Flags.onSend (h : Flags s) (err : Bool) (numBytes : Nat) :
    Flags (s.onSend err numBytes) := by
  have hidle : Flags { s with writing := none, readReported := false } :=
    { h with reported := fun hr => by cases hr }
  rw [State.onSend]
  dsimp only
  split
  · exact hidle.setErr
  · apply Flags.signalReactor
    exact { hidle with }

theorem Flags.onRecvData (h : Flags s) (hreading : s.reading = true) (numBytes : Nat) :
    Flags (s.onRecvData numBytes) := by
  apply Flags.signalReactor
  exact { h with
    reading := fun hr => by cases hr
    receiving := fun hr => by cases hr
    reported := fun _ => h.requested (h.receiving (h.reading hreading)) }

theorem Flags.onRecvErr (h : Flags s) (closed late : Bool)
    (hread : (if late then s.readReported else s.reading) = true) :
    Flags (s.onRecvErr closed late) := by
  have hstage : s.stage = .connected := by
    split at hread
    · exact h.reported hread
    · exact h.requested (h.receiving (h.reading hread))
  apply Flags.signalReactor
  exact { h with
    reading := fun hr => h.reading (Bool.and_eq_true_iff.mp hr).1
    up := fun hup => by cases hup
    reported := fun hr => by cases hr
    eof := fun _ => ⟨rfl, hstage⟩
    raised := fun hmem => by
      obtain ⟨heof, hrest⟩ := h.raised hmem
      exact ⟨by rw [heof]; rfl, hrest⟩ }

theorem Flags.recvHandler (h : Flags s) (hw : s.dtcp.wasConnected = true) :
    Flags s.recvHandler :=
  { h with
    reading := fun _ => rfl
    receiving := fun _ => rfl
    requested := fun _ => h.wasConnected hw }

theorem Flags.connTimerHandler (h : Flags s) : Flags s.connTimerHandler := by
  have htimer : Flags { s with connTimer := false } := { h with }
  exact { htimer.setErr with }

theorem Flags.handleState (h : Flags s) (hd : s.destroyed = false) {newState : ConnState}
    (hpc : s.pc = .sampled newState) : Flags (s.handleState newState) := by
  have hmoved : Flags { s with pc := if newState = .up then .receiving else .idle } :=
    { h with
      sampled := fun hs => by
        split at hs
        · cases hs
        · cases hs
      raised := fun hmem => absurd hmem (h.not_raised hd) }
  unfold State.handleState
  dsimp only
  split
  · exact hmoved
  · cases newState with
    | up =>
      exact { hmoved with
        wasConnected := fun _ => h.sampled hpc
        raised := fun hmem => by
          rcases List.mem_append.mp hmem with hmem | hmem
          · exact absurd hmem (h.not_raised hd)
          · cases List.mem_singleton.mp hmem }
    | err =>
      exact { hmoved with
        raised := fun hmem => by
          rcases List.mem_append.mp hmem with hmem | hmem
          · exact absurd hmem (h.not_raised hd)
          · refine ⟨?_, rfl, rfl⟩
            cases heof : s.client.eof with
            | true => rfl
            | false =>
              rw [heof] at hmem
              cases List.mem_singleton.mp hmem }
    | connecting => exact { hmoved with }

theorem Flags.handleReceiving (h : Flags s) (hd : s.destroyed = false) :
    Flags s.handleReceiving := by
  have hmoved : Flags { s with pc := .sending } :=
    { h with
      sampled := fun hs => by cases hs
      raised := fun hmem => absurd hmem (h.not_raised hd) }
  rw [State.handleReceiving]
  dsimp only
  split
  · rename_i howed
    obtain ⟨_, hclient⟩ := Bool.and_eq_true_iff.mp howed
    exact { hmoved with
      receiving := fun hr => by rw [hr] at hclient; cases hclient
      requested := fun hr => by cases hr }
  · exact hmoved

theorem Flags.handleSending (h : Flags s) (hd : s.destroyed = false) : Flags s.handleSending := by
  have hmoved : Flags { s with pc := .idle } :=
    { h with
      sampled := fun hs => by cases hs
      raised := fun hmem => absurd hmem (h.not_raised hd) }
  rw [State.handleSending]
  dsimp only
  split
  · exact { hmoved with }
  · exact hmoved

theorem step_flags (h : Flags s) (hstep : s.step e = some s') : Flags s' := by
  obtain ⟨hd, hcase⟩ := step_cases hstep
  cases hcase with
  | onConnectionRegister hstage => exact h.onConnectionRegister hstage _ _
  | onConnect hstage => exact h.onConnect hstage _
  | onHandshakeRecv hstage => exact h.onHandshakeRecv hstage _ _
  | onSend _ => exact h.onSend _ _
  | onRecvData hreading => exact h.onRecvData hreading _
  | onRecvErr hread => exact h.onRecvErr _ _ hread
  | recv _ hw _ => exact h.recvHandler hw
  | send _ => exact { h with }
  | connTimer _ => exact h.connTimerHandler
  | destroy _ => exact { h with raised := fun hmem => absurd hmem (h.not_raised hd) }
  | signal _ =>
    exact { h with
      sampled := fun hs => h.up (Pc.sampled.inj hs)
      raised := fun hmem => absurd hmem (h.not_raised hd) }
  | handleState hpc => exact h.handleState hd hpc
  | handleReceiving _ => exact h.handleReceiving hd
  | handleSending _ => exact h.handleSending hd

/-- The data that is owed. -/
def owed (s : State) : List Nat := if s.Owed then [s.client.bytesReceived] else []

/-- What was reported and what was passed on, where `ok` says that the stream did not end too
soon. Up to its end all data was passed on or is owed. After that the data that is owed will
be collected, or nobody looks for it any more. -/
inductive Account (s : State) (ok : Prop) : Prop where
  | streaming (heof : s.client.eof = false) (hok : ok) (hrep : s.reported = s.recvDone ++ s.owed)
  | delivered (heof : s.client.eof = true) (hok : ok) (hrep : s.reported <+: s.recvDone)
  | collecting (heof : s.client.eof = true) (hok : ok) (hpc : s.Collecting) (howed : s.Owed)
    (hrep : s.reported = s.recvDone ++ [s.client.bytesReceived])
  | lost (heof : s.client.eof = true) (hok : ¬ ok) (hpc : ¬ s.Collecting) (howed : s.Owed)
    (hrep : ∃ n, s.reported = s.recvDone ++ [n])

variable {ok : Prop}

/-- The same data, flags and place in the handler. -/
theorem Account.frame (h : Account s ok) (heof : s'.client.eof = s.client.eof)
    (hdtcp : s'.dtcp.receiving = s.dtcp.receiving)
    (hclient : s'.client.receiving = s.client.receiving)
    (hbytes : s'.client.bytesReceived = s.client.bytesReceived)
    (hdone : s'.recvDone = s.recvDone) (hreported : s'.reported = s.reported)
    (hpc : s.client.eof = true → (s'.Collecting ↔ s.Collecting)) : Account s' ok := by
  have howed : s'.Owed ↔ s.Owed := by rw [Owed, Owed, hdtcp, hclient]
  have hlist : s'.owed = s.owed := by simp only [owed, howed, hbytes]
  cases h with
  | streaming he hok hrep =>
    exact .streaming (heof.trans he) hok (by rw [hreported, hdone, hlist, hrep])
  | delivered he hok hrep =>
    exact .delivered (heof.trans he) hok (by rw [hreported, hdone]; exact hrep)
  | collecting he hok hc ho hrep =>
    exact .collecting (heof.trans he) hok ((hpc he).mpr hc) (howed.mpr ho)
      (by rw [hreported, hdone, hbytes, hrep])
  | lost he hok hc ho hrep =>
    exact .lost (heof.trans he) hok (fun h => hc ((hpc he).mp h)) (howed.mpr ho)
      (by rw [hreported, hdone]; exact hrep)

theorem Account.signalReactor (h : Account s ok) : Account s.signalReactor ok := by
  rw [State.signalReactor]
  split
  · exact h.frame rfl rfl rfl rfl rfl rfl fun _ => Iff.rfl
  · exact h

theorem Account.setState (h : Account s ok) (state : ConnState) :
    Account (s.setState state) ok := by
  apply Account.signalReactor
  exact h.frame rfl rfl rfl rfl rfl rfl fun _ => Iff.rfl

theorem Account.congr (h : Account s ok) {ok' : Prop} (heq : ok' ↔ ok) : Account s ok' :=
  (propext heq) ▸ h

theorem not_owed_of_reading (hf : Flags s) (hreading : s.reading = true) : ¬ s.Owed := by
  intro howed
  rw [Owed, hf.reading hreading] at howed
  cases howed.2

theorem Account.onRecvData (h : Account s ok) (hf : Flags s) (hreading : s.reading = true)
    (numBytes : Nat) : Account (s.onRecvData numBytes) ok := by
  have hnot := not_owed_of_reading hf hreading
  apply Account.signalReactor
  cases h with
  | streaming heof hok hrep =>
    refine .streaming heof hok ?_
    have howed : s.dtcp.receiving = true := hf.receiving (hf.reading hreading)
    rw [owed, if_neg hnot, List.append_nil] at hrep
    simp only [owed, Owed, howed, heof, hrep, and_self, if_true, Bool.false_eq_true, if_false]
  | delivered heof hok hrep => exact .delivered heof hok (by simpa [heof] using hrep)
  | collecting _ _ _ howed _ => exact absurd howed hnot
  | lost _ _ _ howed _ => exact absurd howed hnot

/-- An error that does not end the stream. -/
theorem Account.onRecvErr_kept (h : Account s ok) {closed : Bool} (late : Bool)
    (hkept : (s.client.eof || closed) = s.client.eof) : Account (s.onRecvErr closed late) ok := by
  apply Account.setState
  exact h.frame hkept rfl rfl rfl rfl rfl fun _ => Iff.rfl

/-- The end of the stream. -/
theorem Account.onRecvErr_closed (h : Account s ok) (heof : s.client.eof = false) (late : Bool) :
    Account (s.onRecvErr true late) (ok ∧ (s.Owed → s.Collecting)) := by
  apply Account.setState
  cases h with
  | delivered he => rw [heof] at he; cases he
  | collecting he => rw [heof] at he; cases he
  | lost he => rw [heof] at he; cases he
  | streaming _ hok hrep =>
    rw [owed] at hrep
    by_cases howed : s.Owed
    · rw [if_pos howed] at hrep
      by_cases hpc : s.Collecting
      · exact .collecting (Bool.or_true _) ⟨hok, fun _ => hpc⟩ hpc howed hrep
      · exact .lost (Bool.or_true _) (fun hall => hpc (hall.2 howed)) hpc howed ⟨_, hrep⟩
    · rw [if_neg howed, List.append_nil] at hrep
      refine .delivered (Bool.or_true _) ⟨hok, fun h => absurd h howed⟩ ⟨[], ?_⟩
      rw [List.append_nil]
      exact hrep

theorem Account.onRecvErr (h : Account s ok) (closed late : Bool) :
    Account (s.onRecvErr closed late) (ok ∧ s.Collected (.onRecvErr closed late)) := by
  cases closed with
  | false => exact (h.onRecvErr_kept late (Bool.or_false _)).congr (and_iff_left trivial)
  | true =>
    cases heof : s.client.eof with
    | true =>
      refine (h.onRecvErr_kept late (by rw [heof]; rfl)).congr (and_iff_left ?_)
      intro hfalse
      rw [heof] at hfalse
      cases hfalse
    | false =>
      refine (h.onRecvErr_closed heof late).congr (and_congr_right fun _ => ?_)
      exact ⟨fun hc => hc heof, fun hc _ => hc⟩

theorem Account.recvHandler (h : Account s ok) (hr : s.dtcp.receiving = false) :
    Account s.recvHandler ok := by
  have hnot : ¬ s.Owed := fun howed => by rw [Owed, hr] at howed; cases howed.1
  have hnot' : ¬ s.recvHandler.Owed := fun howed => by cases howed.2
  cases h with
  | streaming heof hok hrep =>
    refine .streaming heof hok ?_
    rw [owed, if_neg hnot] at hrep
    rw [owed, if_neg hnot']
    exact hrep
  | delivered heof hok hrep => exact .delivered heof hok hrep
  | collecting _ _ _ howed _ => exact absurd howed hnot
  | lost _ _ _ howed _ => exact absurd howed hnot

theorem handleState_pc (s : State) (newState : ConnState) :
    (s.handleState newState).pc = if newState = .up then .receiving else .idle := by
  unfold handleState
  dsimp only
  split
  · rfl
  · cases newState with
    | up => rfl
    | err => rfl
    | connecting => rfl

theorem Account.handleState (h : Account s ok) {newState : ConnState}
    (hpc : s.pc = .sampled newState) : Account (s.handleState newState) ok := by
  have hcollect : (s.handleState newState).Collecting ↔ s.Collecting := by
    rw [Collecting, Collecting, handleState_pc, hpc]
    cases newState with
    | up => decide
    | err => decide
    | connecting => decide
  unfold State.handleState at hcollect ⊢
  dsimp only at hcollect ⊢
  split
  · rename_i heq
    rw [if_pos heq] at hcollect
    exact h.frame rfl rfl rfl rfl rfl rfl fun _ => hcollect
  · rename_i hne
    rw [if_neg hne] at hcollect
    cases newState with
    | up => exact h.frame rfl rfl rfl rfl rfl rfl fun _ => hcollect
    | err => exact h.frame rfl rfl rfl rfl rfl rfl fun _ => hcollect
    | connecting => exact h.frame rfl rfl rfl rfl rfl rfl fun _ => hcollect

/-- The handler collects the data. -/
theorem Account.handleReceiving (h : Account s ok) (hpc : s.pc = .receiving) :
    Account s.handleReceiving ok := by
  rw [State.handleReceiving]
  dsimp only
  split
  · rename_i hguard
    have howed : s.Owed := by simpa [Owed] using hguard
    cases h with
    | streaming heof hok hrep =>
      refine .streaming heof hok ?_
      rw [owed, if_pos howed] at hrep
      rw [owed, if_neg (fun h => by cases h.1), List.append_nil]
      exact hrep
    | delivered heof hok hrep => exact .delivered heof hok (hrep.trans (List.prefix_append _ _))
    | collecting heof hok _ _ hrep =>
      refine .delivered heof hok ⟨[], ?_⟩
      rw [List.append_nil]
      exact hrep
    | lost _ _ hnot _ _ => exact absurd (.inr hpc) hnot
  · rename_i hguard
    have hnot : ¬ s.Owed := by simpa [Owed] using hguard
    cases h with
    | streaming heof hok hrep => exact .streaming heof hok hrep
    | delivered heof hok hrep => exact .delivered heof hok hrep
    | collecting _ _ _ howed _ => exact absurd howed hnot
    | lost _ _ _ howed _ => exact absurd howed hnot

theorem Account.onConnectionRegister (h : Account s ok) (err connects : Bool) :
    Account (s.onConnectionRegister err connects) ok := by
  rw [State.onConnectionRegister]
  split
  · exact h.frame rfl rfl rfl rfl rfl rfl fun _ => Iff.rfl
  · split
    · exact (h.setState .err).frame rfl rfl rfl rfl rfl rfl fun _ => Iff.rfl
    · exact h.frame rfl rfl rfl rfl rfl rfl fun _ => Iff.rfl

theorem Account.onConnect (h : Account s ok) (err : Bool) : Account (s.onConnect err) ok := by
  rw [State.onConnect]
  split
  · split
    · exact (h.setState .err).frame rfl rfl rfl rfl rfl rfl fun _ => Iff.rfl
    · exact h.frame rfl rfl rfl rfl rfl rfl fun _ => Iff.rfl
  · split
    · exact h.frame rfl rfl rfl rfl rfl rfl fun _ => Iff.rfl
    · exact h.frame rfl rfl rfl rfl rfl rfl fun _ => Iff.rfl

theorem Account.onHandshakeRecv (h : Account s ok) (err : Bool) (byte : Nat) :
    Account (s.onHandshakeRecv err byte) ok := by
  rw [State.onHandshakeRecv]
  split
  · exact (h.setState .err).frame rfl rfl rfl rfl rfl rfl fun _ => Iff.rfl
  · exact (h.setState .up).frame rfl rfl rfl rfl rfl rfl fun _ => Iff.rfl

theorem Account.onSend (h : Account s ok) (err : Bool) (numBytes : Nat) :
    Account (s.onSend err numBytes) ok := by
  rw [State.onSend]
  dsimp only
  split
  · apply Account.setState
    exact h.frame rfl rfl rfl rfl rfl rfl fun _ => Iff.rfl
  · apply Account.signalReactor
    exact h.frame rfl rfl rfl rfl rfl rfl fun _ => Iff.rfl

theorem step_account (h : Account s ok) (hf : Flags s) (hstep : s.step e = some s') :
    Account s' (ok ∧ s.Collected e) := by
  obtain ⟨_, hcase⟩ := step_cases hstep
  cases hcase with
  | onConnectionRegister _ => exact (h.onConnectionRegister _ _).congr (and_iff_left trivial)
  | onConnect _ => exact (h.onConnect _).congr (and_iff_left trivial)
  | onHandshakeRecv _ => exact (h.onHandshakeRecv _ _).congr (and_iff_left trivial)
  | onSend _ => exact (h.onSend _ _).congr (and_iff_left trivial)
  | onRecvData hreading => exact (h.onRecvData hf hreading _).congr (and_iff_left trivial)
  | onRecvErr _ => exact h.onRecvErr _ _
  | recv _ _ hr => exact (h.recvHandler hr).congr (and_iff_left trivial)
  | send _ =>
    refine Account.congr ?_ (and_iff_left trivial)
    exact h.frame rfl rfl rfl rfl rfl rfl fun _ => Iff.rfl
  | connTimer _ =>
    refine Account.congr ?_ (and_iff_left trivial)
    have hset : Account ({ s with connTimer := false }.setState .err) ok := by
      apply Account.setState
      exact h.frame rfl rfl rfl rfl rfl rfl fun _ => Iff.rfl
    exact hset.frame rfl rfl rfl rfl rfl rfl fun _ => Iff.rfl
  | destroy _ =>
    refine Account.congr ?_ (and_iff_left trivial)
    exact h.frame rfl rfl rfl rfl rfl rfl fun _ => Iff.rfl
  | signal hpc =>
    -- the state that is read is an error once the stream has ended
    refine Account.congr ?_ (and_iff_left trivial)
    refine h.frame rfl rfl rfl rfl rfl rfl fun heof => ?_
    simp [Collecting, hpc, (hf.eof heof).1]
  | handleState hpc => exact (h.handleState hpc).congr (and_iff_left trivial)
  | handleReceiving hpc => exact (h.handleReceiving hpc).congr (and_iff_left trivial)
  | handleSending hpc =>
    refine Account.congr ?_ (and_iff_left trivial)
    rw [State.handleSending]
    dsimp only
    split
    · exact h.frame rfl rfl rfl rfl rfl rfl fun _ => by simp [Collecting, hpc]
    · exact h.frame rfl rfl rfl rfl rfl rfl fun _ => by simp [Collecting, hpc]

theorem run_account (hrun : Run es s) : Flags s ∧ Account s (Along step Collected {} es) := by
  refine exec_induction
    (motive := fun es s => Flags s ∧ Account s (Along step Collected {} es)) ?_ ?_ hrun
  · exact ⟨flags_init, .streaming rfl trivial rfl⟩
  · intro es s e s' hes h hstep
    refine ⟨step_flags h.1 hstep, (step_account h.2 h.1 hstep).congr ?_⟩
    rw [along_append]
    refine and_congr_right fun _ => ⟨fun hall => (hall s hes).1, fun hc m hm => ?_⟩
    cases hes.symm.trans hm
    exact ⟨hc, fun _ _ => trivial⟩

/-- When tun2socks is told that the stream has ended, all data that was reported before its end
has been passed on, in order, if and only if the stream did not end while there was data that
the handler was not about to collect. -/
theorem data_before_close_iff (hrun : Run es s) (hraised : .errorClosed ∈ s.raised) :
    s.reported <+: s.recvDone ↔ Along step Collected {} es := by
  obtain ⟨hf, haccount⟩ := run_account hrun
  obtain ⟨heof, _, hidle⟩ := hf.raised hraised
  cases haccount with
  | streaming hfalse => rw [heof] at hfalse; cases hfalse
  | delivered _ hok hrep => exact ⟨fun _ => hok, fun _ => hrep⟩
  | collecting _ _ hpc => rw [Collecting, hidle] at hpc; simp at hpc
  | lost _ hok _ _ hrep =>
    obtain ⟨n, hn⟩ := hrep
    refine ⟨fun hsub => ?_, fun hall => absurd hall hok⟩
    have hlen := hsub.length_le
    rw [hn, List.length_append, List.length_singleton] at hlen
    omega

/-- Two pieces of data, the second of which the handler is about to collect when the stream
ends. -/
theorem data_before_close_collected :
    let es : List Event := [.onConnectionRegister false true, .onConnect false,
      .onHandshakeRecv false 0xE1, .signal 0, .handle, .handle, .handle, .recv, .onRecvData 5,
      .signal 0, .handle, .handle, .handle, .recv, .onRecvData 7, .signal 0, .onRecvErr true true,
      .handle, .handle, .handle, .signal 0, .handle]
    ∃ s, Run es s ∧ .errorClosed ∈ s.raised ∧ s.reported = [5, 7] ∧ s.reported <+: s.recvDone := by
  intro es
  obtain ⟨s, hrun, hraised, hrep⟩ : ∃ s, Run es s ∧ (.errorClosed ∈ s.raised ∧
      s.reported = [5, 7]) := exec_check (by decide +kernel)
  exact ⟨s, hrun, hraised, hrep, (data_before_close_iff hrun hraised).mpr (by decide +kernel)⟩

/-- One read reports five bytes and the end of the stream before the handler gets to run: it
sees the error and the five bytes are never passed on. -/
theorem data_lost_at_close :
    ∃ s, Run [.onConnectionRegister false true, .onConnect false, .onHandshakeRecv false 0xE1,
        .signal 0, .handle, .handle, .handle, .recv, .onRecvData 5, .onRecvErr true true,
        .signal 0, .handle] s ∧
      s.raised = [.up, .errorClosed] ∧ s.reported = [5] ∧ s.recvDone = [] :=
  exec_check (by decide +kernel)

end State

end DTun.Node.ProxyTCPClient
