import DTun.Node.ProxySession.Flow

/-!
# Integrity and flow control of the relay

The invariant of a session, both directions together, from the start of the connectors on.
As long as the session is not done its counters are exact and each source is being read unless
the ring behind it is full or it has reported its end. Once the session is done its handlers
return at once: the counters stay as they are while writes may still complete.
-/

namespace DTun.Node.ProxySession

open DTun.Lib DTun.Lib.Runs

namespace Session

variable {s s' : Session} {e : Event} {err : Int} {data : List UInt8} {f : Flow}

/-- What stands on the remote wire before the relayed bytes. -/
def greeting (s : Session) : List UInt8 := if s.connected then [0xE1] else []

structure Inv (s : Session) : Prop where
  toRemote : s.toRemote.Sound s.greeting
  toLocal : s.toLocal.Sound []
  fresh : s.connected = false → s.toRemote = {} ∧ s.toLocal = {} ∧ s.localShutdown = false
  live : s.connected = true → s.done = false →
    s.toRemote.Live s.localShutdown ∧ s.toLocal.Live false
  calls : s.calls = if s.done then 1 else 0

theorem Inv.init : Inv init where
  toRemote := Flow.Sound.empty
  toLocal := Flow.Sound.empty
  fresh := fun _ => ⟨rfl, rfl, rfl⟩
  live := fun hc => by cases hc
  calls := rfl

/-- The invariant is not about the flags of the connectors. -/
theorem Inv.flags (h : Inv s) {a b c d : Bool} :
    Inv { s with localConnecting := a, remoteConnecting := b, localConn := c, remoteConn := d } :=
  ⟨h.toRemote, h.toLocal, h.fresh, h.live, h.calls⟩

theorem Inv.finish (hr : s.toRemote.Sound s.greeting) (hl : s.toLocal.Sound [])
    (hfresh : s.connected = false → s.toRemote = {} ∧ s.toLocal = {} ∧ s.localShutdown = false)
    (hcalls : s.calls = 0) : Inv s.finish where
  toRemote := hr
  toLocal := hl
  fresh := hfresh
  live := fun _ hn => by cases hn
  calls := by rw [Session.finish, hcalls]; rfl

theorem Inv.calls_zero (h : Inv s) (hdone : s.done = false) : s.calls = 0 := by
  rw [h.calls, hdone]
  rfl

theorem Inv.onBothConnected (h : Inv s) (hc : s.connected = false) :
    Inv { s with connected := true }.onBothConnected := by
  obtain ⟨hr, hl, hshut⟩ := h.fresh hc
  have hgreet : (Flow.greet {}).recv.Sound [0xE1] := Flow.Sound.greet.recv rfl
  have hempty : (Flow.recv {}).Sound [] := Flow.Sound.empty.recv rfl
  refine ⟨?_, ?_, (fun hn => by cases hn), fun _ _ => ⟨?_, ?_⟩, h.calls⟩
  · change s.toRemote.greet.recv.Sound [0xE1]
    rw [hr]
    exact hgreet
  · change s.toLocal.recv.Sound []
    rw [hl]
    exact hempty
  · change s.toRemote.greet.recv.Live s.localShutdown
    rw [hr, hshut]
    exact Flow.Live.recv Flow.Sound.greet rfl rfl rfl rfl
  · change s.toLocal.recv.Live false
    rw [hl]
    exact Flow.Live.recv Flow.Sound.empty rfl rfl rfl rfl

theorem Inv.onLocalConnect (h : Inv s) : Inv (s.onLocalConnect err) := by
  simp only [Session.onLocalConnect]
  split_ifs with hdone herr hboth
  · exact h
  · exact Inv.finish h.toRemote h.toLocal h.fresh (h.calls_zero (by simpa using hdone))
  · simp only [Bool.and_eq_true, Bool.not_eq_true'] at hboth
    have hconn : Inv { s with localConn := true } := h.flags
    exact hconn.onBothConnected hboth.2
  · exact h.flags

theorem Inv.onRemoteConnect (h : Inv s) : Inv (s.onRemoteConnect err) := by
  simp only [Session.onRemoteConnect]
  split_ifs with hdone herr hboth
  · exact h
  · exact Inv.finish h.toRemote h.toLocal h.fresh (h.calls_zero (by simpa using hdone))
  · simp only [Bool.and_eq_true, Bool.not_eq_true'] at hboth
    have hconn : Inv { s with remoteConn := true } := h.flags
    exact hconn.onBothConnected hboth.2
  · exact h.flags

/-- Every handler of a connection begins like this: nothing more to do when the session is
done, and the end of it when there is an error. -/
theorem Inv.handle {t : Session} (hr : t.toRemote.Sound t.greeting) (hl : t.toLocal.Sound [])
    (hc : t.connected = true) (hcalls : t.calls = if t.done then 1 else 0)
    (hrun : t.done = false → err = 0 → Inv s') :
    Inv (if t.done then t else if err ≠ 0 then t.finish else s') := by
  have hfresh : t.connected = false →
      t.toRemote = {} ∧ t.toLocal = {} ∧ t.localShutdown = false := by
    intro hn
    cases hc.symm.trans hn
  split_ifs with hdone herr
  · refine ⟨hr, hl, hfresh, fun _ hn => ?_, hcalls⟩
    cases hdone.symm.trans hn
  · rw [if_neg hdone] at hcalls
    exact Inv.finish hr hl hfresh hcalls
  · exact hrun (by simpa using hdone) (by simpa using herr)

/-- The session is connected as soon as there is a request. -/
theorem Inv.connected_of_request (h : Inv s)
    (hreq : s.toRemote.reads ≠ [] ∨ s.toLocal.reads ≠ [] ∨ s.toRemote.writes ≠ [] ∨
      s.toLocal.writes ≠ []) : s.connected = true := by
  by_contra hn
  obtain ⟨hr, hl, _⟩ := h.fresh (by simpa using hn)
  simp [hr, hl] at hreq

/-- A session goes on. -/
theorem Inv.of_live (hr : s.toRemote.Sound s.greeting) (hl : s.toLocal.Sound [])
    (hc : s.connected = true) (hlr : s.toRemote.Live s.localShutdown) (hll : s.toLocal.Live false)
    (hcalls : s.calls = if s.done then 1 else 0) : Inv s :=
  ⟨hr, hl, (fun hn => by cases hc.symm.trans hn), fun _ _ => ⟨hlr, hll⟩, hcalls⟩

theorem Inv.onLocalRecv (h : Inv s) (hc : s.connected = true)
    (ha : s.toRemote.answer err data = some f) {eof : Bool} :
    Inv ({ s with toRemote := f, localEof := eof }.onLocalRecv err data) := by
  have hsound := h.toRemote.answer ha
  refine Inv.handle hsound h.toLocal hc h.calls fun hdone herr => ?_
  subst herr
  obtain ⟨hremote, hlocal⟩ := h.live hc hdone
  obtain ⟨hshut, hans⟩ := hremote.answer ha
  split
  · obtain ⟨hsound', hlive⟩ := hans.relay hsound
    exact .of_live hsound' h.toLocal hc (hshut ▸ hlive) hlocal h.calls
  · rename_i hlen
    have hnil : data = [] := List.eq_nil_of_length_eq_zero (by omega)
    refine .of_live hsound h.toLocal hc ⟨hans.bytes, ?_, hans.unbroken, ?_⟩ hlocal h.calls
    · rw [hans.given, hnil, List.append_nil]
    · exact Or.inr (Or.inr ⟨rfl, hans.reads, hans.notFull⟩)

theorem Inv.onRemoteRecv (h : Inv s) (hc : s.connected = true)
    (ha : s.toLocal.answer err data = some f) :
    Inv ({ s with toLocal := f }.onRemoteRecv err data) := by
  have hsound := h.toLocal.answer ha
  refine Inv.handle h.toRemote hsound hc h.calls fun hdone herr => ?_
  subst herr
  obtain ⟨hremote, hlocal⟩ := h.live hc hdone
  obtain ⟨_, hans⟩ := hlocal.answer ha
  obtain ⟨hsound', hlive⟩ := hans.relay hsound
  exact .of_live h.toRemote hsound' hc hremote hlive h.calls

theorem Inv.onLocalSend (h : Inv s) (hc : s.connected = true) {w : Write}
    (hf : s.toLocal.complete err = some (w, f)) :
    Inv ({ s with toLocal := f }.onLocalSend err w.piece.len) := by
  obtain ⟨hsound', hwrites, _⟩ := h.toLocal.complete hf
  refine Inv.handle h.toRemote hsound' hc h.calls fun hdone herr => ?_
  subst herr
  have hrelay : w.handshake = false := h.toLocal.plain rfl w (by simp [hwrites])
  obtain ⟨hremote, hlocal⟩ := h.live hc hdone
  obtain ⟨hsound, hbytes, hrelayed, hbroken, hnext⟩ := hlocal.completed h.toLocal hf hrelay
  rcases hnext with ⟨hfull, _, hreads⟩ | ⟨hfull, hlive⟩
  · dsimp only
    rw [hfull, if_pos rfl]
    exact .of_live h.toRemote (hsound.recv hreads) hc hremote
      (Flow.Live.recv hsound hbytes hrelayed hbroken hreads) h.calls
  · dsimp only
    rw [hfull, if_neg Bool.false_ne_true]
    exact .of_live h.toRemote hsound hc hremote hlive h.calls

theorem Inv.onRemoteSend (h : Inv s) (hc : s.connected = true) {w : Write}
    (hf : s.toRemote.complete err = some (w, f)) (hrelay : w.handshake = false) :
    Inv ({ s with toRemote := f }.onRemoteSend err w.piece.len) := by
  refine Inv.handle (h.toRemote.complete hf).1 h.toLocal hc h.calls fun hdone herr => ?_
  subst herr
  obtain ⟨hremote, hlocal⟩ := h.live hc hdone
  obtain ⟨hsound, hbytes, hrelayed, hbroken, hnext⟩ := hremote.completed h.toRemote hf hrelay
  dsimp only
  split_ifs with hlast hfire
  · simp only [Bool.and_eq_true, decide_eq_true_eq] at hlast
    have hzero : (f.sent w.piece.len).sndBuffBytes = 0 := by omega
    exact Inv.finish (hsound.assert (by simpa using hzero)) h.toLocal
      (fun hn => by cases hc.symm.trans hn) (h.calls_zero hdone)
  · simp only [Bool.and_eq_true, Bool.not_eq_true'] at hfire
    rcases hnext with ⟨_, hshut, hreads⟩ | ⟨hfull, _⟩
    · refine .of_live (hsound.recv hreads) h.toLocal hc ?_ hlocal h.calls
      change (f.sent w.piece.len).recv.Live s.localShutdown
      rw [hshut]
      exact Flow.Live.recv hsound hbytes hrelayed hbroken hreads
    · cases hfire.1.symm.trans hfull
  · rcases hnext with ⟨hfull, hshut, _⟩ | ⟨_, hlive⟩
    · simp [hfull, hshut] at hfire
    · exact .of_live hsound h.toLocal hc hlive hlocal h.calls

theorem Inv.onHandshakeSend (h : Inv s) (hc : s.connected = true) {w : Write}
    (hf : s.toRemote.complete err = some (w, f)) (hhand : w.handshake = true) :
    Inv ({ s with toRemote := f }.onHandshakeSend err) := by
  have hsound := (h.toRemote.complete hf).1
  refine Inv.handle hsound h.toLocal hc h.calls fun hdone herr => ?_
  subst herr
  obtain ⟨hremote, hlocal⟩ := h.live hc hdone
  exact .of_live hsound h.toLocal hc (hremote.greeted h.toRemote hf hhand) hlocal h.calls

/-- A connection works on its own. -/
theorem Inv.flows (h : Inv s) {toRemote toLocal : Flow} (hc : s.connected = true)
    (hr : toRemote.Sound s.greeting) (hl : toLocal.Sound [])
    (hlr : s.toRemote.Live s.localShutdown → toRemote.Live s.localShutdown)
    (hll : s.toLocal.Live false → toLocal.Live false) :
    Inv { s with toRemote := toRemote, toLocal := toLocal } :=
  ⟨hr, hl, (fun hn => by cases hc.symm.trans hn),
    fun _ hdone => ⟨hlr (h.live hc hdone).1, hll (h.live hc hdone).2⟩, h.calls⟩

theorem step_inv (h : Inv s) (hs : s.step e = some s') : Inv s' := by
  have hanswer : ∀ {g : Flow} {err data f}, g.answer err data = some f → g.reads ≠ [] := by
    rintro g err data f ha hnil
    simp [Flow.answer, hnil] at ha
  have hcomplete : ∀ {g : Flow} {err r}, g.complete err = some r → g.writes ≠ [] := by
    rintro g err r hf hnil
    simp [Flow.complete, hnil] at hf
  have htransmit : ∀ {g f : Flow} {k}, g.transmit k = some f → g.writes ≠ [] := by
    rintro g f k ht hnil
    simp [Flow.transmit, hnil] at ht
  cases e with
  | localConnect err =>
    obtain ⟨_, heq⟩ := Option.ite_none_right_eq_some.mp hs
    cases heq
    have hflag : Inv { s with localConnecting := false } := h.flags
    exact hflag.onLocalConnect
  | remoteConnect err =>
    obtain ⟨_, heq⟩ := Option.ite_none_right_eq_some.mp hs
    cases heq
    have hflag : Inv { s with remoteConnecting := false } := h.flags
    exact hflag.onRemoteConnect
  | localRecv err data =>
    obtain ⟨f, ha, heq⟩ := Option.map_eq_some_iff.mp hs
    subst heq
    exact h.onLocalRecv (h.connected_of_request (Or.inl (hanswer ha))) ha
  | remoteRecv err data =>
    obtain ⟨f, ha, heq⟩ := Option.map_eq_some_iff.mp hs
    subst heq
    exact h.onRemoteRecv (h.connected_of_request (Or.inr (Or.inl (hanswer ha)))) ha
  | remoteRecvAgain err =>
    obtain ⟨hguard, heq⟩ := Option.ite_none_right_eq_some.mp hs
    simp only [Bool.and_eq_true, decide_eq_true_eq] at hguard
    cases heq
    refine Inv.handle h.toRemote h.toLocal hguard.1 h.calls fun _ herr => ?_
    exact absurd herr hguard.2
  | localSend err =>
    obtain ⟨⟨w, f⟩, hf, heq⟩ := Option.map_eq_some_iff.mp hs
    subst heq
    exact h.onLocalSend
      (h.connected_of_request (Or.inr (Or.inr (Or.inr (hcomplete hf))))) hf
  | remoteSend err =>
    obtain ⟨⟨w, f⟩, hf, heq⟩ := Option.map_eq_some_iff.mp hs
    subst heq
    have hc := h.connected_of_request (Or.inr (Or.inr (Or.inl (hcomplete hf))))
    dsimp only
    split_ifs with hhand
    · exact h.onHandshakeSend hc hf hhand
    · exact h.onRemoteSend hc hf (by simpa using hhand)
  | localTransmit k =>
    obtain ⟨f, ht, heq⟩ := Option.map_eq_some_iff.mp hs
    subst heq
    exact h.flows (h.connected_of_request (Or.inr (Or.inr (Or.inr (htransmit ht))))) h.toRemote
      (h.toLocal.transmit ht) id fun hl => hl.transmit ht
  | remoteTransmit k =>
    obtain ⟨f, ht, heq⟩ := Option.map_eq_some_iff.mp hs
    subst heq
    exact h.flows (h.connected_of_request (Or.inr (Or.inr (Or.inl (htransmit ht)))))
      (h.toRemote.transmit ht) h.toLocal (fun hl => hl.transmit ht) id

theorem Run.inv {es : List Event} (h : Run es s) : Inv s :=
  exec_invariant (fun _ _ _ hi hs => step_inv hi hs) Inv.init h

/-- One direction is intact: uncompleted writes find their bytes where they were, what goes
over the wire is `head` and then what the source has delivered, one read at most waits for an
answer, the counter counts the bytes of uncompleted relay writes, and no assertion has failed.
What is delivered or completed after the session is done is not relayed and not counted. -/
structure Intact (s : Session) (f : Flow) (head : List UInt8) : Prop where
  memory : ∀ w ∈ f.writes, f.load w = w.issued
  stream : s.done = false → f.wire ++ f.unsent = head ++ f.given
  wire : f.wire <+: head ++ f.given
  reads : f.reads.length ≤ 1
  counter : s.done = false → f.sndBuffBytes = f.pending
  nonneg : 0 ≤ f.sndBuffBytes
  bound : f.sndBuffBytes ≤ buffSize
  asserts : f.ok = true

theorem intact_of_sound {head : List UInt8} {shut : Bool} (hs : f.Sound head)
    (hlive : s.done = false → f.Live shut) : Intact s f head where
  memory := hs.memory
  stream := by
    intro hdone
    rw [hs.stream (hlive hdone).unbroken, (hlive hdone).relayed]
  wire := hs.wire.trans (List.prefix_append_right_inj head |>.mpr hs.source)
  reads := hs.reads
  counter := fun hdone => (hlive hdone).bytes
  nonneg := by
    have hcovers := hs.covers
    omega
  bound := hs.bound
  asserts := hs.ok

/-- Both directions of a connected session are intact. -/
theorem relay_integrity {es : List Event} (hrun : Run es s) (hc : s.connected = true) :
    Intact s s.toRemote [0xE1] ∧ Intact s s.toLocal [] := by
  have h := Run.inv hrun
  have hgreet : s.greeting = [0xE1] := by rw [greeting, hc]; rfl
  exact ⟨intact_of_sound (hgreet ▸ h.toRemote) fun hdone => (h.live hc hdone).1,
    intact_of_sound h.toLocal fun hdone => (h.live hc hdone).2⟩

/-- Two bytes come in from the local connection and one from the remote one. The handshake and
one of the bytes have gone out. -/
theorem relay_integrity_both_ways :
    ∃ s, Run [.localConnect 0, .remoteConnect 0, .localRecv 0 [7], .localRecv 0 [8],
        .remoteRecv 0 [9], .remoteSend 0, .remoteTransmit 1] s ∧
      (s.connected = true ∧ s.done = false ∧ s.toRemote.wire = [0xE1, 7] ∧
        s.toRemote.given = [7, 8] ∧ s.toRemote.writes.length = 2) ∧
      Intact s s.toRemote [0xE1] ∧ Intact s s.toLocal [] := by
  exact exec_check_and (by decide +kernel) fun _ hrun hstate => relay_integrity hrun hstate.1

/-- The session ends while a relay write is under way. The write completes afterwards and the
local connection delivers another byte: the counter still counts the write, and the byte is
not relayed. -/
theorem counter_stale_when_done :
    ∃ s, Run [.localConnect 0, .remoteConnect 0, .localRecv 0 [7], .remoteRecv errConnClosed [],
        .remoteSend 0, .remoteSend 0, .localRecv 0 [8]] s ∧
      s.connected = true ∧ s.toRemote.sndBuffBytes = 1 ∧ s.toRemote.pending = 0 ∧
      s.toRemote.wire ++ s.toRemote.unsent = [0xE1, 7] ∧ s.toRemote.given = [7, 8] :=
  exec_check (by decide +kernel)

end Session

end DTun.Node.ProxySession
