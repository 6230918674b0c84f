import DTun.Node.FastSession.Handlers

/-!
# Attempts of a fast rendezvous

What each handler does to the attempts of its session. The owner asks with `READY`, once
for every attempt, and the peer answers with `HELLO_FAST`. `asked` and `got` are how many
`READY`s a session has sent or read, as its fields tell, and `reserved` how often it has
asked the allocator for ports. In every state the two sides agree: what the owner has sent
the peer has read, or it is in flight, and only one request is ever under way.

Nothing is assumed here about the pings, so this holds in runs that are not `Orderly` too.
-/

namespace DTun.Node.FastSession

namespace Session

/-- How many `READY`s the owner has sent. -/
def asked (s : Session) : Nat := s.stepIdx + s.ready.toNat + (!s.bestEffort && s.started).toNat

/-- How many `READY`s the peer has read. -/
def got (s : Session) : Nat :=
  if s.started then s.stepIdx + (if s.portReservation = .null then 0 else 1) else s.ready.toNat

/-- How often the session has asked for ports. -/
def reserved (s : Session) : Nat :=
  s.stepIdx + (if s.portReservation = .null then 0 else 1) +
    (if s.portReservationNext = .null then 0 else 1)

/-- How often the handler calls `reserveFastPorts` or `reserveFastPortsBestEffort`. -/
def reserves (s : Session) : Event → Option Down → Nat
  | .start _ _, _ => if s.owner || s.ready then 1 else 0
  | .pingTimeout _ _, _ =>
    if s.callback && s.next && s.owner && s.ttl = 64 && s.stepIdx ≠ 2 then 1 else 0
  | .deliver _ _, some .ready => if s.started && s.callback then 1 else 0
  | _, _ => 0

def hasSocket (s : Session) : Nat := if s.pingConn.isSome then 1 else 0

def isPreparing (s : Session) : Nat := if s.preparing then 1 else 0

/-- The owner may take a turn: it has just been told the address of the peer, or nothing
has been asked yet. -/
def mayAsk (s : Session) (m : Option Down) : Nat :=
  if m.any isFast || s.portReservation ≠ .granted then 1 else 0

end Session

/-- The owner's session. -/
structure Asker (o : Session) : Prop where
  owner : o.owner = true
  callback : o.callback = o.started
  idle : o.started = false ↔ o.portReservation = .null
  waiting : o.portReservation ≠ .granted → o.ready = false
  first : o.ready = false → o.stepIdx = 0
  granted : o.bestEffort = true → o.portReservation = .granted → o.ready = true
  socket : o.pingConn.isSome = true → o.ready = true
  /-- At most one handler is posted, and none once the next reservation has been asked
  for. -/
  timers : o.checkTimers + o.pingTimers ≤ 1
  next : o.portReservationNext ≠ .null → o.checkTimers + o.pingTimers = 0
  closed : o.pingConn = none →
    o.writes = 0 ∧ o.checkTimers + o.pingTimers = 0 ∧ o.portReservationNext = .null

/-- The peer's session. -/
structure Answerer (p : Session) : Prop where
  owner : p.owner = false
  callback : p.callback = p.started
  unstarted : p.started = false → p.portReservation = .null
  idle : p.portReservation = .null → p.stepIdx = 0
  asked : p.portReservation ≠ .null → p.ready = true
  socket : p.pingConn.isSome = true → p.portReservation = .granted
  next : p.portReservationNext = .null
  closed : p.pingConn = none → p.writes = 0 ∧ p.checkTimers + p.pingTimers = 0

variable {s s' : Session} {env : Env} {out : Out} {i : Side} {e : Event} {m : Option Down}

theorem Asker.started (h : Asker s) (hr : s.portReservation ≠ .null) : s.started = true :=
  Bool.not_eq_false _ ▸ fun hf => hr (h.idle.mp hf)

/-- Once it is ready, the owner has its ports. -/
theorem Asker.reservation (h : Asker s) (hready : s.ready = true) : s.portReservation = .granted :=
  Decidable.not_not.mp fun hg => by cases hready.symm.trans (h.waiting hg)

/-- Without its ports the owner has no socket. -/
theorem Asker.unopened (h : Asker s) (hg : s.portReservation ≠ .granted) : s.pingConn = none :=
  Option.not_isSome_iff_eq_none.mp fun hopen => hg (h.reservation (h.socket hopen))

/-- A handler runs on a timer only while there is a socket. -/
theorem Asker.open (h : Asker s) (ht : 0 < s.checkTimers + s.pingTimers) :
    s.pingConn.isSome = true := by
  refine Option.isSome_iff_ne_none.mpr fun hnone => ?_
  have := (h.closed hnone).2.1
  omega

theorem Answerer.started (h : Answerer s) (hr : s.portReservation ≠ .null) : s.started = true :=
  Bool.not_eq_false _ ▸ fun hf => hr (h.unstarted hf)

/-- Without its ports the peer has no socket. -/
theorem Answerer.unopened (h : Answerer s) (hg : s.portReservation ≠ .granted) :
    s.pingConn = none :=
  Option.not_isSome_iff_eq_none.mp fun hopen => hg (h.socket hopen)

theorem Asker.kept (h : Asker s) (hk : Kept s s') : Asker s' := by
  have htimers := hk.timers
  have hone := h.timers
  have hwrites := hk.writes
  refine ⟨?_, ?_, ?_, ?_, ?_, ?_, ?_, by omega, ?_, ?_⟩
  · rw [hk.owner, h.owner]
  · rw [hk.callback, hk.started, h.callback]
  · rw [hk.started, hk.reservation, h.idle]
  · rw [hk.reservation, hk.ready]
    exact h.waiting
  · rw [hk.ready, hk.stepIdx]
    exact h.first
  · rw [hk.bestEffort, hk.reservation, hk.ready]
    exact h.granted
  · rw [hk.pingConn, hk.ready]
    exact h.socket
  · rw [hk.next]
    intro hn
    have := h.next hn
    omega
  · rw [hk.pingConn, hk.next]
    intro hnone
    obtain ⟨hw, ht, hn⟩ := h.closed hnone
    exact ⟨by omega, by omega, hn⟩

theorem Answerer.kept (h : Answerer s) (hk : Kept s s') : Answerer s' := by
  have htimers := hk.timers
  have hwrites := hk.writes
  refine ⟨?_, ?_, ?_, ?_, ?_, ?_, ?_, ?_⟩
  · rw [hk.owner, h.owner]
  · rw [hk.callback, hk.started, h.callback]
  · rw [hk.started, hk.reservation]
    exact h.unstarted
  · rw [hk.reservation, hk.stepIdx]
    exact h.idle
  · rw [hk.reservation, hk.ready]
    exact h.asked
  · rw [hk.pingConn, hk.reservation]
    exact h.socket
  · rw [hk.next, h.next]
  · rw [hk.pingConn]
    intro hnone
    obtain ⟨hw, ht⟩ := h.closed hnone
    exact ⟨by omega, by omega⟩

theorem Idles.silent (h : Idles s out) : .ready ∉ out.sent :=
  fun hm => Up.noConfusion (h.sent _ hm)

theorem Idles.asksNothing (h : Idles s out) : .ready ∉ out.sent ∧ out.hello = none :=
  ⟨h.silent, h.hello⟩

/-- A handler of the owner that does not end the session. -/
structure Asks (e : Event) (m : Option Down) (s : Session) (out : Out) : Prop where
  side : Asker out.sess
  bestEffort : out.sess.bestEffort = s.bestEffort
  turn : out.sent.count .ready + out.sess.hasSocket ≤ s.hasSocket + s.mayAsk m
  waits : out.sess.portReservation ≠ .granted →
    s.portReservation ≠ .granted ∧ .ready ∉ out.sent
  asked : out.sess.asked = s.asked + out.sent.count .ready
  reserved : out.sess.reserved = s.reserved + s.reserves e m

theorem Idles.asks (h : Idles s out) (hd : out.done = none) (hs : Asker s)
    (hr : s.reserves e m = 0) : Asks e m s out := by
  have hk := h.kept hd
  refine ⟨hs.kept hk, hk.bestEffort, ?_, ?_, ?_, ?_⟩
  · rw [List.count_eq_zero_of_not_mem h.silent, Session.hasSocket, Session.hasSocket, hk.pingConn]
    omega
  · rw [hk.reservation]
    exact fun hg => ⟨hg, h.silent⟩
  · rw [List.count_eq_zero_of_not_mem h.silent, Session.asked, Session.asked, hk.stepIdx,
      hk.ready, hk.bestEffort, hk.started]
    rfl
  · rw [hr, Session.reserved, Session.reserved, hk.stepIdx, hk.reservation, hk.next]
    rfl

theorem Asker.closed_asks (h : Asker s) (hg : s.portReservation ≠ .granted) :
    s.mayAsk m = 1 ∧ s.hasSocket = 0 := by
  constructor
  · simp [Session.mayAsk, hg]
  · simp [Session.hasSocket, h.unopened hg]

/-- The owner asks for its first ports. -/
theorem start_asks (h : Asker s) (hfresh : s.started = false) (hout : s.start env = some out) :
    Asks (.start i env) none s out := by
  have hnull := h.idle.mp hfresh
  have hg : s.portReservation ≠ .granted := by rw [hnull]; decide
  have hready := h.waiting hg
  have hnone := h.unopened hg
  obtain ⟨hmay, hsocket⟩ := h.closed_asks (m := none) hg
  have hside : ∀ r, r ≠ .null → (s.bestEffort = true → r ≠ .granted) →
      Asker { s with started := true, callback := true, portReservation := r } := by
    intro r hr hb
    refine ⟨h.owner, rfl, ?_, fun _ => hready, h.first, ?_, h.socket, h.timers, h.next, h.closed⟩
    · simp [hr]
    · exact fun hbest hr' => absurd hr' (hb hbest)
  cases start_cases hout with
  | queued _ hbest =>
    refine ⟨hside .queued (by decide) (fun _ => by decide), rfl, ?_, ?_, ?_, ?_⟩
    · rw [hmay]
      simp [Session.hasSocket, hnone]
    · exact fun _ => ⟨hg, List.not_mem_nil⟩
    · simp [Session.asked, hbest]
    · simp [Session.reserved, Session.reserves, hnull, h.owner]
      omega
  | granted _ hbest =>
    refine ⟨hside .granted (by decide) (fun hb => Bool.noConfusion (hbest.symm.trans hb)), rfl, ?_,
      ?_, ?_, ?_⟩
    · rw [hmay]
      simp [Session.hasSocket, hnone]
    · exact fun hr => absurd rfl hr
    · simp [Session.asked, hbest, hfresh]
    · simp [Session.reserved, Session.reserves, hnull, h.owner]
      omega
  | waits howner => cases howner.symm.trans h.owner
  | answerQueued howner => cases howner.symm.trans h.owner
  | opens howner => cases howner.symm.trans h.owner

/-- The owner has its first ports and asks the peer. -/
theorem granted_asks (h : Asker s) (hq : s.portReservation = .queued) :
    Asks (.granted i false env) none s
      (Session.onPortReservation { s with portReservation := .granted } env) := by
  have hg : s.portReservation ≠ .granted := by rw [hq]; decide
  have hstarted := h.started (by rw [hq]; decide)
  have hready := h.waiting hg
  have hnone := h.unopened hg
  obtain ⟨hmay, -⟩ := h.closed_asks (m := none) hg
  simp only [Session.onPortReservation, h.callback, hstarted, hready, h.owner, Bool.not_true,
    Bool.not_false, Bool.false_eq_true, if_true, if_false]
  refine ⟨?_, rfl, ?_, fun hr => absurd rfl hr, ?_, ?_⟩
  · refine ⟨rfl, rfl, ?_, fun hr => absurd rfl hr, by rintro ⟨⟩, fun _ _ => rfl, fun _ => rfl,
      h.timers, h.next, h.closed⟩
    simp
  · rw [hmay]
    simp [Session.hasSocket, hnone]
  · simp [Session.asked, hready, hstarted]
    omega
  · simp [Session.reserved, Session.reserves, hq]

/-- The owner gives up its socket, with the next ports in `t`, and asks again. -/
theorem nextAttempt_asks {t : Session} (h : Asker s) (hopen : s.pingConn.isSome = true)
    (howner : t.owner = true) (hcallback : t.callback = true) (hstarted : t.started = true)
    (hready : t.ready = true) (hbest : t.bestEffort = s.bestEffort)
    (hstep : t.stepIdx = s.stepIdx) (hnext : t.portReservationNext = .granted)
    (htimers : t.checkTimers + t.pingTimers = 0)
    (hres : s.reserved + s.reserves e m = s.stepIdx + 2) (ping : Option (Addr × Addr)) :
    Asks e m s { t.nextAttempt with ping := ping } := by
  have hsready := h.socket hopen
  have hsstarted := h.started (by rw [h.reservation hsready]; decide)
  refine ⟨⟨howner, hcallback.trans hstarted.symm, ?_, ?_, ?_, fun _ _ => hready, nofun, ?_, ?_, ?_⟩,
    hbest, ?_, ?_, ?_, ?_⟩
  · simp [Session.nextAttempt, hstarted, hnext]
  · exact fun hr => absurd hnext hr
  · exact fun hr => by cases hready.symm.trans hr
  · show t.checkTimers + t.pingTimers ≤ 1
    omega
  · exact fun hn => absurd rfl hn
  · exact fun _ => ⟨rfl, htimers, rfl⟩
  · simp [Session.nextAttempt, Session.hasSocket, hopen]
  · exact fun hr => absurd hnext hr
  · simp [Session.nextAttempt, Session.asked, hready, hstarted, hbest, hstep, hsready, hsstarted]
    omega
  · rw [hres]
    simp [Session.nextAttempt, Session.reserved, hnext, hstep]

theorem grantedNext_asks (h : Asker s) (hq : s.portReservationNext = .queued) :
    Asks (.granted i true env) none s
      (Session.onPortReservation { s with portReservationNext := .granted } env) := by
  have hopen : s.pingConn.isSome = true := by
    refine Option.isSome_iff_ne_none.mpr fun hnone => ?_
    cases hq.symm.trans (h.closed hnone).2.2
  have hready := h.socket hopen
  have hgranted := h.reservation hready
  have hstarted := h.started (by rw [hgranted]; decide)
  have hcallback := h.callback.trans hstarted
  rw [onPortReservation_next]
  · apply nextAttempt_asks h hopen _ _ _ _ _ _ _ _ _ none
    exacts [h.owner, hcallback, hstarted, hready, rfl, rfl, rfl, h.next (by rw [hq]; decide),
      by simp [Session.reserved, Session.reserves, hgranted, hq]]
  exacts [hcallback, hready, h.owner, rfl]

/-- At TTL 65 the owner asks for the next ports, and at once for the next attempt if it gets
them. -/
theorem onPingTimeout_asks (h : Asker s) (hposted : 0 < s.pingTimers)
    (hd : (s.onPingTimeout env).done = none) :
    Asks (.pingTimeout i env) none s (s.onPingTimeout env) := by
  have hone := h.timers
  have hopen := h.open (by omega)
  have hready := h.socket hopen
  have hgranted := h.reservation hready
  have hstarted := h.started (by rw [hgranted]; decide)
  have hcallback := h.callback.trans hstarted
  have hidles : (s.LastPing → s.stepIdx = 2) →
      Asks (.pingTimeout i env) none s (s.onPingTimeout env) := by
    intro hlast
    apply (onPingTimeout_routine hposted fun hc hn ho ht =>
      Or.inl (hlast ⟨hc, hn, ho, ht⟩)).asks hd h
    have hmore : ¬ (s.next = true ∧ s.ttl = 64 ∧ s.stepIdx ≠ 2) := by
      rintro ⟨hnext, httl, hstep⟩
      exact hstep (hlast ⟨hcallback, hnext, h.owner, httl⟩)
    simp only [Session.reserves, hcallback, h.owner]
    rw [if_neg]
    simpa using hmore
  have hres : s.LastPing → s.stepIdx ≠ 2 →
      s.reserved + s.reserves (.pingTimeout i env) none = s.stepIdx + 2 := by
    intro hlast hstep
    have hnull : s.portReservationNext = .null :=
      Decidable.not_not.mp fun hn => by have := h.next hn; omega
    simp [Session.reserved, Session.reserves, hcallback, hlast.next, h.owner, hlast.ttl, hstep,
      hgranted, hnull]
  have hcases := onPingTimeout_cases s env
  generalize s.onPingTimeout env = out at hcases hd hidles ⊢
  cases hcases with
  | ended hc => exact hidles fun hlast => by cases hc.symm.trans hlast.callback
  | waits _ hn => exact hidles fun hlast => by cases hn.symm.trans hlast.next
  | pings _ _ hmore => exact hidles fun hlast => absurd hlast hmore
  | gaveUp _ hstep => exact hidles fun _ => hstep
  | refused => cases hd
  | queued hlast hstep =>
    have hzero : (s.pinged .queued).checkTimers + (s.pinged .queued).pingTimers = 0 := by
      dsimp only [Session.pinged]
      omega
    refine ⟨⟨h.owner, h.callback, h.idle, h.waiting, h.first, h.granted, h.socket,
      Nat.le_trans (Nat.le_of_eq hzero) (Nat.zero_le 1), fun _ => hzero, ?_⟩,
      rfl, ?_, fun hr => absurd hgranted hr, rfl, ?_⟩
    · intro hnone
      rw [show s.pingConn = none from hnone] at hopen
      cases hopen
    · simp [Session.hasSocket, Session.pinged, hopen]
    · rw [hres hlast hstep]
      simp [Session.reserved, Session.pinged, hgranted]
  | granted hlast hstep =>
    rw [onPortReservation_next (s := s.pinged .granted) hlast.callback hready hlast.owner rfl]
    have hzero : (s.pinged .granted).checkTimers + (s.pinged .granted).pingTimers = 0 := by
      dsimp only [Session.pinged]
      omega
    apply nextAttempt_asks h hopen (t := s.pinged .granted)
    exacts [h.owner, hcallback, hstarted, hready, rfl, rfl, rfl, hzero, hres hlast hstep]

/-- The owner is told the address of the peer. It opens its socket, unless it has not set
`ready_` yet: then it asks the peer once more. -/
theorem onFast_asks (h : Asker s) (hnone : s.pingConn = none)
    (hgranted : s.portReservation = .granted) {addr : Addr}
    (hd : (s.onFast addr env).done = none) :
    Asks (.deliver i env) (some (.fast addr)) s (s.onFast addr env) := by
  have hstarted := h.started (by rw [hgranted]; decide)
  have hcallback := h.callback.trans hstarted
  obtain ⟨hwrites, htimers, hnext⟩ := h.closed hnone
  have hmay : s.mayAsk (some (.fast addr)) = 1 := by simp [Session.mayAsk, isFast]
  simp only [Session.onFast, Session.onPortReservation, hcallback, h.owner, hnext, Bool.not_true,
    Bool.false_eq_true, if_false, if_true, ne_eq, not_true_eq_false, decide_false,
    Bool.and_false] at hd ⊢
  split
  · rename_i hready
    have hready : s.ready = false := by simpa using hready
    refine ⟨⟨rfl, hstarted.symm, h.idle, fun hr => absurd hgranted hr, by rintro ⟨⟩, fun _ _ => rfl,
      fun _ => rfl, h.timers, fun hn => absurd rfl hn, fun _ => ⟨hwrites, htimers, rfl⟩⟩, rfl, ?_,
      fun hr => absurd hgranted hr, ?_, ?_⟩
    · rw [hmay]
      simp [Session.hasSocket, hnone]
    · simp [Session.asked, hready]
      omega
    · simp [Session.reserved, Session.reserves, hnext]
  · rename_i hready
    rw [if_neg hready] at hd
    have hready : s.ready = true := by simpa using hready
    revert hd
    generalize ht : ({ s with
      owner := true, callback := true, dest := some addr, portReservationNext := .null } :
        Session) = t
    intro hd
    rcases openSocket_cases t env with ⟨u, hu⟩ | ⟨x, -, hout⟩
    · rw [hu] at hd
      cases hd
    · subst ht
      rw [hout]
      refine ⟨⟨rfl, hstarted.symm, h.idle, fun hr => absurd hgranted hr, h.first, h.granted,
        fun _ => hready, ?_, fun hn => absurd rfl hn, by rintro ⟨⟩⟩, rfl, ?_,
        fun hr => absurd hgranted hr, rfl, ?_⟩
      · show s.checkTimers + 1 + s.pingTimers ≤ 1
        omega
      · rw [hmay]
        simp [Session.hasSocket, hnone]
      · simp [Session.reserved, Session.reserves, hnext]

/-- Every handler of the owner that does not end the session. The address of the peer comes
only while the owner waits for it. -/
theorem Handles.asks (hh : Handles i e m s env out) (hd : out.done = none) (h : Asker s)
    (hready : m ≠ some .ready)
    (hfast : m.any isFast = true → s.pingConn = none ∧ s.portReservation = .granted) :
    Asks e m s out := by
  cases hh with
  | start hfresh hout => exact start_asks h hfresh hout
  | granted hout =>
    cases onGranted_cases hout with
    | first hq => exact granted_asks h hq
    | next hq => exact grantedNext_asks h hq
  | helloSent => exact (onHelloSend_routine _ _).asks hd h rfl
  | checkStart hposted => exact (onCheckStartTimeout_routine _ hposted).asks hd h rfl
  | pingTimeout hposted => exact onPingTimeout_asks h hposted hd
  | pingSent => exact (onPingSend_routine _ _).asks hd h rfl
  | recvPing => exact (onRecvPing_idles _ _).asks hd h rfl
  | readError => exact (onRecvPing_idles _ _).asks hd h rfl
  | ready => exact absurd rfl hready
  | next => exact (onNext_routine _).asks hd h rfl
  | fast =>
    obtain ⟨hnone, hgranted⟩ := hfast rfl
    exact onFast_asks h hnone hgranted hd

/-- The handler has read `READY`. -/
def asksNow (m : Option Down) : Nat := if m = some .ready then 1 else 0

/-- A handler of the peer that does not end the session. -/
structure Answers (e : Event) (m : Option Down) (s : Session) (out : Out) : Prop where
  side : Answerer out.sess
  silent : .ready ∉ out.sent
  turn : out.sess.isPreparing + out.hello.toList.length ≤ s.isPreparing + asksNow m
  got : out.sess.got = s.got + asksNow m
  reserved : out.sess.reserved = s.reserved + s.reserves e m

theorem Idles.answers (h : Idles s out) (hd : out.done = none) (hs : Answerer s)
    (hr : s.reserves e m = 0) (hm : m ≠ some .ready) : Answers e m s out := by
  have hk := h.kept hd
  have hzero : asksNow m = 0 := if_neg hm
  refine ⟨hs.kept hk, h.silent, ?_, ?_, ?_⟩
  · rw [h.hello, Session.isPreparing, Session.isPreparing, Session.preparing, Session.preparing,
      hk.started, hk.ready, hk.reservation]
    exact Nat.le_add_right _ _
  · rw [hzero, Session.got, Session.got, hk.started, hk.stepIdx, hk.reservation, hk.ready]
    rfl
  · rw [hr, Session.reserved, Session.reserved, hk.stepIdx, hk.reservation, hk.next]
    rfl

/-- The peer opens its socket, with its ports in `t`. -/
theorem openSocket_answers {t : Session} (h : Answerer t) (hstarted : t.started = true)
    (hgranted : t.portReservation = .granted) (hturn : 1 ≤ s.isPreparing + asksNow m)
    (hgot : t.got = s.got + asksNow m) (hres : t.reserved = s.reserved + s.reserves e m)
    (hd : (t.openSocket env).done = none) : Answers e m s (t.openSocket env) := by
  rcases openSocket_cases t env with ⟨u, hu⟩ | ⟨x, -, hout⟩
  · rw [hu] at hd
    cases hd
  · rw [hout]
    refine ⟨⟨h.owner, h.callback, h.unstarted, h.idle, h.asked, fun _ => hgranted, h.next, nofun⟩,
      List.not_mem_nil, ?_, hgot, hres⟩
    simpa [Session.isPreparing, Session.preparing, hstarted, hgranted] using hturn

theorem start_answers (h : Answerer s) (hfresh : s.started = false)
    (hout : s.start env = some out) (hd : out.done = none) :
    Answers (.start i env) none s out := by
  have hnull := h.unstarted hfresh
  have hstep := h.idle hnull
  have hnone := h.unopened (by rw [hnull]; decide)
  have hside : s.ready = true → ∀ r, r ≠ .null →
      Answerer { s with started := true, callback := true, portReservation := r } := by
    intro hready r hr
    refine ⟨h.owner, rfl, by rintro ⟨⟩, fun hr' => absurd hr' hr, fun _ => hready, ?_, h.next,
      h.closed⟩
    intro hopen
    rw [show s.pingConn = none from hnone] at hopen
    cases hopen
  cases start_cases hout with
  | queued howner => cases h.owner.symm.trans howner
  | granted howner => cases h.owner.symm.trans howner
  | waits _ hready =>
    refine ⟨⟨h.owner, rfl, by rintro ⟨⟩, h.idle, h.asked, h.socket, h.next, h.closed⟩,
      List.not_mem_nil, ?_, ?_, ?_⟩
    · simp [Session.isPreparing, Session.preparing, hnull]
    · simp [Session.got, hnull, hstep, hready, hfresh, asksNow]
    · simp [Session.reserved, Session.reserves, h.owner, hready]
  | answerQueued _ hready =>
    refine ⟨hside hready .queued (by decide), List.not_mem_nil, ?_, ?_, ?_⟩
    · simp [Session.isPreparing, Session.preparing, hfresh, hready]
    · simp [Session.got, hstep, hready, hfresh, asksNow]
    · simp [Session.reserved, Session.reserves, h.owner, hready, hnull]
      omega
  | opens _ hready hsocket =>
    subst hsocket
    apply openSocket_answers (hside hready .granted (by decide)) rfl rfl _ _ _ hd
    · simp [Session.isPreparing, Session.preparing, hfresh, hready]
    · simp [Session.got, hstep, hready, hfresh, asksNow]
    · simp [Session.reserved, Session.reserves, h.owner, hready, hnull]
      omega

theorem granted_answers (h : Answerer s) (hq : s.portReservation = .queued)
    (hd : (Session.onPortReservation { s with portReservation := .granted } env).done = none) :
    Answers (.granted i false env) none s
      (Session.onPortReservation { s with portReservation := .granted } env) := by
  have hstarted := h.started (by rw [hq]; decide)
  have hready := h.asked (by rw [hq]; decide)
  rw [onPortReservation_opens (h.callback.trans hstarted) hready h.owner] at hd ⊢
  apply openSocket_answers _ _ _ _ _ _ hd
  · exact ⟨h.owner, h.callback, fun hf => Bool.noConfusion (hstarted.symm.trans hf), by rintro ⟨⟩,
      fun _ => hready, fun _ => rfl, h.next, h.closed⟩
  · exact hstarted
  · rfl
  · simp [Session.isPreparing, Session.preparing, hq]
  · simp [Session.got, hstarted, hq, asksNow]
  · simp [Session.reserved, Session.reserves, hq]

/-- A started peer that has read `READY` has nothing of an earlier attempt, and its step
index is how many `READY`s it had read before. -/
structure Again (s t : Session) : Prop where
  owner : t.owner = false
  started : t.started = true
  callback : t.callback = true
  ready : t.ready = true
  stepIdx : t.stepIdx = s.got
  next : t.portReservationNext = .null
  pingConn : t.pingConn = none
  closed : t.writes = 0 ∧ t.checkTimers + t.pingTimers = 0

theorem onReady_again (h : Answerer s) (hstarted : s.started = true) {t : Session}
    (hagain : s.readied = t) : Again s t := by
  subst hagain
  have hcallback := h.callback.trans hstarted
  rw [Session.readied]
  by_cases hnull : s.portReservation = .null
  · have hnone := h.unopened (by rw [hnull]; decide)
    rw [if_neg (by simp [hnull])]
    refine ⟨h.owner, hstarted, hcallback, rfl, ?_, h.next, hnone, h.closed hnone⟩
    simp [Session.got, hstarted, hnull]
  · rw [if_pos (by simp [h.owner, hnull])]
    refine ⟨h.owner, hstarted, hcallback, rfl, ?_, h.next, rfl, rfl, rfl⟩
    simp [Session.got, Session.restart, hstarted, hnull]

theorem Again.answerer {t : Session} (h : Again s t) {r : Reservation} (hr : r ≠ .null) :
    Answerer { t with portReservation := r } := by
  refine ⟨h.owner, h.callback.trans h.started.symm, ?_, fun hr' => absurd hr' hr,
    fun _ => h.ready, ?_, h.next, fun _ => h.closed⟩
  · exact fun hf => Bool.noConfusion (h.started.symm.trans hf)
  · intro hopen
    rw [show t.pingConn = none from h.pingConn] at hopen
    cases hopen

theorem onReady_answers (h : Answerer s) (hidle : s.isPreparing = 0)
    (hd : (s.onReady env).done = none) :
    Answers (.deliver i env) (some .ready) s (s.onReady env) := by
  have hres : s.started = true →
      s.reserved + s.reserves (.deliver i env) (some .ready) = s.got + 1 := by
    intro hstarted
    simp [Session.reserved, Session.reserves, Session.got, hstarted, h.callback, h.next]
  have hcases := onReady_cases s env
  generalize s.onReady env = out at hcases hd ⊢
  cases hcases with
  | early hfresh =>
    have hfresh : s.started = false := by simpa [h.callback] using hfresh
    have hready : s.ready = false := by
      simpa [Session.isPreparing, Session.preparing, hfresh, h.unstarted hfresh] using hidle
    refine ⟨⟨h.owner, h.callback, h.unstarted, h.idle, fun _ => rfl, h.socket, h.next, h.closed⟩,
      List.not_mem_nil, ?_, ?_, ?_⟩
    · simp [Session.isPreparing, Session.preparing, hfresh, asksNow]
    · simp [Session.got, hfresh, hready, asksNow]
    · simp [Session.reserved, Session.reserves, hfresh]
  | queued hstarted hagain =>
    have hagain := onReady_again h hstarted hagain
    refine ⟨hagain.answerer (by decide), List.not_mem_nil, ?_, ?_, ?_⟩
    · simp [Session.isPreparing, Session.preparing, asksNow]
    · simp [Session.got, hagain.started, hagain.stepIdx, hstarted, asksNow]
    · rw [hres hstarted]
      simp [Session.reserved, hagain.stepIdx, hagain.next]
  | granted hstarted hagain =>
    have hagain := onReady_again h hstarted hagain
    rw [onPortReservation_opens hagain.callback hagain.ready hagain.owner] at hd ⊢
    apply openSocket_answers _ _ _ _ _ _ hd
    · exact hagain.answerer (by decide)
    · exact hagain.started
    · rfl
    · exact Nat.le_add_left _ _
    · simp [Session.got, hagain.started, hagain.stepIdx, hstarted, asksNow]
    · rw [hres hstarted]
      simp [Session.reserved, hagain.stepIdx, hagain.next]
  | refused => cases hd

/-- Every handler of the peer that does not end the session. `READY` comes only while the
peer is not getting ready. -/
theorem Handles.answers (hh : Handles i e m s env out) (hd : out.done = none) (h : Answerer s)
    (hready : m = some .ready → s.isPreparing = 0) : Answers e m s out := by
  cases hh with
  | start hfresh hout => exact start_answers h hfresh hout hd
  | granted hout =>
    cases onGranted_cases hout with
    | first hq => exact granted_answers h hq hd
    | next hq => cases hq.symm.trans h.next
  | helloSent => exact (onHelloSend_routine _ _).answers hd h rfl nofun
  | checkStart hposted => exact (onCheckStartTimeout_routine _ hposted).answers hd h rfl nofun
  | pingTimeout hposted =>
    have hidles : Idles s (s.onPingTimeout env) :=
      (onPingTimeout_routine hposted fun _ _ howner =>
        Bool.noConfusion (h.owner.symm.trans howner)).toIdles
    exact hidles.answers hd h (by simp [Session.reserves, h.owner]) nofun
  | pingSent => exact (onPingSend_routine _ _).answers hd h rfl nofun
  | recvPing => exact (onRecvPing_idles _ _).answers hd h rfl nofun
  | readError => exact (onRecvPing_idles _ _).answers hd h rfl nofun
  | ready => exact onReady_answers h (hready rfl) hd
  | next => exact (onNext_routine _).answers hd h rfl (by simp)
  | @fast _ _ addr =>
    have hidles : Idles s (s.onFast addr env) := by
      simp only [Session.onFast]
      split
      · exact .of_kept (Same.refl s).toKept
      · rw [if_neg (by simp [h.owner])]
        exact .of_kept { Same.refl s with }
    exact hidles.answers hd h rfl (by simp)

theorem onPortReservation_over (hd : (s.onPortReservation env).done ≠ none) :
    .ready ∉ (s.onPortReservation env).sent ∧ (s.onPortReservation env).hello = none := by
  have hcases := onPortReservation_cases s env
  generalize s.onPortReservation env = out at hd hcases ⊢
  cases hcases with
  | waits | asks | goesOn => exact absurd rfl hd
  | opens =>
    rcases openSocket_cases s env with ⟨t, ht⟩ | ⟨x, -, hout⟩
    · rw [ht]
      exact ⟨List.not_mem_nil, rfl⟩
    · rw [hout] at hd
      exact absurd rfl hd

/-- A handler that ends the session asks for nothing. -/
theorem Handles.over (hh : Handles i e m s env out) (hd : out.done ≠ none) :
    .ready ∉ out.sent ∧ out.hello = none := by
  cases hh with
  | start hfresh hout => exact absurd (start_cases hout).done hd
  | granted hout =>
    cases onGranted_cases hout with
    | first | next => exact onPortReservation_over hd
  | helloSent => exact (onHelloSend_routine _ _).asksNothing
  | checkStart hposted => exact (onCheckStartTimeout_routine _ hposted).asksNothing
  | pingTimeout hposted =>
    have hcases := onPingTimeout_cases s env
    generalize s.onPingTimeout env = out at hcases hd ⊢
    cases hcases with
    | ended | waits | pings | gaveUp | queued | refused => exact ⟨List.not_mem_nil, rfl⟩
    | granted => exact onPortReservation_over hd
  | pingSent => exact (onPingSend_routine _ _).asksNothing
  | recvPing => exact (onRecvPing_idles _ _).asksNothing
  | readError => exact (onRecvPing_idles _ _).asksNothing
  | ready =>
    have hcases := onReady_cases s env
    generalize s.onReady env = out at hcases hd ⊢
    cases hcases with
    | early | queued | refused => exact ⟨List.not_mem_nil, rfl⟩
    | granted => exact onPortReservation_over hd
  | next => exact ⟨List.not_mem_nil, rfl⟩
  | fast =>
    simp only [Session.onFast] at hd ⊢
    split
    · exact ⟨List.not_mem_nil, rfl⟩
    · rename_i hcallback
      rw [if_neg hcallback] at hd
      split
      · rename_i howner
        rw [if_pos howner] at hd
        exact onPortReservation_over hd
      · exact ⟨List.not_mem_nil, rfl⟩

end DTun.Node.FastSession
