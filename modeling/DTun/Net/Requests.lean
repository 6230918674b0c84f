import DTun.Net.Rendezvous

/-!
# Requests and replies in the network

A client that has sent a request for one of its connections gets one reply. While the
request or the reply is in flight, the entry of the connection, if it is still there,
waits for it: that is why `PENDING` never finds an entry in another state, and why the
assertions of the client hold.

Two things are assumed: a client draws fewer than 2^32 - 1 indices, so that none comes
again, and no message is read while a handler is in the middle of starting a proxy.
-/

namespace DTun.Net

open DTun.Lib DTun.Lib.Runs DTun.Master DTun.Node.MasterClient

def isCreate (c : ConnId) : UpMsg → Bool
  | .connCreate c' _ _ _ _ => c' = c
  | _ => false

def isPending (c : ConnId) : DownMsg → Bool
  | .connStatus c' .pending _ _ => c' = c
  | _ => false

/-- The event reads the reply for `c`. -/
def replies (c : ConnId) : Node.MasterClient.Event → Nat
  | .recv msg => if isPending c msg then 1 else 0
  | _ => 0

section Client

variable {cl cl' : Client} {c : ConnId} {ev : Node.MasterClient.Event} {v v' : View}
  {sent : List UpMsg}

/-- With `n` requests and replies in flight for a connection: there is at most one, the
connection is the node's own, and its entry waits for the reply. -/
structure Asked (own : Prop) (n : Nat) (v : View) : Prop where
  once : n ≤ 1
  own : 0 < n → own
  waits : 0 < n → ∀ e, v.entry = some e → e.mode = none ∧ e.status = .pending

section Asked

variable {own : Prop} {n n' k r : Nat}

theorem Asked.mono (h : Asked own n v) (hle : n' ≤ n) : Asked own n' v :=
  ⟨hle.trans h.once, fun hpos => h.own (hpos.trans_le hle), fun hpos => h.waits (hpos.trans_le hle)⟩

/-- The entry stays, or goes, and nothing is sent. -/
theorem Asked.quiet (h : Asked own n v) (hk : k = 0)
    (hentry : ∀ e, v'.entry = some e → v.entry = some e) : Asked own (n + k - r) v' := by
  have h' := h.mono (show n + k - r ≤ n by omega)
  exact ⟨h'.once, h'.own, fun hpos e he => h'.waits hpos e (hentry e he)⟩

/-- Everything that was in flight has arrived. -/
theorem Asked.settled (h : n + k ≤ r) : Asked own (n + k - r) v' :=
  ⟨by omega, fun hpos => absurd hpos (by omega), fun hpos => absurd hpos (by omega)⟩

theorem Asked.idle (hn : n = 0) (hk : k = 0) : Asked own (n + k - r) v' := .settled (by omega)

/-- The request is sent. -/
theorem Asked.request (hn : n = 0) (hk : k ≤ 1) (hown : own)
    (hentry : 0 < k → ∀ e, v'.entry = some e → e.mode = none ∧ e.status = .pending) :
    Asked own (n + k - r) v' :=
  ⟨by omega, fun _ => hown, fun hpos => hentry (by omega)⟩

end Asked

/-- A move sends at most one request, and only when none is in flight. -/
theorem move_asked {n : Nat} (hm : Move cl c ev v v' sent)
    (hoffer : OfferOk cl ev) (hown : Owned (c.nodeId = cl.nodeId) v) (hmoded : Moded v)
    (hfree : c = cl.nextId → (∃ ip port, ev = .registerConnection ip port) → n = 0)
    (h : Asked (c.nodeId = cl.nodeId) n v) :
    Asked (c.nodeId = cl.nodeId) (n + sent.countP (isCreate c) - replies c ev) v' := by
  have hforeign : ¬ c.nodeId = cl.nodeId → n = 0 := by
    intro hnot
    by_contra hne
    exact hnot (h.own (by omega))
  -- an entry that has a mode has nothing in flight
  have hmode₀ : ∀ e, v.entry = some e → e.mode.isSome = true → n = 0 := by
    intro e he hmode
    by_contra hne
    rw [(h.waits (by omega) e he).1] at hmode
    cases hmode
  cases hm with
  | other => exact h.quiet rfl fun _ => id
  | dropped he hn => exact h.quiet rfl fun _ => id
  | @registered ip port _ _ send hid hroute =>
    refine .request (hfree hid ⟨ip, port, rfl⟩) ?_ (by rw [hid]; rfl) ?_
    · cases send <;> simp [isCreate]
    · cases send with
      | false => simp
      | true =>
        rintro _ _ ⟨⟩
        exact ⟨rfl, rfl⟩
  | closeMissed => exact h.quiet rfl fun _ => id
  | closed => exact h.quiet (by split <;> simp [isCreate]) (by simp)
  | requested he => exact .idle (hforeign hoffer) rfl
  | replied he =>
    have honce := h.once
    exact .settled (by simp [replies, isPending, honce])
  | reported he hsess => exact .idle (hmode₀ _ he (hmoded.session _ he hsess)) rfl
  | refused he => exact h.quiet rfl (by simp)
  | succeeded he hs hts =>
    refine .idle (hmode₀ _ he (hmoded.session _ he (isSome_of_started hs))) ?_
    split <;> simp [isCreate]
  | failed he hs hts => exact h.quiet (by simp [isCreate]) (by simp)
  | proxyDone he hp => exact h.quiet rfl (by simp)
  | invoked hts => exact h.quiet rfl fun _ => id
  | proxyStarted hts => exact h.quiet rfl fun _ => id
  | proxyMissed _ hts => exact h.quiet rfl fun _ => id
  | proxySet he hts =>
    exact .idle (hforeign (hown.tasks _ (hts ▸ Multiset.mem_cons_self _ _) rfl)) rfl
  | proxyFailed he hts => exact h.quiet rfl (by simp)
  | notCalled hts => exact h.quiet rfl fun _ => id
  | returned hts => exact h.quiet rfl fun _ => id
  | create he hq hmode hstatus =>
    refine .request ?_ (by simp [isCreate]) (hown.mode _ he hmode) ?_
    · by_contra hne
      have hpending := (h.waits (by omega) _ he).2
      rw [hstatus] at hpending
      cases hpending
    · rintro _ _ ⟨⟩
      exact ⟨hmode, rfl⟩
  | started he hq hmode => exact .idle (hmode₀ _ he (by rw [hmode]; rfl)) rfl
  | startFailed he hq hmode => exact h.quiet (by simp [isCreate]) (by simp)

/-- An id of the node's own that has not been drawn stays unused. -/
theorem move_unused (hm : Move cl c ev v v' sent) (hoffer : OfferOk cl ev)
    (hown : c.nodeId = cl.nodeId)
    (hid : ∀ ip port, ev = .registerConnection ip port → c ≠ cl.nextId) (hnone : v.entry = none) :
    v'.entry = none ∧ sent.countP (isCreate c) = 0 := by
  cases hm with
  | registered h => exact absurd h (hid _ _ rfl)
  | requested => exact absurd hown hoffer
  | _ => simp_all

theorem countP_create_le {out : List UpMsg} (h : sent.filter (about c) = cl.wire out) :
    sent.countP (isCreate c) ≤ out.countP (isCreate c) := by
  have hsub : ∀ m, isCreate c m = true → about c m = true := by
    intro m hm
    cases m <;> simp_all [isCreate, about]
  have hfilter : sent.countP (isCreate c) = (cl.wire out).countP (isCreate c) := by
    rw [← h, List.countP_filter]
    exact List.countP_congr fun m _ => by simpa using hsub m
  rw [hfilter, Client.wire]
  split
  · exact le_rfl
  · simp

theorem view_tasks_subset {t : Task} (h : t ∈ (cl.view c).tasks) : t ∈ cl.pending := by
  simp only [Client.view, Client.viewWith_tasks, Multiset.mem_coe] at h
  exact (List.mem_filter.mp h).1

/-- No message is read while a handler is in the middle of starting a proxy. -/
def Serial (cl : Client) : Node.MasterClient.Event → Prop
  | .recv _ => ∀ t ∈ cl.pending, t.isProxy = false
  | _ => True

instance (cl : Client) : (ev : Node.MasterClient.Event) → Decidable (Serial cl ev)
  | .recv _ => inferInstanceAs (Decidable (∀ t ∈ cl.pending, t.isProxy = false))
  | .probed | .connected _ _ | .lost | .registerConnection _ _ | .closeConnection _
  | .rendezvous _ _ _ | .proxyDone _ | .run _ _ _ | .shutdown => isTrue trivial

end Client

section Network

variable {w w' : World} {e : Event} {s : Nat} {cl cl' : Client} {es : List Event}

/-- The requests and replies for `c` in flight between the server and session `s`. -/
def tokens (w : World) (s : Nat) (c : ConnId) : Nat :=
  (w.up s).countP (isCreate c) + (w.down s).countP (isPending c)

/-- The invariant of one client that has called `registerConnection` at most `n` times. -/
structure Orderly (w : World) (s n : Nat) (cl : Client) : Prop where
  sound : Sound cl cl.pending
  asked : ∀ c, Asked (c.nodeId = cl.nodeId) (tokens w s c) (cl.view c)
  drawn : cl.nextId.connIdx ≤ n + 1
  fresh : ∀ c, c.nodeId = cl.nodeId → cl.nextId.connIdx ≤ c.connIdx →
    cl.connStates.find? c = none ∧ tokens w s c = 0

theorem Orderly.mono {n n' : Nat} (h : Orderly w s n cl) (hn : n ≤ n')
    (hle : ∀ c, tokens w' s c ≤ tokens w s c) : Orderly w' s n' cl := by
  refine ⟨h.sound, fun c => (h.asked c).mono (hle c), h.drawn.trans (by omega),
    fun c hown hidx => ?_⟩
  obtain ⟨hnone, hzero⟩ := h.fresh c hown hidx
  exact ⟨hnone, Nat.le_zero.mp (hzero ▸ hle c)⟩

theorem drawIdx_of_ne_zero {n : Nat} (h : n ≠ 0) :
    Client.drawIdx n = (n, (n + 1) % 2 ^ 32) := if_neg h

/-- Before the counter wraps around, the next index is one more. -/
theorem drawIdx_next {n : Nat} (h : (Client.drawIdx n).1 + 1 < 2 ^ 32) :
    (Client.drawIdx (Client.drawIdx n).2).1 = (Client.drawIdx n).1 + 1 := by
  by_cases hn : n = 0
  · subst hn
    rfl
  · rw [drawIdx_of_ne_zero hn] at h ⊢
    simp only at h ⊢
    rw [Nat.mod_eq_of_lt h, drawIdx_of_ne_zero (by omega)]

theorem Orderly.idsFree {n : Nat} {ev : Node.MasterClient.Event} (h : Orderly w s n cl)
    (hserial : Serial cl ev) : IdsFree cl ev := by
  cases ev with
  | registerConnection ip port => exact (h.fresh cl.nextId rfl le_rfl).1
  | recv msg =>
    cases msg with
    | conn connId => exact fun _ t ht => hserial t (view_tasks_subset ht)
    | _ => trivial
  | _ => trivial

theorem Orderly.waits_of_mem {n : Nat} {c : ConnId} {mode : RMode} {dstIp : Nat}
    (h : Orderly w s n cl) (hmem : .connStatus c .pending mode dstIp ∈ w.down s) :
    ∀ e, cl.connStates.find? c = some e → e.mode = none ∧ e.status = .pending := by
  have hpos : 0 < (w.down s).countP (isPending c) :=
    List.countP_pos_iff.mpr ⟨_, hmem, by simp [isPending]⟩
  exact (h.asked c).waits (by rw [tokens]; omega)

/-- The reply that is read is the one in flight. -/
theorem Orderly.replyOk {n : Nat} {ev : Node.MasterClient.Event} (h : Orderly w s n cl)
    (hin : ∀ msg, ev = .recv msg → msg ∈ w.down s) : ReplyOk cl ev := by
  cases ev with
  | recv msg =>
    cases msg with
    | connStatus connId status mode dstIp =>
      cases status with
      | pending => exact h.waits_of_mem (hin _ rfl)
      | _ => trivial
    | _ => trivial
  | _ => trivial

/-- A step of the client itself. -/
theorem Orderly.client_step {n n' : Nat} {ev : Node.MasterClient.Event} {sent : List UpMsg}
    (h : Orderly w s n cl) (hs : cl.step ev = some (cl', sent)) (hoffer : OfferOk cl ev)
    (hserial : Serial cl ev) (hin : ∀ msg, ev = .recv msg → msg ∈ w.down s) (hn : n ≤ n')
    (hcount : ∀ ip port, ev = .registerConnection ip port → n + 1 ≤ n') (hroom : n' + 1 < 2 ^ 32)
    (htokens : ∀ c, tokens w' s c ≤ tokens w s c + sent.countP (isCreate c) - replies c ev) :
    Orderly w' s n' cl' := by
  have hnode := (Client.step_config hs).1
  have hdrawn := h.drawn
  have hkeep : cl'.nextConnIdx = cl.nextConnIdx → cl'.nextId.connIdx = cl.nextId.connIdx := by
    intro hnext
    rw [Client.nextId, hnext]
    rfl
  have hdraw : n + 1 ≤ n' → cl'.nextConnIdx = (Client.drawIdx cl.nextConnIdx).2 →
      cl'.nextId.connIdx = cl.nextId.connIdx + 1 := by
    intro hle hnext
    rw [Client.nextId, hnext]
    exact drawIdx_next (show cl.nextId.connIdx + 1 < 2 ^ 32 by omega)
  -- what has not been drawn stays unused, unless it is drawn now
  have hunused : ∀ c, c.nodeId = cl.nodeId → cl.nextId.connIdx ≤ c.connIdx →
      (∀ ip port, ev = .registerConnection ip port → c ≠ cl.nextId) →
      cl'.connStates.find? c = none ∧ tokens w' s c = 0 := by
    intro c hown hidx hid
    obtain ⟨hnone, hzero⟩ := h.fresh c hown hidx
    obtain ⟨out, hmove, hout⟩ := Client.step_move hs c
    obtain ⟨hnone', hnil⟩ := move_unused hmove hoffer hown hid hnone
    have hsent := countP_create_le hout
    have := htokens c
    exact ⟨hnone', by omega⟩
  refine ⟨Client.step_sound hs h.sound hoffer (h.idsFree hserial) (h.replyOk hin), fun c => ?_,
    ?_, fun c hown hidx => ?_⟩
  · obtain ⟨out, hmove, hout⟩ := Client.step_move hs c
    have hsent := countP_create_le hout
    rw [hnode]
    refine (move_asked hmove hoffer (h.sound.owned c) (h.sound.moded c) ?_ (h.asked c)).mono ?_
    · rintro rfl _
      exact (h.fresh cl.nextId rfl le_rfl).2
    · have := htokens c
      omega
  · rcases Client.step_next hs with ⟨hnext, _⟩ | ⟨ip, port, rfl, hnext⟩
    · rw [hkeep hnext]
      omega
    · have hle := hcount ip port rfl
      rw [hdraw hle hnext]
      omega
  · rw [hnode] at hown
    rcases Client.step_next hs with ⟨hnext, hsame⟩ | ⟨ip, port, rfl, hnext⟩
    · rw [hkeep hnext] at hidx
      by_cases hreg : ∃ ip port, ev = .registerConnection ip port
      · obtain ⟨ip, port, rfl⟩ := hreg
        obtain ⟨hstates, rfl⟩ := hsame ip port rfl
        obtain ⟨hnone, hzero⟩ := h.fresh c hown hidx
        have := htokens c
        rw [hzero] at this
        exact ⟨hstates ▸ hnone, by simpa using this⟩
      · exact hunused c hown hidx fun ip port hev => absurd ⟨ip, port, hev⟩ hreg
    · rw [hdraw (hcount ip port rfl) hnext] at hidx
      refine hunused c hown (by omega) fun _ _ _ hc => ?_
      rw [hc] at hidx
      omega

/-- `registerConnection` is called on the client of `s`. -/
def isRegister (s : Nat) : Event → Bool
  | .client t (.registerConnection _ _) => t = s
  | _ => false

/-- The number of calls. -/
def calls (s : Nat) (es : List Event) : Nat := es.countP (isRegister s)

theorem countP_sends_eq_zero {sends : Sends} {c : ConnId}
    (h : ∀ x ∈ sends, isPending c x.2 = false) :
    (toSession sends s).countP (isPending c) = 0 := by
  rw [List.countP_eq_zero]
  intro m hm
  simp [h _ (mem_toSession.mp hm)]

theorem isPending_of_isSignal {m : DownMsg} (h : m.isSignal = true) (c : ConnId) :
    isPending c m = false := by
  cases m <;> simp_all [DownMsg.isSignal, isPending]

/-- For a message the server sends at most one reply, to the sender of the request. -/
theorem served_replies {st st' : Server} {t : Nat} {m : UpMsg} {sends : Sends}
    (h : Server.Served st t m st' sends) (c : ConnId) :
    (toSession sends s).countP (isPending c) ≤
      if t = s ∧ isCreate c m = true then 1 else 0 := by
  have hnone : (∀ x ∈ sends, isPending c x.2 = false) →
      (toSession sends s).countP (isPending c) ≤
        if t = s ∧ isCreate c m = true then 1 else 0 := by
    intro hx
    rw [countP_sends_eq_zero hx]
    exact Nat.zero_le _
  cases h with
  | greeted => exact hnone (by simp)
  | replaced =>
    refine hnone fun x hx => ?_
    obtain ⟨_, _, _, _, _, _, heq⟩ := Server.mem_cancelSend hx
    rw [heq]
    rfl
  | side _ _ hsends => exact hnone fun x hx => isPending_of_isSignal (hsends x hx).1 c
  | refused => exact hnone (by simp [isPending])
  | @created connId d _ _ _ _ srcMode dstMode =>
    by_cases hts : t = s
    · by_cases hc : connId = c
      · rw [if_pos ⟨hts, by simp [isCreate, hc]⟩]
        by_cases hd : d = s <;> simp [toSession, hts, hd, isPending, hc]
      · by_cases hd : d = s <;> simp [toSession, hts, hd, isPending, hc]
    · by_cases hd : d = s <;> simp [toSession, hts, hd, isPending]
  | @closed _ established =>
    refine hnone ?_
    cases established <;> simp [isPending, Status.errCanceled]
  | missed => exact hnone (by simp)
  | relayed _ hsends => exact hnone fun x hx => isPending_of_isSignal (hsends x hx).1 c

theorem serve_tokens {msg : UpMsg} {rest : List UpMsg} {t : Nat} (hup : w.up t = msg :: rest)
    (c : ConnId) :
    tokens { w with
      server := (w.server.recv t msg).1
      up := Function.update w.up t rest
      down := World.post w.down (w.server.recv t msg).2 } s c ≤ tokens w s c := by
  have hreplies : (toSession (w.server.recv t msg).2 s).countP (isPending c) ≤
      if t = s ∧ isCreate c msg = true then 1 else 0 := by
    unfold Server.recv
    split
    · exact served_replies (Server.onMessage_served _ _ _) c
    · simp
  simp only [tokens, World.post, List.countP_append]
  by_cases hts : s = t
  · subst hts
    rw [Function.update_self, hup, List.countP_cons]
    simp only [true_and] at hreplies
    omega
  · rw [Function.update_of_ne hts]
    simp only [Ne.symm hts, false_and, if_false] at hreplies
    omega

theorem drop_tokens {t : Nat} (c : ConnId) :
    tokens { w with
      server := (w.server.onSessionError t).1
      down := World.post w.down (w.server.onSessionError t).2 } s c ≤ tokens w s c := by
  simp only [tokens, World.post, List.countP_append]
  rw [countP_sends_eq_zero]
  · simp
  · intro x hx
    obtain ⟨_, _, _, _, heq⟩ := (Server.onSessionError_spec w.server t).2.2.2 x hx
    rw [heq]
    rfl

theorem orderly_new (nodeId : Nat) (routes : List RouteEntry) (bestEffort : Bool) (n : Nat)
    (h : ∀ c, tokens w s c = 0) :
    Orderly w s n { nodeId := nodeId, routes := routes, bestEffort := bestEffort } := by
  refine ⟨Client.sound_new nodeId routes bestEffort, fun c => ?_,
    by simp [Client.nextId, Client.drawIdx], fun c _ _ => ⟨by simp, h c⟩⟩
  rw [h c]
  exact .idle (k := 0) (r := 0) rfl rfl

theorem step_orderly {n : Nat} (hhonest : Honest w) (hstep : w.step e = some w')
    (hserial : World.Each Serial w e) (hroom : n + [e].countP (isRegister s) + 1 < 2 ^ 32)
    (h : ∀ cl, w.client s = some cl → Orderly w s n cl) :
    ∀ cl, w'.client s = some cl → Orderly w' s (n + [e].countP (isRegister s)) cl := by
  intro cl₁ hcl₁
  have hn : n ≤ n + [e].countP (isRegister s) := Nat.le_add_right _ _
  cases World.step_cases hstep with
  | @boot t nodeId routes bestEffort _ _ hup hdown =>
    rcases World.update_client hcl₁ with ⟨rfl, rfl⟩ | ⟨hts, hcl₁⟩
    · exact orderly_new _ _ _ _ fun c => by simp [tokens, World.setClient, hup, hdown]
    · refine (h cl₁ hcl₁).mono hn fun c => ?_
      simp [tokens, World.setClient]
  | @connect t _ _ ip port cl hcl hlink =>
    rcases World.update_client hcl₁ with ⟨rfl, rfl⟩ | ⟨hts, hcl₁⟩
    · have hs : cl.step (.connected ip port) =
          some ({ cl with link := .server }, [.hello cl.nodeId ip port]) := if_pos hlink
      refine (h cl hcl).client_step hs trivial trivial (by simp) hn (by simp) hroom fun c => ?_
      simp only [tokens, World.setClient, Function.update_self, List.countP_append, replies]
      omega
    · refine (h cl₁ hcl₁).mono hn fun c => ?_
      simp [tokens, World.setClient, Function.update_of_ne hts]
  | @client t ev cl cl' sent hcl hlocal hs =>
    rcases World.update_client hcl₁ with ⟨rfl, rfl⟩ | ⟨hts, hcl₁⟩
    · have hnot : ∀ msg, ev ≠ .recv msg := by
        rintro msg rfl
        cases hlocal
      have hin : ∀ msg, ev = .recv msg → msg ∈ w.down s := fun msg hev => absurd hev (hnot msg)
      refine (h cl hcl).client_step hs (hhonest.offer hcl hin) (hserial cl hcl) hin hn ?_ hroom
        fun c => ?_
      · rintro ip port rfl
        simp [isRegister]
      · have hzero : replies c ev = 0 := by
          cases ev <;> first | rfl | exact absurd rfl (hnot _)
        simp only [tokens, World.setClient, Function.update_self, List.countP_append, hzero]
        omega
    · refine (h cl₁ hcl₁).mono hn fun c => ?_
      simp [tokens, World.setClient, Function.update_of_ne hts]
  | @deliver t msg rest cl cl' sent hcl hdown hs =>
    rcases World.update_client hcl₁ with ⟨rfl, rfl⟩ | ⟨hts, hcl₁⟩
    · have hin : ∀ msg', Node.MasterClient.Event.recv msg = .recv msg' → msg' ∈ w.down s := by
        rintro _ ⟨⟩
        simp [hdown]
      refine (h cl hcl).client_step hs (hhonest.offer hcl hin) ?_ hin hn (by simp) hroom
        fun c => ?_
      · exact hserial cl hcl msg (by simp [hdown])
      · simp only [tokens, World.setClient, Function.update_self, List.countP_append, hdown,
          List.countP_cons, replies]
        omega
    · refine (h cl₁ hcl₁).mono hn fun c => ?_
      simp [tokens, World.setClient, Function.update_of_ne hts]
  | @signal t connId next cl hcl =>
    refine (h cl₁ hcl₁).mono hn fun c => ?_
    by_cases hts : s = t
    · subst hts
      cases next <;> simp [tokens, isCreate]
    · simp [tokens, Function.update_of_ne hts]
  | @side t _ _ hello hnone =>
    refine (h cl₁ hcl₁).mono hn fun c => ?_
    have hts : s ≠ t := by
      rintro rfl
      rw [hnone] at hcl₁
      cases hcl₁
    simp [tokens, Function.update_of_ne hts]
  | serve hup => exact (h cl₁ hcl₁).mono hn (serve_tokens hup)
  | drop => exact (h cl₁ hcl₁).mono hn drop_tokens

theorem orderly_of_run (hrun : World.Run es w)
    (hserial : Along World.step (World.Each Serial) World.init es)
    (hcalls : calls s es < 2 ^ 32 - 1) (hcl : w.client s = some cl) :
    Orderly w s (calls s es) cl := by
  have key := exec_induction (motive := fun es w =>
      Along World.step (World.Each Serial) World.init es → calls s es < 2 ^ 32 - 1 →
        Honest w ∧ ∀ cl, w.client s = some cl → Orderly w s (calls s es) cl)
    (fun _ _ => ⟨Honest.init, by simp [World.init]⟩) ?_ hrun
  · exact (key hserial hcalls).2 cl hcl
  · intro es w e w' hes ih hstep hserial hcalls
    obtain ⟨hserial, hnow⟩ := along_snoc hserial hes
    rw [calls, List.countP_append] at hcalls
    obtain ⟨hhonest, hin⟩ := ih hserial (by rw [calls]; omega)
    refine ⟨hhonest.step hstep, ?_⟩
    rw [calls, List.countP_append]
    exact step_orderly hhonest hstep hnow (by omega) hin

/-- The queue and the map fit together in every state of every run in which the client of
`s` makes fewer than 2^32 - 1 registrations: the queue has no duplicates, what is queued has
an entry that nothing has been started for, what has been started is not queued, `PENDING`
reaches the connection, if it still has an entry, while it waits for it, and no assertion has
failed. -/
theorem rendezvous_queue_invariant (hrun : World.Run es w)
    (hserial : Along World.step (World.Each Serial) World.init es)
    (hcalls : calls s es < 2 ^ 32 - 1) (hcl : w.client s = some cl) :
    cl.rendezvousConnIds.Nodup ∧
      (∀ c ∈ cl.rendezvousConnIds, ∃ e, cl.connStates.find? c = some e ∧ e.started = false ∧
        e.keepalive = false ∧ e.proxySession = false) ∧
      (∀ c e, cl.connStates.find? c = some e →
        e.started = true ∨ e.keepalive = true ∨ e.proxySession = true →
          c ∉ cl.rendezvousConnIds) ∧
      (∀ c mode dstIp rest, w.down s = .connStatus c .pending mode dstIp :: rest →
        ∀ e, cl.connStates.find? c = some e → e.mode = none ∧ e.status = .pending) ∧
      cl.ok = true := by
  have h := orderly_of_run hrun hserial hcalls hcl
  have hwaiting : ∀ c ∈ cl.rendezvousConnIds, ∃ e, cl.connStates.find? c = some e ∧
      e.started = false ∧ e.keepalive = false ∧ e.proxySession = false := by
    intro c hc
    have hacc := h.sound.accounted c
    obtain ⟨e, he, hnot, hdone⟩ := hacc.waiting (Client.mem_queue_iff.mp hc)
    refine ⟨e, he, hnot, ?_, ?_⟩
    · by_contra hkeep
      exact hdone (hacc.held e he (Or.inl (by simpa using hkeep)))
    · by_contra hproxy
      exact hdone (hacc.held e he (Or.inr (by simpa using hproxy)))
  refine ⟨List.nodup_iff_count_le_one.mpr fun c => (h.sound.accounted c).once, hwaiting,
    fun c e he hany hc => ?_, fun c mode dstIp rest hdown => ?_, h.sound.ok⟩
  · obtain ⟨e', he', h₁, h₂, h₃⟩ := hwaiting c hc
    obtain rfl := Option.some.inj (he.symm.trans he')
    simp [h₁, h₂, h₃] at hany
  · have hmem : .connStatus c .pending mode dstIp ∈ w.down s := by simp [hdown]
    exact h.waits_of_mem hmem

/-- Two nodes, two registrations; the reply for the first is about to be read. -/
theorem rendezvous_queue_invariant_reply :
    ∃ w cl, World.Run [.boot 1 1 [{ nodeId := some 2 }] false, .boot 2 2 [] false,
        .connect 1 10 100 0 0, .connect 2 20 200 0 0, .serve 1, .serve 2,
        .client 1 (.registerConnection 7 80), .client 1 (.registerConnection 7 80), .serve 1] w ∧
      w.client 1 = some cl ∧ cl.rendezvousConnIds = [⟨1, 1⟩, ⟨1, 2⟩] ∧
      cl.rendezvousConnIds.Nodup ∧ cl.ok = true ∧
      w.down 1 = [.connStatus ⟨1, 1⟩ .pending .fast 20] ∧
      ∀ e, cl.connStates.find? ⟨1, 1⟩ = some e → e.mode = none ∧ e.status = .pending := by
  obtain ⟨w, hw, hstate, hdown⟩ : ∃ w, World.Run [.boot 1 1 [{ nodeId := some 2 }] false,
      .boot 2 2 [] false, .connect 1 10 100 0 0, .connect 2 20 200 0 0, .serve 1, .serve 2,
      .client 1 (.registerConnection 7 80), .client 1 (.registerConnection 7 80), .serve 1] w ∧
      ((w.client 1).map Client.rendezvousConnIds = some [⟨1, 1⟩, ⟨1, 2⟩] ∧
        w.down 1 = [.connStatus ⟨1, 1⟩ .pending .fast 20]) := exec_check (by decide +kernel)
  obtain ⟨cl, hcl, hqueue⟩ := Option.map_eq_some_iff.mp hstate
  obtain ⟨hnodup, _, _, hreply, hok⟩ :=
    rendezvous_queue_invariant (s := 1) hw (by decide +kernel) (by decide) hcl
  exact ⟨w, cl, hw, hcl, hqueue, hnodup, hok, hdown, hreply _ _ _ _ hdown⟩

end Network

end DTun.Net
