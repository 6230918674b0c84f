import DTun.Net.Requests

/-!
# Connection requests that reach their destination

While the server has an entry for a connection and its destination is connected, the
destination still has to see the `CONN` message, or has an entry made from it that is
pending, or has answered with `CONN_CLOSE`. This holds as long as a `CONN` that is read
finds no entry of an earlier connection with the same id (or the `CONN_CLOSE` of that one
is still on its way) and no proxy that is being started for one.

A node that comes back after a loss starts its ids again. When the other node still has an
entry from before, it drops the `CONN` without an answer.
-/

namespace DTun.Net

open DTun.Lib DTun.Lib.Runs DTun.Master DTun.Node.MasterClient

/-- The message offers the connection or reports on it. -/
def concerns (c : ConnId) : DownMsg → Bool
  | .conn c' _ _ _ _ _ _ => c' = c
  | .connStatus c' _ _ _ => c' = c
  | _ => false

/-- The `CONN` message of the entry with serial number `k`. -/
def isConn (c : ConnId) (k : Nat) : DownMsg → Bool
  | .conn c' _ _ _ _ _ k' => c' = c ∧ k' = k
  | _ => false

def isClose (c : ConnId) : UpMsg → Bool
  | .connClose c' _ => c' = c
  | _ => false

/-- Where the request with serial number `k` is, given the channels between the server and
the destination and the destination's entry. The `CONN` message is the last about the
connection until it is read, and nothing about it follows while the entry is pending. -/
inductive Tracked (down : List DownMsg) (up : List UpMsg) (entry : Option ConnState) (c : ConnId)
    (k : Nat) : Prop where
  | offered {m : DownMsg} (hlast : (down.filter (concerns c)).getLast? = some m)
      (hm : isConn c k m = true)
  | taken {e : ConnState} (hdown : down.filter (concerns c) = []) (he : entry = some e)
      (htag : e.tag = some k) (hstatus : e.status = .pending)
  | closing {m : UpMsg} (hmem : m ∈ up) (hm : isClose c m = true)

/-- Only the messages about the connection matter. -/
theorem Tracked.congr {down down' : List DownMsg} {up up' : List UpMsg} {entry : Option ConnState}
    {c : ConnId} {k : Nat} (h : Tracked down up entry c k)
    (hdown : down'.filter (concerns c) = down.filter (concerns c))
    (hup : ∀ m ∈ up, isClose c m = true → m ∈ up') : Tracked down' up' entry c k := by
  cases h with
  | offered hlast hm => exact .offered (hdown ▸ hlast) hm
  | taken hnil he htag hstatus => exact .taken (hdown.trans hnil) he htag hstatus
  | closing hmem hm => exact .closing (hup _ hmem hm) hm

section Client

variable {cl cl' : Client} {c : ConnId} {ev : Node.MasterClient.Event} {v v' : View}
  {sent out : List UpMsg} {down rest : List DownMsg} {up : List UpMsg} {k : Nat}

/-- A pending entry of an incoming connection stays as it is until `CONN_CLOSE` is sent. -/
theorem move_taken (hm : Move cl c ev v v' out) (hforeign : c.nodeId ≠ cl.nodeId)
    (hown : Owned (c.nodeId = cl.nodeId) v) (hacc : Accounted v)
    (hev : ∀ msg, ev = .recv msg → concerns c msg = false) {e : ConnState}
    (he : v.entry = some e) (htag : e.tag = some k) (hstatus : e.status = .pending) :
    (∃ e', v'.entry = some e' ∧ e'.tag = some k ∧ e'.status = .pending) ∨
      ∃ m ∈ out, isClose c m = true := by
  have hnot : ¬ e.Done := fun hd => by cases hstatus.symm.trans hd.1
  have hrecv : ∀ {msg}, ev = .recv msg → concerns c msg = true → False := by
    intro msg hev' hc
    rw [hev msg hev'] at hc
    cases hc
  have hsame : ∀ {e'}, v.entry = some e' → e' = e := fun he' =>
    Option.some.inj (he'.symm.trans he)
  cases hm with
  | other => exact Or.inl ⟨e, he, htag, hstatus⟩
  | dropped hnone => cases hnone.symm.trans he
  | registered hid => exact absurd (by rw [hid]; rfl) hforeign
  | closeMissed => exact Or.inl ⟨e, he, htag, hstatus⟩
  | closed hmine => exact absurd hmine hforeign
  | requested hnone => cases hnone.symm.trans he
  | replied => exact (hrecv rfl (by simp [concerns])).elim
  | reported => exact (hrecv rfl (by simp [concerns])).elim
  | refused => exact (hrecv rfl (by simp [concerns])).elim
  | succeeded he' =>
    obtain rfl := hsame he'
    exact Or.inr ⟨.connClose c true, by simp [hstatus], by simp [isClose]⟩
  | failed => exact Or.inr ⟨_, List.mem_singleton_self _, by simp [isClose]⟩
  | proxyDone he' hp =>
    rcases hp with hp | hp
    · exact absurd (hsame he' ▸ hacc.held _ he' (Or.inr hp)) hnot
    · exact absurd (hacc.tasks _ hp rfl e he) hnot
  | invoked => exact Or.inl ⟨e, he, htag, hstatus⟩
  | proxyStarted => exact Or.inl ⟨e, he, htag, hstatus⟩
  | proxyMissed hnone => cases hnone.symm.trans he
  | proxySet _ hts =>
    exact absurd (hacc.tasks _ (hts ▸ Multiset.mem_cons_self _ _) rfl e he) hnot
  | proxyFailed _ hts =>
    exact absurd (hacc.tasks _ (hts ▸ Multiset.mem_cons_self _ _) rfl e he) hnot
  | notCalled => exact Or.inl ⟨e, he, htag, hstatus⟩
  | returned => exact Or.inl ⟨e, he, htag, hstatus⟩
  | create he' _ hmode => exact absurd (hown.mode _ he' hmode) hforeign
  | started he' =>
    obtain rfl := hsame he'
    exact Or.inl ⟨_, rfl, htag, hstatus⟩
  | startFailed => exact Or.inr ⟨_, List.mem_singleton_self _, by simp [isClose]⟩

/-- An event of the destination that does not read a message about the connection. -/
theorem Tracked.client_step (h : Tracked down up (cl.connStates.find? c) c k)
    (hs : cl.step ev = some (cl', sent)) (hlink : cl.link = .server)
    (hforeign : c.nodeId ≠ cl.nodeId) (hown : Owned (c.nodeId = cl.nodeId) (cl.view c))
    (hacc : Accounted (cl.view c)) (hev : ∀ msg, ev = .recv msg → concerns c msg = false) :
    Tracked down (up ++ sent) (cl'.connStates.find? c) c k := by
  cases h with
  | offered hlast hm => exact .offered hlast hm
  | closing hmem hm => exact .closing (List.mem_append_left _ hmem) hm
  | taken hdown he htag hstatus =>
    obtain ⟨out, hmove, hout⟩ := Client.step_move hs c
    rcases move_taken hmove hforeign hown hacc hev he htag hstatus with
      ⟨e', he', htag', hstatus'⟩ | ⟨m, hmem, hm⟩
    · exact .taken hdown he' htag' hstatus'
    · rw [Client.wire, if_pos hlink] at hout
      rw [← hout] at hmem
      exact .closing (List.mem_append_right _ (List.mem_filter.mp hmem).1) hm

/-- The destination reads a message about the connection. -/
theorem Tracked.recv {msg : DownMsg} (h : Tracked (msg :: rest) up (cl.connStates.find? c) c k)
    (hs : cl.step (.recv msg) = some (cl', sent)) (hc : concerns c msg = true)
    (hok : isConn c k msg = true → (cl.connStates.find? c).isSome = true →
      ∃ m ∈ up, isClose c m = true) :
    Tracked rest (up ++ sent) (cl'.connStates.find? c) c k := by
  cases h with
  | closing hmem hm => exact .closing (List.mem_append_left _ hmem) hm
  | taken hdown =>
    rw [List.filter_cons_of_pos hc] at hdown
    cases hdown
  | offered hlast hm =>
    rw [List.filter_cons_of_pos hc] at hlast
    cases hrest : rest.filter (concerns c) with
    | cons m' rest' =>
      rw [hrest] at hlast
      refine .offered ?_ hm
      rwa [hrest, ← List.getLast?_cons_cons]
    | nil =>
      rw [hrest] at hlast
      obtain rfl := Option.some.inj hlast
      cases hfind : cl.connStates.find? c with
      | some e =>
        obtain ⟨m', hmem, hm'⟩ := hok hm (by rw [hfind]; rfl)
        exact .closing (List.mem_append_left _ hmem) hm'
      | none =>
        cases msg with
        | conn c' ip port mode srcIp b k' =>
          obtain ⟨rfl, rfl⟩ : c' = c ∧ k' = k := by simpa [isConn] using hm
          obtain ⟨_, heq⟩ := Option.ite_none_right_eq_some.mp hs
          simp only [Client.recv, Client.onRecvMsgConn, hfind, Client.spawn, Option.some.injEq,
            Prod.mk.injEq] at heq
          rw [← heq.1]
          exact .taken hrest (OrderedMap.find?_insert_self _) rfl rfl
        | _ => cases hm

end Client

section Server

variable {st st' : Server} {t : Nat} {msg : UpMsg} {sends : Sends} {c : ConnId} {conn : Conn}

theorem concerns_of_isSignal {m : DownMsg} (h : m.isSignal = true) : concerns c m = false := by
  cases m <;> simp_all [DownMsg.isSignal, concerns]

/-- After a message the entry of a connection is an old one, about which the destination is
sent nothing and which the destination has not asked to close, or a new one, and then the
destination is sent its `CONN`. A node does not ask for connections of other nodes. -/
theorem served_tracked (h : Server.Served st t msg st' sends)
    (hc : st'.conns.find? c = some conn)
    (hask : ∀ dst ip port b, msg = .connCreate c dst ip port b → t ≠ conn.dstSess) :
    (st.conns.find? c = some conn ∧ (toSession sends conn.dstSess).filter (concerns c) = [] ∧
      (t = conn.dstSess → isClose c msg = false)) ∨
    ∃ m, ((toSession sends conn.dstSess).filter (concerns c)).getLast? = some m ∧
      isConn c conn.serial m = true := by
  have hquiet : (∀ m, (conn.dstSess, m) ∈ sends → concerns c m = false) →
      (toSession sends conn.dstSess).filter (concerns c) = [] := by
    intro hall
    rw [List.filter_eq_nil_iff]
    intro m hm
    simp [hall m (mem_toSession.mp hm)]
  cases h with
  | greeted => exact Or.inl ⟨hc, by simp [toSession], fun _ => rfl⟩
  | replaced =>
    obtain ⟨hold, hkept⟩ := (OrderedMap.find?_filter_eq_some _ _).mp hc
    refine Or.inl ⟨hold, hquiet fun m hm => ?_, fun _ => rfl⟩
    obtain ⟨c', conn', mode, hc', hhas, _, hmsg⟩ := Server.mem_cancelSend hm
    simp only at hmsg
    subst hmsg
    by_contra hne
    obtain rfl : c' = c := by simpa [concerns] using hne
    obtain rfl := Option.some.inj (hc'.symm.trans hold)
    simp [hhas] at hkept
  | side hm _ hsends =>
    refine Or.inl ⟨hc, hquiet fun m hmem => concerns_of_isSignal (hsends _ hmem).1, fun _ => ?_⟩
    rcases hm with rfl | ⟨_, _, rfl⟩ | ⟨_, _, rfl⟩ <;> rfl
  | @refused connId _ _ _ code =>
    refine Or.inl ⟨hc, hquiet fun m hm => ?_, fun _ => rfl⟩
    simp only [List.mem_singleton, Prod.mk.injEq] at hm
    obtain ⟨hd, rfl⟩ := hm
    by_contra hne
    obtain rfl : connId = c := by simpa [concerns] using hne
    exact hask _ _ _ _ rfl hd.symm
  | @created connId d _ ip port b _ dstMode =>
    by_cases hcc : c = connId
    · subst hcc
      obtain rfl := Option.some.inj ((OrderedMap.find?_insert_self _).symm.trans hc)
      refine Or.inr ⟨.conn c ip port dstMode (st.session t).peerIp b st.created, ?_,
        by simp [isConn]⟩
      by_cases htd : t = d <;> simp [toSession, concerns, htd]
    · refine Or.inl ⟨(OrderedMap.find?_insert_of_ne _ hcc).symm.trans hc, hquiet fun m hm => ?_,
        fun _ => rfl⟩
      simp only [List.mem_cons, Prod.mk.injEq, List.not_mem_nil, or_false] at hm
      rcases hm with ⟨_, rfl⟩ | ⟨_, rfl⟩ <;> simpa [concerns] using Ne.symm hcc
  | @closed connId _ conn' peer _ hconn =>
    have hcc : c ≠ connId := by
      rintro rfl
      cases (OrderedMap.find?_erase_self _).symm.trans hc
    refine Or.inl ⟨(OrderedMap.find?_erase_of_ne _ hcc).symm.trans hc, hquiet fun m hm => ?_,
      fun _ => by simpa [isClose] using Ne.symm hcc⟩
    simp only [List.mem_singleton, Prod.mk.injEq] at hm
    obtain ⟨_, rfl⟩ := hm
    simpa [concerns] using Ne.symm hcc
  | @missed connId _ hmiss =>
    refine Or.inl ⟨hc, by simp [toSession], fun ht => ?_⟩
    by_contra hne
    obtain rfl : connId = c := by simpa [isClose] using hne
    simpa [Conn.has, ht] using hmiss conn hc
  | relayed hm hsends =>
    refine Or.inl ⟨hc, hquiet fun m hmem => concerns_of_isSignal (hsends _ hmem).1, fun _ => ?_⟩
    rcases hm with rfl | rfl <;> rfl

end Server

section Network

variable {w w' : World} {e : Event} {es : List Event} {s : Nat} {cl cl' : Client} {c : ConnId}
  {conn : Conn}

/-- A `CONN` that is read finds no entry with its id, unless the `CONN_CLOSE` of that one is
still on its way, and when it makes a new entry no proxy is being started for an old one. -/
def Vacant (up : List UpMsg) (cl : Client) : DownMsg → Prop
  | .conn c _ _ _ _ _ _ =>
    ((cl.connStates.find? c).isSome = true → ∃ m ∈ up, isClose c m = true) ∧
      (cl.connStates.find? c = none → ∀ t ∈ (cl.view c).tasks, t.isProxy = false)
  | _ => True

instance (up : List UpMsg) (cl : Client) : (msg : DownMsg) → Decidable (Vacant up cl msg)
  | .conn c _ _ _ _ _ _ =>
    inferInstanceAs (Decidable
      (((cl.connStates.find? c).isSome = true → ∃ m ∈ up, isClose c m = true) ∧
        (cl.connStates.find? c = none → ∀ t ∈ (cl.view c).tasks, t.isProxy = false)))
  | .connStatus .. | .probe .. | .fast .. | .symm .. | .ready .. | .next .. => isTrue trivial

def OffersVacant (w : World) : Event → Prop
  | .deliver s => ∀ cl ∈ w.client s, ∀ msg ∈ (w.down s).head?, Vacant (w.up s) cl msg
  | _ => True

instance (w : World) : (e : Event) → Decidable (OffersVacant w e)
  | .deliver s => inferInstanceAs
      (Decidable (∀ cl ∈ w.client s, ∀ msg ∈ (w.down s).head?, Vacant (w.up s) cl msg))
  | .boot .. | .connect .. | .client .. | .signal .. | .side .. | .serve .. | .drop .. =>
    isTrue trivial

/-- Every request of the server's is tracked while its destination is connected. -/
structure Covered (w : World) : Prop where
  honest : Honest w
  accounted : ∀ s cl, w.client s = some cl → ∀ c, c.nodeId ≠ cl.nodeId → Accounted (cl.view c)
  tracked : ∀ c conn cl, w.server.conns.find? c = some conn → w.client conn.dstSess = some cl →
    cl.link = .server →
      Tracked (w.down conn.dstSess) (w.up conn.dstSess) (cl.connStates.find? c) c conn.serial

theorem Covered.foreign (h : Covered w) (hc : w.server.conns.find? c = some conn)
    (hcl : w.client conn.dstSess = some cl) : c.nodeId ≠ cl.nodeId := by
  obtain ⟨cl', hcl', hne⟩ := h.honest.dst_client hc
  obtain rfl := Option.some.inj (hcl.symm.trans hcl')
  exact Ne.symm hne

/-- What a client reads in a step of its own, and what is left of its channel. -/
inductive Reads (w : World) (s : Nat) (cl : Client) : Node.MasterClient.Event →
    (Nat → List DownMsg) → Prop where
  | nothing {ev : Node.MasterClient.Event} (hev : ∀ msg, ev ≠ .recv msg) : Reads w s cl ev w.down
  | message {msg : DownMsg} {rest : List DownMsg} (hdown : w.down s = msg :: rest)
      (hvacant : Vacant (w.up s) cl msg) :
    Reads w s cl (.recv msg) (Function.update w.down s rest)

section Client

variable {ev : Node.MasterClient.Event} {down : Nat → List DownMsg} {sent : List UpMsg}

theorem Reads.reuseOk (h : Reads w s cl ev down) (hforeign : c.nodeId ≠ cl.nodeId) :
    ReuseOk cl c ev := by
  cases h with
  | nothing hev =>
    cases ev with
    | registerConnection => exact fun hid => absurd (by rw [← hid]; rfl) hforeign
    | recv msg => exact absurd rfl (hev msg)
    | _ => trivial
  | @message msg _ _ hvacant =>
    cases msg with
    | conn connId =>
      rintro rfl
      exact hvacant.2
    | _ => trivial

theorem Reads.tracked {k : Nat} (h : Reads w s cl ev down)
    (ht : Tracked (w.down s) (w.up s) (cl.connStates.find? c) c k)
    (hs : cl.step ev = some (cl', sent)) (hlink : cl.link = .server)
    (hforeign : c.nodeId ≠ cl.nodeId) (hown : Owned (c.nodeId = cl.nodeId) (cl.view c))
    (hacc : Accounted (cl.view c)) :
    Tracked (down s) (w.up s ++ sent) (cl'.connStates.find? c) c k := by
  cases h with
  | nothing hev => exact ht.client_step hs hlink hforeign hown hacc fun msg h => absurd h (hev msg)
  | @message msg rest hdown hvacant =>
    rw [Function.update_self]
    rw [hdown] at ht
    cases hc : concerns c msg with
    | true =>
      refine ht.recv hs hc fun hm hsome => ?_
      cases msg with
      | conn connId _ _ _ _ _ k' =>
        obtain ⟨rfl, rfl⟩ : connId = c ∧ k' = k := by simpa [isConn] using hm
        exact hvacant.1 hsome
      | _ => cases hm
    | false =>
      have hsame : rest.filter (concerns c) = (msg :: rest).filter (concerns c) := by
        simp [hc]
      refine (ht.congr hsame fun _ h _ => h).client_step hs hlink hforeign hown hacc ?_
      rintro _ ⟨⟩
      exact hc

theorem Covered.client_step (h : Covered w) (hcl : w.client s = some cl)
    (hs : cl.step ev = some (cl', sent)) (hne : ∀ ip port, ev ≠ .connected ip port)
    (hreads : Reads w s cl ev down)
    (hhonest : Honest { w.setClient s cl' sent with down := down }) :
    Covered { w.setClient s cl' sent with down := down } := by
  have hother : ∀ t, t ≠ s → down t = w.down t := by
    intro t hts
    cases hreads with
    | nothing => rfl
    | message => exact Function.update_of_ne hts _ _
  refine ⟨hhonest, fun t cl₁ ht c hforeign => ?_, fun c conn cl₁ hc hd hlink => ?_⟩
  · rcases World.update_client ht with ⟨rfl, rfl⟩ | ⟨hts, ht⟩
    · rw [(Client.step_config hs).1] at hforeign
      obtain ⟨out, hmove, _⟩ := Client.step_move hs c
      exact hmove.accounted rfl (hreads.reuseOk hforeign) (h.honest.owned t cl hcl c)
        (h.accounted t cl hcl c hforeign)
    · exact h.accounted t cl₁ ht c hforeign
  · have hforeign : ∀ cl, w.client conn.dstSess = some cl → c.nodeId ≠ cl.nodeId :=
      fun _ => h.foreign hc
    have htracked := fun cl => h.tracked c conn cl hc
    generalize conn.dstSess = d at hd hforeign htracked ⊢
    by_cases hds : d = s
    · subst hds
      simp only [World.setClient, Function.update_self, Option.some.injEq] at hd ⊢
      subst hd
      have hlink' : cl.link = .server := by
        rcases Client.step_link hs hne with heq | ⟨_, heq⟩ | ⟨_, heq⟩
        · exact heq.symm.trans hlink
        · cases heq.symm.trans hlink
        · cases heq.symm.trans hlink
      exact hreads.tracked (htracked cl hcl hlink') hs hlink' (hforeign cl hcl)
        (h.honest.owned d cl hcl c) (h.accounted d cl hcl c (hforeign cl hcl))
    · simp only [World.setClient, Function.update_of_ne hds, hother d hds] at hd ⊢
      exact htracked cl₁ hd hlink

end Client

theorem filter_post {sends : Sends} {p : DownMsg → Bool} (t : Nat) :
    (World.post w.down sends t).filter p = (w.down t).filter p ++ (toSession sends t).filter p :=
  List.filter_append _ _

/-- The destination of a connection is a session that the server has. -/
theorem dst_alive {st : Server} (hc : st.conns.find? c = some conn) :
    st.alive conn.dstSess = true :=
  Server.alive_iff.mpr (Or.inr ⟨c, conn, hc, by simp [Conn.has]⟩)

/-- A message that the server reads. -/
theorem Covered.serve (h : Covered w) {msg : UpMsg} {rest : List UpMsg} (hup : w.up s = msg :: rest)
    (hhonest : Honest { w with
      server := (w.server.recv s msg).1
      up := Function.update w.up s rest
      down := World.post w.down (w.server.recv s msg).2 }) :
    Covered { w with
      server := (w.server.recv s msg).1
      up := Function.update w.up s rest
      down := World.post w.down (w.server.recv s msg).2 } := by
  refine ⟨hhonest, h.accounted, fun c conn cl hc hcl hlink => ?_⟩
  have hkeep : (conn.dstSess = s → isClose c msg = false) → ∀ m ∈ w.up conn.dstSess,
      isClose c m = true → m ∈ Function.update w.up s rest conn.dstSess := by
    intro hnot m hm hclose
    by_cases hds : conn.dstSess = s
    · rw [hds, Function.update_self]
      rw [hds, hup] at hm
      refine (List.mem_cons.mp hm).resolve_left ?_
      rintro rfl
      rw [hnot hds] at hclose
      cases hclose
    · rwa [Function.update_of_ne hds]
  by_cases halive : w.server.alive s = true
  · -- a node does not ask for a connection of another node
    have hask : ∀ dst ip port b, msg = .connCreate c dst ip port b → s ≠ conn.dstSess := by
      rintro dst ip port b rfl rfl
      obtain ⟨cl', hcl', hne⟩ := hhonest.dst_client hc
      rcases h.honest.sender halive hup with
        ⟨cl₁, hcl₁, _, _, hmine, _⟩ | ⟨_, _, _, _, _, hm, _⟩ | ⟨_, _, ⟨hello, hm⟩, _⟩
      · obtain rfl := Option.some.inj (hcl₁.symm.trans hcl')
        exact hne hmine.symm
      · cases hm
      · cases hello <;> cases hm
    rw [show w.server.recv s msg = w.server.onMessage s msg from if_pos halive] at hc ⊢
    rcases served_tracked (Server.onMessage_served _ _ _) hc hask with
      ⟨hold, hnil, hnot⟩ | ⟨m, hlast, hm⟩
    · refine (h.tracked c conn cl hold hcl hlink).congr ?_ (hkeep fun hd => hnot hd.symm)
      rw [filter_post, hnil, List.append_nil]
    · refine .offered ?_ hm
      rw [filter_post, List.getLast?_append, hlast]
      rfl
  · rw [show w.server.recv s msg = (w.server, []) from if_neg halive] at hc ⊢
    refine (h.tracked c conn cl hc hcl hlink).congr ?_ (hkeep ?_)
    · simp [World.post]
    · rintro rfl
      exact absurd (dst_alive hc) halive

theorem Covered.drop (h : Covered w)
    (hhonest : Honest { w with
      server := (w.server.onSessionError s).1
      down := World.post w.down (w.server.onSessionError s).2 }) :
    Covered { w with
      server := (w.server.onSessionError s).1
      down := World.post w.down (w.server.onSessionError s).2 } := by
  refine ⟨hhonest, h.accounted, fun c conn cl hc hcl hlink => ?_⟩
  obtain ⟨_, _, hsub, hsends⟩ := Server.onSessionError_spec w.server s
  refine (h.tracked c conn cl (hsub c conn hc) hcl hlink).congr ?_ fun _ hm _ => hm
  have hnil : (toSession (w.server.onSessionError s).2 conn.dstSess).filter (concerns c) = [] := by
    rw [List.filter_eq_nil_iff]
    intro m hm hcon
    obtain ⟨_, c', mode, hnone, hmsg⟩ := hsends _ (mem_toSession.mp hm)
    simp only at hmsg
    subst hmsg
    obtain rfl : c' = c := by simpa [concerns] using hcon
    cases hnone.symm.trans hc
  rw [filter_post, hnil, List.append_nil]

theorem Covered.step (h : Covered w) (hstep : w.step e = some w') (hok : OffersVacant w e) :
    Covered w' := by
  have hhonest := h.honest.step hstep
  cases World.step_cases hstep with
  | @boot t nodeId routes bestEffort =>
    refine ⟨hhonest, fun s cl' ht c hforeign => ?_, fun c conn cl' hc hcl' hl => ?_⟩
    · rcases World.update_client ht with ⟨rfl, rfl⟩ | ⟨hts, ht⟩
      · exact (Client.sound_new nodeId routes bestEffort).accounted c
      · exact h.accounted s cl' ht c hforeign
    · by_cases hds : conn.dstSess = t
      · subst hds
        simp only [World.setClient, Function.update_self, Option.some.injEq] at hcl'
        subst hcl'
        cases hl
      · simp only [World.setClient, Function.update_of_ne hds] at hcl' ⊢
        exact h.tracked c conn cl' hc hcl' hl
  | @connect t _ _ ip port cl hcl hlink hdead =>
    refine ⟨hhonest, fun s cl' ht c hforeign => ?_, fun c conn cl' hc hcl' hl => ?_⟩
    · rcases World.update_client ht with ⟨rfl, rfl⟩ | ⟨hts, ht⟩
      · exact h.accounted s cl hcl c hforeign
      · exact h.accounted s cl' ht c hforeign
    · have hold : w.server.conns.find? c = some conn := hc
      have hds : conn.dstSess ≠ t := by
        rintro rfl
        exact absurd (dst_alive hold) (by simp [hdead])
      simp only [World.setClient, Function.update_of_ne hds] at hcl' ⊢
      exact h.tracked c conn cl' hc hcl' hl
  | @client t ev cl cl' sent hcl hlocal hs =>
    have hev : ∀ msg, ev ≠ .recv msg := by
      rintro msg rfl
      cases hlocal
    refine h.client_step hcl hs ?_ (.nothing hev) hhonest
    rintro ip port rfl
    cases hlocal
  | @deliver t msg rest cl cl' sent hcl hdown hs =>
    exact h.client_step hcl hs (by simp) (.message hdown (hok cl hcl msg (by simp [hdown]))) hhonest
  | @signal t connId next cl hcl =>
    refine ⟨hhonest, h.accounted, fun c conn cl' hc hcl' hl => ?_⟩
    refine (h.tracked c conn cl' hc hcl' hl).congr rfl fun m hm _ => ?_
    by_cases hds : conn.dstSess = t
    · subst hds
      simp only [Function.update_self]
      exact List.mem_append_left _ hm
    · simpa only [Function.update_of_ne hds] using hm
  | @side t _ _ hello hnone =>
    refine ⟨hhonest, h.accounted, fun c conn cl' hc hcl' hl => ?_⟩
    have hds : conn.dstSess ≠ t := by
      rintro rfl
      cases hnone.symm.trans hcl'
    simp only [Function.update_of_ne hds]
    exact h.tracked c conn cl' hc hcl' hl
  | serve hup => exact h.serve hup hhonest
  | drop => exact h.drop hhonest

/-- The request with entry `conn` is on its way to the destination, or the destination has
the entry made from it, or the destination has asked to close it. -/
def Attended (w : World) (cl : Client) (c : ConnId) (conn : Conn) : Prop :=
  (∃ m ∈ w.down conn.dstSess, isConn c conn.serial m = true) ∨
    (∃ e, cl.connStates.find? c = some e ∧ e.tag = some conn.serial ∧
      (e.status = .pending ∨ ∃ m ∈ w.up conn.dstSess, isClose c m = true)) ∨
    ∃ m ∈ w.up conn.dstSess, isClose c m = true

/-- In every run of a server and any number of honest nodes in which every `CONN` that is read
finds its id vacant: no request whose destination is connected is orphaned. -/
theorem no_orphaned_request (hrun : World.Run es w)
    (hok : Along World.step OffersVacant World.init es) :
    ∀ c conn cl, w.server.conns.find? c = some conn → conn.dstSess ∈ w.server.sessions →
      w.client conn.dstSess = some cl → cl.link = .server → Attended w cl c conn := by
  have hcovered : Covered w := by
    refine exec_invariant_along (I := Covered) (fun _ _ _ h hv hs => h.step hs hv)
      ⟨Honest.init, by simp [World.init], ?_⟩ hok hrun
    intro c conn cl hc
    cases hc
  intro c conn cl hc _ hcl hlink
  cases hcovered.tracked c conn cl hc hcl hlink with
  | @offered m hlast hm =>
    exact Or.inl ⟨m, (List.mem_filter.mp (List.mem_of_getLast? hlast)).1, hm⟩
  | taken _ he htag hstatus => exact Or.inr (Or.inl ⟨_, he, htag, Or.inl hstatus⟩)
  | closing hmem hm => exact Or.inr (Or.inr ⟨_, hmem, hm⟩)

/-- Node 1 asks for a connection to node 2, and node 2 reads the request. -/
def request : List Event :=
  [.boot 1 1 [{ nodeId := some 2 }] false, .boot 2 2 [] false, .connect 1 10 100 0 0,
    .connect 2 20 200 0 0, .serve 1, .serve 2, .client 1 (.registerConnection 7 80), .serve 1,
    .deliver 2]

theorem no_orphaned_request_pending :
    ∃ w cl conn, World.Run request w ∧ w.server.conns.find? ⟨1, 1⟩ = some conn ∧
      w.client conn.dstSess = some cl ∧ Attended w cl ⟨1, 1⟩ conn := by
  obtain ⟨w, hw, hc, hlive, hstate⟩ : ∃ w, World.Run request w ∧
      (w.server.conns.find? ⟨1, 1⟩ = some ⟨1, 2, .fast, .fast, 0⟩ ∧ 2 ∈ w.server.sessions ∧
        (w.client 2).map Client.link = some .server) := exec_check (by decide +kernel)
  obtain ⟨cl, hcl, hlink⟩ := Option.map_eq_some_iff.mp hstate
  exact ⟨w, cl, _, hw, hc, hcl,
    no_orphaned_request hw (by decide +kernel) _ _ cl hc hlive hcl hlink⟩

/-- Node 2's side succeeds and its proxy runs, and the server forgets the connection. Node 1
comes back with a new session and fresh ids, and asks for a connection again. -/
def comeback : List Event :=
  request ++ [.client 2 (.run 0 true true), .client 2 (.run 0 true true),
    .client 2 (.rendezvous ⟨1, 1⟩ 0 true), .client 2 (.run 0 true true),
    .client 2 (.run 0 true true), .client 2 (.run 0 true true), .serve 2, .drop 1,
    .boot 3 1 [{ nodeId := some 2 }] false, .connect 3 10 100 0 0, .serve 3,
    .client 3 (.registerConnection 7 80), .serve 3, .deliver 2]

/-- Node 2 still has the entry of the first connection and drops the second request: the
server keeps an entry that nobody will answer. -/
theorem stale_entry_orphans :
    ∃ w cl conn, World.Run comeback w ∧ w.server.conns.find? ⟨1, 1⟩ = some conn ∧
      conn.dstSess ∈ w.server.sessions ∧ w.client conn.dstSess = some cl ∧
      cl.link = .server ∧ ¬ Attended w cl ⟨1, 1⟩ conn := by
  obtain ⟨w, hw, hc, hlive, hdown, hup, hstate⟩ : ∃ w, World.Run comeback w ∧
      (w.server.conns.find? ⟨1, 1⟩ = some ⟨3, 2, .fast, .fast, 1⟩ ∧ 2 ∈ w.server.sessions ∧
        w.down 2 = [] ∧ w.up 2 = [] ∧ (w.client 2).map (fun cl =>
          (cl.link, (cl.connStates.find? ⟨1, 1⟩).map ConnState.tag)) =
            some (.server, some (some 0))) := exec_check (by decide +kernel)
  obtain ⟨cl, hcl, hfields⟩ := Option.map_eq_some_iff.mp hstate
  simp only [Prod.mk.injEq] at hfields
  obtain ⟨hlink, htag⟩ := hfields
  obtain ⟨e₀, he₀, htag₀⟩ := Option.map_eq_some_iff.mp htag
  refine ⟨w, cl, _, hw, hc, hlive, hcl, hlink, ?_⟩
  rintro (⟨m, hm, _⟩ | ⟨e, he, htag', _⟩ | ⟨m, hm, _⟩)
  · simp [hdown] at hm
  · obtain rfl := Option.some.inj (he₀.symm.trans he)
    rw [htag₀] at htag'
    cases htag'
  · simp [hup] at hm

end Network

end DTun.Net
