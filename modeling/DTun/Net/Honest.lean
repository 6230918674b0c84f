import DTun.Net.World
import DTun.Node.MasterClient.Queue

/-!
# What the server knows about honest nodes

Since a client says `HELLO` first and uses only ids of its own, the server's record of a
client's session is right whenever it matters: the endpoints of every connection are
persistent sessions of the two nodes, and the server offers a node only connections of
others and reports `PENDING` only to the node that has asked. The rest of the development
about the network builds on this invariant.
-/

namespace DTun.Net

open DTun.Lib DTun.Lib.Runs DTun.Master DTun.Node.MasterClient

/-- What a client of node `nodeId` sends after `HELLO`. -/
def Ordinary (nodeId : Nat) : UpMsg → Prop
  | .connCreate connId _ _ _ _ => connId.nodeId = nodeId
  | .connClose _ _ => True
  | .ready _ => True
  | .next _ => True
  | _ => False

/-- What the server sends to a node. -/
def Addressed (nodeId : Nat) : DownMsg → Prop
  | .conn connId _ _ _ _ _ _ => connId.nodeId ≠ nodeId
  | .connStatus connId .pending _ _ => connId.nodeId = nodeId
  | _ => True

/-- The server has nothing of the client's session, or it has not read the client's
`HELLO`, or it knows which node it is. -/
inductive Known (w : World) (s : Nat) (cl : Client) : Prop where
  | absent (hdead : w.server.alive s = false)
  | greeting {ip port : Nat} {rest : List UpMsg} (hup : w.up s = .hello cl.nodeId ip port :: rest)
      (hrest : ∀ m ∈ rest, Ordinary cl.nodeId m)
      (htype : (w.server.session s).type ≠ .persistent)
  | known (htype : (w.server.session s).type = .persistent)
      (hnode : (w.server.session s).nodeId = cl.nodeId)
      (hup : ∀ m ∈ w.up s, Ordinary cl.nodeId m)

/-- The endpoints of a connection are known, and the source is the node of the id. -/
def ConnOk (st : Server) (c : ConnId) (conn : Conn) : Prop :=
  ((st.session conn.srcSess).type = .persistent ∧ (st.session conn.srcSess).nodeId = c.nodeId) ∧
    (st.session conn.dstSess).type = .persistent ∧ (st.session conn.dstSess).nodeId ≠ c.nodeId

structure Honest (w : World) : Prop where
  known : ∀ s cl, w.client s = some cl → Known w s cl
  waiting : ∀ s cl, w.client s = some cl → cl.link = .idle ∨ cl.link = .probe →
    w.server.alive s = false ∧ w.up s = [] ∧ w.down s = []
  side : ∀ s, w.client s = none →
    (w.server.session s).type ≠ .persistent ∧ ∀ m ∈ w.up s, ∃ hello : SideHello, m = hello.msg
  conns : ∀ c conn, w.server.conns.find? c = some conn → ConnOk w.server c conn
  down : ∀ s cl, w.client s = some cl → ∀ m ∈ w.down s, Addressed cl.nodeId m
  owned : ∀ s cl, w.client s = some cl → ∀ c, Owned (c.nodeId = cl.nodeId) (cl.view c)

/-- What is known about a session that a step does not touch. -/
theorem Known.congr {w w' : World} {s : Nat} {cl : Client} (h : Known w s cl)
    (hsession : w'.server.session s = w.server.session s)
    (halive : w'.server.alive s = true → w.server.alive s = true) (hup : w'.up s = w.up s) :
    Known w' s cl := by
  cases h with
  | absent hdead =>
    refine .absent ?_
    by_contra hne
    rw [halive (by simpa using hne)] at hdead
    cases hdead
  | greeting hgreet hrest htype => exact .greeting (hup.trans hgreet) hrest (hsession ▸ htype)
  | known htype hid hall => exact .known (hsession ▸ htype) (hsession ▸ hid) (hup ▸ hall)

/-- Ordinary messages after `HELLO` change nothing. -/
theorem Known.append {w w' : World} {s : Nat} {cl cl' : Client} {msgs : List UpMsg}
    (h : Known w s cl) (hserver : w'.server = w.server) (hup : w'.up s = w.up s ++ msgs)
    (hmsgs : ∀ m ∈ msgs, Ordinary cl.nodeId m) (hnode : cl'.nodeId = cl.nodeId) :
    Known w' s cl' := by
  cases h with
  | absent hdead => exact .absent (hserver ▸ hdead)
  | @greeting ip port rest hgreet hrest htype =>
    have hgreet' : w'.up s = .hello cl'.nodeId ip port :: (rest ++ msgs) := by
      rw [hup, hgreet, hnode]
      rfl
    refine .greeting hgreet' ?_ (hserver ▸ htype)
    · rw [hnode]
      exact fun m hm => (List.mem_append.mp hm).elim (hrest m) (hmsgs m)
  | known htype hid hall =>
    refine .known (hserver ▸ htype) ((hserver ▸ hid).trans hnode.symm) ?_
    rw [hup, hnode]
    exact fun m hm => (List.mem_append.mp hm).elim (hall m) (hmsgs m)

namespace Honest

variable {w w' : World} {e : Event} {s : Nat} {cl : Client}

/-- A persistent session that the server still has is that of a client whose node it
knows. -/
theorem persistent (h : Honest w) (halive : w.server.alive s = true)
    (htype : (w.server.session s).type = .persistent) :
    ∃ cl, w.client s = some cl ∧ (w.server.session s).nodeId = cl.nodeId := by
  cases hcl : w.client s with
  | none => exact absurd htype (h.side s hcl).1
  | some cl =>
    refine ⟨cl, rfl, ?_⟩
    cases h.known s cl hcl with
    | absent hdead =>
      rw [hdead] at halive
      cases halive
    | greeting _ _ hne => exact absurd htype hne
    | known _ hnode => exact hnode

theorem dst_client (h : Honest w) {c : ConnId} {conn : Conn}
    (hc : w.server.conns.find? c = some conn) :
    ∃ cl, w.client conn.dstSess = some cl ∧ cl.nodeId ≠ c.nodeId := by
  obtain ⟨_, htype, hnode⟩ := h.conns c conn hc
  have halive : w.server.alive conn.dstSess = true :=
    Server.alive_iff.mpr (Or.inr ⟨c, conn, hc, by simp [Conn.has]⟩)
  obtain ⟨cl, hcl, hn⟩ := h.persistent halive htype
  exact ⟨cl, hcl, hn ▸ hnode⟩

theorem init : Honest World.init where
  known := by simp [World.init]
  waiting := by simp [World.init]
  side := by simp [World.init, Server.init]
  conns := by simp [World.init, Server.init]
  down := by simp [World.init]
  owned := by simp [World.init]

/-- A client's messages are ordinary. -/
theorem sent_ordinary (h : Honest w) (hcl : w.client s = some cl)
    {ev : Node.MasterClient.Event} {cl' : Client} {sent : List UpMsg}
    (hstep : cl.step ev = some (cl', sent)) (hne : ∀ ip port, ev ≠ .connected ip port) :
    ∀ m ∈ sent, Ordinary cl.nodeId m := by
  intro m hm
  rcases (Client.step_sent hstep hne).2 m hm with ⟨c, dst, ip, port, b, rfl⟩ | ⟨c, est, rfl⟩
  · obtain ⟨out, hmove, hout⟩ := Client.step_move hstep c
    have hmem : .connCreate c dst ip port b ∈ cl.wire out := by
      rw [← hout]
      exact List.mem_filter.mpr ⟨hm, by simp [about]⟩
    have hout' : .connCreate c dst ip port b ∈ out := by
      unfold Client.wire at hmem
      split at hmem
      · exact hmem
      · cases hmem
    exact hmove.create_own (h.owned s cl hcl c) hout'
  · trivial

/-- An event of a client, whether it reads a message or not. -/
theorem client_step (h : Honest w) (hcl : w.client s = some cl)
    {ev : Node.MasterClient.Event} {cl' : Client} {sent : List UpMsg}
    {down : Nat → List DownMsg} (hdown : ∀ t, ∀ m ∈ down t, m ∈ w.down t)
    (hstep : cl.step ev = some (cl', sent)) (hne : ∀ ip port, ev ≠ .connected ip port)
    (hoffer : OfferOk cl ev) : Honest { w.setClient s cl' sent with down := down } := by
  obtain ⟨hnode, _⟩ := Client.step_config hstep
  have hordinary := h.sent_ordinary hcl hstep hne
  have hup : ∀ t, t ≠ s → (w.setClient s cl' sent).up t = w.up t :=
    fun t hts => Function.update_of_ne hts _ _
  have hups : (w.setClient s cl' sent).up s = w.up s ++ sent := Function.update_self _ _ _
  refine ⟨?_, ?_, ?_, h.conns, ?_, ?_⟩
  · intro t cl₁ ht
    rcases World.update_client ht with ⟨rfl, rfl⟩ | ⟨hts, ht⟩
    · exact (h.known t cl hcl).append rfl hups hordinary hnode
    · exact (h.known t cl₁ ht).congr rfl id (hup t hts)
  · intro t cl₁ ht hlink
    rcases World.update_client ht with ⟨rfl, rfl⟩ | ⟨hts, ht⟩
    · have hbefore : cl.link = .idle ∨ cl.link = .probe := by
        rcases Client.step_link hstep hne with heq | ⟨hidle, _⟩ | ⟨_, hlost⟩
        · rwa [heq] at hlink
        · exact Or.inl hidle
        · simp [hlost] at hlink
      obtain ⟨hdead, hnil, hdnil⟩ := h.waiting t cl hcl hbefore
      have hsent : sent = [] :=
        (Client.step_sent hstep hne).1 (by rcases hbefore with h | h <;> simp [h])
      refine ⟨hdead, ?_, ?_⟩
      · exact hups.trans (by simp [hnil, hsent])
      · exact List.eq_nil_iff_forall_not_mem.mpr fun m hm => by simpa [hdnil] using hdown t m hm
    · obtain ⟨hdead, hnil, hdnil⟩ := h.waiting t cl₁ ht hlink
      refine ⟨hdead, (hup t hts).trans hnil, ?_⟩
      exact List.eq_nil_iff_forall_not_mem.mpr fun m hm => by simpa [hdnil] using hdown t m hm
  · intro t ht
    have hts : t ≠ s := by
      rintro rfl
      simp [World.setClient] at ht
    have hnone : w.client t = none := by simpa [World.setClient, Function.update_of_ne hts] using ht
    refine ⟨(h.side t hnone).1, ?_⟩
    simpa [hup t hts] using (h.side t hnone).2
  · intro t cl₁ ht m hm
    rcases World.update_client ht with ⟨rfl, rfl⟩ | ⟨_, ht⟩
    · rw [hnode]
      exact h.down t cl hcl m (hdown t m hm)
    · exact h.down t cl₁ ht m (hdown t m hm)
  · intro t cl₁ ht c
    rcases World.update_client ht with ⟨rfl, rfl⟩ | ⟨_, ht⟩
    · obtain ⟨out, hmove, _⟩ := Client.step_move hstep c
      rw [hnode]
      exact hmove.owned hoffer (h.owned t cl hcl c)
    · exact h.owned t cl₁ ht c

theorem boot (h : Honest w) {nodeId : Nat} {routes : List RouteEntry} {bestEffort : Bool}
    (hdead : w.server.alive s = false) (hup : w.up s = []) (hdown : w.down s = []) :
    Honest (w.setClient s { nodeId := nodeId, routes := routes, bestEffort := bestEffort } []) := by
  have hups : ∀ t, (Function.update w.up s (w.up s ++ [])) t = w.up t := by
    intro t
    rw [List.append_nil, Function.update_eq_self]
  refine ⟨?_, ?_, ?_, h.conns, ?_, ?_⟩
  · intro t cl ht
    by_cases hts : t = s
    · exact .absent (hts ▸ hdead)
    · simp only [World.setClient, Function.update_of_ne hts] at ht
      exact (h.known t cl ht).congr rfl id (hups t)
  · intro t cl ht hlink
    by_cases hts : t = s
    · subst hts
      exact ⟨hdead, (hups t).trans hup, hdown⟩
    · simp only [World.setClient, Function.update_of_ne hts] at ht
      obtain ⟨hd, hu, hdn⟩ := h.waiting t cl ht hlink
      exact ⟨hd, (hups t).trans hu, hdn⟩
  · intro t ht
    have hts : t ≠ s := by
      rintro rfl
      simp [World.setClient] at ht
    simp only [World.setClient, Function.update_of_ne hts] at ht
    exact ⟨(h.side t ht).1, by simpa [World.setClient, hups t] using (h.side t ht).2⟩
  · intro t cl ht m hm
    by_cases hts : t = s
    · subst hts
      simp [World.setClient, hdown] at hm
    · simp only [World.setClient, Function.update_of_ne hts] at ht
      exact h.down t cl ht m hm
  · intro t cl ht c
    rcases World.update_client ht with ⟨rfl, rfl⟩ | ⟨hts, ht⟩
    · exact ⟨by simp [Client.view], by simp [Client.view], by simp [Client.view],
        by simp [Client.view, Client.pending]⟩
    · exact h.owned t cl ht c

/-- A new session leaves the connections as they are: it is an endpoint of none. -/
theorem accept_conns (h : Honest w) {peerIp peerPort : Nat} (hdead : w.server.alive s = false) :
    ∀ c conn, (w.server.onAccept s peerIp peerPort).conns.find? c = some conn →
      ConnOk (w.server.onAccept s peerIp peerPort) c conn := by
  intro c conn hc
  have hne : ∀ t, conn.has t = true → t ≠ s := by
    rintro t hhas rfl
    have halive : w.server.alive t = true := Server.alive_iff.mpr (Or.inr ⟨c, conn, hc, hhas⟩)
    rw [hdead] at halive
    cases halive
  have hconn := h.conns c conn hc
  unfold ConnOk at hconn ⊢
  rwa [Server.onAccept_session_of_ne (hne _ (by simp [Conn.has])),
    Server.onAccept_session_of_ne (hne _ (by simp [Conn.has]))]

theorem accept_known (h : Honest w) {peerIp peerPort t : Nat} {cl : Client}
    (ht : w.client t = some cl) (hts : t ≠ s) (hup : w'.up t = w.up t)
    (hserver : w'.server = w.server.onAccept s peerIp peerPort) : Known w' t cl := by
  refine (h.known t cl ht).congr ?_ ?_ hup
  · rw [hserver, Server.onAccept_session_of_ne hts]
  · rw [hserver]
    exact fun halive => (Server.onAccept_alive halive).resolve_left hts

theorem accept_waiting (h : Honest w) {peerIp peerPort t : Nat} {cl : Client}
    (ht : w.client t = some cl) (hlink : cl.link = .idle ∨ cl.link = .probe) (hts : t ≠ s) :
    (w.server.onAccept s peerIp peerPort).alive t = false := by
  by_contra hne
  have halive := (Server.onAccept_alive (by simpa using hne)).resolve_left hts
  rw [(h.waiting t cl ht hlink).1] at halive
  cases halive

theorem connect (h : Honest w) {peerIp peerPort probedIp probedPort : Nat}
    (hcl : w.client s = some cl) (hlink : cl.link = .idle ∨ cl.link = .probe)
    (hdead : w.server.alive s = false) :
    Honest { w.setClient s { cl with link := .server } [.hello cl.nodeId probedIp probedPort] with
      server := w.server.onAccept s peerIp peerPort } := by
  obtain ⟨_, hnil, hdnil⟩ := h.waiting s cl hcl hlink
  refine ⟨?_, ?_, ?_, h.accept_conns hdead, ?_, ?_⟩
  · intro t cl₁ ht
    rcases World.update_client ht with ⟨rfl, rfl⟩ | ⟨hts, ht⟩
    · refine @Known.greeting _ _ _ probedIp probedPort [] ?_ (by simp) ?_
      · simp [World.setClient, hnil]
      · simp [Server.onAccept, Server.setSession]
    · exact h.accept_known ht hts (by simp [World.setClient, Function.update_of_ne hts]) rfl
  · intro t cl₁ ht hl
    have hts : t ≠ s := by
      rintro rfl
      simp only [World.setClient, Function.update_self, Option.some.injEq] at ht
      subst ht
      simp at hl
    simp only [World.setClient, Function.update_of_ne hts] at ht
    obtain ⟨_, hu, hdn⟩ := h.waiting t cl₁ ht hl
    exact ⟨h.accept_waiting ht hl hts, by simp [World.setClient, Function.update_of_ne hts, hu],
      hdn⟩
  · intro t ht
    have hts : t ≠ s := by
      rintro rfl
      simp [World.setClient] at ht
    simp only [World.setClient, Function.update_of_ne hts] at ht ⊢
    rw [Server.onAccept_session_of_ne hts]
    exact h.side t ht
  · intro t cl₁ ht m hm
    by_cases hts : t = s
    · subst hts
      simp [World.setClient, hdnil] at hm
    · simp only [World.setClient, Function.update_of_ne hts] at ht
      exact h.down t cl₁ ht m hm
  · intro t cl₁ ht c
    rcases World.update_client ht with ⟨rfl, rfl⟩ | ⟨hts, ht⟩
    · exact h.owned t cl hcl c
    · exact h.owned t cl₁ ht c

theorem side_step (h : Honest w) {peerIp peerPort : Nat} {hello : SideHello}
    (hnone : w.client s = none) (hdead : w.server.alive s = false) :
    Honest { w with
      server := w.server.onAccept s peerIp peerPort
      up := Function.update w.up s [hello.msg] } := by
  have hne : ∀ {t cl}, w.client t = some cl → t ≠ s := by
    rintro t cl ht rfl
    rw [hnone] at ht
    cases ht
  refine ⟨?_, ?_, ?_, h.accept_conns hdead, h.down, h.owned⟩
  · intro t cl ht
    exact h.accept_known ht (hne ht) (Function.update_of_ne (hne ht) _ _) rfl
  · intro t cl ht hl
    obtain ⟨_, hu, hdn⟩ := h.waiting t cl ht hl
    exact ⟨h.accept_waiting ht hl (hne ht), (Function.update_of_ne (hne ht) _ _).trans hu, hdn⟩
  · intro t ht
    by_cases hts : t = s
    · subst hts
      refine ⟨by simp [Server.onAccept, Server.setSession], fun m hm => ⟨hello, ?_⟩⟩
      simpa using hm
    · simp only [Function.update_of_ne hts]
      rw [Server.onAccept_session_of_ne hts]
      exact h.side t ht

theorem signal (h : Honest w) {connId : ConnId} {next : Bool} (hcl : w.client s = some cl)
    (hlink : cl.link = .server) :
    Honest { w with
      up := Function.update w.up s
        (w.up s ++ [if next then .next connId else .ready connId]) } := by
  have hordinary : Ordinary cl.nodeId (if next then .next connId else .ready connId) := by
    cases next <;> trivial
  refine ⟨?_, ?_, ?_, h.conns, h.down, h.owned⟩
  · intro t cl₁ ht
    by_cases hts : t = s
    · subst hts
      obtain rfl := Option.some.inj (hcl.symm.trans ht)
      exact (h.known t cl hcl).append rfl (Function.update_self _ _ _)
        (fun m hm => List.mem_singleton.mp hm ▸ hordinary) rfl
    · exact (h.known t cl₁ ht).congr rfl id (Function.update_of_ne hts _ _)
  · intro t cl₁ ht hl
    have hts : t ≠ s := by
      rintro rfl
      obtain rfl := Option.some.inj (hcl.symm.trans ht)
      simp [hlink] at hl
    obtain ⟨hd, hu, hdn⟩ := h.waiting t cl₁ ht hl
    exact ⟨hd, (Function.update_of_ne hts _ _).trans hu, hdn⟩
  · intro t ht
    have hts : t ≠ s := by
      rintro rfl
      rw [hcl] at ht
      cases ht
    simp only [Function.update_of_ne hts]
    exact h.side t ht

theorem mem_post {down : Nat → List DownMsg} {sends : Sends} {t : Nat} {m : DownMsg} :
    m ∈ World.post down sends t ↔ m ∈ down t ∨ (t, m) ∈ sends := by
  simp [World.post, mem_toSession]

theorem addressed_of_isSignal {nodeId : Nat} {m : DownMsg} (h : m.isSignal = true) :
    Addressed nodeId m := by
  cases m <;> trivial

/-- Before a client is connected nothing is sent to it. -/
theorem post_waiting (h : Honest w) {sends : Sends}
    (hsends : ∀ x ∈ sends, w.server.alive x.1 = true) (hcl : w.client s = some cl)
    (hlink : cl.link = .idle ∨ cl.link = .probe) : World.post w.down sends s = [] := by
  obtain ⟨hdead, _, hdown⟩ := h.waiting s cl hcl hlink
  refine List.eq_nil_iff_forall_not_mem.mpr fun m hm => ?_
  rcases mem_post.mp hm with hm | hm
  · simp [hdown] at hm
  · have halive := hsends _ hm
    rw [hdead] at halive
    cases halive

/-- What the server sends on a message of an honest node is addressed to the right
nodes. -/
theorem sends_addressed (h : Honest w) (halive : w.server.alive s = true) {msg : UpMsg}
    {st : Server} {sends : Sends} (hserved : Server.Served w.server s msg st sends) {t : Nat}
    {cl : Client} (ht : w.client t = some cl) {m : DownMsg} (hm : (t, m) ∈ sends)
    (hcreate : ∀ c dst ip port b, msg = .connCreate c dst ip port b →
      (w.server.session s).type = .persistent) : Addressed cl.nodeId m := by
  cases hserved with
  | greeted => cases hm
  | replaced =>
    obtain ⟨c, _, mode, _, _, _, rfl⟩ := Server.mem_cancelSend hm
    trivial
  | side _ _ hsends => exact addressed_of_isSignal (hsends _ hm).1
  | refused =>
    simp only [List.mem_singleton, Prod.mk.injEq] at hm
    rw [hm.2]
    trivial
  | created hnode hne _ hdst =>
    rcases List.mem_cons.mp hm with hm | hm
    · obtain ⟨rfl, rfl⟩ := Prod.mk.inj hm
      obtain ⟨cl', hcl', hid⟩ := h.persistent halive (hcreate _ _ _ _ _ rfl)
      obtain rfl := Option.some.inj (ht.symm.trans hcl')
      exact hnode.symm.trans hid
    · obtain ⟨rfl, rfl⟩ := Prod.mk.inj (List.mem_singleton.mp hm)
      obtain ⟨hmem, hid, htype⟩ := Server.findPersistentSession_some hdst
      obtain ⟨cl', hcl', hid'⟩ := h.persistent (Server.alive_iff.mpr (Or.inl hmem)) htype
      obtain rfl := Option.some.inj (ht.symm.trans hcl')
      exact fun heq => hne (hid.symm.trans (hid'.trans heq.symm))
  | @closed _ established =>
    simp only [List.mem_singleton, Prod.mk.injEq] at hm
    rw [hm.2]
    cases established <;> trivial
  | missed => cases hm
  | relayed _ hsends => exact addressed_of_isSignal (hsends _ hm).1

/-- Who a message that the server reads comes from. -/
theorem sender (h : Honest w) (halive : w.server.alive s = true) {msg : UpMsg}
    {rest : List UpMsg} (hup : w.up s = msg :: rest) :
    (∃ cl, w.client s = some cl ∧ (w.server.session s).type = .persistent ∧
      (w.server.session s).nodeId = cl.nodeId ∧ Ordinary cl.nodeId msg ∧
      ∀ m ∈ rest, Ordinary cl.nodeId m) ∨
    (∃ cl ip port, w.client s = some cl ∧ (w.server.session s).type ≠ .persistent ∧
      msg = .hello cl.nodeId ip port ∧ ∀ m ∈ rest, Ordinary cl.nodeId m) ∨
    (w.client s = none ∧ (w.server.session s).type ≠ .persistent ∧
      (∃ hello : SideHello, msg = hello.msg) ∧ ∀ m ∈ rest, ∃ hello : SideHello, m = hello.msg) := by
  cases hcl : w.client s with
  | none =>
    obtain ⟨htype, hall⟩ := h.side s hcl
    rw [hup] at hall
    exact Or.inr (Or.inr ⟨rfl, htype, hall msg List.mem_cons_self,
      fun m hm => hall m (List.mem_cons_of_mem _ hm)⟩)
  | some cl =>
    cases h.known s cl hcl with
    | absent hdead =>
      rw [hdead] at halive
      cases halive
    | @greeting ip port rest' hgreet hrest htype =>
      obtain ⟨rfl, rfl⟩ := List.cons.inj (hup.symm.trans hgreet)
      exact Or.inr (Or.inl ⟨cl, ip, port, rfl, htype, rfl, hrest⟩)
    | known htype hid hall =>
      rw [hup] at hall
      exact Or.inl ⟨cl, rfl, htype, hid, hall msg List.mem_cons_self,
        fun m hm => hall m (List.mem_cons_of_mem _ hm)⟩

end Honest

namespace Served

open Master.Server

variable {st st' : Server} {s : Nat} {msg : UpMsg} {sends : Sends}

theorem session_ordinary {nodeId : Nat} (h : Served st s msg st' sends)
    (hmsg : Ordinary nodeId msg) : st'.session = st.session := by
  cases h with
  | greeted => cases hmsg
  | replaced => cases hmsg
  | side hm => rcases hm with rfl | ⟨_, _, rfl⟩ | ⟨_, _, rfl⟩ <;> cases hmsg
  | _ => rfl

theorem session_hello {nodeId ip port : Nat}
    (h : Served st s (.hello nodeId ip port) st' sends) :
    (st'.session s).type = .persistent ∧ (st'.session s).nodeId = nodeId := by
  cases h with
  | greeted htype hnode => simp [setSession, htype, hnode]
  | replaced htype hnode => simp [setSession, htype, hnode]
  | side hm => simp at hm
  | relayed hm => simp at hm

theorem session_side {hello : SideHello} (h : Served st s hello.msg st' sends) :
    (st'.session s).type ≠ .persistent := by
  generalize hmsg : hello.msg = msg at h
  cases h with
  | side _ htype => simpa [setSession] using htype
  | relayed hm => rcases hm with rfl | rfl <;> cases hello <;> cases hmsg
  | _ => cases hello <;> cases hmsg

/-- An entry is an old one, or the one that the message asks for. -/
theorem conns_cases (h : Served st s msg st' sends) {c : ConnId} {conn : Conn}
    (hc : st'.conns.find? c = some conn) :
    st.conns.find? c = some conn ∨
      ∃ dst ip port b d, msg = .connCreate c dst ip port b ∧ conn.srcSess = s ∧ conn.dstSess = d ∧
        (st.session s).nodeId = c.nodeId ∧ dst ≠ c.nodeId ∧
        findPersistentSession st dst = some d := by
  cases h with
  | replaced => exact Or.inl ((OrderedMap.find?_filter_eq_some _ _).mp hc).1
  | created hnode hne _ hdst =>
    simp only [OrderedMap.find?_insert] at hc
    split at hc
    · rename_i heq
      subst heq
      obtain rfl := Option.some.inj hc
      exact Or.inr ⟨_, _, _, _, _, rfl, rfl, rfl, hnode, hne, hdst⟩
    · exact Or.inl hc
  | closed =>
    simp only [OrderedMap.find?_erase] at hc
    split at hc
    · cases hc
    · exact Or.inl hc
  | _ => exact Or.inl hc

end Served

namespace Honest

variable {w w' : World} {e : Event} {s : Nat} {cl : Client}

theorem serve_alive (h : Honest w) (halive : w.server.alive s = true) {msg : UpMsg}
    {rest : List UpMsg} (hup : w.up s = msg :: rest) {st : Server} {sends : Sends}
    (hserved : Server.Served w.server s msg st sends) :
    Honest { w with
      server := st
      up := Function.update w.up s rest
      down := World.post w.down sends } := by
  have hsender := h.sender halive hup
  -- what the server knows about a node does not change
  have hkeep : ∀ t, (w.server.session t).type = .persistent →
      st.session t = w.server.session t := by
    intro t htype
    by_cases hts : t = s
    · subst hts
      rcases hsender with ⟨_, _, _, _, hord, _⟩ | ⟨_, _, _, _, hne, _⟩ | ⟨_, hne, _⟩
      · rw [Served.session_ordinary hserved hord]
      · exact absurd htype hne
      · exact absurd htype hne
    · exact hserved.session_of_ne hts
  have hcreate : ∀ c dst ip port b, msg = .connCreate c dst ip port b →
      (w.server.session s).type = .persistent := by
    rintro c dst ip port b rfl
    rcases hsender with ⟨_, _, htype, _⟩ | ⟨_, _, _, _, _, hm, _⟩ | ⟨_, _, ⟨hello, hm⟩, _⟩
    · exact htype
    · cases hm
    · cases hello <;> cases hm
  refine ⟨?_, ?_, ?_, ?_, ?_, h.owned⟩
  · intro t cl ht
    by_cases hts : t = s
    · subst hts
      rcases hsender with ⟨cl', hcl, htype, hid, _, hrest⟩ | ⟨cl', ip, port, hcl, _, rfl, hrest⟩ |
        ⟨hnone, _⟩
      · obtain rfl := Option.some.inj (ht.symm.trans hcl)
        refine .known ?_ ?_ ?_
        · simp only [hkeep t htype, htype]
        · simp only [hkeep t htype, hid]
        · simpa using hrest
      · obtain rfl := Option.some.inj (ht.symm.trans hcl)
        obtain ⟨htype, hid⟩ := Served.session_hello hserved
        exact .known htype hid (by simpa using hrest)
      · cases hnone.symm.trans ht
    · exact (h.known t cl ht).congr (hserved.session_of_ne hts)
        (hserved.alive_of_alive halive) (Function.update_of_ne hts _ _)
  · intro t cl ht hlink
    obtain ⟨hdead, hu, _⟩ := h.waiting t cl ht hlink
    have hts : t ≠ s := by
      rintro rfl
      rw [hdead] at halive
      cases halive
    refine ⟨?_, (Function.update_of_ne hts _ _).trans hu,
      h.post_waiting (hserved.sends_alive halive) ht hlink⟩
    by_contra hne
    rw [hserved.alive_of_alive halive (by simpa using hne)] at hdead
    cases hdead
  · intro t ht
    by_cases hts : t = s
    · subst hts
      rcases hsender with ⟨_, hcl, _⟩ | ⟨_, _, _, hcl, _⟩ | ⟨_, _, ⟨hello, rfl⟩, hrest⟩
      · cases hcl.symm.trans ht
      · cases hcl.symm.trans ht
      · exact ⟨Served.session_side hserved, by simpa using hrest⟩
    · simp only [Function.update_of_ne hts, hserved.session_of_ne hts]
      exact h.side t ht
  · intro c conn hc
    rcases Served.conns_cases hserved hc with hold |
      ⟨dst, ip, port, b, d, hm, hsrc, hd, hid, hne, hdst⟩
    · have hok := h.conns c conn hold
      unfold ConnOk at hok ⊢
      simpa only [hkeep _ hok.1.1, hkeep _ hok.2.1] using hok
    · obtain ⟨_, hid', htype⟩ := Server.findPersistentSession_some hdst
      have hs := hcreate _ _ _ _ _ hm
      unfold ConnOk
      simp only [hsrc, hd, hkeep _ hs, hkeep _ htype]
      exact ⟨⟨hs, hid⟩, htype, hid' ▸ hne⟩
  · intro t cl ht m hm
    rcases mem_post.mp hm with hm | hm
    · exact h.down t cl ht m hm
    · exact h.sends_addressed halive hserved ht hm hcreate

theorem serve (h : Honest w) {msg : UpMsg} {rest : List UpMsg} (hup : w.up s = msg :: rest) :
    Honest { w with
      server := (w.server.recv s msg).1
      up := Function.update w.up s rest
      down := World.post w.down (w.server.recv s msg).2 } := by
  by_cases halive : w.server.alive s = true
  · rw [show w.server.recv s msg = w.server.onMessage s msg from if_pos halive]
    exact h.serve_alive halive hup (Server.onMessage_served _ _ _)
  · rw [show w.server.recv s msg = (w.server, []) from if_neg halive]
    have hpost : World.post w.down [] = w.down := by
      funext t
      simp [World.post]
    rw [hpost]
    refine ⟨?_, ?_, ?_, h.conns, h.down, h.owned⟩
    · intro t cl ht
      by_cases hts : t = s
      · subst hts
        exact .absent (by simpa using halive)
      · exact (h.known t cl ht).congr rfl id (Function.update_of_ne hts _ _)
    · intro t cl ht hlink
      obtain ⟨hdead, hu, hdn⟩ := h.waiting t cl ht hlink
      have hts : t ≠ s := by
        rintro rfl
        rw [hu] at hup
        cases hup
      exact ⟨hdead, (Function.update_of_ne hts _ _).trans hu, hdn⟩
    · intro t ht
      refine ⟨(h.side t ht).1, ?_⟩
      by_cases hts : t = s
      · subst hts
        have hall := (h.side t ht).2
        rw [hup] at hall
        simpa using fun m hm => hall m (List.mem_cons_of_mem _ hm)
      · simpa only [Function.update_of_ne hts] using (h.side t ht).2

theorem drop (h : Honest w) :
    Honest { w with
      server := (w.server.onSessionError s).1
      down := World.post w.down (w.server.onSessionError s).2 } := by
  obtain ⟨hsession, halive, hconns, hsends⟩ := Server.onSessionError_spec w.server s
  refine ⟨?_, ?_, ?_, ?_, ?_, h.owned⟩
  · intro t cl ht
    exact (h.known t cl ht).congr (by rw [hsession]) (halive t) rfl
  · intro t cl ht hlink
    obtain ⟨hdead, hu, _⟩ := h.waiting t cl ht hlink
    refine ⟨?_, hu, h.post_waiting (fun x hx => (hsends x hx).1) ht hlink⟩
    by_contra hne
    rw [halive t (by simpa using hne)] at hdead
    cases hdead
  · intro t ht
    simp only [hsession]
    exact h.side t ht
  · intro c conn hc
    have := h.conns c conn (hconns c conn hc)
    unfold ConnOk at this ⊢
    rwa [hsession]
  · intro t cl ht m hm
    rcases mem_post.mp hm with hm | hm
    · exact h.down t cl ht m hm
    · obtain ⟨_, c, mode, _, hx⟩ := hsends _ hm
      simp only at hx
      rw [hx]
      trivial

/-- What a client reads is no offer of a connection of its own. -/
theorem offer (h : Honest w) (hcl : w.client s = some cl) {ev : Node.MasterClient.Event}
    (hrecv : ∀ msg, ev = .recv msg → msg ∈ w.down s) : OfferOk cl ev := by
  cases ev with
  | recv msg =>
    have haddr := h.down s cl hcl msg (hrecv msg rfl)
    cases msg <;> first | exact haddr | trivial
  | _ => trivial

/-- Every step of the network keeps the invariant. -/
theorem step (h : Honest w) (hstep : w.step e = some w') : Honest w' := by
  cases World.step_cases hstep with
  | boot _ hdead hup hdown => exact h.boot hdead hup hdown
  | connect hcl hlink hdead => exact h.connect hcl hlink hdead
  | @client s ev cl cl' sent hcl hlocal hs =>
    have hdown : ∀ t, ∀ m ∈ w.down t, m ∈ w.down t := fun _ _ hm => hm
    refine h.client_step hcl hdown hs ?_ ?_
    · rintro ip port rfl
      cases hlocal
    · cases ev <;> trivial
  | @deliver s msg rest cl cl' sent hcl hdown hs =>
    refine h.client_step hcl ?_ hs (by simp) ?_
    · intro t m hm
      by_cases hts : t = s
      · subst hts
        rw [Function.update_self] at hm
        exact hdown ▸ List.mem_cons_of_mem _ hm
      · rwa [Function.update_of_ne hts] at hm
    · exact h.offer hcl fun msg' heq => by
        obtain rfl := Node.MasterClient.Event.recv.inj heq
        simp [hdown]
  | signal hcl hlink => exact h.signal hcl hlink
  | side hnone hdead => exact h.side_step hnone hdead
  | serve hup => exact h.serve hup
  | drop => exact h.drop

/-- In every run the invariant holds. -/
theorem of_run {es : List Event} (hrun : World.Run es w) : Honest w :=
  exec_invariant (fun _ _ _ h hs => h.step hs) init hrun

end Honest

end DTun.Net
