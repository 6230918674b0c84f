import DTun.Master.Lifetime
import DTun.Net.Honest
import DTun.Node.MasterClient.Spreading

/-!
# One client among arbitrary sessions

The server, one client on its session `sess`, and a FIFO channel each way between them. All
other sessions are the environment: they come and go and send what they like. A session is
symmetric or not from its `HELLO` on, and the server refuses a connection between two
symmetric ones, so every mode that it tells the client is of the one kind that suits the
client's session.
-/

namespace DTun.Net

open DTun.Lib DTun.Lib.Runs DTun.Master DTun.Node.MasterClient

/-- The session that a server's event happens on. -/
def origin : Server.Event → Nat
  | .accept s _ _ => s
  | .msg s _ => s
  | .error s => s

section Modes

open Server

variable {st st' : Server} {sends : Sends} {s sess : Nat} {ev : Server.Event}

theorem modes_fit {srcSymm dstSymm : Bool} (h : ¬(srcSymm && dstSymm) = true) :
    Fits srcSymm (modes srcSymm dstSymm).1 ∧ Fits dstSymm (modes srcSymm dstSymm).2 := by
  cases srcSymm <;> cases dstSymm <;> simp_all [modes, Fits, Kind.ofRMode]

theorem onSessionConnCreate_fits (connId : ConnId) (dstNodeId ip port : Nat) (bestEffort : Bool) :
    ∀ x ∈ (onSessionConnCreate st s connId dstNodeId ip port bestEffort).2,
      ModesFit (st.session x.1).symm (.recv x.2) := by
  intro x hx
  rcases onSessionConnCreate_cases st s connId dstNodeId ip port bestEffort with
    ⟨code, heq⟩ | ⟨d, srcMode, dstMode, -, -, -, -, hsymm, hmodes, heq⟩
  · rw [heq] at hx
    obtain rfl := List.mem_singleton.mp hx
    trivial
  · obtain ⟨hsrc, hdst⟩ := modes_fit hsymm
    rw [← hmodes] at hsrc hdst
    rw [heq] at hx
    rcases List.mem_cons.mp hx with rfl | hx
    · exact hsrc
    · obtain rfl := List.mem_singleton.mp hx
      exact hdst

theorem fits_of_isSignal {symm : Bool} {m : DownMsg} (h : m.isSignal = true) :
    ModesFit symm (.recv m) := by
  cases m <;> trivial

/-- Every mode in a message suits the session that the message goes to. -/
theorem stepSends_fits (hs : st.stepSends ev = some (st', sends)) :
    ∀ x ∈ sends, ModesFit (st.session x.1).symm (.recv x.2) := by
  intro x hx
  cases ev with
  | accept s peerIp peerPort =>
    obtain ⟨_, heq⟩ := Option.ite_none_left_eq_some.mp hs
    cases heq
    cases hx
  | error s =>
    obtain ⟨_, _, _, hspec⟩ := onSessionError_spec st s
    rw [Option.some.inj hs] at hspec
    obtain ⟨_, c, mode, _, heq⟩ := hspec x hx
    rw [heq]
    trivial
  | msg s m =>
    simp only [stepSends, recv] at hs
    split at hs
    swap
    · cases hs
      cases hx
    have hserved := onMessage_served st s m
    rw [Option.some.inj hs] at hserved
    cases hserved with
    | greeted | missed => cases hx
    | replaced =>
      obtain ⟨_, _, _, _, _, _, heq⟩ := mem_cancelSend hx
      rw [heq]
      trivial
    | side _ _ hsends | relayed _ hsends => exact fits_of_isSignal (hsends x hx).1
    | refused =>
      obtain rfl := List.mem_singleton.mp hx
      trivial
    | closed =>
      obtain rfl := List.mem_singleton.mp hx
      dsimp only
      split <;> trivial
    | created =>
      have hsends := congrArg Prod.snd (Option.some.inj hs)
      dsimp only at hsends
      rw [← hsends] at hx
      exact onSessionConnCreate_fits _ _ _ _ _ x hx

/-- The session is not persistent, and it is an endpoint of nothing. -/
structure Unheard (st : Server) (sess : Nat) : Prop where
  type : (st.session sess).type ≠ .persistent
  free : ∀ c conn, st.conns.find? c = some conn → conn.has sess = false

theorem Unheard.not_signaled {sends : Sends} (h : Unheard st sess) (hne : s ≠ sess)
    (hsends : Signals st s sends) : ∀ x ∈ sends, x.1 ≠ sess := by
  rintro x hx rfl
  rcases (hsends x hx).2 with heq | ⟨c, conn, hc, hhas⟩
  · exact hne heq.symm
  · simp [h.free c conn hc] at hhas

theorem Unheard.not_canceled (h : Unheard st sess) {other : Nat} :
    ∀ x ∈ st.conns.entries.flatMap (cancelSend other), x.1 ≠ sess := by
  rintro x hx rfl
  obtain ⟨c, conn, _, hc, _, hhas, _⟩ := mem_cancelSend hx
  simp [h.free c conn hc] at hhas

/-- A message of another session tells this one nothing. -/
theorem Unheard.served {m : UpMsg} (h : Unheard st sess) (hne : s ≠ sess)
    (hserved : Served st s m st' sends) : Unheard st' sess ∧ ∀ x ∈ sends, x.1 ≠ sess := by
  refine ⟨⟨?_, fun c conn hc => ?_⟩, fun x hx => ?_⟩
  · rw [hserved.session_of_ne hne.symm]
    exact h.type
  · rcases Served.conns_cases hserved hc with hold | ⟨_, _, _, _, d, _, hsrc, hdst, _, _, hfind⟩
    · exact h.free c conn hold
    · have hd : d ≠ sess := by
        rintro rfl
        exact h.type (findPersistentSession_some hfind).2.2
      simp [Conn.has, hsrc, hdst, hne, hd]
  · cases hserved with
    | greeted | missed => cases hx
    | replaced => exact h.not_canceled x hx
    | side _ _ hsends | relayed _ hsends => exact h.not_signaled hne hsends x hx
    | refused =>
      obtain rfl := List.mem_singleton.mp hx
      exact hne
    | closed hconn hpeer =>
      obtain rfl := List.mem_singleton.mp hx
      rintro rfl
      have hfree := h.free _ _ hconn
      rcases hpeer with ⟨_, heq⟩ | ⟨_, heq⟩ <;> simp [Conn.has, heq] at hfree
    | created _ _ _ hdst =>
      rcases List.mem_cons.mp hx with rfl | hx
      · exact hne
      · obtain rfl := List.mem_singleton.mp hx
        rintro rfl
        exact h.type (findPersistentSession_some hdst).2.2

theorem Unheard.error (h : Unheard st sess) (s : Nat) :
    Unheard (onSessionError st s).1 sess ∧ ∀ x ∈ (onSessionError st s).2, x.1 ≠ sess := by
  obtain ⟨hsession, _, hconns, _⟩ := onSessionError_spec st s
  refine ⟨⟨by rw [hsession]; exact h.type, fun c conn hc => h.free c conn (hconns c conn hc)⟩, ?_⟩
  unfold onSessionError removeSession
  split_ifs
  · exact h.not_canceled
  · simp
  · simp

/-- Whatever happens on another session tells this one nothing. -/
theorem Unheard.step (h : Unheard st sess) (hne : origin ev ≠ sess)
    (hs : st.stepSends ev = some (st', sends)) :
    Unheard st' sess ∧ (∀ x ∈ sends, x.1 ≠ sess) ∧
      (st'.alive sess = true → st.alive sess = true) := by
  cases ev with
  | accept s peerIp peerPort =>
    obtain ⟨_, heq⟩ := Option.ite_none_left_eq_some.mp hs
    cases heq
    have hne' : sess ≠ s := Ne.symm hne
    refine ⟨⟨?_, h.free⟩, by simp, fun hal => ?_⟩
    · rw [onAccept_session_of_ne hne']
      exact h.type
    · exact (onAccept_alive hal).resolve_left hne'
  | error s =>
    obtain ⟨_, halive, _, _⟩ := onSessionError_spec st s
    obtain ⟨hun, hsends⟩ := h.error s
    rw [Option.some.inj hs] at halive hun hsends
    exact ⟨hun, hsends, halive sess⟩
  | msg s m =>
    simp only [stepSends, recv] at hs
    split at hs
    · rename_i hal
      have hserved := onMessage_served st s m
      rw [Option.some.inj hs] at hserved
      obtain ⟨hun, hsends⟩ := h.served hne hserved
      exact ⟨hun, hsends, hserved.alive_of_alive hal⟩
    · cases hs
      exact ⟨h, by simp, id⟩

theorem stepSends_session (hne : origin ev ≠ sess) (hs : st.stepSends ev = some (st', sends)) :
    st'.session sess = st.session sess := by
  cases ev with
  | accept s peerIp peerPort =>
    obtain ⟨_, heq⟩ := Option.ite_none_left_eq_some.mp hs
    cases heq
    exact onAccept_session_of_ne (Ne.symm hne)
  | error s =>
    have hsession := (onSessionError_spec st s).1
    rw [Option.some.inj hs] at hsession
    exact congrFun hsession sess
  | msg s m =>
    simp only [stepSends, recv] at hs
    split at hs
    · have hserved := onMessage_served st s m
      rw [Option.some.inj hs] at hserved
      exact hserved.session_of_ne (Ne.symm hne)
    · cases hs
      rfl

end Modes

structure Solo where
  server : Server
  client : Client
  up : List UpMsg
  down : List DownMsg

namespace Solo

def init (nodeId : Nat) (routes : List RouteEntry) (bestEffort : Bool) : Solo where
  server := .init
  client := { nodeId := nodeId, routes := routes, bestEffort := bestEffort }
  up := []
  down := []

inductive Event where
  /-- What the client does by itself. -/
  | client (ev : Node.MasterClient.Event)
  /-- The client's connection to the server is made. -/
  | connect (peerIp peerPort probedIp probedPort : Nat)
  /-- The client reads a message. -/
  | deliver
  /-- A rendezvous session of the client sends `READY`, or `NEXT`. -/
  | signal (connId : ConnId) (next : Bool)
  /-- The server reads a message of the client. -/
  | serve
  /-- The server finds the client's session broken. -/
  | drop
  /-- Anything that happens on another session. -/
  | other (ev : Server.Event)
  deriving DecidableEq, Repr

/-- The server takes a step. -/
def react (n : Solo) (sess : Nat) (ev : Server.Event) : Option Solo :=
  (n.server.stepSends ev).map fun r =>
    { n with server := r.1, down := n.down ++ toSession r.2 sess }

/-- The client takes a step. -/
def act (n : Solo) (ev : Node.MasterClient.Event) : Option Solo :=
  (n.client.step ev).map fun r => { n with client := r.1, up := n.up ++ r.2 }

def step (sess : Nat) (n : Solo) : Event → Option Solo
  | .client ev => if isLocal ev then n.act ev else none
  | .connect peerIp peerPort probedIp probedPort =>
    (n.act (.connected probedIp probedPort)).bind (react · sess (.accept sess peerIp peerPort))
  | .deliver =>
    match n.down with
    | [] => none
    | msg :: rest => { n with down := rest }.act (.recv msg)
  | .signal connId next =>
    if n.client.link = .server then
      some { n with up := n.up ++ [if next then .next connId else .ready connId] }
    else none
  | .serve =>
    match n.up with
    | [] => none
    | msg :: rest => { n with up := rest }.react sess (.msg sess msg)
  | .drop => n.react sess (.error sess)
  | .other ev => if origin ev = sess then none else n.react sess ev

/-- The client's part in an event. -/
def clientEvent (n : Solo) : Event → Option Node.MasterClient.Event
  | .client ev => some ev
  | .connect _ _ probedIp probedPort => some (.connected probedIp probedPort)
  | .deliver => n.down.head?.map .recv
  | _ => none

/-- What is seen of the client at an event. -/
def see {α : Type} (f : Client → Node.MasterClient.Event → List α) (n : Solo) (e : Event) :
    List α := (n.clientEvent e).elim [] (f n.client)

variable {sess : Nat} {n n' : Solo} {e : Event} {ev : Node.MasterClient.Event}

theorem act_eq (h : n.act ev = some n') : ∃ cl sent, n.client.step ev = some (cl, sent) ∧
    n' = { n with client := cl, up := n.up ++ sent } := by
  obtain ⟨⟨cl, sent⟩, hstep, heq⟩ := Option.map_eq_some_iff.mp h
  exact ⟨cl, sent, hstep, heq.symm⟩

theorem react_eq {sev : Server.Event} (h : n.react sess sev = some n') :
    ∃ st sends, n.server.stepSends sev = some (st, sends) ∧
      n' = { n with server := st, down := n.down ++ toSession sends sess } := by
  obtain ⟨⟨st, sends⟩, hstep, heq⟩ := Option.map_eq_some_iff.mp h
  exact ⟨st, sends, hstep, heq.symm⟩

/-- The client stays as it is, or takes its own step. -/
theorem step_client (h : step sess n e = some n') :
    (n.clientEvent e = none ∧ n'.client = n.client) ∨
    ∃ ev sent, n.clientEvent e = some ev ∧ n.client.step ev = some (n'.client, sent) := by
  have hreact : ∀ {m : Solo} {sev}, m.react sess sev = some n' → n'.client = m.client := by
    intro m sev hm
    obtain ⟨_, _, _, rfl⟩ := react_eq hm
    rfl
  cases e with
  | client ev =>
    obtain ⟨_, hact⟩ := Option.ite_none_right_eq_some.mp h
    obtain ⟨cl, sent, hstep, rfl⟩ := act_eq hact
    exact Or.inr ⟨ev, sent, rfl, hstep⟩
  | connect peerIp peerPort probedIp probedPort =>
    obtain ⟨m, hact, hm⟩ := Option.bind_eq_some_iff.mp h
    obtain ⟨cl, sent, hstep, rfl⟩ := act_eq hact
    exact Or.inr ⟨_, sent, rfl, by rw [hreact hm]; exact hstep⟩
  | deliver =>
    simp only [step] at h
    split at h
    · cases h
    · rename_i msg rest hdown
      obtain ⟨cl, sent, hstep, rfl⟩ := act_eq h
      exact Or.inr ⟨_, sent, by simp [clientEvent, hdown], hstep⟩
  | signal connId next =>
    obtain ⟨_, heq⟩ := Option.ite_none_right_eq_some.mp h
    cases heq
    exact Or.inl ⟨rfl, rfl⟩
  | serve =>
    simp only [step] at h
    split at h
    · cases h
    · have hclient := hreact h
      exact Or.inl ⟨rfl, hclient⟩
  | drop => exact Or.inl ⟨rfl, hreact h⟩
  | other sev =>
    obtain ⟨_, hm⟩ := Option.ite_none_left_eq_some.mp h
    exact Or.inl ⟨rfl, hreact hm⟩

def isHello : UpMsg → Bool
  | .connCreate _ _ _ _ _ => false
  | .connClose _ _ => false
  | .ready _ => false
  | .next _ => false
  | _ => true

/-- The connection has not been made yet. -/
def Waiting (n : Solo) : Prop := n.client.link = .idle ∨ n.client.link = .probe

/-- The server has not read the client's `HELLO`, or it knows whether the client is behind a
symmetric NAT and tells it modes for that. -/
inductive Phase (sess : Nat) (n : Solo) : Prop where
  | unheard (hserver : Unheard n.server sess) (hdown : n.down = [])
      (hmodes : ∀ symm, Uniform symm n.client)
      (hup : n.server.alive sess = true → ∃ nodeId ip port rest,
        n.up = .hello nodeId ip port :: rest ∧ ∀ m ∈ rest, isHello m = false)
      (hwait : n.Waiting → n.up = [])
  | heard (hdown : ∀ m ∈ n.down, ModesFit (n.server.session sess).symm (.recv m))
      (hmodes : Uniform (n.server.session sess).symm n.client)
      (hup : ∀ m ∈ n.up, isHello m = false) (hwait : ¬n.Waiting)

theorem sent_not_hello {cl cl' : Client} {sent : List UpMsg} (h : cl.step ev = some (cl', sent))
    (hne : ∀ ip port, ev ≠ .connected ip port) : ∀ m ∈ sent, isHello m = false := by
  intro m hm
  rcases (Client.step_sent h hne).2 m hm with ⟨_, _, _, _, _, rfl⟩ | ⟨_, _, rfl⟩ <;> rfl

/-- A client that waits after a step has waited before it. -/
theorem waiting_of_step {cl cl' : Client} {sent : List UpMsg} (h : cl.step ev = some (cl', sent))
    (hne : ∀ ip port, ev ≠ .connected ip port) (hwait : cl'.link = .idle ∨ cl'.link = .probe) :
    cl.link = .idle ∨ cl.link = .probe := by
  rcases Client.step_link h hne with heq | ⟨hidle, _⟩ | ⟨_, hlost⟩
  · rwa [heq] at hwait
  · exact Or.inl hidle
  · simp [hlost] at hwait

theorem toSession_eq_nil {sends : Sends} (h : ∀ x ∈ sends, x.1 ≠ sess) :
    toSession sends sess = [] :=
  List.eq_nil_iff_forall_not_mem.mpr fun _ hm => h _ (mem_toSession.mp hm) rfl

/-- The client takes a step without the server; it may have read some messages. -/
theorem Phase.act (h : Phase sess n) {cl : Client} {sent : List UpMsg} {down : List DownMsg}
    (hstep : n.client.step ev = some (cl, sent)) (hne : ∀ ip port, ev ≠ .connected ip port)
    (hsub : ∀ m ∈ down, m ∈ n.down)
    (hfit : ∀ symm, (∀ m ∈ n.down, ModesFit symm (.recv m)) → ModesFit symm ev) :
    Phase sess { n with client := cl, up := n.up ++ sent, down := down } := by
  have hsent := sent_not_hello hstep hne
  cases h with
  | unheard hserver hdown hmodes hup hwait =>
    refine .unheard hserver ?_ (fun symm => ?_) (fun hal => ?_) (fun hw => ?_)
    · exact List.eq_nil_iff_forall_not_mem.mpr fun m hm => by simpa [hdown] using hsub m hm
    · exact Client.step_uniform hstep (hfit symm (by simp [hdown])) (hmodes symm)
    · obtain ⟨nodeId, ip, port, rest, heq, hrest⟩ := hup hal
      refine ⟨nodeId, ip, port, rest ++ sent, by simp [heq], fun m hm => ?_⟩
      exact (List.mem_append.mp hm).elim (hrest m) (hsent m)
    · have hbefore := waiting_of_step hstep hne hw
      have hnil : sent = [] :=
        (Client.step_sent hstep hne).1 (by rcases hbefore with h | h <;> simp [h])
      simp [hwait hbefore, hnil]
  | heard hdown hmodes hup hwait =>
    refine .heard (fun m hm => hdown m (hsub m hm))
      (Client.step_uniform hstep (hfit _ hdown) hmodes) (fun m hm => ?_)
      fun hw => hwait (waiting_of_step hstep hne hw)
    exact (List.mem_append.mp hm).elim (hup m) (hsent m)

/-- The client's connection is made: `HELLO` is the first message on it. -/
theorem Phase.connect (h : Phase sess n) {peerIp peerPort probedIp probedPort : Nat} {cl : Client}
    {sent : List UpMsg} (hstep : n.client.step (.connected probedIp probedPort) = some (cl, sent)) :
    Phase sess { n with
      client := cl
      up := n.up ++ sent
      server := n.server.onAccept sess peerIp peerPort } := by
  obtain ⟨hlink, heq⟩ := Option.ite_none_right_eq_some.mp hstep
  cases h with
  | heard _ _ _ hwait => exact absurd hlink hwait
  | unheard hserver hdown hmodes hup hwait =>
    have hnil := hwait hlink
    refine .unheard ⟨?_, hserver.free⟩ hdown
      (fun symm => Client.step_uniform hstep trivial (hmodes symm)) (fun _ => ?_) fun hw => ?_
    · simp [Server.onAccept, Server.setSession]
    · cases heq
      exact ⟨n.client.nodeId, probedIp, probedPort, [], by simp [hnil], by simp⟩
    · cases heq
      rcases hw with hw | hw <;> cases hw

theorem Phase.signal (h : Phase sess n) {msg : UpMsg} (hmsg : isHello msg = false)
    (hlink : n.client.link = .server) : Phase sess { n with up := n.up ++ [msg] } := by
  have hnot : ¬n.Waiting := by simp [Waiting, hlink]
  cases h with
  | unheard hserver hdown hmodes hup hwait =>
    refine .unheard hserver hdown hmodes (fun hal => ?_) fun hw => absurd hw hnot
    obtain ⟨nodeId, ip, port, rest, heq, hrest⟩ := hup hal
    refine ⟨nodeId, ip, port, rest ++ [msg], by simp [heq], fun m hm => ?_⟩
    rcases List.mem_append.mp hm with hm | hm
    · exact hrest m hm
    · exact List.mem_singleton.mp hm ▸ hmsg
  | heard hdown hmodes hup hwait =>
    refine .heard hdown hmodes (fun m hm => ?_) hnot
    rcases List.mem_append.mp hm with hm | hm
    · exact hup m hm
    · exact List.mem_singleton.mp hm ▸ hmsg

/-- Something happens on another session. -/
theorem Phase.other (h : Phase sess n) {sev : Server.Event} (hne : origin sev ≠ sess)
    (hreact : n.react sess sev = some n') : Phase sess n' := by
  obtain ⟨st, sends, hstep, rfl⟩ := react_eq hreact
  cases h with
  | unheard hserver hdown hmodes hup hwait =>
    obtain ⟨hun, hsends, halive⟩ := hserver.step hne hstep
    exact .unheard hun (by simp [hdown, toSession_eq_nil hsends]) hmodes
      (fun hal => hup (halive hal)) hwait
  | heard hdown hmodes hup hwait =>
    have hsession : st.session sess = n.server.session sess := stepSends_session hne hstep
    refine .heard (fun m hm => ?_) (by rw [hsession]; exact hmodes) hup hwait
    rw [hsession]
    exact (List.mem_append.mp hm).elim (hdown m) fun hm =>
      stepSends_fits hstep _ (mem_toSession.mp hm)

/-- The client's session breaks. -/
theorem Phase.drop (h : Phase sess n) (hreact : n.react sess (.error sess) = some n') :
    Phase sess n' := by
  obtain ⟨st, sends, hstep, rfl⟩ := react_eq hreact
  obtain ⟨hsession, halive, _, _⟩ := Server.onSessionError_spec n.server sess
  rw [Option.some.inj hstep] at hsession halive
  cases h with
  | unheard hserver hdown hmodes hup hwait =>
    obtain ⟨hun, hsends⟩ := hserver.error sess
    rw [Option.some.inj hstep] at hun hsends
    exact .unheard hun (by simp [hdown, toSession_eq_nil hsends]) hmodes
      (fun hal => hup (halive _ hal)) hwait
  | heard hdown hmodes hup hwait =>
    refine .heard (fun m hm => ?_) (by rw [hsession]; exact hmodes) hup hwait
    rw [hsession]
    exact (List.mem_append.mp hm).elim (hdown m) fun hm =>
      stepSends_fits hstep _ (mem_toSession.mp hm)

/-- The server reads a message of the client. -/
theorem Phase.serve (h : Phase sess n) {msg : UpMsg} {rest : List UpMsg}
    (hup' : n.up = msg :: rest)
    (hreact : { n with up := rest }.react sess (.msg sess msg) = some n') : Phase sess n' := by
  obtain ⟨st, sends, hstep, rfl⟩ := react_eq hreact
  have hfits := stepSends_fits hstep
  simp only [Server.stepSends, Server.recv] at hstep
  split at hstep
  swap
  -- The session is gone: the message is read and forgotten.
  · rename_i hdead
    cases hstep
    cases h with
    | unheard hserver hdown hmodes _ hwait =>
      refine .unheard hserver (by simp [hdown, toSession]) hmodes (fun hal => absurd hal hdead) ?_
      intro hw
      have hnil := hwait hw
      rw [hup'] at hnil
      cases hnil
    | heard hdown hmodes hup hwait =>
      exact .heard (by simpa [toSession] using hdown) hmodes
        (fun m hm => hup m (by rw [hup']; exact List.mem_cons_of_mem _ hm)) hwait
  rename_i hal
  have hserved := Server.onMessage_served n.server sess msg
  rw [Option.some.inj hstep] at hserved
  cases h with
  | unheard hserver hdown hmodes hup hwait =>
    obtain ⟨nodeId, ip, port, rest', heq, hrest⟩ := hup hal
    rw [hup'] at heq
    obtain ⟨rfl, rfl⟩ := List.cons.inj heq
    have hnot : ¬n.Waiting := fun hw => by simp [hwait hw] at hup'
    have hnone : toSession sends sess = [] := by
      refine toSession_eq_nil fun x hx => ?_
      cases hserved with
      | greeted => cases hx
      | replaced => exact hserver.not_canceled x hx
      | side hm => simp at hm
      | relayed hm => simp at hm
    exact .heard (by simp [hdown, hnone]) (hmodes _) hrest hnot
  | heard hdown hmodes hup hwait =>
    have hmsg : isHello msg = false := hup msg (by simp [hup'])
    have hsession : st.session sess = n.server.session sess := by
      cases hserved with
      | greeted | replaced => cases hmsg
      | side hm => rcases hm with rfl | ⟨_, _, rfl⟩ | ⟨_, _, rfl⟩ <;> cases hmsg
      | _ => rfl
    refine .heard (fun m hm => ?_) (by rw [hsession]; exact hmodes)
      (fun m hm => hup m (by rw [hup']; exact List.mem_cons_of_mem _ hm)) hwait
    rw [hsession]
    exact (List.mem_append.mp hm).elim (hdown m) fun hm => hfits _ (mem_toSession.mp hm)

theorem modesFit_of_isLocal {symm : Bool} (h : isLocal ev = true) : ModesFit symm ev := by
  cases ev <;> trivial

/-- The client knows one kind of mode, and at most one session spreads. -/
structure Inv (sess : Nat) (n : Solo) : Prop where
  phase : Phase sess n
  exclusive : Exclusive n.client

theorem Phase.uniform (h : Phase sess n) : ∃ symm, Uniform symm n.client ∧
    ∀ m ∈ n.down, ModesFit symm (.recv m) := by
  cases h with
  | unheard _ hdown hmodes => exact ⟨true, hmodes true, by simp [hdown]⟩
  | heard hdown hmodes => exact ⟨_, hmodes, hdown⟩

theorem Inv.init (sess nodeId : Nat) (routes : List RouteEntry) (bestEffort : Bool) :
    Inv sess (init nodeId routes bestEffort) := by
  refine ⟨.unheard ⟨by simp [Solo.init, Server.init], ?_⟩ rfl (fun symm => ⟨?_, fun c => ?_⟩) ?_
    fun _ => rfl, ?_⟩
  · rintro c conn ⟨⟩
  · rintro c e kind ⟨⟩
  · exact ⟨by rintro e ⟨⟩, by rintro e ⟨⟩⟩
  · intro hal
    cases hal
  · rintro c c' e e' ⟨⟩

theorem Inv.step (h : Inv sess n) (hs : Solo.step sess n e = some n') : Inv sess n' := by
  obtain ⟨symm, huniform, hfits⟩ := h.phase.uniform
  refine ⟨?_, ?_⟩
  · cases e with
    | client ev =>
      obtain ⟨hlocal, hact⟩ := Option.ite_none_right_eq_some.mp hs
      obtain ⟨cl, sent, hstep, rfl⟩ := act_eq hact
      refine h.phase.act hstep ?_ (fun m hm => hm) fun _ _ => modesFit_of_isLocal hlocal
      rintro ip port rfl
      cases hlocal
    | connect peerIp peerPort probedIp probedPort =>
      obtain ⟨m, hact, hm⟩ := Option.bind_eq_some_iff.mp hs
      obtain ⟨cl, sent, hstep, rfl⟩ := act_eq hact
      obtain ⟨st, sends, haccept, rfl⟩ := react_eq hm
      obtain ⟨_, heq⟩ := Option.ite_none_left_eq_some.mp haccept
      cases heq
      have hconnect := @Phase.connect sess n h.phase peerIp peerPort probedIp probedPort _ _ hstep
      simpa [toSession] using hconnect
    | deliver =>
      simp only [Solo.step] at hs
      split at hs
      · cases hs
      · rename_i msg rest hdown
        obtain ⟨cl, sent, hstep, rfl⟩ := act_eq hs
        refine h.phase.act hstep (by rintro _ _ ⟨⟩) (fun m hm => ?_) fun symm hall => ?_
        · rw [hdown]
          exact List.mem_cons_of_mem _ hm
        · exact hall msg (by simp [hdown])
    | signal connId next =>
      obtain ⟨hlink, heq⟩ := Option.ite_none_right_eq_some.mp hs
      cases heq
      exact h.phase.signal (by cases next <;> rfl) hlink
    | serve =>
      simp only [Solo.step] at hs
      split at hs
      · cases hs
      · rename_i msg rest hup
        exact h.phase.serve hup hs
    | drop => exact h.phase.drop hs
    | other sev =>
      obtain ⟨hne, hreact⟩ := Option.ite_none_left_eq_some.mp hs
      exact h.phase.other hne hreact
  · rcases step_client hs with ⟨_, heq⟩ | ⟨ev, sent, hev, hstep⟩
    · rw [heq]
      exact h.exclusive
    · refine Client.step_exclusive hstep huniform ?_ h.exclusive
      cases e with
      | client ev' =>
        obtain ⟨hlocal, _⟩ := Option.ite_none_right_eq_some.mp hs
        obtain rfl := Option.some.inj hev
        exact modesFit_of_isLocal hlocal
      | connect =>
        obtain rfl := Option.some.inj hev
        trivial
      | deliver =>
        obtain ⟨msg, hmsg, rfl⟩ := Option.map_eq_some_iff.mp hev
        exact hfits msg (List.mem_of_mem_head? hmsg)
      | signal | serve | drop | other => cases hev

/-- What has been seen of the client since its start. -/
def history (sess : Nat) (n₀ : Solo) (es : List Event)
    (f : Client → Node.MasterClient.Event → List ConnId) : List ConnId :=
  trace (step sess) (see f) n₀ es

theorem queued_of_run {n₀ : Solo} {es : List Event} (hrun : exec (step sess) n₀ es = some n) :
    Client.Queued n₀.client.rendezvousConnIds n.client.rendezvousConnIds
      (history sess n₀ es Client.pushed) (history sess n₀ es Client.left)
      (history sess n₀ es Client.removed) := by
  refine exec_induction
    (motive := fun es n => Client.Queued n₀.client.rendezvousConnIds n.client.rendezvousConnIds
      (history sess n₀ es Client.pushed) (history sess n₀ es Client.left)
      (history sess n₀ es Client.removed)) (Client.Queued.same _) ?_ hrun
  intro es n e n' hn ih hs
  unfold history at ih ⊢
  rw [trace_snoc _ hn, trace_snoc _ hn, trace_snoc _ hn]
  refine ih.trans ?_
  rcases step_client hs with ⟨hev, heq⟩ | ⟨ev, sent, hev, hstep⟩
  · simp only [see, hev]
    exact .of_eq (by rw [heq])
  · simp only [see, hev]
    exact Client.step_queued hstep

/-- At most one session of mode `SymmConn` runs, and ids leave the queue in the order in which
they have come: those that have left at the front, followed by those that still wait, are the
pushed ones without the removed ones. -/
theorem one_spreading_connector {nodeId : Nat} {routes : List RouteEntry} {bestEffort : Bool}
    {es : List Event} (hrun : exec (step sess) (init nodeId routes bestEffort) es = some n) :
    (∀ c c' e e', n.client.connStates.find? c = some e → n.client.connStates.find? c' = some e' →
      e.mode = some .symmConn → e.started = true →
      e'.mode = some .symmConn → e'.started = true → c = c') ∧
    (history sess (init nodeId routes bestEffort) es Client.left ++
        n.client.rendezvousConnIds).Sublist
      (history sess (init nodeId routes bestEffort) es Client.pushed) ∧
    ∀ c, (history sess (init nodeId routes bestEffort) es Client.pushed).count c =
      (history sess (init nodeId routes bestEffort) es Client.left ++
        n.client.rendezvousConnIds).count c +
      (history sess (init nodeId routes bestEffort) es Client.removed).count c := by
  have hinv : Inv sess n :=
    exec_invariant (fun _ _ _ h hs => h.step hs) (Inv.init sess nodeId routes bestEffort) hrun
  have hqueued := queued_of_run hrun
  refine ⟨fun c c' e e' he he' hm hs hm' hs' => ?_, hqueued.order, hqueued.count⟩
  exact hinv.exclusive c c' e e' he he' (by simp [ConnState.spreads, hm, hs])
    (by simp [ConnState.spreads, hm', hs'])

/-- A client behind a symmetric NAT registers two connections to a node that is not: the
session of the first runs, and the second has to wait although its mode is known. -/
def spreading : List Event :=
  [.other (.accept 2 20 200), .other (.msg 2 (.hello 2 0 0)), .connect 10 100 9 5, .serve,
    .client (.registerConnection 7 80), .client (.registerConnection 7 80), .serve, .deliver,
    .client (.run 0 true true), .client (.run 0 true true), .serve, .deliver,
    .client (.run 0 true true)]

theorem one_spreading_connector_waits :
    ∃ n, exec (step 1) (init 1 [{ nodeId := some 2 }] false) spreading = some n ∧
      ((n.client.connStates.find? ⟨1, 1⟩).any ConnState.spreads = true ∧
        (n.client.connStates.find? ⟨1, 2⟩).any (fun e => e.mode = some .symmConn) = true) ∧
      (∀ c c' e e', n.client.connStates.find? c = some e →
        n.client.connStates.find? c' = some e' → e.mode = some .symmConn → e.started = true →
        e'.mode = some .symmConn → e'.started = true → c = c') ∧
      n.client.rendezvousConnIds = [⟨1, 2⟩] ∧
      ((⟨1, 1⟩ : ConnId) :: n.client.rendezvousConnIds).Sublist
        (history 1 (init 1 [{ nodeId := some 2 }] false) spreading Client.pushed) := by
  obtain ⟨n, hrun, hstate, hqueue⟩ : ∃ n,
      exec (step 1) (init 1 [{ nodeId := some 2 }] false) spreading = some n ∧
      ((n.client.connStates.find? ⟨1, 1⟩).any ConnState.spreads = true ∧
        (n.client.connStates.find? ⟨1, 2⟩).any (fun e => e.mode = some .symmConn) = true) ∧
      n.client.rendezvousConnIds = [⟨1, 2⟩] := exec_check (by decide +kernel)
  obtain ⟨hone, horder, _⟩ := one_spreading_connector hrun
  have hleft : history 1 (init 1 [{ nodeId := some 2 }] false) spreading Client.left =
      [⟨1, 1⟩] := by decide +kernel
  rw [hleft] at horder
  exact ⟨n, hrun, hstate, hone, hqueue, horder⟩

end Solo

end DTun.Net
