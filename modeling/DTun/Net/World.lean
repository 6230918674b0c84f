import DTun.Master.Server
import DTun.Node.MasterClient.View

/-!
# One server and its nodes

The server, any number of clients, and a FIFO channel each way between the server and
every session. A client is named by the number of its persistent session: a node that
loses its connection and comes back is a new client, with fresh state, under the same node
id. Side sessions are those that the rendezvous sessions and the probes open: they say one
`HELLO_*` and nothing else.

Either end may lose a connection at any time. What is in flight then may still arrive or
not; the numbers of sessions are not used again.
-/

namespace DTun.Net

open DTun.Lib DTun.Lib.Runs DTun.Master DTun.Node.MasterClient

structure World where
  server : Server
  client : Nat → Option Client
  up : Nat → List UpMsg
  down : Nat → List DownMsg

def World.init : World where
  server := .init
  client := fun _ => none
  up := fun _ => []
  down := fun _ => []

/-- The first message of a side session. -/
inductive SideHello where
  | probe
  | fast (nodeId : Nat) (connId : ConnId)
  | symm (nodeId : Nat) (connId : ConnId)
  deriving DecidableEq, Repr

def SideHello.msg : SideHello → UpMsg
  | .probe => .helloProbe
  | .fast nodeId connId => .helloFast nodeId connId
  | .symm nodeId connId => .helloSymm nodeId connId

inductive Event where
  /-- A node starts a client, which will use session `s`. -/
  | boot (s nodeId : Nat) (routes : List RouteEntry) (bestEffort : Bool)
  /-- The client's connection to the server is made. -/
  | connect (s peerIp peerPort probedIp probedPort : Nat)
  /-- Anything else that a client does by itself. -/
  | client (s : Nat) (ev : Node.MasterClient.Event)
  /-- The client of `s` reads a message. -/
  | deliver (s : Nat)
  /-- A rendezvous session of the client sends `READY`, or `NEXT`. -/
  | signal (s : Nat) (connId : ConnId) (next : Bool)
  | side (s peerIp peerPort : Nat) (hello : SideHello)
  /-- The server reads a message of session `s`. -/
  | serve (s : Nat)
  /-- The server finds session `s` broken. -/
  | drop (s : Nat)
  deriving DecidableEq, Repr

/-- The events of a client in which nobody else takes part. -/
def isLocal : Node.MasterClient.Event → Bool
  | .connected _ _ => false
  | .recv _ => false
  | _ => true

/-- The messages for one session. -/
def toSession (sends : Sends) (s : Nat) : List DownMsg :=
  (sends.filter (fun x => x.1 = s)).map Prod.snd

@[simp] theorem toSession_nil (s : Nat) : toSession [] s = [] := rfl

theorem mem_toSession {sends : Sends} {s : Nat} {m : DownMsg} :
    m ∈ toSession sends s ↔ (s, m) ∈ sends := by
  simp [toSession]

namespace World

/-- What the server sends goes to the end of the channels. -/
def post (down : Nat → List DownMsg) (sends : Sends) : Nat → List DownMsg :=
  fun s => down s ++ toSession sends s

def setClient (w : World) (s : Nat) (cl : Client) (sent : List UpMsg) : World :=
  { w with
    client := Function.update w.client s (some cl)
    up := Function.update w.up s (w.up s ++ sent) }

def step (w : World) : Event → Option World
  | .boot s nodeId routes bestEffort =>
    if w.client s = none ∧ w.server.alive s = false ∧ w.up s = [] ∧ w.down s = [] then
      some (w.setClient s { nodeId := nodeId, routes := routes, bestEffort := bestEffort } [])
    else none
  | .connect s peerIp peerPort probedIp probedPort =>
    (w.client s).bind fun cl => (cl.step (.connected probedIp probedPort)).bind fun (cl', sent) =>
      if w.server.alive s then none
      else some { w.setClient s cl' sent with server := w.server.onAccept s peerIp peerPort }
  | .client s ev =>
    if isLocal ev then
      (w.client s).bind fun cl => (cl.step ev).bind fun (cl', sent) => some (w.setClient s cl' sent)
    else none
  | .deliver s =>
    match w.down s with
    | [] => none
    | msg :: rest =>
      (w.client s).bind fun cl => (cl.step (.recv msg)).bind fun (cl', sent) =>
        some { w.setClient s cl' sent with down := Function.update w.down s rest }
  | .signal s connId next =>
    (w.client s).bind fun cl =>
      if cl.link = .server then
        some { w with
          up := Function.update w.up s
            (w.up s ++ [if next then .next connId else .ready connId]) }
      else none
  | .side s peerIp peerPort hello =>
    if w.client s = none ∧ w.server.alive s = false ∧ w.up s = [] then
      some { w with
        server := w.server.onAccept s peerIp peerPort
        up := Function.update w.up s [hello.msg] }
    else none
  | .serve s =>
    match w.up s with
    | [] => none
    | msg :: rest =>
      some { w with
        server := (w.server.recv s msg).1
        up := Function.update w.up s rest
        down := post w.down (w.server.recv s msg).2 }
  | .drop s =>
    some { w with
      server := (w.server.onSessionError s).1
      down := post w.down (w.server.onSessionError s).2 }

abbrev Run (es : List Event) (w : World) : Prop := exec step init es = some w

variable {w w' : World} {e : Event}

/-- A client after one of them has been replaced. -/
theorem update_client {client : Nat → Option Client} {s t : Nat} {cl cl₁ : Client}
    (h : Function.update client s (some cl) t = some cl₁) :
    (t = s ∧ cl₁ = cl) ∨ (t ≠ s ∧ client t = some cl₁) := by
  by_cases hts : t = s
  · subst hts
    rw [Function.update_self] at h
    exact Or.inl ⟨rfl, (Option.some.inj h).symm⟩
  · rw [Function.update_of_ne hts] at h
    exact Or.inr ⟨hts, h⟩

/-- All that a step can be. The events of a client, in whichever way they come about, are
one case. -/
inductive Step (w : World) : Event → World → Prop where
  | boot {s nodeId : Nat} {routes : List RouteEntry} {bestEffort : Bool}
      (hnone : w.client s = none) (hdead : w.server.alive s = false) (hup : w.up s = [])
      (hdown : w.down s = []) :
    Step w (.boot s nodeId routes bestEffort)
      (w.setClient s { nodeId := nodeId, routes := routes, bestEffort := bestEffort } [])
  | connect {s peerIp peerPort probedIp probedPort : Nat} {cl : Client}
      (hcl : w.client s = some cl) (hlink : cl.link = .idle ∨ cl.link = .probe)
      (hdead : w.server.alive s = false) :
    Step w (.connect s peerIp peerPort probedIp probedPort)
      { w.setClient s { cl with link := .server } [.hello cl.nodeId probedIp probedPort] with
        server := w.server.onAccept s peerIp peerPort }
  | client {s : Nat} {ev : Node.MasterClient.Event} {cl cl' : Client} {sent : List UpMsg}
      (hcl : w.client s = some cl) (hlocal : isLocal ev = true)
      (hstep : cl.step ev = some (cl', sent)) :
    Step w (.client s ev) (w.setClient s cl' sent)
  | deliver {s : Nat} {msg : DownMsg} {rest : List DownMsg} {cl cl' : Client} {sent : List UpMsg}
      (hcl : w.client s = some cl) (hdown : w.down s = msg :: rest)
      (hstep : cl.step (.recv msg) = some (cl', sent)) :
    Step w (.deliver s) { w.setClient s cl' sent with down := Function.update w.down s rest }
  | signal {s : Nat} {connId : ConnId} {next : Bool} {cl : Client} (hcl : w.client s = some cl)
      (hlink : cl.link = .server) :
    Step w (.signal s connId next)
      { w with
        up := Function.update w.up s (w.up s ++ [if next then .next connId else .ready connId]) }
  | side {s peerIp peerPort : Nat} {hello : SideHello} (hnone : w.client s = none)
      (hdead : w.server.alive s = false) (hup : w.up s = []) :
    Step w (.side s peerIp peerPort hello)
      { w with
        server := w.server.onAccept s peerIp peerPort
        up := Function.update w.up s [hello.msg] }
  | serve {s : Nat} {msg : UpMsg} {rest : List UpMsg} (hup : w.up s = msg :: rest) :
    Step w (.serve s)
      { w with
        server := (w.server.recv s msg).1
        up := Function.update w.up s rest
        down := post w.down (w.server.recv s msg).2 }
  | drop {s : Nat} :
    Step w (.drop s)
      { w with
        server := (w.server.onSessionError s).1
        down := post w.down (w.server.onSessionError s).2 }

theorem step_cases (h : w.step e = some w') : Step w e w' := by
  cases e with
  | boot s nodeId routes bestEffort =>
    obtain ⟨⟨hnone, hdead, hup, hdown⟩, heq⟩ := Option.ite_none_right_eq_some.mp h
    cases heq
    exact .boot hnone hdead hup hdown
  | connect s peerIp peerPort probedIp probedPort =>
    obtain ⟨cl, hcl, h⟩ := Option.bind_eq_some_iff.mp h
    obtain ⟨⟨cl', sent⟩, hstep, h⟩ := Option.bind_eq_some_iff.mp h
    obtain ⟨hdead, heq⟩ := Option.ite_none_left_eq_some.mp h
    obtain ⟨hlink, hcl'⟩ := Option.ite_none_right_eq_some.mp hstep
    cases heq
    cases hcl'
    exact .connect hcl hlink (by simpa using hdead)
  | client s ev =>
    obtain ⟨hlocal, h⟩ := Option.ite_none_right_eq_some.mp h
    obtain ⟨cl, hcl, h⟩ := Option.bind_eq_some_iff.mp h
    obtain ⟨⟨cl', sent⟩, hstep, h⟩ := Option.bind_eq_some_iff.mp h
    cases h
    exact .client hcl hlocal hstep
  | deliver s =>
    simp only [step] at h
    split at h
    · cases h
    · rename_i msg rest hdown
      obtain ⟨cl, hcl, h⟩ := Option.bind_eq_some_iff.mp h
      obtain ⟨⟨cl', sent⟩, hstep, h⟩ := Option.bind_eq_some_iff.mp h
      cases h
      exact .deliver hcl hdown hstep
  | signal s connId next =>
    obtain ⟨cl, hcl, h⟩ := Option.bind_eq_some_iff.mp h
    obtain ⟨hlink, heq⟩ := Option.ite_none_right_eq_some.mp h
    cases heq
    exact .signal hcl hlink
  | side s peerIp peerPort hello =>
    obtain ⟨⟨hnone, hdead, hup⟩, heq⟩ := Option.ite_none_right_eq_some.mp h
    cases heq
    exact .side hnone hdead hup
  | serve s =>
    simp only [step] at h
    split at h
    · cases h
    · rename_i msg rest hup
      cases h
      exact .serve hup
  | drop s =>
    cases h
    exact .drop

/-- A condition on the events of every client, as a condition on the network. -/
def Each (P : Client → Node.MasterClient.Event → Prop) (w : World) : Event → Prop
  | .client s ev => ∀ cl ∈ w.client s, P cl ev
  | .deliver s => ∀ cl ∈ w.client s, ∀ msg ∈ (w.down s).head?, P cl (.recv msg)
  | _ => True

instance Each.instDecidable (P : Client → Node.MasterClient.Event → Prop)
    [∀ cl ev, Decidable (P cl ev)] (w : World) : ∀ e, Decidable (Each P w e)
  | .client s ev => inferInstanceAs (Decidable (∀ cl ∈ w.client s, P cl ev))
  | .deliver s =>
    inferInstanceAs (Decidable (∀ cl ∈ w.client s, ∀ msg ∈ (w.down s).head?, P cl (.recv msg)))
  | .boot _ _ _ _ => .isTrue trivial
  | .connect _ _ _ _ _ => .isTrue trivial
  | .signal _ _ _ => .isTrue trivial
  | .side _ _ _ _ => .isTrue trivial
  | .serve _ => .isTrue trivial
  | .drop _ => .isTrue trivial

/-- What a step does to the client of one session: nothing, or it is a new client, or one
whose connection is made, or one that takes a step of its own. -/
theorem step_client {s : Nat} {cl' : Client} (h : w.step e = some w')
    (hcl' : w'.client s = some cl') :
    w.client s = some cl' ∨
    (∃ nodeId routes bestEffort,
      cl' = { nodeId := nodeId, routes := routes, bestEffort := bestEffort }) ∨
    (∃ cl, w.client s = some cl ∧ (cl.link = .idle ∨ cl.link = .probe) ∧
      cl' = { cl with link := .server }) ∨
    ∃ cl ev sent, w.client s = some cl ∧ cl.step ev = some (cl', sent) ∧
      (∀ ip port, ev ≠ .connected ip port) ∧ (∀ msg, ev = .recv msg → msg ∈ w.down s) ∧
      ∀ P : Client → Node.MasterClient.Event → Prop, Each P w e → P cl ev := by
  cases step_cases h with
  | @boot t _ _ _ =>
    by_cases hts : s = t
    · subst hts
      simp only [setClient, Function.update_self, Option.some.injEq] at hcl'
      exact Or.inr (Or.inl ⟨_, _, _, hcl'.symm⟩)
    · simp only [setClient, Function.update_of_ne hts] at hcl'
      exact Or.inl hcl'
  | @connect t _ _ _ _ cl hcl hlink =>
    by_cases hts : s = t
    · subst hts
      simp only [setClient, Function.update_self, Option.some.injEq] at hcl'
      exact Or.inr (Or.inr (Or.inl ⟨cl, hcl, hlink, hcl'.symm⟩))
    · simp only [setClient, Function.update_of_ne hts] at hcl'
      exact Or.inl hcl'
  | @client t ev cl _ sent hcl hlocal hstep =>
    by_cases hts : s = t
    · subst hts
      simp only [setClient, Function.update_self, Option.some.injEq] at hcl'
      subst hcl'
      refine Or.inr (Or.inr (Or.inr ⟨cl, ev, sent, hcl, hstep, ?_, ?_, fun P hP => hP cl hcl⟩))
      · rintro ip port rfl
        cases hlocal
      · rintro msg rfl
        cases hlocal
    · simp only [setClient, Function.update_of_ne hts] at hcl'
      exact Or.inl hcl'
  | @deliver t msg rest cl _ sent hcl hdown hstep =>
    by_cases hts : s = t
    · subst hts
      simp only [setClient, Function.update_self, Option.some.injEq] at hcl'
      subst hcl'
      refine Or.inr (Or.inr (Or.inr ⟨cl, .recv msg, sent, hcl, hstep, by simp, ?_, ?_⟩))
      · rintro _ ⟨⟩
        simp [hdown]
      · exact fun P hP => hP cl hcl msg (by simp [hdown])
    · simp only [setClient, Function.update_of_ne hts] at hcl'
      exact Or.inl hcl'
  | signal => exact Or.inl hcl'
  | side => exact Or.inl hcl'
  | serve => exact Or.inl hcl'
  | drop => exact Or.inl hcl'

end World

end DTun.Net
