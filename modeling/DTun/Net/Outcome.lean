import DTun.Net.Honest
import DTun.Node.MasterClient.Outcome

/-!
# Outcomes in the network

Among honest nodes the outcomes of all registered connections are in order as long as no
step of a client meets one of the three situations that `OutcomeOk` excludes. The first of
them does happen: when a client has reported success, the server may still hear of the
other node's failure first, and the error that it then sends finds the callback.
-/

namespace DTun.Net

open DTun.Lib.Runs DTun.Node.MasterClient

variable {w w' : World} {e : Event} {es : List Event}

/-- What holds of a client whose steps meet `OutcomeOk`. -/
def InOrder (cl : Client) : Prop :=
  ∀ c, (c.nodeId = cl.nodeId → Accounted (cl.view c)) ∧
    Node.MasterClient.Outcome c (cl.view c)

theorem inOrder_new (nodeId : Nat) (routes : List RouteEntry) (bestEffort : Bool) :
    InOrder { nodeId := nodeId, routes := routes, bestEffort := bestEffort } := by
  intro c
  refine ⟨fun _ => ⟨?_, ?_, ?_, ?_⟩, ?_, ?_, ?_, ?_, ?_⟩ <;>
    simp [Client.view, Client.pending]

theorem step_inOrder (hhonest : Honest w) (hstep : w.step e = some w')
    (hok : World.Each OutcomeOk w e) (h : ∀ s cl, w.client s = some cl → InOrder cl) :
    ∀ s cl, w'.client s = some cl → InOrder cl := by
  intro s cl' hcl'
  rcases World.step_client hstep hcl' with
    hsame | ⟨nodeId, routes, bestEffort, rfl⟩ | ⟨cl, hcl, _, rfl⟩ |
      ⟨cl, ev, sent, hcl, hs, hne, hrecv, hP⟩
  · exact h s cl' hsame
  · exact inOrder_new nodeId routes bestEffort
  · exact h s cl hcl
  · intro c
    have hev := hP _ hok
    have howned := hhonest.owned s cl hcl c
    obtain ⟨hacc, hout⟩ := h s cl hcl c
    obtain ⟨out, hmove, _⟩ := Client.step_move hs c
    refine ⟨fun hown => ?_, hmove.outcome rfl hev howned hacc hout⟩
    rw [(Client.step_config hs).1] at hown
    refine hmove.accounted rfl ?_ howned (hacc hown)
    -- an id of the node's own is drawn only when it is free, and never offered
    have hoffer := hhonest.offer hcl hrecv
    cases ev with
    | registerConnection ip port =>
      rintro rfl
      exact hev.1
    | recv msg =>
      cases msg with
      | conn connId =>
        rintro rfl
        exact absurd hown hoffer
      | _ => trivial
    | _ => trivial

/-- In every run of a server and any number of honest nodes whose steps all meet
`OutcomeOk`: no callback is invoked twice for one registration, and none after
`closeConnection` has returned. -/
theorem outcomes_in_order (hrun : World.Run es w)
    (hok : Along World.step (World.Each OutcomeOk) World.init es) :
    ∀ s cl, w.client s = some cl → OutcomesInOrder cl.log := by
  have key : Honest w ∧ ∀ s cl, w.client s = some cl → InOrder cl := by
    refine exec_invariant_along (I := fun w => Honest w ∧ ∀ s cl, w.client s = some cl → InOrder cl)
      ?_ ⟨Honest.init, by simp [World.init]⟩ hok hrun
    rintro w e w' ⟨hhonest, hin⟩ hstep hs
    exact ⟨hhonest.step hs, step_inOrder hhonest hs hstep hin⟩
  intro s cl hcl c
  exact ((key.2 s cl hcl) c).2.past

/-- Two nodes meet: node 1 registers a connection to node 2, both sessions start, and
node 1's one succeeds. -/
def meeting : List Event :=
  [.boot 1 1 [{ nodeId := some 2 }] false, .boot 2 2 [] false,
    .connect 1 10 100 0 0, .connect 2 20 200 0 0, .serve 1, .serve 2,
    .client 1 (.registerConnection 7 80), .serve 1,
    .deliver 1, .client 1 (.run 0 true true), .client 1 (.run 0 true true),
    .deliver 2, .client 2 (.run 0 true true), .client 2 (.run 0 true true),
    .client 1 (.rendezvous ⟨1, 1⟩ 0 true), .client 1 (.run 0 true true),
    .client 1 (.run 0 true true)]

/-- The callback is told of the success, once. -/
theorem outcomes_in_order_meeting :
    ∃ w cl, World.Run meeting w ∧ w.client 1 = some cl ∧
      cl.log = [.registered ⟨1, 1⟩, .invoked ⟨1, 1⟩ 0] ∧ OutcomesInOrder cl.log := by
  obtain ⟨w, hw, hlog⟩ : ∃ w, World.Run meeting w ∧
      (w.client 1).map Client.log = some [.registered ⟨1, 1⟩, .invoked ⟨1, 1⟩ 0] :=
    exec_check (by decide +kernel)
  obtain ⟨cl, hcl, hlog⟩ := Option.map_eq_some_iff.mp hlog
  exact ⟨w, cl, hw, hcl, hlog, outcomes_in_order hw (by decide +kernel) 1 cl hcl⟩

/-- Then the server loses node 2 before it has read node 1's report: its error makes
node 1 invoke the callback again. -/
theorem canceled_after_success :
    ∃ w cl, World.Run (meeting ++ [.drop 2, .deliver 1, .client 1 (.run 0 true true)]) w ∧
      w.client 1 = some cl ∧
      cl.log = [.registered ⟨1, 1⟩, .invoked ⟨1, 1⟩ 0, .invoked ⟨1, 1⟩ 0x10] ∧
      ¬ OutcomesInOrder cl.log := by
  obtain ⟨w, hw, hlog⟩ : ∃ w,
      World.Run (meeting ++ [.drop 2, .deliver 1, .client 1 (.run 0 true true)]) w ∧
      (w.client 1).map Client.log =
        some [.registered ⟨1, 1⟩, .invoked ⟨1, 1⟩ 0, .invoked ⟨1, 1⟩ 0x10] :=
    exec_check (by decide +kernel)
  obtain ⟨cl, hcl, hlog⟩ := Option.map_eq_some_iff.mp hlog
  refine ⟨w, cl, hw, hcl, hlog, fun h => ?_⟩
  have := h ⟨1, 1⟩ [.registered ⟨1, 1⟩, .invoked ⟨1, 1⟩ 0] 0x10 [] (by rw [hlog]; decide)
  simp [Armed] at this

end DTun.Net
