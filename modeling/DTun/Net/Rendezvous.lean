import DTun.Net.Honest
import DTun.Node.MasterClient.FreshIds
import DTun.Node.MasterClient.Rendezvous

/-!
# The rendezvous queue in the network

Among honest nodes the front of the queue of a client is always one of the three things
that it may wait for, as long as ids are free when they are taken: `registerConnection`
does not draw an id that has an entry, and a connection is not offered again while a proxy
for it is being started. How the handlers of one client interleave is left open.

The first condition fails in the end: `nextConnIdx_` wraps around and skips 0, but not the
ids that are in use. A connection that is still waiting for its reply when all other
indices have been used is overwritten by a new one, and the queue stands still.
-/

namespace DTun.Net

open DTun.Lib DTun.Lib.Runs DTun.Node.MasterClient

variable {w w' : World} {e : Event} {es : List Event}

/-- The invariant of the clients. -/
def Steady (w : World) : Prop :=
  ∀ s cl, w.client s = some cl → Node.MasterClient.Steady cl cl.pending

theorem steady_connect {cl : Client} (hlink : cl.link = .idle ∨ cl.link = .probe)
    (h : Node.MasterClient.Steady cl cl.pending) :
    Node.MasterClient.Steady { cl with link := .server } cl.pending := by
  refine ⟨h.owned, h.accounted, h.moded, by simp, fun _ => ?_⟩
  rcases hlink with hidle | hprobe
  · refine Or.inr fun c hc => ?_
    rw [h.idle hidle] at hc
    cases hc
  · exact h.front (by simp [Client.hasConn, hprobe])

theorem step_steady (hhonest : Honest w) (hstep : w.step e = some w')
    (hok : World.Each IdsFree w e) (h : Steady w) : Steady w' := by
  intro s cl' hcl'
  rcases World.step_client hstep hcl' with
    hsame | ⟨nodeId, routes, bestEffort, rfl⟩ | ⟨cl, hcl, hlink, rfl⟩ |
      ⟨cl, ev, sent, hcl, hs, _, hrecv, hP⟩
  · exact h s cl' hsame
  · exact (Client.sound_new nodeId routes bestEffort).toSteady
  · exact steady_connect hlink (h s cl hcl)
  · exact Client.step_steady hs (h s cl hcl) (hhonest.offer hcl hrecv) (hP _ hok)

theorem steady_of_run (hrun : World.Run es w)
    (hok : Along World.step (World.Each IdsFree) World.init es) : Steady w := by
  have key : Honest w ∧ Steady w := by
    refine exec_invariant_along (I := fun w => Honest w ∧ Steady w) ?_
      ⟨Honest.init, by simp [Steady, World.init]⟩ hok hrun
    rintro w e w' ⟨hhonest, hsteady⟩ hstep hs
    exact ⟨hhonest.step hs, step_steady hhonest hs hstep hsteady⟩
  exact key.2

/-- The entry of `c` has a started session of mode `SymmConn`. -/
def RunsSymmConn (cl : Client) (c : ConnId) : Prop :=
  ∃ e, cl.connStates.find? c = some e ∧ e.started = true ∧ e.mode = some .symmConn

/-- What the front of the queue may wait for: the reply to its request, or the end of
another connection's `SymmConn` session. -/
def FrontWaits (cl : Client) (c : ConnId) (e : ConnState) : Prop :=
  (e.mode = none ∧ e.status = .pending) ∨
    (e.mode = some .symmConn ∧ ∃ c', c' ≠ c ∧ RunsSymmConn cl c') ∨
    (e.mode = none ∧ e.status = .none ∧ ∃ c', RunsSymmConn cl c')

theorem runsSymmConn_of_running {cl : Client} (h : cl.symmConnRunning = true) :
    ∃ c, RunsSymmConn cl c := by
  obtain ⟨c, e, he, hrun⟩ := (OrderedMap.any_iff _ _).mp h
  simp only [Bool.and_eq_true, decide_eq_true_eq] at hrun
  exact ⟨c, e, he, hrun⟩

/-- In every run of a server and any number of honest nodes whose steps all meet `IdsFree`:
whenever no handler of a client with a connection is running, the front of its queue is
one of the three. -/
theorem front_never_stalls (hrun : World.Run es w)
    (hok : Along World.step (World.Each IdsFree) World.init es) :
    ∀ s cl, w.client s = some cl → cl.threads = [] → cl.hasConn = true → cl.closing = false →
      ∀ c rest, cl.rendezvousConnIds = c :: rest →
        ∃ e, cl.connStates.find? c = some e ∧ FrontWaits cl c e := by
  intro s cl hcl hthreads hconn _ c rest hqueue
  have hsteady := steady_of_run hrun hok s cl hcl
  have hpending : cl.pending = [] := by simp [Client.pending, hthreads]
  rw [hpending] at hsteady
  obtain ⟨e, he, hwaits⟩ := (hsteady.front hconn).resolve_left (by simp) c (by simp [hqueue])
  refine ⟨e, he, ?_⟩
  rcases hwaits with hpend | ⟨hmode, hsymm⟩ | ⟨hmode, hstatus, hsymm⟩
  · exact Or.inl hpend
  · obtain ⟨c', hc'⟩ := runsSymmConn_of_running hsymm
    refine Or.inr (Or.inl ⟨hmode, c', ?_, hc'⟩)
    -- the front itself has not been started
    rintro rfl
    obtain ⟨e', he', hstarted, _⟩ := hc'
    obtain ⟨e₀, he₀, hnot, _⟩ := (hsteady.accounted c').waiting (by simp [hqueue])
    obtain rfl := Option.some.inj (he'.symm.trans he₀)
    rw [hstarted] at hnot
    cases hnot
  · exact Or.inr (Or.inr ⟨hmode, hstatus, runsSymmConn_of_running hsymm⟩)

/-- Two connections are registered: the first waits for its reply, the second behind it. -/
theorem front_never_stalls_pending :
    ∃ w cl e, World.Run [.boot 1 1 [{ nodeId := some 2 }] false, .connect 1 10 100 0 0,
        .client 1 (.registerConnection 7 80), .client 1 (.registerConnection 7 80)] w ∧
      w.client 1 = some cl ∧ cl.rendezvousConnIds = [⟨1, 1⟩, ⟨1, 2⟩] ∧
      cl.connStates.find? ⟨1, 1⟩ = some e ∧ FrontWaits cl ⟨1, 1⟩ e := by
  obtain ⟨w, hw, hstate⟩ : ∃ w, World.Run [.boot 1 1 [{ nodeId := some 2 }] false,
      .connect 1 10 100 0 0, .client 1 (.registerConnection 7 80),
      .client 1 (.registerConnection 7 80)] w ∧
      ((w.client 1).map fun cl =>
        (cl.rendezvousConnIds, cl.threads, cl.hasConn, cl.closing)) =
        some ([⟨1, 1⟩, ⟨1, 2⟩], [], true, false) := exec_check (by decide +kernel)
  obtain ⟨cl, hcl, hfields⟩ := Option.map_eq_some_iff.mp hstate
  simp only [Prod.mk.injEq] at hfields
  obtain ⟨hqueue, hthreads, hconn, hclosing⟩ := hfields
  obtain ⟨e, he, hwaits⟩ := front_never_stalls hw (by decide +kernel) 1 cl hcl hthreads hconn
    hclosing ⟨1, 1⟩ [⟨1, 2⟩] hqueue
  exact ⟨w, cl, e, hw, hcl, hqueue, he, hwaits⟩

theorem step_local {s : Nat} {ev : Node.MasterClient.Event} {cl cl' : Client} {sent : List UpMsg}
    (hcl : w.client s = some cl) (hlocal : isLocal ev = true)
    (hs : cl.step ev = some (cl', sent)) :
    ∃ w', w.step (.client s ev) = some w' ∧ w'.client s = some cl' := by
  refine ⟨w.setClient s cl' sent, ?_, Function.update_self _ _ _⟩
  simp [World.step, hlocal, hcl, hs]

/-- What a client can do alone it can do in the network. -/
theorem exec_client {s : Nat} {evs : List Node.MasterClient.Event} {cl cl' : Client}
    (hcl : w.client s = some cl) (hlocal : ∀ ev ∈ evs, isLocal ev = true)
    (h : exec Client.stepped cl evs = some cl') :
    ∃ w', exec World.step w (evs.map (.client s)) = some w' ∧ w'.client s = some cl' := by
  induction evs generalizing w cl with
  | nil =>
    obtain rfl := Option.some.inj h
    exact ⟨w, rfl, hcl⟩
  | cons ev evs ih =>
    obtain ⟨cl₁, hcl₁, hrest⟩ := Option.bind_eq_some_iff.mp h
    obtain ⟨sent, hs⟩ := Client.stepped_eq_some hcl₁
    obtain ⟨w₁, hw₁, hcl₁⟩ := step_local hcl (hlocal ev List.mem_cons_self) hs
    obtain ⟨w', hw', hcl'⟩ := ih hcl₁ (fun ev hev => hlocal ev (List.mem_cons_of_mem _ hev)) hrest
    exact ⟨w', exec_of_step hw₁ hw', hcl'⟩

/-- Node 1 connects and registers a connection; the server is slow to answer. Meanwhile `n` others
are registered, each of which is closed before the next one. -/
def outlived (n : Nat) : List Event :=
  [.boot 1 1 [{ nodeId := some 2 }] false, .connect 1 10 100 0 0] ++
    (Client.outliving n).tail.map (.client 1)

theorem run_outlived {n : Nat} {cl : Client}
    (h : Client.Run 1 [{ nodeId := some 2 }] false (Client.outliving n) cl) :
    ∃ w, World.Run (outlived n) w ∧ w.client 1 = some cl := by
  obtain ⟨w₀, cl₀, hw₀, hcl₀, hconnected⟩ :
      ∃ w₀ cl₀, World.Run [.boot 1 1 [{ nodeId := some 2 }] false, .connect 1 10 100 0 0] w₀ ∧
        w₀.client 1 = some cl₀ ∧
        Client.stepped { nodeId := 1, routes := [{ nodeId := some 2 }], bestEffort := false }
          (.connected 0 0) = some cl₀ := ⟨_, _, rfl, rfl, rfl⟩
  obtain ⟨cl₁, hcl₁, hrest⟩ := Option.bind_eq_some_iff.mp h
  cases hconnected.symm.trans hcl₁
  have hlocal : ∀ ev ∈ (Client.outliving n).tail, isLocal ev = true := by
    simp only [Client.outliving, Client.passing, List.cons_append, List.tail_cons,
      List.nil_append, List.mem_cons, List.mem_flatMap, List.not_mem_nil, or_false]
    rintro ev (rfl | ⟨_, _, rfl | rfl | rfl | rfl⟩) <;> rfl
  obtain ⟨w, hw, hcl⟩ := exec_client hcl₀ hlocal hrest
  refine ⟨w, ?_, hcl⟩
  rw [World.Run, outlived, exec_append, hw₀]
  exact hw

/-- The next registration takes the id of the first connection when the index has come
round to 0. -/
theorem stalled_after {n : Nat} (hn : n + 2 = 2 ^ 32) :
    ∃ w cl e, World.Run (outlived n ++ [.client 1 (.registerConnection 7 80)]) w ∧
      w.client 1 = some cl ∧ cl.threads = [] ∧ cl.hasConn = true ∧ cl.closing = false ∧
      cl.rendezvousConnIds = [⟨1, 1⟩, ⟨1, 1⟩] ∧ cl.connStates.find? ⟨1, 1⟩ = some e ∧
      ¬ FrontWaits cl ⟨1, 1⟩ e := by
  obtain ⟨cl₁, hrun, hparked, hnext⟩ := Client.run_outliving_cycle hn
  obtain ⟨w₁, hw₁, hcl₁⟩ := run_outlived hrun
  have hregisters := hparked.registers
  rw [hnext] at hregisters
  obtain ⟨sent, hs⟩ := Client.stepped_eq_some hregisters
  obtain ⟨w, hw, hcl⟩ := step_local hcl₁ rfl hs
  refine ⟨w, _, _, exec_snoc_iff.mpr ⟨w₁, hw₁, hw⟩, hcl, hparked.threads, hparked.hasConn,
    hparked.closing, rfl, OrderedMap.find?_insert_self _, ?_⟩
  -- the new entry has been neither sent nor started, and it is the only one
  rintro (⟨_, hstatus⟩ | ⟨hmode, _⟩ | ⟨_, _, c, e, he, hstarted, _⟩)
  · cases hstatus
  · cases hmode
  · by_cases hc : c = ⟨1, 1⟩
    · subst hc
      obtain rfl := Option.some.inj ((OrderedMap.find?_insert_self _).symm.trans he)
      cases hstarted
    · have hnone := (OrderedMap.find?_insert_of_ne _ hc).symm.trans he
      rw [hparked.alone hc] at hnone
      cases hnone

/-- After all other indices have been used, the next registration overwrites the first
connection, which still waits, and puts its id into the queue a second time. The entry at
the front has then not been sent, and nothing is running that will end. -/
theorem reused_index_stalls :
    ∃ w cl e, World.Run (outlived (2 ^ 32 - 2) ++ [.client 1 (.registerConnection 7 80)]) w ∧
      w.client 1 = some cl ∧ cl.threads = [] ∧ cl.hasConn = true ∧ cl.closing = false ∧
      cl.rendezvousConnIds = [⟨1, 1⟩, ⟨1, 1⟩] ∧ cl.connStates.find? ⟨1, 1⟩ = some e ∧
      ¬ FrontWaits cl ⟨1, 1⟩ e :=
  stalled_after (by omega)

end DTun.Net
