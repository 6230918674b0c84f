import DTun.Lib.Lists
import DTun.Node.Rendezvous.Symm.AccTurns
import DTun.Node.Rendezvous.Symm.ConnTurns

/-!
# The symmetric rendezvous in lockstep

In every run of the two sides and the server there is at most one turn. So no two READY or NEXT
are ever in flight, the ports are pinged in order, and whoever uses a reservation has its ports.
-/

namespace DTun.Node.Rendezvous.Symm

open Lib.Lists Lib.Runs
open SymmAcc (Acc windowSize candidatePorts)
open SymmConn (Conn)

/-- The turn in a message, where `x` is that of READY. -/
def Up.turn (x : Turn) : Up → Option Turn
  | .ready => some x
  | .next => some .reply
  | .close _ => none

def Down.turn (x : Turn) : Down → Option Turn
  | .ready => some x
  | .next => some .reply
  | _ => none

namespace State

def accTurns (n : State) : List Turn := n.acc.rSess.elim [] Acc.turns

def connTurns (n : State) : List Turn := n.conn.rSess.elim [] Conn.turns

/-- The turns of the messages: a READY for the connecting side is a request, the other one is
its answer. -/
def flight (n : State) : List Turn :=
  n.accUp.filterMap (Up.turn .request) ++ n.connDown.filterMap (Down.turn .request) ++
    n.connUp.filterMap (Up.turn .answer) ++ n.accDown.filterMap (Down.turn .answer)

def turns (n : State) : List Turn := n.accTurns ++ n.connTurns ++ n.flight

/-- What holds while the turn is somewhere. Only on the way to them may the connecting side be
without ports. -/
def At (n : State) (y : Turn) : Prop :=
  (∀ s, n.acc.rSess = some s → Acc.At s n.pinged y) ∧
    (y ≠ .request → ∀ c, n.conn.rSess = some c → c.HasPorts)

/-- What holds wherever the turn is. -/
structure Base (ports : List Nat) (n : State) : Prop where
  failed : n.failed = false
  acc : ∀ s, n.acc.rSess = some s → Acc.Kept ports n.pinged s
  conn : ∀ c, n.conn.rSess = some c → Conn.Kept c
  pinged : n.pinged <+: ports
  final : n.finalSent = true → ∀ c, n.conn.rSess = some c → c.HasPorts

structure Inv (ports : List Nat) (n : State) : Prop extends Base ports n where
  one : n.turns.length ≤ 1
  now : ∀ y ∈ n.turns, n.At y
  last : n.finalSent = true → ∀ y ∈ n.turns, y = .final

variable {ports : List Nat} {n n' : State} {s t : Acc} {c d : Conn} {x y : Turn}

theorem accTurns_some (hs : n.acc.rSess = some s) : n.accTurns = Acc.turns s := by
  rw [accTurns, hs, Option.elim_some]

theorem accTurns_none (hs : n.acc.rSess = none) : n.accTurns = [] := by
  rw [accTurns, hs, Option.elim_none]

theorem connTurns_none (hc : n.conn.rSess = none) : n.connTurns = [] := by
  rw [connTurns, hc, Option.elim_none]

theorem connTurns_some (hc : n.conn.rSess = some c) : n.connTurns = Conn.turns c := by
  rw [connTurns, hc, Option.elim_some]

/-- No turn is added and nothing is forgotten. -/
theorem Inv.mono (h : Inv ports n) (hbase : Base ports n')
    (hlength : n'.turns.length ≤ n.turns.length) (hmem : ∀ y ∈ n'.turns, y ∈ n.turns)
    (hat : ∀ y, n.At y → n'.At y) (hfinal : n'.finalSent = true → n.finalSent = true) :
    Inv ports n' :=
  ⟨hbase, hlength.trans h.one, fun y hy => hat y (h.now y (hmem y hy)),
    fun hsent y hy => h.last (hfinal hsent) y (hmem y hy)⟩

/-- One turn is there, and it is `y`. -/
theorem Base.inv (h : Base ports n) (hturns : n.turns = [y]) (hnow : n.At y)
    (hlast : n.finalSent = true → y = .final) : Inv ports n := by
  refine ⟨h, hturns ▸ Nat.le_refl 1, fun z hz => ?_, fun hsent z hz => ?_⟩
  · rw [hturns, List.mem_singleton] at hz
    exact hz ▸ hnow
  · rw [hturns, List.mem_singleton] at hz
    exact hz ▸ hlast hsent

theorem Base.inv_none (h : Base ports n) (hturns : n.turns = []) : Inv ports n := by
  refine ⟨h, hturns ▸ Nat.zero_le 1, fun z hz => ?_, fun _ z hz => ?_⟩ <;>
  · rw [hturns] at hz
    exact absurd hz List.not_mem_nil

theorem sends_turns {φ : Type} (established : Bool) (s : Session φ) (x : Turn) :
    (sends established s).filterMap (Up.turn x) = s.acts.filterMap (turnOf x) := by
  have hact (a : Act) : (upOf established a).filterMap (Up.turn x) = (turnOf x a).toList := by
    cases a with
    | done err _ =>
      show List.filterMap _ (if err = 0 then (if established then [] else _) else _) = []
      by_cases herr : err = 0
      · rw [if_pos herr]
        cases established <;> rfl
      · rw [if_neg herr]
        rfl
    | _ => rfl
  have hrefused : (if s.refused then [Up.close false] else []).filterMap (Up.turn x) = [] := by
    cases s.refused <;> rfl
  rw [sends, List.filterMap_append, hrefused, List.append_nil]
  induction s.acts with
  | nil => rfl
  | cons a acts ih => rw [List.flatMap_cons, List.filterMap_append, ih, hact, filterMap_cons_toList]

theorem after_of_gone {φ : Type} {e : Entry φ} {s : Session φ} (h : gone s = true) :
    (e.after s).rSess = none := if_pos h

theorem after_of_stays {φ : Type} {e : Entry φ} {s : Session φ} (h : gone s = false) :
    (e.after s).rSess = some { s with acts := [] } :=
  if_neg (h ▸ Bool.false_ne_true)

/-- Nothing is in flight, and the accepting side sends what it sends. -/
theorem flight_accAct (hflight : n.flight = []) :
    (n.accAct (.ok t)).flight = t.acts.filterMap (turnOf .request) := by
  rw [flight, List.append_eq_nil_iff, List.append_eq_nil_iff, List.append_eq_nil_iff] at hflight
  obtain ⟨⟨⟨haccUp, hconnDown⟩, hconnUp⟩, haccDown⟩ := hflight
  show (n.accUp ++ _).filterMap _ ++ n.connDown.filterMap _ ++ n.connUp.filterMap _ ++
    n.accDown.filterMap _ = _
  rw [List.filterMap_append, haccUp, hconnDown, hconnUp, haccDown, sends_turns]
  simp only [List.nil_append, List.append_nil]

theorem flight_connAct (hflight : n.flight = []) :
    (n.connAct (.ok c)).flight = c.acts.filterMap (turnOf .answer) := by
  rw [flight, List.append_eq_nil_iff, List.append_eq_nil_iff, List.append_eq_nil_iff] at hflight
  obtain ⟨⟨⟨haccUp, hconnDown⟩, hconnUp⟩, haccDown⟩ := hflight
  show n.accUp.filterMap _ ++ n.connDown.filterMap _ ++ (n.connUp ++ _).filterMap _ ++
    n.accDown.filterMap _ = _
  rw [List.filterMap_append, haccUp, hconnDown, hconnUp, haccDown, sends_turns]
  simp only [List.nil_append, List.append_nil]

/-- The accepting side ends with its handler. -/
theorem Base.acc_leaves (h : Base ports n) (hleaves : Leaves t) :
    Base ports (n.accAct (.ok t)) ∧ (n.accAct (.ok t)).finalSent = n.finalSent := by
  have hgone : (n.accAct (.ok t)).acc.rSess = none := after_of_gone hleaves.gone
  have hpinged : (n.accAct (.ok t)).pinged = n.pinged := by
    show n.pinged ++ _ = _
    rw [hleaves.pings, List.append_nil]
  have hsent : (n.accAct (.ok t)).finalSent = n.finalSent := by
    show (n.finalSent || _) = _
    rw [hleaves.final, Bool.or_false]
  refine ⟨⟨h.failed, ?_, h.conn, hpinged ▸ h.pinged, hsent ▸ h.final⟩, hsent⟩
  intro s hs
  exact absurd (hgone.symm.trans hs) (Option.some_ne_none s).symm

/-- The accepting side hands the turn on. -/
theorem Base.acc_takes (h : Base ports n) (hconn : n.connTurns = []) (hflight : n.flight = [])
    (hports : y ≠ .request → ∀ c, n.conn.rSess = some c → c.HasPorts)
    (hlast : n.finalSent = true → y = .final) (htakes : Acc.Takes ports n.pinged t y) :
    Inv ports (n.accAct (.ok t)) := by
  have hstays : (n.accAct (.ok t)).acc.rSess = some { t with acts := [] } :=
    after_of_stays htakes.stays
  have hsent : (n.accAct (.ok t)).finalSent = true → y = .final := fun hsent =>
    (Bool.or_eq_true_iff.mp hsent).elim hlast htakes.final
  have hkept : Acc.Kept ports (n.accAct (.ok t)).pinged { t with acts := [] } := by
    refine ⟨⟨htakes.ok.ports, htakes.ok.callback, htakes.ok.unstarted, htakes.ok.hello,
      htakes.ok.reading⟩, rfl, ?_, htakes.pings⟩
    exact (Bool.or_eq_false_iff.mp htakes.stays).2
  have hbase : Base ports (n.accAct (.ok t)) := by
    refine ⟨h.failed, fun s hs => ?_, h.conn, htakes.pings, fun hfinal => hports ?_⟩
    · exact Option.some.inj (hstays.symm.trans hs) ▸ hkept
    · exact hsent hfinal ▸ by decide
  refine hbase.inv ?_ ⟨fun s hs => ?_, hports⟩ hsent
  · rw [turns, accTurns_some hstays, flight_accAct hflight,
      show (n.accAct (.ok t)).connTurns = [] from hconn, List.append_nil]
    exact htakes.turn
  · obtain rfl := Option.some.inj (hstays.symm.trans hs)
    have hnow := htakes.now
    cases y <;> exact hnow

/-- A handler of the accepting side that has had the turn at `x`. -/
theorem Base.acc_passes (h : Base ports n) (hconn : n.connTurns = []) (hflight : n.flight = [])
    (hports : x ≠ .request → ∀ c, n.conn.rSess = some c → c.HasPorts)
    (hlast : n.finalSent = true → x = .final) {r : SymmAcc.AccRes}
    (hr : Passes (Acc.Onward ports n.pinged x) r) : Inv ports (n.accAct r) := by
  obtain ⟨t, rfl, hleaves | ⟨y, hfollows, htakes⟩⟩ := hr
  · apply (h.acc_leaves hleaves).1.inv_none
    rw [turns, accTurns_none (after_of_gone hleaves.gone), flight_accAct hflight, hleaves.turns]
    exact (List.append_nil _).trans hconn
  · refine h.acc_takes hconn hflight (fun hy => hports fun hx => hy (hfollows.1 hx)) ?_ htakes
    exact fun hsent => hfollows.2 (hlast hsent)

/-- The connecting side ends with its handler. -/
theorem Base.conn_leaves (h : Base ports n) (hleaves : Leaves c) :
    Base ports (n.connAct (.ok c)) := by
  have hgone : (n.connAct (.ok c)).conn.rSess = none := after_of_gone hleaves.gone
  refine ⟨h.failed, h.acc, fun d hd => ?_, h.pinged, fun _ d hd => ?_⟩
  · exact absurd (hgone.symm.trans hd) (Option.some_ne_none d).symm
  · exact absurd (hgone.symm.trans hd) (Option.some_ne_none d).symm

/-- The connecting side hands the turn on. -/
theorem Base.conn_takes (h : Base ports n) (hacc : n.accTurns = []) (hflight : n.flight = [])
    (hnow : ∀ s, n.acc.rSess = some s → Acc.At s n.pinged y)
    (hlast : n.finalSent = false) (htakes : Conn.Takes c y) : Inv ports (n.connAct (.ok c)) := by
  have hstays : (n.connAct (.ok c)).conn.rSess = some { c with acts := [] } :=
    after_of_stays htakes.stays
  have hkept : Conn.Kept { c with acts := [] } := by
    refine ⟨⟨htakes.ok.callback, htakes.ok.unstarted, htakes.ok.pingConns, htakes.ok.owner⟩,
      rfl, ?_⟩
    exact (Bool.or_eq_false_iff.mp htakes.stays).2
  have hunsent {p : Prop} (hsent : (n.connAct (.ok c)).finalSent = true) : p :=
    Bool.noConfusion (hlast.symm.trans hsent)
  have hbase : Base ports (n.connAct (.ok c)) := by
    refine ⟨h.failed, h.acc, fun d hd => ?_, h.pinged, hunsent⟩
    exact Option.some.inj (hstays.symm.trans hd) ▸ hkept
  refine hbase.inv ?_ ⟨hnow, fun hy d hd => ?_⟩ hunsent
  · rw [turns, connTurns_some hstays, flight_connAct hflight,
      show (n.connAct (.ok c)).accTurns = [] from hacc, List.nil_append]
    exact htakes.turn
  · exact Option.some.inj (hstays.symm.trans hd) ▸ htakes.ports hy

/-- A handler of the connecting side that has had the turn at `x`. -/
theorem Base.conn_passes (h : Base ports n) (hacc : n.accTurns = []) (hflight : n.flight = [])
    (hat : n.At x) (hlast : n.finalSent = true → x = .final) (hfinal : x ≠ .final)
    {r : SymmConn.ConnRes} (hr : Passes (Conn.Onward x) r) : Inv ports (n.connAct r) := by
  have hunsent : n.finalSent = false :=
    Bool.eq_false_of_not_eq_true fun hsent => hfinal (hlast hsent)
  obtain ⟨c, rfl, hleaves | ⟨y, hy, htakes⟩⟩ := hr
  · apply (h.conn_leaves hleaves).inv_none
    rw [turns, connTurns_none (after_of_gone hleaves.gone), flight_connAct hflight, hleaves.turns]
    exact (List.append_nil _).trans ((List.append_nil _).trans hacc)
  · refine h.conn_takes hacc hflight (fun s hs => ?_) hunsent htakes
    rcases hy with rfl | ⟨rfl, rfl⟩
    · exact hat.1 s hs
    · have hidle : Acc.turns s = [] := (accTurns_some hs).symm.trans hacc
      have hlength := congrArg List.length hidle
      rw [Acc.length_turns, List.length_nil] at hlength
      exact ⟨(hat.1 s hs).1, fun hpos => by omega⟩

/-- Nothing of the rendezvous is sent. -/
theorem flight_accAct_quiet (hacts : t.acts.filterMap (turnOf .request) = []) :
    (n.accAct (.ok t)).flight = n.flight := by
  show (n.accUp ++ _).filterMap _ ++ n.connDown.filterMap _ ++ n.connUp.filterMap _ ++
    n.accDown.filterMap _ = _
  rw [List.filterMap_append, sends_turns, hacts, List.append_nil]
  rfl

theorem flight_connAct_quiet (hacts : c.acts.filterMap (turnOf .answer) = []) :
    (n.connAct (.ok c)).flight = n.flight := by
  show n.accUp.filterMap _ ++ n.connDown.filterMap _ ++ (n.connUp ++ _).filterMap _ ++
    n.accDown.filterMap _ = _
  rw [List.filterMap_append, sends_turns, hacts, List.append_nil]
  rfl

/-- The accepting side is gone. -/
theorem Inv.without_acc (h : Inv ports n) (hbase : Base ports n') (hacc : n'.acc.rSess = none)
    (hconn : n'.conn.rSess = n.conn.rSess) (hflight : n'.flight = n.flight)
    (hsent : n'.finalSent = n.finalSent) : Inv ports n' := by
  have hturns : n'.turns = n.connTurns ++ n.flight := by
    rw [turns, accTurns_none hacc, connTurns, hconn, hflight]
    rfl
  refine h.mono hbase ?_ (fun y hy => ?_) (fun y hat => ⟨fun s hs => ?_, hconn ▸ hat.2⟩)
    fun hs => hsent ▸ hs
  · rw [hturns, turns, List.length_append, List.length_append, List.length_append]
    omega
  · rw [turns, List.append_assoc]
    exact List.mem_append_right _ (hturns ▸ hy)
  · exact absurd (hacc.symm.trans hs) (Option.some_ne_none s).symm

/-- The connecting side is gone. -/
theorem Inv.without_conn (h : Inv ports n) (hbase : Base ports n') (hconn : n'.conn.rSess = none)
    (hacc : n'.acc.rSess = n.acc.rSess) (hpinged : n'.pinged = n.pinged)
    (hflight : n'.flight = n.flight) (hsent : n'.finalSent = n.finalSent) : Inv ports n' := by
  have hturns : n'.turns = n.accTurns ++ n.flight := by
    rw [turns, connTurns_none hconn, accTurns, hacc, hflight, List.append_nil]
    rfl
  refine h.mono hbase ?_ (fun y hy => ?_) (fun y hat => ⟨?_, fun _ c hc => ?_⟩)
    fun hs => hsent ▸ hs
  · rw [hturns, turns, List.length_append, List.length_append, List.length_append]
    omega
  · rw [hturns] at hy
    rcases List.mem_append.mp hy with hy | hy
    · exact List.mem_append_left _ (List.mem_append_left _ hy)
    · exact List.mem_append_right _ hy
  · rw [hacc, hpinged]
    exact hat.1
  · exact absurd (hconn.symm.trans hc) (Option.some_ne_none c).symm

theorem Inv.acc_stays (h : Inv ports n) (hs : n.acc.rSess = some s) {r : SymmAcc.AccRes}
    (hr : Passes (Acc.Stays ports s) r) : Inv ports (n.accAct r) := by
  obtain ⟨t, rfl, hleaves | hstays⟩ := hr
  · obtain ⟨hbase, hsent⟩ := h.acc_leaves hleaves
    exact h.without_acc hbase (after_of_gone hleaves.gone) rfl
      (flight_accAct_quiet (hleaves.turns _)) hsent
  · have hstay : gone t = false := by
      rw [gone, hstays.acts, hstays.refused]
      rfl
    have hafter : (n.accAct (.ok t)).acc.rSess = some { t with acts := [] } := after_of_stays hstay
    have hpinged : (n.accAct (.ok t)).pinged = n.pinged := by
      show n.pinged ++ _ = _
      rw [hstays.acts, List.filterMap_nil, List.append_nil]
    have hsent : (n.accAct (.ok t)).finalSent = n.finalSent := by
      show (n.finalSent || _) = _
      rw [hstays.acts, List.any_nil, Bool.or_false]
    have hturns : (n.accAct (.ok t)).turns = n.turns := by
      rw [turns, accTurns_some hafter, flight_accAct_quiet (by rw [hstays.acts]; rfl), turns,
        accTurns_some hs, ← hstays.turns]
      rfl
    refine h.mono ⟨h.failed, fun u hu => ?_, h.conn, hpinged ▸ h.pinged, hsent ▸ h.final⟩
      (Nat.le_of_eq (congrArg List.length hturns)) (fun y hy => hturns ▸ hy)
      (fun y hat => ⟨fun u hu => ?_, hat.2⟩) fun hs => hsent ▸ hs
    · obtain rfl := Option.some.inj (hafter.symm.trans hu)
      exact ⟨⟨hstays.ok.ports, hstays.ok.callback, hstays.ok.unstarted, hstays.ok.hello,
        hstays.ok.reading⟩, rfl, hstays.refused, hpinged ▸ h.pinged⟩
    · obtain rfl := Option.some.inj (hafter.symm.trans hu)
      have hnow := hstays.now (hat.1 s hs)
      rw [hpinged]
      cases y <;> exact hnow

theorem Inv.conn_stays (h : Inv ports n) (hc : n.conn.rSess = some c) {r : SymmConn.ConnRes}
    (hr : Passes (Conn.Stays c) r) : Inv ports (n.connAct r) := by
  obtain ⟨d, rfl, hleaves | hstays⟩ := hr
  · exact h.without_conn (h.conn_leaves hleaves) (after_of_gone hleaves.gone) rfl rfl
      (flight_connAct_quiet (hleaves.turns _)) rfl
  · have hstay : gone d = false := by
      rw [gone, hstays.acts, hstays.refused]
      rfl
    have hafter : (n.connAct (.ok d)).conn.rSess = some { d with acts := [] } :=
      after_of_stays hstay
    have hturns : (n.connAct (.ok d)).turns = n.turns := by
      rw [turns, connTurns_some hafter, flight_connAct_quiet (by rw [hstays.acts]; rfl), turns,
        connTurns_some hc, ← hstays.turns]
      rfl
    have hports {e : Conn} (he : (n.connAct (.ok d)).conn.rSess = some e)
        (hold : ∀ c, n.conn.rSess = some c → c.HasPorts) : e.HasPorts := by
      obtain rfl := Option.some.inj (hafter.symm.trans he)
      exact hstays.ports (hold c hc)
    refine h.mono ⟨h.failed, h.acc, fun e he => ?_, h.pinged, fun hf e he => hports he (h.final hf)⟩
      (Nat.le_of_eq (congrArg List.length hturns)) (fun y hy => hturns ▸ hy)
      (fun y hat => ⟨hat.1, fun hy e he => hports he (hat.2 hy)⟩) id
    obtain rfl := Option.some.inj (hafter.symm.trans he)
    exact ⟨⟨hstays.ok.callback, hstays.ok.unstarted, hstays.ok.pingConns, hstays.ok.owner⟩, rfl,
      hstays.refused⟩

theorem turns_eq_nil_iff : n.turns = [] ↔ n.accTurns = [] ∧ n.connTurns = [] ∧ n.flight = [] := by
  rw [turns, List.append_eq_nil_iff, List.append_eq_nil_iff, and_assoc]

/-- The accepting side has the turn. -/
theorem Inv.acc_turn (h : Inv ports n) (hs : n.acc.rSess = some s) (hx : x ∈ Acc.turns s)
    {r : SymmAcc.AccRes}
    (hr : Acc.Kept ports n.pinged s → (Acc.turns s).length ≤ 1 → Acc.At s n.pinged x →
      Passes (Acc.Onward ports n.pinged x) r) : Inv ports (n.accAct r) := by
  have hmem : x ∈ n.turns := by
    rw [turns, accTurns_some hs]
    exact List.mem_append_left _ (List.mem_append_left _ hx)
  have hone := h.one
  have hpos := List.length_pos_of_mem hx
  rw [turns, List.length_append, List.length_append, accTurns_some hs] at hone
  have hat := h.now x hmem
  refine h.acc_passes (List.length_eq_zero_iff.mp ?_) (List.length_eq_zero_iff.mp ?_) hat.2
    (fun hsent => h.last hsent x hmem) (hr (h.acc s hs) ?_ (hat.1 s hs)) <;>
  omega

/-- The connecting side has the turn. -/
theorem Inv.conn_turn (h : Inv ports n) (hc : n.conn.rSess = some c) (hx : x ∈ Conn.turns c)
    (hfinal : x ≠ .final) {r : SymmConn.ConnRes}
    (hr : Conn.Kept c → (Conn.turns c).length ≤ 1 → (x ≠ .request → c.HasPorts) →
      Passes (Conn.Onward x) r) : Inv ports (n.connAct r) := by
  have hmem : x ∈ n.turns := by
    rw [turns, connTurns_some hc]
    exact List.mem_append_left _ (List.mem_append_right _ hx)
  have hone := h.one
  have hpos := List.length_pos_of_mem hx
  rw [turns, List.length_append, List.length_append, connTurns_some hc] at hone
  have hat := h.now x hmem
  refine h.conn_passes (List.length_eq_zero_iff.mp ?_) (List.length_eq_zero_iff.mp ?_) hat
    (fun hsent => h.last hsent x hmem) hfinal (hr (h.conn c hc) ?_ fun hx => hat.2 hx c hc) <;>
  omega

section Queues

variable {up : Up} {down : Down} {ups : List Up} {downs : List Down} {registered : Bool}

theorem perm_accUp (h : n.accUp = up :: ups) :
    n.turns.Perm ((Up.turn .request up).toList ++ turns { n with accUp := ups }) := by
  refine List.perm_iff_count.mpr fun y => ?_
  simp only [turns, flight, accTurns, connTurns, h, filterMap_cons_toList, List.count_append]
  omega

theorem perm_connUp (h : n.connUp = up :: ups) :
    n.turns.Perm ((Up.turn .answer up).toList ++ turns { n with connUp := ups }) := by
  refine List.perm_iff_count.mpr fun y => ?_
  simp only [turns, flight, accTurns, connTurns, h, filterMap_cons_toList, List.count_append]
  omega

theorem perm_accDown (h : n.accDown = down :: downs) :
    n.turns.Perm ((Down.turn .answer down).toList ++ turns { n with accDown := downs }) := by
  refine List.perm_iff_count.mpr fun y => ?_
  simp only [turns, flight, accTurns, connTurns, h, filterMap_cons_toList, List.count_append]
  omega

theorem perm_connDown (h : n.connDown = down :: downs) :
    n.turns.Perm ((Down.turn .request down).toList ++ turns { n with connDown := downs }) := by
  refine List.perm_iff_count.mpr fun y => ?_
  simp only [turns, flight, accTurns, connTurns, h, filterMap_cons_toList, List.count_append]
  omega

theorem perm_accDown_concat : (turns { n with
    accDown := n.accDown ++ [down], registered := registered }).Perm
      ((Down.turn .answer down).toList ++ n.turns) := by
  refine List.perm_iff_count.mpr fun y => ?_
  simp only [turns, flight, accTurns, connTurns, List.filterMap_append, filterMap_cons_toList,
    List.filterMap_nil, List.append_nil, List.count_append]
  omega

theorem perm_connDown_concat : (turns { n with
    connDown := n.connDown ++ [down], registered := registered }).Perm
      ((Down.turn .request down).toList ++ n.turns) := by
  refine List.perm_iff_count.mpr fun y => ?_
  simp only [turns, flight, accTurns, connTurns, List.filterMap_append, filterMap_cons_toList,
    List.filterMap_nil, List.append_nil, List.count_append]
  omega

end Queues

/-- Messages are read or sent on, and the two sides stay as they are. -/
structure SameSides (n n' : State) : Prop where
  failed : n'.failed = n.failed
  acc : n'.acc.rSess = n.acc.rSess
  conn : n'.conn.rSess = n.conn.rSess
  pinged : n'.pinged = n.pinged
  finalSent : n'.finalSent = n.finalSent

theorem SameSides.base (hsame : SameSides n n') (h : Base ports n) : Base ports n' := by
  constructor
  · rw [hsame.failed]
    exact h.failed
  · rw [hsame.acc, hsame.pinged]
    exact h.acc
  · rw [hsame.conn]
    exact h.conn
  · rw [hsame.pinged]
    exact h.pinged
  · rw [hsame.finalSent, hsame.conn]
    exact h.final

theorem SameSides.at (hsame : SameSides n n') (h : n.At y) : n'.At y := by
  constructor
  · rw [hsame.acc, hsame.pinged]
    exact h.1
  · rw [hsame.conn]
    exact h.2

theorem Inv.messages (h : Inv ports n) (hsame : SameSides n n') {l : List Turn}
    (hperm : n.turns.Perm (l ++ n'.turns)) : Inv ports n' := by
  refine h.mono (hsame.base h.toBase) ?_ (fun y hy => ?_) (fun y => hsame.at)
    (fun hsent => hsame.finalSent ▸ hsent)
  · rw [hperm.length_eq, List.length_append]
    exact Nat.le_add_left _ _
  · exact hperm.mem_iff.mpr (List.mem_append_right _ hy)

/-- A message that has had the turn is read. -/
theorem Inv.message_turn (h : Inv ports n) (hsame : SameSides n n')
    (hperm : n.turns.Perm ([x] ++ n'.turns)) :
    (n'.accTurns = [] ∧ n'.connTurns = [] ∧ n'.flight = []) ∧ n'.At x ∧
      (n'.finalSent = true → x = .final) := by
  have hmem : x ∈ n.turns := hperm.mem_iff.mpr (List.mem_append_left _ (List.mem_singleton.mpr rfl))
  have hone := h.one
  rw [hperm.length_eq, List.length_append, List.length_singleton] at hone
  have hnil : n'.turns = [] := List.length_eq_zero_iff.mp (by omega)
  refine ⟨turns_eq_nil_iff.mp hnil, hsame.at (h.now x hmem), fun hsent => ?_⟩
  exact h.last (hsame.finalSent ▸ hsent) x hmem

/-- The accepting side reads a message. -/
theorem Inv.accRecv (h : Inv ports n) {msg : Down} {rest : List Down}
    (hdown : n.accDown = msg :: rest) (env : Env) :
    Inv ports (accRecv { n with accDown := rest } env msg) := by
  have hsame : SameSides n { n with accDown := rest } := ⟨rfl, rfl, rfl, rfl, rfl⟩
  have hread : Inv ports { n with accDown := rest } := h.messages hsame (perm_accDown hdown)
  have hperm := perm_accDown hdown
  unfold State.accRecv
  cases hs : n.acc.rSess with
  | none => exact hread
  | some s =>
    cases msg with
    | ready =>
      obtain ⟨⟨hacc, hconn, hflight⟩, hat, hlast⟩ := h.message_turn hsame hperm
      show Inv ports (if n.acc.established then _ else _)
      split
      · exact hread
      · refine hread.acc_passes hconn hflight hat.2 hlast ?_
        exact (h.acc s hs).passes_ready ((accTurns_some hs).symm.trans hacc) (hat.1 s hs).1
    | next =>
      obtain ⟨⟨hacc, hconn, hflight⟩, hat, hlast⟩ := h.message_turn hsame hperm
      show Inv ports (if n.acc.established then _ else _)
      split
      · exact hread
      · refine hread.acc_passes hconn hflight hat.2 hlast ?_
        exact (h.acc s hs).passes_next ((accTurns_some hs).symm.trans hacc) (hat.1 s hs)
    | symm ip port =>
      show Inv ports (if n.acc.established then _ else _)
      split
      · exact hread
      · refine hread.acc_stays hs (.ok ?_)
        have hkept := h.acc s hs
        exact hkept.stays_set s.own hkept.ok.hello hkept.ok.reading rfl rfl
    | status established =>
      cases established with
      | true => exact hread.messages ⟨rfl, rfl, rfl, rfl, rfl⟩ (l := []) (.refl _)
      | false =>
        refine hread.without_acc ⟨h.failed, ?_, h.conn, h.pinged, h.final⟩ rfl rfl rfl rfl
        exact fun s hs => absurd hs (Option.some_ne_none s).symm

/-- The connecting side reads a message. -/
theorem Inv.connRecv (h : Inv ports n) {msg : Down} {rest : List Down}
    (hdown : n.connDown = msg :: rest) (env : Env) :
    Inv ports (connRecv { n with connDown := rest } env msg) := by
  have hsame : SameSides n { n with connDown := rest } := ⟨rfl, rfl, rfl, rfl, rfl⟩
  have hread : Inv ports { n with connDown := rest } := h.messages hsame (perm_connDown hdown)
  have hperm := perm_connDown hdown
  unfold State.connRecv
  cases hc : n.conn.rSess with
  | none => exact hread
  | some c =>
    cases msg with
    | ready =>
      obtain ⟨⟨hacc, hconn, hflight⟩, hat, hlast⟩ := h.message_turn hsame hperm
      show Inv ports (if n.conn.established then _ else _)
      split
      · exact hread
      · refine hread.conn_passes hacc hflight hat hlast (by decide) ?_
        exact (h.conn c hc).passes_ready ((connTurns_some hc).symm.trans hconn)
    | next =>
      obtain ⟨⟨hacc, hconn, hflight⟩, hat, hlast⟩ := h.message_turn hsame hperm
      show Inv ports (if n.conn.established then _ else _)
      split
      · exact hread
      · refine hread.conn_passes hacc hflight hat hlast (by decide) ?_
        exact (h.conn c hc).passes_next ((connTurns_some hc).symm.trans hconn)
          (hat.2 (by decide) c hc)
    | symm ip port =>
      show Inv ports (if n.conn.established then _ else _)
      split
      · exact hread
      · exact hread.conn_stays hc (.ok ((h.conn c hc).stays_set _ rfl rfl))
    | status established =>
      cases established with
      | true =>
        have htold : Inv ports { n with
            connDown := rest, conn := { n.conn with established := true } } :=
          hread.messages ⟨rfl, rfl, rfl, rfl, rfl⟩ (l := []) (.refl _)
        exact htold.conn_stays hc (.ok ((h.conn c hc).stays_set _ rfl rfl))
      | false =>
        refine hread.without_conn ⟨h.failed, h.acc, ?_, h.pinged, ?_⟩ rfl rfl rfl rfl rfl
        · exact fun c hc => absurd hc (Option.some_ne_none c).symm
        · exact fun _ c hc => absurd hc (Option.some_ne_none c).symm

theorem turn_relayed (x : Turn) (msg : Up) : Down.turn x (relayed msg) = Up.turn x msg := by
  cases msg <;> rfl

/-- The server reads a message of the accepting side. -/
theorem Inv.accRelay (h : Inv ports n) {msg : Up} {rest : List Up} (hup : n.accUp = msg :: rest) :
    Inv ports (accRelay { n with accUp := rest } msg) := by
  have hperm := perm_accUp hup
  show Inv ports (if n.registered then _ else _)
  split
  · refine h.messages ⟨rfl, rfl, rfl, rfl, rfl⟩ (l := []) (hperm.trans ?_)
    rw [← turn_relayed]
    exact perm_connDown_concat.symm
  · exact h.messages ⟨rfl, rfl, rfl, rfl, rfl⟩ hperm

/-- The server reads a message of the connecting side. -/
theorem Inv.connRelay (h : Inv ports n) {msg : Up} {rest : List Up}
    (hup : n.connUp = msg :: rest) : Inv ports (connRelay { n with connUp := rest } msg) := by
  have hperm := perm_connUp hup
  show Inv ports (if n.registered then _ else _)
  split
  · refine h.messages ⟨rfl, rfl, rfl, rfl, rfl⟩ (l := []) (hperm.trans ?_)
    rw [← turn_relayed]
    exact perm_accDown_concat.symm
  · exact h.messages ⟨rfl, rfl, rfl, rfl, rfl⟩ hperm

theorem close_turns (established : Bool) (ups : List Up) (x : Turn) :
    (ups ++ if established then [] else [Up.close false]).filterMap (Up.turn x) =
      ups.filterMap (Up.turn x) := by
  cases established with
  | true => exact congrArg _ (List.append_nil ups)
  | false => exact List.filterMap_append.trans (List.append_nil _)

section Step

variable {env : Env} (h : Inv ports n)

include h

theorem Inv.accStart (hs : n.acc.rSess = some s) (hstarted : s.started = false) :
    Inv ports (n.accAct (Acc.start s env)) := by
  cases hstarting : Acc.starting s with
  | nil => exact h.acc_stays hs ((h.acc s hs).stays_start hstarted hstarting)
  | cons x rest =>
    have hmem : x ∈ Acc.starting s := hstarting ▸ List.mem_cons_self
    exact h.acc_turn hs (Acc.mem_turns_iff.mpr (.inl hmem)) fun hkept hone hat =>
      hkept.passes_start hone hstarted hmem hat

theorem Inv.connStart (hc : n.conn.rSess = some c) (hstarted : c.started = false) :
    Inv ports (n.connAct (Conn.start c env)) := by
  cases hstarting : Conn.starting c with
  | nil => exact h.conn_stays hc ((h.conn c hc).stays_start hstarted hstarting)
  | cons x rest =>
    have hmem : x ∈ Conn.starting c := hstarting ▸ List.mem_cons_self
    obtain rfl : x = .request := by
      revert hmem
      unfold Conn.starting
      split_ifs <;> simp
    exact h.conn_turn hc (Conn.mem_turns_iff.mpr (.inl hmem)) (by decide) fun hkept hone _ =>
      hkept.passes_start hone hmem

end Step

theorem Inv.serveHello (h : Inv ports n) (ip port : Nat) :
    Inv ports { n with
      hellos := n.hellos - 1
      connDown := if n.registered then n.connDown ++ [.symm ip port] else n.connDown } := by
  refine h.messages ⟨rfl, rfl, rfl, rfl, rfl⟩ (l := []) (.of_eq ?_)
  have hdown : (if n.registered then n.connDown ++ [.symm ip port] else n.connDown).filterMap
      (Down.turn .request) = n.connDown.filterMap (Down.turn .request) := by
    cases n.registered with
    | true => exact List.filterMap_append.trans (List.append_nil _)
    | false => rfl
  show _ = n.accTurns ++ n.connTurns ++ (_ ++ List.filterMap _ (if n.registered then _ else _) ++
    _ ++ _)
  rw [hdown]
  rfl

theorem Inv.accClose (h : Inv ports n) :
    Inv ports { n with
      acc := { n.acc with rSess := none }
      accUp := n.accUp ++ if n.acc.established then [] else [.close false] } := by
  refine h.without_acc ⟨h.failed, ?_, h.conn, h.pinged, h.final⟩ rfl rfl ?_ rfl
  · exact fun s hs => absurd hs (Option.some_ne_none s).symm
  · exact congrArg (· ++ _ ++ _ ++ _) (close_turns _ _ _)

theorem Inv.connClose (h : Inv ports n) :
    Inv ports { n with
      conn := { n.conn with rSess := none }
      connUp := n.connUp ++ if n.conn.established then [] else [.close false] } := by
  refine h.without_conn ⟨h.failed, h.acc, ?_, h.pinged, ?_⟩ rfl rfl rfl ?_ rfl
  · exact fun c hc => absurd hc (Option.some_ne_none c).symm
  · exact fun _ c hc => absurd hc (Option.some_ne_none c).symm
  · exact congrArg (_ ++ _ ++ · ++ _) (close_turns _ _ _)

theorem Inv.step (hsize : ports.length = 3 * windowSize) (hzero : 0 ∉ ports) (h : Inv ports n)
    {e : Event} (hstep : n.step e = some n') : Inv ports n' := by
  cases e with
  | accStart env =>
    obtain ⟨s, hs, hstep⟩ := Option.bind_eq_some_iff.mp hstep
    obtain ⟨hstarted, ⟨⟩⟩ := Option.ite_none_left_eq_some.mp hstep
    exact h.accStart hs (Bool.eq_false_of_not_eq_true hstarted)
  | connStart env =>
    obtain ⟨c, hc, hstep⟩ := Option.bind_eq_some_iff.mp hstep
    obtain ⟨hstarted, ⟨⟩⟩ := Option.ite_none_left_eq_some.mp hstep
    exact h.connStart hc (Bool.eq_false_of_not_eq_true hstarted)
  | accGranted granted env =>
    obtain ⟨s, hs, hstep⟩ := Option.bind_eq_some_iff.mp hstep
    obtain ⟨⟨hqueued, hgranted⟩, ⟨⟩⟩ := Option.ite_none_right_eq_some.mp hstep
    refine h.acc_turn hs (Acc.mem_turns_iff.mpr (.inr (.inl ?_))) fun hkept hone hat =>
      hkept.passes_granted hone hqueued hgranted hat
    rw [Acc.waiting, if_pos hqueued]
    exact List.mem_singleton.mpr rfl
  | connGranted granted =>
    obtain ⟨c, hc, hstep⟩ := Option.bind_eq_some_iff.mp hstep
    obtain ⟨⟨hqueued, hgranted⟩, ⟨⟩⟩ := Option.ite_none_right_eq_some.mp hstep
    have hmem : .request ∈ Conn.waiting c := by
      rw [Conn.waiting, if_pos hqueued]
      exact List.mem_singleton.mpr rfl
    exact h.conn_turn hc (Conn.mem_turns_iff.mpr (.inr (.inl hmem))) (by decide) fun hkept hone _ =>
      Conn.passes_onGranted (hkept.holds_waiting hone hqueued) hgranted (hkept.ok.owner hqueued)
  | helloSent err =>
    obtain ⟨s, hs, hstep⟩ := Option.bind_eq_some_iff.mp hstep
    obtain ⟨hpending, ⟨⟩⟩ := Option.ite_none_right_eq_some.mp hstep
    exact h.acc_stays hs ((h.acc s hs).stays_onHelloSend hpending)
  | accPingSent err env =>
    obtain ⟨s, hs, hstep⟩ := Option.bind_eq_some_iff.mp hstep
    obtain ⟨hpos, ⟨⟩⟩ := Option.ite_none_right_eq_some.mp hstep
    have hmem := Acc.mem_turns_iff.mpr (.inr (.inr (.inr (.inl ⟨hpos, rfl⟩))))
    exact h.acc_turn hs hmem fun hkept hone hat =>
      Acc.passes_onPingSend hsize (hkept.holds_write hone hat.1 hpos) hat
  | connPingSent err env =>
    obtain ⟨c, hc, hstep⟩ := Option.bind_eq_some_iff.mp hstep
    obtain ⟨hpos, ⟨⟩⟩ := Option.ite_none_right_eq_some.mp hstep
    have hmem := Conn.mem_turns_iff.mpr (.inr (.inr ⟨hpos, rfl⟩))
    exact h.conn_turn hc hmem (by decide) fun hkept hone hports =>
      Conn.passes_onPingSend (hkept.holds_write hone (hports (by decide)) hpos) (hports (by decide))
  | accRecvPing err bytes ip port =>
    obtain ⟨s, hs, hstep⟩ := Option.bind_eq_some_iff.mp hstep
    obtain ⟨hreading, ⟨⟩⟩ := Option.ite_none_right_eq_some.mp hstep
    exact h.acc_stays hs ((h.acc s hs).stays_onRecvPing hreading)
  | connRecvPing err bytes ip connIdx =>
    obtain ⟨c, hc, hstep⟩ := Option.bind_eq_some_iff.mp hstep
    obtain ⟨⟨hidx, hfinal⟩, ⟨⟩⟩ := Option.ite_none_right_eq_some.mp hstep
    exact h.conn_stays hc ((h.conn c hc).stays_onRecvPing hidx fun hb => h.final (hfinal hb) c hc)
  | nextTimeout =>
    obtain ⟨s, hs, hstep⟩ := Option.bind_eq_some_iff.mp hstep
    obtain ⟨hpos, ⟨⟩⟩ := Option.ite_none_right_eq_some.mp hstep
    have hmem := Acc.mem_turns_iff.mpr (.inr (.inr (.inr (.inr (.inl ⟨hpos, rfl⟩)))))
    exact h.acc_turn hs hmem fun hkept hone hat =>
      Acc.passes_onNextTimeout hsize (hkept.holds_next hone hat.1 hpos) hat
  | checkStart canReuse env =>
    obtain ⟨s, hs, hstep⟩ := Option.bind_eq_some_iff.mp hstep
    obtain ⟨hpos, ⟨⟩⟩ := Option.ite_none_right_eq_some.mp hstep
    have hmem := Acc.mem_turns_iff.mpr (.inr (.inr (.inl ⟨hpos, rfl⟩)))
    exact h.acc_turn hs hmem fun hkept hone hat =>
      Acc.passes_onCheckStartTimeout hsize hzero (hkept.holds_check hone (hat.2 hpos) hpos) hat.1
        (hat.2 hpos)
  | sendFinal cnt env =>
    obtain ⟨s, hs, hstep⟩ := Option.bind_eq_some_iff.mp hstep
    obtain ⟨hcnt, ⟨⟩⟩ := Option.ite_none_right_eq_some.mp hstep
    have hmem := Acc.mem_turns_iff.mpr (.inr (.inr (.inr (.inr (.inr
      ⟨List.length_pos_of_mem hcnt, rfl⟩)))))
    exact h.acc_turn hs hmem fun hkept hone hat =>
      Acc.passes_onSendFinalTimeout (hkept.holds_final hone hat hcnt) hat
  | establishedTimeout =>
    obtain ⟨c, hc, hstep⟩ := Option.bind_eq_some_iff.mp hstep
    obtain ⟨-, ⟨⟩⟩ := Option.ite_none_right_eq_some.mp hstep
    exact h.conn_stays hc (h.conn c hc).stays_onEstablishedTimeout
  | accDeliver env =>
    rw [State.step] at hstep
    split at hstep
    · cases hstep
    · cases hstep
      exact h.accRecv ‹_› env
  | connDeliver env =>
    rw [State.step] at hstep
    split at hstep
    · cases hstep
    · cases hstep
      exact h.connRecv ‹_› env
  | accServe =>
    rw [State.step] at hstep
    split at hstep
    · cases hstep
    · cases hstep
      exact h.accRelay ‹_›
  | connServe =>
    rw [State.step] at hstep
    split at hstep
    · cases hstep
    · cases hstep
      exact h.connRelay ‹_›
  | serveHello ip port =>
    obtain ⟨-, ⟨⟩⟩ := Option.ite_none_right_eq_some.mp hstep
    exact h.serveHello ip port
  | accClose =>
    obtain ⟨s, hs, hstep⟩ := Option.bind_eq_some_iff.mp hstep
    obtain ⟨-, ⟨⟩⟩ := Option.ite_none_right_eq_some.mp hstep
    exact h.accClose
  | connClose =>
    obtain ⟨c, hc, hstep⟩ := Option.bind_eq_some_iff.mp hstep
    obtain ⟨-, ⟨⟩⟩ := Option.ite_none_right_eq_some.mp hstep
    exact h.connClose

theorem inv_init (accOwner accBestEffort connBestEffort : Bool) (destIp : Nat) (ports : List Nat) :
    Inv ports (init accOwner accBestEffort connBestEffort destIp ports) := by
  have hbase : Base ports (init accOwner accBestEffort connBestEffort destIp ports) := by
    refine ⟨rfl, ?_, ?_, List.nil_prefix, fun hsent => Bool.noConfusion hsent⟩
    · rintro _ ⟨⟩
      exact ⟨⟨rfl, Bool.noConfusion, fun _ => ⟨rfl, fun _ => rfl⟩, Bool.noConfusion,
        Bool.noConfusion⟩, rfl, rfl, List.nil_prefix⟩
    · rintro _ ⟨⟩
      refine ⟨⟨Bool.noConfusion, fun _ => rfl, Bool.noConfusion, fun hq => ?_⟩, rfl, rfl⟩
      exact absurd hq (Option.some_ne_none _).symm
  refine hbase.inv (y := .request) (by cases accOwner <;> rfl) ⟨?_, ?_⟩ Bool.noConfusion
  · rintro _ ⟨⟩
    exact ⟨⟨0, by decide, rfl, rfl, rfl⟩, fun hq => absurd hq (Option.some_ne_none _).symm⟩
  · exact fun hn => absurd rfl hn

theorem inFlight_eq (n : State) : n.inFlight = n.flight.length := by
  have hup (x : Turn) : (fun msg => (Up.turn x msg).isSome) = isTurn ∘ relayed := by
    funext msg
    cases msg <;> rfl
  have hdown (x : Turn) : (fun msg => (Down.turn x msg).isSome) = isTurn := by
    funext msg
    cases msg <;> rfl
  simp only [inFlight, flight, List.countP_append, List.countP_map, List.length_append,
    List.length_filterMap_eq_countP, hup, hdown]

end State

section Ports

variable {segs : List (Nat × Nat)}

theorem mem_candidatePorts {port : Nat} : port ∈ candidatePorts segs ↔
    ∃ seg ∈ segs, ∃ j < windowSize, 1024 + (21503 * seg.1 + seg.2 + j) = port := by
  simp only [candidatePorts, List.mem_flatMap, List.mem_map, List.mem_range]

theorem length_candidatePorts : (candidatePorts segs).length = segs.length * windowSize := by
  simp only [candidatePorts, List.length_flatMap, List.length_map, List.length_range,
    List.map_const', List.sum_replicate_nat]

theorem zero_notMem_candidatePorts : 0 ∉ candidatePorts segs := by
  intro hmem
  obtain ⟨seg, -, j, -, hport⟩ := mem_candidatePorts.mp hmem
  omega

/-- Three windows in three segments have no port in common, if each is within its segment. -/
theorem nodup_candidatePorts (hsegs : (segs.map Prod.fst).Nodup)
    (hwithin : ∀ seg ∈ segs, seg.2 + windowSize ≤ 21503) : (candidatePorts segs).Nodup := by
  refine List.nodup_flatMap.mpr ⟨fun seg _ => ?_, ?_⟩
  · refine List.nodup_range.map fun i j hij => ?_
    have hport : 1024 + (21503 * seg.1 + seg.2 + i) = 1024 + (21503 * seg.1 + seg.2 + j) := hij
    omega
  · refine (List.pairwise_map.mp hsegs).imp_of_mem fun {a b} ha hb hab => ?_
    intro port hporta hportb
    obtain ⟨i, hi, hporti⟩ := List.mem_map.mp hporta
    obtain ⟨j, hj, hportj⟩ := List.mem_map.mp hportb
    have hina := hwithin a ha
    have hinb := hwithin b hb
    rw [List.mem_range] at hi hj
    apply hab
    omega

end Ports

/-- In every run of the two sides and the server, for either owner: no assertion fails, whether
of `getCurrentPort`, of the allocator or on a pointer; at most one READY or NEXT is in flight;
and the ports pinged are the first of the candidates, in order. So none is pinged twice, unless
one window goes beyond its segment and into the next. -/
theorem symm_lockstep {accOwner accBestEffort connBestEffort : Bool} {destIp : Nat}
    {segs : List (Nat × Nat)} (hsegs : (segs.map Prod.fst).Perm [0, 1, 2]) {es : List Event}
    {n : State} (hrun : exec State.step
      (State.init accOwner accBestEffort connBestEffort destIp (candidatePorts segs)) es = some n) :
    n.failed = false ∧ n.inFlight ≤ 1 ∧ n.pinged <+: candidatePorts segs ∧
      ((∀ seg ∈ segs, seg.2 + windowSize ≤ 21503) → n.pinged.Nodup) := by
  have hlength : segs.length = 3 := by
    rw [← List.length_map, hsegs.length_eq]
    rfl
  have hsize : (candidatePorts segs).length = 3 * windowSize := by
    rw [length_candidatePorts, hlength]
  have hinv : State.Inv (candidatePorts segs) n :=
    exec_invariant (fun _ _ _ hinv hstep => hinv.step hsize zero_notMem_candidatePorts hstep)
      (State.inv_init accOwner accBestEffort connBestEffort destIp _) hrun
  refine ⟨hinv.failed, ?_, hinv.pinged, fun hwithin => ?_⟩
  · have hone := hinv.one
    rw [State.turns, List.length_append] at hone
    rw [State.inFlight_eq]
    omega
  · have hnodup : (segs.map Prod.fst).Nodup := hsegs.nodup_iff.mpr (by decide)
    exact hinv.pinged.sublist.nodup (nodup_candidatePorts hnodup hwithin)

/-- READY comes before the other side is started; then two ports are pinged. -/
theorem symm_lockstep_first_pings :
    let segs := [(2, 7), (0, 5), (1, 21204)]
    let granted := [(0, ⊤)]
    let es : List Event := [.accStart {}, .accGranted granted {}, .accServe, .connDeliver {},
      .connStart {}, .connGranted granted, .connServe, .accDeliver {}, .helloSent 0,
      .checkStart true {}, .accPingSent 0 {}]
    ∃ n, exec State.step (State.init true true true 9 (candidatePorts segs)) es = some n ∧
      n.pinged = [44037, 44038] ∧ n.failed = false ∧ n.inFlight ≤ 1 ∧
      n.pinged <+: candidatePorts segs ∧ n.pinged.Nodup := by
  refine exec_check_and (by decide +kernel) fun n hrun _ => ?_
  obtain ⟨hfailed, hone, hfirst, hnodup⟩ := symm_lockstep (by decide) hrun
  exact ⟨hfailed, hone, hfirst, hnodup (by decide)⟩

end DTun.Node.Rendezvous.Symm
