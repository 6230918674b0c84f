import Mathlib.Data.List.Flatten
import Mathlib.Data.List.Perm.Basic
import DTun.Node.MasterClient.Model

/-!
# What the handlers of the client do

One lemma for each handler that branches, and `step_handled`, which says that a step is a
handler or a task together with the tasks that it leaves. The invariants of the client are
stated over the table and the unfinished tasks and are proved from these lemmas.
-/

namespace DTun.Node.MasterClient

open DTun.Lib

/-- The ids of the registrations in a log, in order. -/
def given (log : List Record) : List ConnId :=
  log.filterMap fun r =>
    match r with
    | .registered c => some c
    | _ => none

theorem given_append (log log' : List Record) : given (log ++ log') = given log ++ given log' :=
  List.filterMap_append

namespace Client

variable {cl cl' : Client} {e : Event} {sent : List UpMsg} {connId c : ConnId}

/-- `Handled cl e r rest`: event `e` is the handler or the task with effect `r`, and `rest`
are the tasks that were there besides. -/
inductive Handled (cl : Client) : Event → Res → List Task → Prop where
  | probed (h : cl.link = .idle) :
      Handled cl .probed ⟨{ cl with link := .probe }, [], []⟩ cl.pending
  | connected {probedIp probedPort : Nat} (h : cl.link = .idle ∨ cl.link = .probe) :
    Handled cl (.connected probedIp probedPort) ⟨{ cl with link := .server }, [], []⟩ cl.pending
  | lost (h : cl.hasConn = true) : Handled cl .lost ⟨{ cl with link := .lost }, [], []⟩ cl.pending
  | recv {msg : DownMsg} (h : cl.link = .server) : Handled cl (.recv msg) (cl.recv msg) cl.pending
  | register {remoteIp remotePort : Nat} :
    Handled cl (.registerConnection remoteIp remotePort)
      (cl.registerConnection remoteIp remotePort) cl.pending
  | close {connId : ConnId} (h : connId.nodeId = cl.nodeId) :
    Handled cl (.closeConnection connId) (cl.closeConnection connId) cl.pending
  | rendezvous {connId : ConnId} {err : Nat} {bound : Bool} {e : ConnState}
      (he : cl.connStates.find? connId = some e) (hs : e.started = true) :
    Handled cl (.rendezvous connId err bound) (cl.onRendezvous connId err bound) cl.pending
  | proxyDone {connId : ConnId}
      (h : (∃ e, cl.connStates.find? connId = some e ∧ e.proxySession = true) ∨
        Task.attachProxy connId true ∈ cl.pending) :
    Handled cl (.proxyDone connId) ⟨cl.onProxyDone connId, [], []⟩ cl.pending
  | run {i : Nat} {res bound : Bool} {task : Task} {rest : List Task}
      (h : cl.pending.Perm (task :: rest)) :
    Handled cl (.run i res bound) (cl.perform res bound task) rest
  | shutdown : Handled cl .shutdown ⟨{ cl with closing := true }, [], []⟩ cl.pending

theorem pending_spawn (r : Res) : (cl.spawn r).1.pending.Perm (r.tasks ++ cl.pending) := by
  unfold spawn pending
  split_ifs with h
  · simp [h]
  · simpa using List.perm_append_comm

theorem pending_resume {i : Nat} {task : Task} {rest : List Task} (r : Res)
    (h : cl.threads[i]? = some (task :: rest)) :
    ∃ others, cl.pending.Perm (task :: others) ∧
      (cl.resume i rest r).1.pending.Perm (r.tasks ++ others) := by
  obtain ⟨hi, hget⟩ := List.getElem?_eq_some_iff.mp h
  have hsplit : cl.threads = cl.threads.take i ++ (task :: rest) :: cl.threads.drop (i + 1) := by
    rw [← hget, List.getElem_cons_drop, List.take_append_drop]
  refine ⟨(cl.threads.take i).flatten ++ rest ++ (cl.threads.drop (i + 1)).flatten, ?_, ?_⟩
  · unfold pending
    conv_lhs => rw [hsplit]
    simp only [List.flatten_append, List.flatten_cons, List.cons_append, List.append_assoc]
    exact List.perm_middle
  · have hmid : (if r.tasks ++ rest = [] then [] else [r.tasks ++ rest]).flatten =
        r.tasks ++ rest := by
      split_ifs with hnil
      · simp [hnil]
      · simp
    unfold resume pending
    simp only [List.flatten_append, hmid, List.append_assoc]
    rw [← List.append_assoc, ← List.append_assoc r.tasks]
    exact List.perm_append_comm.append_right _

theorem wire_nil (cl : Client) : cl.wire [] = [] := by
  unfold wire
  split <;> rfl

/-- A step is a handler or a task; only `onConnect` sends anything but what it says. -/
theorem step_handled (h : cl.step e = some (cl', sent)) :
    ∃ r rest, Handled cl e r rest ∧ cl'.pending.Perm (r.tasks ++ rest) ∧
      cl' = { r.client with threads := cl'.threads } ∧
      ((∃ ip port, e = .connected ip port ∧ sent = [.hello cl.nodeId ip port]) ∨
        ((∀ ip port, e ≠ .connected ip port) ∧ sent = cl.wire r.sent)) := by
  have hspawn : ∀ {r : Res}, Handled cl e r cl.pending → (∀ ip port, e ≠ .connected ip port) →
      some (cl.spawn r) = some (cl', sent) → ∃ r rest, Handled cl e r rest ∧
        cl'.pending.Perm (r.tasks ++ rest) ∧ cl' = { r.client with threads := cl'.threads } ∧
        ((∃ ip port, e = .connected ip port ∧ sent = [.hello cl.nodeId ip port]) ∨
          ((∀ ip port, e ≠ .connected ip port) ∧ sent = cl.wire r.sent)) := by
    intro r hr hne heq
    have heq := Option.some.inj heq
    have h1 : (cl.spawn r).1 = cl' := congrArg Prod.fst heq
    have h2 : cl.wire r.sent = sent := congrArg Prod.snd heq
    subst h1
    exact ⟨r, _, hr, pending_spawn r, rfl, Or.inr ⟨hne, h2.symm⟩⟩
  cases e with
  | probed =>
    obtain ⟨hl, heq⟩ := Option.ite_none_right_eq_some.mp h
    cases heq
    exact ⟨_, _, .probed hl, List.Perm.refl _, rfl, Or.inr ⟨by simp, (wire_nil cl).symm⟩⟩
  | connected ip port =>
    obtain ⟨hl, heq⟩ := Option.ite_none_right_eq_some.mp h
    cases heq
    exact ⟨_, _, .connected hl, List.Perm.refl _, rfl, Or.inl ⟨ip, port, rfl, rfl⟩⟩
  | lost =>
    obtain ⟨hl, heq⟩ := Option.ite_none_right_eq_some.mp h
    cases heq
    exact ⟨_, _, .lost hl, List.Perm.refl _, rfl, Or.inr ⟨by simp, (wire_nil cl).symm⟩⟩
  | recv msg =>
    obtain ⟨hl, heq⟩ := Option.ite_none_right_eq_some.mp h
    exact hspawn (.recv hl) (by simp) heq
  | registerConnection remoteIp remotePort => exact hspawn .register (by simp) h
  | closeConnection connId =>
    obtain ⟨hl, heq⟩ := Option.ite_none_right_eq_some.mp h
    exact hspawn (.close hl) (by simp) heq
  | rendezvous connId err bound =>
    obtain ⟨hl, heq⟩ := Option.ite_none_right_eq_some.mp h
    obtain ⟨e, he, hs⟩ := (Option.any_eq_true _ _).mp hl
    exact hspawn (.rendezvous he hs) (by simp) heq
  | proxyDone connId =>
    obtain ⟨hl, heq⟩ := Option.ite_none_right_eq_some.mp h
    rw [Option.any_eq_true] at hl
    exact hspawn (.proxyDone hl) (by simp) heq
  | run i res bound =>
    simp only [step] at h
    split at h
    · rename_i task rest hi
      have heq := Option.some.inj h
      have h1 : (cl.resume i rest (cl.perform res bound task)).1 = cl' := congrArg Prod.fst heq
      have h2 : cl.wire (cl.perform res bound task).sent = sent := congrArg Prod.snd heq
      obtain ⟨others, hbefore, hafter⟩ := pending_resume (cl.perform res bound task) hi
      subst h1
      exact ⟨_, others, .run hbefore, hafter, rfl, Or.inr ⟨by simp, h2.symm⟩⟩
    · cases h
  | shutdown =>
    cases h
    exact ⟨_, _, .shutdown, List.Perm.refl _, rfl, Or.inr ⟨by simp, (wire_nil cl).symm⟩⟩

/-- An invariant over the client and its unfinished tasks: it does not depend on the order
of the tasks or on how they are spread over threads, and every handler keeps it. -/
theorem step_preserves {I : Client → List Task → Prop}
    (hperm : ∀ {cl ts ts'}, List.Perm ts ts' → I cl ts → I cl ts')
    (hthreads : ∀ {cl ts} threads, I cl ts → I { cl with threads := threads } ts)
    (hhandled : ∀ {r rest}, Handled cl e r rest → I r.client (r.tasks ++ rest))
    (h : cl.step e = some (cl', sent)) : I cl' cl'.pending := by
  obtain ⟨r, rest, hr, hpending, hcl, _⟩ := step_handled h
  rw [hcl]
  exact hthreads _ (hperm hpending.symm (hhandled hr))

theorem registerConnection_cases (cl : Client) (remoteIp remotePort : Nat) :
    cl.registerConnection remoteIp remotePort = ⟨cl, [], []⟩ ∨
    ∃ dstNodeId send, cl.getDstNodeId remoteIp = some dstNodeId ∧ cl.hasConn = true ∧
      cl.closing = false ∧ send = (!cl.symmConnRunning && cl.rendezvousConnIds.isEmpty) ∧
      cl.registerConnection remoteIp remotePort =
        ⟨{ cl with
            nextConnIdx := (drawIdx cl.nextConnIdx).2
            connStates := cl.connStates.insert cl.nextId
              { remoteIp := remoteIp, remotePort := remotePort, callback := true
                status := if send then .pending else .none }
            rendezvousConnIds := cl.rendezvousConnIds ++ [cl.nextId]
            log := cl.log ++ [.registered cl.nextId] },
          if send then [.connCreate cl.nextId dstNodeId remoteIp remotePort cl.bestEffort] else [],
          []⟩ := by
  unfold registerConnection
  cases hdst : cl.getDstNodeId remoteIp with
  | none => exact Or.inl rfl
  | some dstNodeId =>
    simp only
    by_cases hno : (!cl.hasConn || cl.closing) = true
    · exact Or.inl (if_pos hno)
    · obtain ⟨hconn, hclosing⟩ : cl.hasConn = true ∧ cl.closing = false := by simpa using hno
      exact Or.inr ⟨dstNodeId, _, rfl, hconn, hclosing, rfl, if_neg hno⟩

theorem closeConnection_cases (cl : Client) (connId : ConnId) :
    ((cl.closing = true ∨ cl.connStates.find? connId = none) ∧
      cl.closeConnection connId = ⟨cl, [], [.closed connId]⟩) ∨
    ∃ e, cl.closing = false ∧ cl.connStates.find? connId = some e ∧
      cl.closeConnection connId =
        ⟨{ cl.assert (!e.proxySession) with
            connStates := cl.connStates.erase connId
            rendezvousConnIds := cl.rendezvousConnIds.filter (· ≠ connId) },
          if e.status = .pending then [.connClose connId false] else [],
          [.rendezvous, .closed connId]⟩ := by
  unfold closeConnection
  split_ifs with hclosing
  · exact Or.inl ⟨Or.inl hclosing, rfl⟩
  · cases hfind : cl.connStates.find? connId with
    | none => exact Or.inl ⟨Or.inr rfl, rfl⟩
    | some e => exact Or.inr ⟨e, by simpa using hclosing, rfl, rfl⟩

theorem onProxyDone_cases (cl : Client) (connId : ConnId) :
    cl.onProxyDone connId = cl ∨
    ∃ e, cl.connStates.find? connId = some e ∧
      cl.onProxyDone connId = { cl with connStates := cl.connStates.erase connId } := by
  unfold onProxyDone
  split_ifs with hclosing
  · exact Or.inl rfl
  · cases hfind : cl.connStates.find? connId with
    | none => exact Or.inl rfl
    | some e => exact Or.inr ⟨e, rfl, rfl⟩

/-- What a session's callback does: nothing, success, or failure. -/
theorem onRendezvous_cases (cl : Client) (connId : ConnId) (err : Nat) (bound : Bool) :
    ((cl.closing = true ∨ cl.connStates.find? connId = none) ∧
      cl.onRendezvous connId err bound = ⟨cl, [], []⟩) ∨
    ∃ e, cl.connStates.find? connId = some e ∧
      (cl.onRendezvous connId err bound =
        ⟨{ cl with
            connStates := cl.connStates.insert connId
              { e with rSess := none, status := .established, keepalive := true } },
          if e.status = .established then [] else [.connClose connId true],
          (if e.callback then [.invoke connId 0] else [.startProxy connId]) ++ [.rendezvous]⟩ ∨
      ∃ err', cl.onRendezvous connId err bound =
        ⟨{ cl with connStates := cl.connStates.erase connId },
          [.connClose connId (e.status = .established)],
          (if e.callback then [.invoke connId err'] else []) ++ [.rendezvous]⟩) := by
  unfold onRendezvous
  by_cases hclosing : cl.closing = true
  · exact Or.inl ⟨Or.inl hclosing, if_pos hclosing⟩
  · rw [if_neg hclosing]
    cases hfind : cl.connStates.find? connId with
    | none => exact Or.inl ⟨Or.inr rfl, rfl⟩
    | some e =>
      refine Or.inr ⟨e, rfl, ?_⟩
      simp only
      generalize (if err = 0 ∧ bound = false then 0x11 else err) = err'
      by_cases hz : err' = 0
      · rw [if_pos hz]
        exact Or.inl rfl
      · rw [if_neg hz]
        exact Or.inr ⟨err', rfl⟩

theorem attachProxy_cases (cl : Client) (connId : ConnId) (res : Bool) :
    (cl.connStates.find? connId = none ∧ cl.attachProxy connId res = cl) ∨
    ∃ e, cl.connStates.find? connId = some e ∧
      (cl.attachProxy connId res =
        { cl with connStates := cl.connStates.insert connId { e with proxySession := true } } ∨
      cl.attachProxy connId res = { cl with connStates := cl.connStates.erase connId }) := by
  unfold attachProxy
  cases hfind : cl.connStates.find? connId with
  | none => exact Or.inl ⟨rfl, rfl⟩
  | some e =>
    refine Or.inr ⟨e, rfl, ?_⟩
    cases res with
    | true => exact Or.inl rfl
    | false => exact Or.inr rfl

/-- What `processRendezvous` does with the front of the queue. -/
inductive AtFront (cl : Client) (connId : ConnId) (e : ConnState) (rest : List ConnId) :
    Res → Prop where
  /-- Its request is sent. -/
  | create (hmode : e.mode = none) (hstatus : e.status = .none) :
    AtFront cl connId e rest
      ⟨{ cl.assert (!e.started && !e.keepalive && !e.proxySession &&
            (cl.getDstNodeId e.remoteIp).isSome) with
          connStates := cl.connStates.insert connId { e with status := .pending } },
        [.connCreate connId ((cl.getDstNodeId e.remoteIp).getD 0) e.remoteIp e.remotePort
          cl.bestEffort], []⟩
  /-- It waits for a reply, or for the running session. -/
  | blocked (h : (e.mode = none ∧ e.status ≠ .none) ∨
        (e.mode = some .symmConn ∧ cl.symmConnRunning = true)) :
    AtFront cl connId e rest
      ⟨cl.assert (!e.started && !e.keepalive && !e.proxySession), [], []⟩
  | started {kind : Kind} (hmode : e.mode = some kind)
      (hrun : kind = .symmConn → cl.symmConnRunning = false) :
    AtFront cl connId e rest
      ⟨{ cl.assert (!e.started && !e.keepalive && !e.proxySession &&
            decide ((cl.sessionOf e kind).kind = kind)) with
          rendezvousConnIds := rest
          connStates := cl.connStates.insert connId
            { e with rSess := some { cl.sessionOf e kind with started := true } } },
        [], [.rendezvous]⟩
  | failed {kind : Kind} (hmode : e.mode = some kind) :
    AtFront cl connId e rest
      ⟨{ cl.assert (!e.started && !e.keepalive && !e.proxySession &&
            decide ((cl.sessionOf e kind).kind = kind)) with
          rendezvousConnIds := rest
          connStates := cl.connStates.erase connId },
        [.connClose connId false],
        (if e.callback then [.invoke connId 0x10] else []) ++ [.rendezvous]⟩

theorem atFront_cases (cl : Client) (res : Bool) (connId : ConnId) (e : ConnState)
    (rest : List ConnId) :
    AtFront cl connId e rest (cl.atFront cl.symmConnRunning res connId e rest) := by
  have hassert : ∀ a b, (cl.assert a).assert b = cl.assert (a && b) := by
    intro a b
    simp [assert, Bool.and_assoc]
  unfold atFront
  simp only
  split
  · rename_i hmode
    by_cases hstatus : e.status = .none
    · rw [if_pos hstatus, hassert]
      exact .create hmode hstatus
    · rw [if_neg hstatus]
      exact .blocked (Or.inl ⟨hmode, hstatus⟩)
  · rename_i kind hmode
    by_cases hrun : kind = .symmConn ∧ cl.symmConnRunning = true
    · rw [if_pos hrun]
      exact .blocked (Or.inr ⟨hrun.1 ▸ hmode, hrun.2⟩)
    · rw [if_neg hrun]
      unfold startFront
      simp only [hassert]
      cases res with
      | true => exact .started hmode fun hk => by simpa [hk] using hrun
      | false => exact .failed hmode

/-- `processRendezvous` drops the ids at the front of the queue that have no entry, and
then deals with the first one that has. -/
theorem processRendezvous_cases (cl : Client) (res : Bool) :
    (cl.hasConn = false ∧ cl.processRendezvous res = ⟨cl, [], []⟩) ∨
    (cl.hasConn = true ∧ ∃ gone queue, cl.rendezvousConnIds = gone ++ queue ∧
      (∀ c ∈ gone, cl.connStates.find? c = none) ∧
      ((queue = [] ∧ cl.processRendezvous res =
          ⟨{ cl with ok := cl.ok && gone.isEmpty, rendezvousConnIds := [] }, [], []⟩) ∨
        ∃ connId rest e, queue = connId :: rest ∧ cl.connStates.find? connId = some e ∧
          AtFront { cl with ok := cl.ok && gone.isEmpty, rendezvousConnIds := queue } connId e
            rest (cl.processRendezvous res))) := by
  unfold processRendezvous
  split_ifs with hconn
  · refine Or.inr ⟨hconn, ?_⟩
    suffices h : ∀ (q : List ConnId) (ok : Bool), ∃ gone queue, q = gone ++ queue ∧
        (∀ c ∈ gone, cl.connStates.find? c = none) ∧
        ((queue = [] ∧ scan { cl with ok := ok } cl.symmConnRunning res q =
            ⟨{ cl with ok := ok && gone.isEmpty, rendezvousConnIds := [] }, [], []⟩) ∨
          ∃ connId rest e, queue = connId :: rest ∧ cl.connStates.find? connId = some e ∧
            AtFront { cl with ok := ok && gone.isEmpty, rendezvousConnIds := queue } connId e
              rest (scan { cl with ok := ok } cl.symmConnRunning res q)) from
      h cl.rendezvousConnIds cl.ok
    intro q
    induction q with
    | nil =>
      intro ok
      exact ⟨[], [], rfl, by simp, Or.inl ⟨rfl, by simp [scan]⟩⟩
    | cons connId rest ih =>
      intro ok
      simp only [scan]
      cases hfind : cl.connStates.find? connId with
      | none =>
        obtain ⟨gone, queue, hq, hgone, hrest⟩ := ih false
        refine ⟨connId :: gone, queue, by rw [hq]; rfl, ?_, ?_⟩
        · intro c hc
          rcases List.mem_cons.mp hc with rfl | hc
          · exact hfind
          · exact hgone c hc
        · simpa [assert] using hrest
      | some e =>
        refine ⟨[], connId :: rest, rfl, by simp, Or.inr ⟨connId, rest, e, rfl, hfind, ?_⟩⟩
        simp only [List.isEmpty_nil, Bool.and_true]
        exact atFront_cases { cl with ok := ok, rendezvousConnIds := connId :: rest } res connId e
          rest
  · exact Or.inl ⟨by simpa using hconn, rfl⟩

/-- Handlers open and close connections, and send nothing else. -/
theorem handled_sent {r : Res} {rest : List Task} (h : Handled cl e r rest) :
    ∀ m ∈ r.sent, (∃ c dst ip port b, m = .connCreate c dst ip port b) ∨
      ∃ c established, m = .connClose c established := by
  have honRendezvous : ∀ c err bound, ∀ m ∈ (cl.onRendezvous c err bound).sent,
      (∃ c dst ip port b, m = .connCreate c dst ip port b) ∨
        ∃ c established, m = .connClose c established := by
    intro c err bound m hm
    rcases onRendezvous_cases cl c err bound with ⟨_, heq⟩ | ⟨e, _, heq | ⟨_, heq⟩⟩
    · simp [heq] at hm
    · rw [heq] at hm
      simp only at hm
      split at hm
      · cases hm
      · exact Or.inr ⟨_, _, List.mem_singleton.mp hm⟩
    · rw [heq] at hm
      exact Or.inr ⟨_, _, List.mem_singleton.mp hm⟩
  intro m hm
  cases h with
  | @recv msg =>
    cases msg with
    | conn =>
      simp only [recv, onRecvMsgConn] at hm
      split at hm <;> cases hm
    | connStatus connId status mode dstIp =>
      simp only [recv, onRecvMsgConnStatus] at hm
      split at hm
      · cases hm
      · cases status with
        | established =>
          simp only at hm
          split at hm <;> cases hm
        | _ => cases hm
    | _ => cases hm
  | @register ip port =>
    rcases registerConnection_cases cl ip port with heq | ⟨dst, send, _, _, _, _, heq⟩
    · simp [heq] at hm
    · rw [heq] at hm
      simp only at hm
      split at hm
      · exact Or.inl ⟨_, _, _, _, _, List.mem_singleton.mp hm⟩
      · cases hm
  | @close connId =>
    rcases closeConnection_cases cl connId with ⟨_, heq⟩ | ⟨e, _, _, heq⟩
    · simp [heq] at hm
    · rw [heq] at hm
      simp only at hm
      split at hm
      · exact Or.inr ⟨_, _, List.mem_singleton.mp hm⟩
      · cases hm
  | rendezvous => exact honRendezvous _ _ _ m hm
  | @run _ res bound task =>
    cases task with
    | established connId =>
      simp only [perform] at hm
      split at hm
      · exact honRendezvous _ _ _ m hm
      · cases hm
    | rendezvous =>
      simp only [perform] at hm
      rcases processRendezvous_cases cl res with
        ⟨_, heq⟩ | ⟨_, _, _, _, _, ⟨_, heq⟩ | ⟨_, _, _, _, _, hfront⟩⟩
      · simp [heq] at hm
      · simp [heq] at hm
      · generalize cl.processRendezvous res = r at hfront hm
        cases hfront with
        | create => exact Or.inl ⟨_, _, _, _, _, List.mem_singleton.mp hm⟩
        | blocked => cases hm
        | started => cases hm
        | failed => exact Or.inr ⟨_, _, List.mem_singleton.mp hm⟩
    | _ => cases hm
  | _ => cases hm

section Base

variable {r : Res} {rest : List Task}

/-- The fields that only the constructor sets, the link, the counter and what it has given. -/
structure SameBase (cl cl' : Client) : Prop where
  node : cl'.nodeId = cl.nodeId
  routes : cl'.routes = cl.routes
  link : cl'.link = cl.link
  next : cl'.nextConnIdx = cl.nextConnIdx
  given : given cl'.log = given cl.log

theorem SameBase.refl (cl : Client) : SameBase cl cl := ⟨rfl, rfl, rfl, rfl, rfl⟩

theorem closeConnection_base (connId : ConnId) :
    SameBase cl (cl.closeConnection connId).client := by
  rcases closeConnection_cases cl connId with ⟨_, heq⟩ | ⟨_, _, _, heq⟩ <;>
    rw [heq] <;> exact ⟨rfl, rfl, rfl, rfl, rfl⟩

theorem onProxyDone_base (connId : ConnId) : SameBase cl (cl.onProxyDone connId) := by
  rcases onProxyDone_cases cl connId with heq | ⟨_, _, heq⟩ <;>
    rw [heq] <;> exact ⟨rfl, rfl, rfl, rfl, rfl⟩

theorem onRendezvous_base (connId : ConnId) (err : Nat) (bound : Bool) :
    SameBase cl (cl.onRendezvous connId err bound).client := by
  rcases onRendezvous_cases cl connId err bound with ⟨_, heq⟩ | ⟨e, _, heq | ⟨_, heq⟩⟩ <;>
    rw [heq] <;> exact ⟨rfl, rfl, rfl, rfl, rfl⟩

theorem recv_base (msg : DownMsg) : SameBase cl (cl.recv msg).client := by
  cases msg with
  | conn => simp only [recv, onRecvMsgConn]; split <;> exact ⟨rfl, rfl, rfl, rfl, rfl⟩
  | connStatus connId status mode dstIp =>
    simp only [recv, onRecvMsgConnStatus]
    split
    · exact .refl cl
    · cases status with
      | pending => exact ⟨rfl, rfl, rfl, rfl, rfl⟩
      | established => simp only; split <;> exact ⟨rfl, rfl, rfl, rfl, rfl⟩
      | err code => exact ⟨rfl, rfl, rfl, rfl, rfl⟩
  | _ => exact .refl cl

theorem processRendezvous_base (res : Bool) : SameBase cl (cl.processRendezvous res).client := by
  rcases processRendezvous_cases cl res with
    ⟨_, heq⟩ | ⟨_, _, _, _, _, ⟨_, heq⟩ | ⟨_, _, _, _, _, hfront⟩⟩
  · rw [heq]; exact .refl cl
  · rw [heq]; exact ⟨rfl, rfl, rfl, rfl, rfl⟩
  · generalize cl.processRendezvous res = r at hfront ⊢
    cases hfront <;> exact ⟨rfl, rfl, rfl, rfl, rfl⟩

theorem perform_base (res bound : Bool) (task : Task) :
    SameBase cl (cl.perform res bound task).client := by
  cases task with
  | attachProxy connId res' =>
    rcases attachProxy_cases cl connId res' with ⟨_, heq⟩ | ⟨e, _, heq | heq⟩ <;>
      simp only [perform, heq] <;> exact ⟨rfl, rfl, rfl, rfl, rfl⟩
  | established connId =>
    simp only [perform]
    split
    · exact onRendezvous_base _ _ _
    · exact .refl cl
  | rendezvous => exact processRendezvous_base res
  | startProxy => exact ⟨rfl, rfl, rfl, rfl, rfl⟩
  | invoke | closed => exact ⟨rfl, rfl, rfl, rfl, (given_append _ _).trans (List.append_nil _)⟩

/-- Apart from what happens to the link, and from a registration, a handler keeps the base. -/
theorem handled_base (h : Handled cl e r rest) :
    (SameBase cl r.client ∧ ∀ ip port, e ≠ .registerConnection ip port) ∨ e = .probed ∨
      (∃ ip port, e = .connected ip port) ∨ e = .lost ∨
      ∃ ip port, e = .registerConnection ip port := by
  cases h with
  | probed => exact Or.inr (Or.inl rfl)
  | connected => exact Or.inr (Or.inr (Or.inl ⟨_, _, rfl⟩))
  | lost => exact Or.inr (Or.inr (Or.inr (Or.inl rfl)))
  | register => exact Or.inr (Or.inr (Or.inr (Or.inr ⟨_, _, rfl⟩)))
  | recv => exact Or.inl ⟨recv_base _, by simp⟩
  | close => exact Or.inl ⟨closeConnection_base _, by simp⟩
  | rendezvous => exact Or.inl ⟨onRendezvous_base _ _ _, by simp⟩
  | proxyDone => exact Or.inl ⟨onProxyDone_base _, by simp⟩
  | run => exact Or.inl ⟨perform_base _ _ _, by simp⟩
  | shutdown => exact Or.inl ⟨⟨rfl, rfl, rfl, rfl, rfl⟩, by simp⟩

theorem handled_config (h : Handled cl e r rest) :
    r.client.nodeId = cl.nodeId ∧ r.client.routes = cl.routes := by
  rcases handled_base h with ⟨hbase, _⟩ | rfl | ⟨ip, port, rfl⟩ | rfl | ⟨ip, port, rfl⟩
  · exact ⟨hbase.node, hbase.routes⟩
  · cases h; exact ⟨rfl, rfl⟩
  · cases h; exact ⟨rfl, rfl⟩
  · cases h; exact ⟨rfl, rfl⟩
  · cases h
    rcases registerConnection_cases cl ip port with heq | ⟨_, _, _, _, _, _, heq⟩ <;>
      rw [heq] <;> exact ⟨rfl, rfl⟩

/-- Apart from `onConnect`, an event leaves the link as it is, or loses it, or is the
beginning of a probe. -/
theorem handled_link (h : Handled cl e r rest) (hne : ∀ ip port, e ≠ .connected ip port) :
    r.client.link = cl.link ∨ (cl.link = .idle ∧ r.client.link = .probe) ∨
      (cl.hasConn = true ∧ r.client.link = .lost) := by
  rcases handled_base h with ⟨hbase, _⟩ | rfl | ⟨ip, port, rfl⟩ | rfl | ⟨ip, port, rfl⟩
  · exact Or.inl hbase.link
  · cases h with
    | probed hl => exact Or.inr (Or.inl ⟨hl, rfl⟩)
  · exact absurd rfl (hne _ _)
  · cases h with
    | lost hl => exact Or.inr (Or.inr ⟨hl, rfl⟩)
  · cases h
    rcases registerConnection_cases cl ip port with heq | ⟨_, _, _, _, _, _, heq⟩ <;>
      rw [heq] <;> exact Or.inl rfl

/-- The counter moves on only when a registration draws from it; a registration that does not
draw does nothing. -/
theorem handled_next (h : Handled cl e r rest) :
    (r.client.nextConnIdx = cl.nextConnIdx ∧
      ∀ ip port, e = .registerConnection ip port → r.client = cl ∧ r.sent = []) ∨
    ∃ ip port, e = .registerConnection ip port ∧
      r.client.nextConnIdx = (drawIdx cl.nextConnIdx).2 := by
  rcases handled_base h with ⟨hbase, hne⟩ | rfl | ⟨ip, port, rfl⟩ | rfl | ⟨ip, port, rfl⟩
  · exact Or.inl ⟨hbase.next, fun ip port he => absurd he (hne ip port)⟩
  · cases h; exact Or.inl ⟨rfl, by simp⟩
  · cases h; exact Or.inl ⟨rfl, by simp⟩
  · cases h; exact Or.inl ⟨rfl, by simp⟩
  · cases h
    rcases registerConnection_cases cl ip port with heq | ⟨_, _, _, _, _, _, heq⟩
    · rw [heq]
      exact Or.inl ⟨rfl, fun _ _ _ => ⟨rfl, rfl⟩⟩
    · exact Or.inr ⟨ip, port, rfl, by rw [heq]⟩

theorem step_config (h : cl.step e = some (cl', sent)) :
    cl'.nodeId = cl.nodeId ∧ cl'.routes = cl.routes := by
  obtain ⟨r, rest, hr, _, hcl, _⟩ := step_handled h
  rw [hcl]
  exact handled_config hr

theorem step_link (h : cl.step e = some (cl', sent)) (hne : ∀ ip port, e ≠ .connected ip port) :
    cl'.link = cl.link ∨ (cl.link = .idle ∧ cl'.link = .probe) ∨
      (cl.hasConn = true ∧ cl'.link = .lost) := by
  obtain ⟨r, rest, hr, _, hcl, _⟩ := step_handled h
  rw [hcl]
  exact handled_link hr hne

theorem step_next (h : cl.step e = some (cl', sent)) :
    (cl'.nextConnIdx = cl.nextConnIdx ∧
      ∀ ip port, e = .registerConnection ip port →
        cl'.connStates = cl.connStates ∧ sent = []) ∨
    ∃ ip port, e = .registerConnection ip port ∧
      cl'.nextConnIdx = (drawIdx cl.nextConnIdx).2 := by
  obtain ⟨r, rest, hr, _, hcl, hsent⟩ := step_handled h
  rcases handled_next hr with ⟨hnext, hreg⟩ | ⟨ip, port, he, hnext⟩
  · refine Or.inl ⟨by rw [hcl]; exact hnext, fun ip port he => ?_⟩
    obtain ⟨hsame, hnil⟩ := hreg ip port he
    refine ⟨by rw [hcl, ← hsame], ?_⟩
    rcases hsent with ⟨_, _, rfl, _⟩ | ⟨_, rfl⟩
    · cases he
    · rw [hnil, wire_nil]
  · exact Or.inr ⟨ip, port, he, by rw [hcl]; exact hnext⟩

/-- What reaches the master opens or closes connections, apart from `HELLO`. -/
theorem step_sent (h : cl.step e = some (cl', sent)) (hne : ∀ ip port, e ≠ .connected ip port) :
    (cl.link ≠ .server → sent = []) ∧
      ∀ m ∈ sent, (∃ c dst ip port b, m = .connCreate c dst ip port b) ∨
        ∃ c established, m = .connClose c established := by
  obtain ⟨r, rest, hr, _, _, hsent⟩ := step_handled h
  rcases hsent with ⟨ip, port, he, _⟩ | ⟨_, rfl⟩
  · exact absurd he (hne ip port)
  · unfold wire
    split_ifs with hl
    · exact ⟨fun hne => absurd hl hne, handled_sent hr⟩
    · exact ⟨fun _ => rfl, by simp⟩

end Base

end Client

end DTun.Node.MasterClient
