import DTun.Node.MasterClient.Rendezvous

/-!
# Spreading connectors, and the order of the queue

A session of mode `SymmConn` spreads over many ports, so only one may run at a time. The
scan of the table before a start sees to that as long as an entry whose session runs does
not change its mode afterwards, which it does not when the master always gives one client
the same kind of mode: `SymmConn` if the node is behind a symmetric NAT, another one if it
is not.

The queue is first in, first out. Ids leave it at the front, to have their session started;
`closeConnection` and an error status take ids out wherever they are; an id without an entry
is dropped at the front, which the source asserts not to happen.
-/

namespace DTun.Node.MasterClient

open DTun.Lib

variable {cl cl' : Client} {c c' : ConnId} {ev : Event} {v v' : View} {sent : List UpMsg}

/-- The session of the entry is running and spreads. -/
def ConnState.spreads (e : ConnState) : Bool := e.started && e.mode = some .symmConn

/-- At most one session of mode `SymmConn` is running. -/
def Exclusive (cl : Client) : Prop :=
  ∀ c c' e e', cl.connStates.find? c = some e → cl.connStates.find? c' = some e' →
    e.spreads = true → e'.spreads = true → c = c'

/-- The mode is the one for a node that is, or is not, behind a symmetric NAT. -/
def Fits (symm : Bool) (mode : RMode) : Prop := Kind.ofRMode mode = .symmConn ↔ symm = true

/-- What the master says about modes fits the node. -/
def ModesFit (symm : Bool) : Event → Prop
  | .recv (.conn _ _ _ mode _ _ _) => Fits symm mode
  | .recv (.connStatus _ .pending mode _) => Fits symm mode
  | _ => True

/-- All modes in the table fit the node, and a session has a mode. -/
structure Uniform (symm : Bool) (cl : Client) : Prop where
  modes : ∀ c e kind, cl.connStates.find? c = some e → e.mode = some kind →
    (kind = .symmConn ↔ symm = true)
  moded : ∀ c, Moded (cl.view c)

theorem Move.modes {symm : Bool} (hm : Move cl c ev v v' sent) (hfit : ModesFit symm ev)
    (h : ∀ e kind, v.entry = some e → e.mode = some kind → (kind = .symmConn ↔ symm = true)) :
    ∀ e kind, v'.entry = some e → e.mode = some kind → (kind = .symmConn ↔ symm = true) := by
  cases hm with
  | requested =>
    rintro _ _ ⟨⟩ ⟨⟩
    exact hfit
  | replied =>
    rintro _ _ ⟨⟩ ⟨⟩
    exact hfit
  | registered => rintro _ _ ⟨⟩ ⟨⟩
  | reported he | succeeded he | proxySet he | create he | started he =>
    rintro _ kind ⟨⟩ hmode
    exact h _ kind he hmode
  | closed | refused | failed | proxyDone | proxyFailed | startFailed => rintro _ _ ⟨⟩
  | other | dropped | closeMissed | invoked | proxyStarted | proxyMissed | notCalled | returned =>
    exact h

/-- The table has a spreading session for `c`. -/
def Spreading (m : OrderedMap ConnId ConnState) (c : ConnId) : Prop :=
  ∃ e, m.find? c = some e ∧ e.spreads = true

variable {m : OrderedMap ConnId ConnState} {e : ConnState}

theorem Spreading.of_erase (h : Spreading (m.erase c) c') : Spreading m c' := by
  obtain ⟨e, he, hs⟩ := h
  rw [OrderedMap.find?_erase] at he
  split at he
  · cases he
  · exact ⟨e, he, hs⟩

theorem Spreading.of_insert (h : Spreading (m.insert c e) c') :
    (c' = c ∧ e.spreads = true) ∨ Spreading m c' := by
  obtain ⟨e', he', hs⟩ := h
  rw [OrderedMap.find?_insert] at he'
  split at he'
  · rename_i heq
    obtain rfl := Option.some.inj he'
    exact Or.inl ⟨heq, hs⟩
  · exact Or.inr ⟨e', he', hs⟩

/-- An entry is replaced by one that spreads only if it did before. -/
theorem Spreading.of_update {e₀ : ConnState} (h : Spreading (m.insert c e) c')
    (he₀ : m.find? c = some e₀) (hold : e.spreads = true → e₀.spreads = true) :
    Spreading m c' := by
  rcases h.of_insert with ⟨rfl, hs⟩ | h
  · exact ⟨e₀, he₀, hold hs⟩
  · exact h

theorem spreading_iff_running : cl.symmConnRunning = true ↔ ∃ c, Spreading cl.connStates c :=
  (OrderedMap.any_iff _ _).trans
    ⟨fun ⟨c, e, he, hs⟩ => ⟨c, e, he, hs⟩, fun ⟨c, e, he, hs⟩ => ⟨c, e, he, hs⟩⟩

namespace Client

variable {r : Res} {rest : List Task} {symm : Bool}

theorem recv_spreading (hu : Uniform symm cl) (msg : DownMsg) (hfit : ModesFit symm (.recv msg))
    (h : Spreading (cl.recv msg).client.connStates c) : Spreading cl.connStates c := by
  cases msg with
  | conn connId ip port mode srcIp bestEffort serial =>
    simp only [recv, onRecvMsgConn] at h
    split at h
    · exact h
    · rcases h.of_insert with ⟨_, hs⟩ | h
      · cases hs
      · exact h
  | connStatus connId status mode dstIp =>
    simp only [recv, onRecvMsgConnStatus] at h
    split at h
    · exact h
    · rename_i e he
      split at h
      · refine h.of_update he fun hs => ?_
        simp only [ConnState.spreads, ConnState.started, Bool.and_eq_true, decide_eq_true_eq,
          Option.some.injEq] at hs ⊢
        -- the session runs already, so the entry has a mode, and it fits as well
        obtain ⟨kind, hkind⟩ := Option.isSome_iff_exists.mp
          ((hu.moded _).session e he (isSome_of_started hs.1))
        refine ⟨hs.1, ?_⟩
        rw [hkind, (hu.modes _ e kind he hkind).mpr (hfit.mp hs.2)]
      · split at h
        · exact h.of_update he id
        · exact h
      · exact h.of_erase
  | _ => exact h

theorem onRendezvous_spreading {connId : ConnId} {err : Nat} {bound : Bool}
    (h : Spreading (cl.onRendezvous connId err bound).client.connStates c) :
    Spreading cl.connStates c := by
  rcases onRendezvous_cases cl connId err bound with
    ⟨_, heq⟩ | ⟨e, he, heq | ⟨err', heq⟩⟩
  · rw [heq] at h
    exact h
  · rw [heq] at h
    rcases h.of_insert with ⟨_, hs⟩ | h
    · cases hs
    · exact h
  · rw [heq] at h
    exact h.of_erase

/-- A session is started only when none of mode `SymmConn` is running. -/
theorem processRendezvous_spreading (res : Bool) :
    (∀ c, Spreading (cl.processRendezvous res).client.connStates c → Spreading cl.connStates c) ∨
    (cl.symmConnRunning = false ∧ ∃ c₀, ∀ c,
      Spreading (cl.processRendezvous res).client.connStates c → c = c₀) := by
  rcases processRendezvous_cases cl res with
    ⟨_, heq⟩ | ⟨_, gone, queue, _, _, ⟨_, heq⟩ | ⟨connId, rest, e, _, he, hfront⟩⟩
  · rw [heq]
    exact Or.inl fun _ h => h
  · rw [heq]
    exact Or.inl fun _ h => h
  · generalize cl.processRendezvous res = r at hfront ⊢
    cases hfront with
    | create => exact Or.inl fun _ h => h.of_update he id
    | blocked => exact Or.inl fun _ h => h
    | @started kind hmode hrun =>
      by_cases hk : kind = .symmConn
      · refine Or.inr ⟨hrun hk, connId, fun c h => ?_⟩
        rcases h.of_insert with ⟨heq, _⟩ | h
        · exact heq
        · cases (hrun hk).symm.trans (spreading_iff_running.mpr ⟨c, h⟩)
      · refine Or.inl fun c h => ?_
        rcases h.of_insert with ⟨_, hs⟩ | h
        · simp only [ConnState.spreads, hmode, Bool.and_eq_true, decide_eq_true_eq,
            Option.some.injEq] at hs
          exact absurd hs.2 hk
        · exact h
    | failed => exact Or.inl fun _ h => h.of_erase

theorem perform_spreading (task : Task) (res bound : Bool) :
    (∀ c, Spreading (cl.perform res bound task).client.connStates c → Spreading cl.connStates c) ∨
    (cl.symmConnRunning = false ∧ ∃ c₀, ∀ c,
      Spreading (cl.perform res bound task).client.connStates c → c = c₀) := by
  cases task with
  | attachProxy connId res' =>
    refine Or.inl fun c h => ?_
    rcases attachProxy_cases cl connId res' with ⟨_, heq⟩ | ⟨e, he, heq | heq⟩
    · simp only [perform, heq] at h
      exact h
    · simp only [perform, heq] at h
      exact h.of_update he id
    · simp only [perform, heq] at h
      exact h.of_erase
  | established connId =>
    refine Or.inl fun c h => ?_
    simp only [perform] at h
    split at h
    · exact onRendezvous_spreading h
    · exact h
  | rendezvous => exact processRendezvous_spreading res
  | invoke | startProxy | closed => exact Or.inl fun _ h => h

theorem handled_spreading (hh : Handled cl ev r rest) (hu : Uniform symm cl)
    (hfit : ModesFit symm ev) :
    (∀ c, Spreading r.client.connStates c → Spreading cl.connStates c) ∨
    (cl.symmConnRunning = false ∧ ∃ c₀, ∀ c, Spreading r.client.connStates c → c = c₀) := by
  cases hh with
  | recv => exact Or.inl fun _ h => recv_spreading hu _ hfit h
  | register =>
    refine Or.inl fun c h => ?_
    rcases registerConnection_cases cl _ _ with heq | ⟨_, _, _, _, _, _, heq⟩
    · rw [heq] at h
      exact h
    · rw [heq] at h
      rcases h.of_insert with ⟨_, hs⟩ | h
      · cases hs
      · exact h
  | @close connId =>
    refine Or.inl fun c h => ?_
    rcases closeConnection_cases cl connId with ⟨_, heq⟩ | ⟨e, _, _, heq⟩
    · rw [heq] at h
      exact h
    · rw [heq] at h
      exact h.of_erase
  | rendezvous => exact Or.inl fun _ h => onRendezvous_spreading h
  | @proxyDone connId =>
    refine Or.inl fun c h => ?_
    rcases onProxyDone_cases cl connId with heq | ⟨_, _, heq⟩
    · rw [heq] at h
      exact h
    · rw [heq] at h
      exact h.of_erase
  | run => exact perform_spreading _ _ _
  | probed | connected | lost | shutdown => exact Or.inl fun _ h => h

theorem step_exclusive (hs : cl.step ev = some (cl', sent)) (hu : Uniform symm cl)
    (hfit : ModesFit symm ev) (h : Exclusive cl) : Exclusive cl' := by
  obtain ⟨r, rest, hh, _, hcl, _⟩ := step_handled hs
  intro c c' e e' he he' hse hse'
  rw [hcl] at he he'
  rcases handled_spreading hh hu hfit with hold | ⟨_, c₀, hone⟩
  · obtain ⟨e₁, he₁, hs₁⟩ := hold c ⟨e, he, hse⟩
    obtain ⟨e₂, he₂, hs₂⟩ := hold c' ⟨e', he', hse'⟩
    exact h c c' e₁ e₂ he₁ he₂ hs₁ hs₂
  · exact (hone c ⟨e, he, hse⟩).trans (hone c' ⟨e', he', hse'⟩).symm

theorem step_uniform (hs : cl.step ev = some (cl', sent)) (hfit : ModesFit symm ev)
    (h : Uniform symm cl) : Uniform symm cl' := by
  constructor
  · intro c
    obtain ⟨sent', hm, _⟩ := step_move hs c
    exact hm.modes hfit (h.modes c)
  · intro c
    obtain ⟨sent', hm, _⟩ := step_move hs c
    exact hm.moded (h.moded c)

/-- The ids that an event puts at the end of the queue. -/
def pushed (cl : Client) : Event → List ConnId
  | .registerConnection remoteIp _ =>
    if (cl.getDstNodeId remoteIp).isSome && cl.hasConn && !cl.closing then [cl.nextId] else []
  | .recv (.conn connId _ _ _ _ _ _) =>
    if (cl.connStates.find? connId).isNone then [connId] else []
  | _ => []

/-- The ids that `closeConnection` or an error status takes out of the queue. -/
def removed (cl : Client) : Event → List ConnId
  | .closeConnection connId =>
    if !cl.closing && (cl.connStates.find? connId).isSome then
      cl.rendezvousConnIds.filter (· = connId)
    else []
  | .recv (.connStatus connId (.err _) _ _) =>
    if (cl.connStates.find? connId).isSome then cl.rendezvousConnIds.filter (· = connId) else []
  | _ => []

/-- The event is a call of `processRendezvous` that looks at the queue. -/
def scans (cl : Client) : Event → Bool
  | .run i _ _ =>
    match cl.threads[i]? with
    | some (.rendezvous :: _) => cl.hasConn
    | _ => false
  | _ => false

def noEntry (cl : Client) (connId : ConnId) : Bool := (cl.connStates.find? connId).isNone

/-- The session of the entry may be started. -/
def startable (cl : Client) (connId : ConnId) : Bool :=
  (cl.connStates.find? connId).any fun e =>
    e.mode.any fun kind => !(kind = .symmConn && cl.symmConnRunning)

/-- The ids that leave the queue at the front: those without an entry, and the next one if
its session is started. -/
def left (cl : Client) (ev : Event) : List ConnId :=
  if cl.scans ev then
    cl.rendezvousConnIds.takeWhile cl.noEntry ++
      ((cl.rendezvousConnIds.dropWhile cl.noEntry).take 1).filter cl.startable
  else []

/-- What happens to the queue `q` when `p` is pushed, `l` leaves at the front and `r` is
removed. -/
structure Queued (q q' p l r : List ConnId) : Prop where
  order : (l ++ q').Sublist (q ++ p)
  count : ∀ c, (q ++ p).count c = (l ++ q').count c + r.count c

theorem Queued.of_eq {q q' : List ConnId} (h : q' = q) : Queued q q' [] [] [] :=
  h ▸ ⟨by simp, by simp⟩

theorem Queued.same (q : List ConnId) : Queued q q [] [] [] := .of_eq rfl

theorem Queued.push (q p : List ConnId) : Queued q (q ++ p) p [] [] :=
  ⟨by simp, by simp⟩

theorem Queued.trans {q₀ q q' p₁ p₂ l₁ l₂ r₁ r₂ : List ConnId} (h₁ : Queued q₀ q p₁ l₁ r₁)
    (h₂ : Queued q q' p₂ l₂ r₂) : Queued q₀ q' (p₁ ++ p₂) (l₁ ++ l₂) (r₁ ++ r₂) := by
  constructor
  · calc (l₁ ++ l₂ ++ q').Sublist (l₁ ++ (q ++ p₂)) := by
          rw [List.append_assoc]
          exact h₂.order.append_left l₁
      _ = l₁ ++ q ++ p₂ := by rw [List.append_assoc]
      (l₁ ++ q ++ p₂).Sublist (q₀ ++ p₁ ++ p₂) := h₁.order.append_right p₂
      _ = q₀ ++ (p₁ ++ p₂) := by rw [List.append_assoc]
  · intro c
    have hc₁ := h₁.count c
    have hc₂ := h₂.count c
    simp only [List.count_append] at hc₁ hc₂ ⊢
    omega

theorem Queued.remove (q : List ConnId) (connId : ConnId) :
    Queued q (q.filter (· ≠ connId)) [] [] (q.filter (· = connId)) := by
  refine ⟨by simp, fun c => ?_⟩
  rw [List.append_nil, List.nil_append]
  induction q with
  | nil => rfl
  | cons a q ih =>
    by_cases ha : a = connId
    · rw [List.filter_cons_of_neg (by simp [ha]), List.filter_cons_of_pos (by simp [ha]),
        List.count_cons, List.count_cons, ih]
      omega
    · rw [List.filter_cons_of_pos (by simp [ha]), List.filter_cons_of_neg (by simp [ha]),
        List.count_cons, List.count_cons, ih]
      omega

theorem Queued.pop (l q : List ConnId) : Queued (l ++ q) q [] l [] :=
  ⟨by simp, by simp⟩

theorem Queued.cons {q q' l : List ConnId} (h : Queued q q' [] l []) (c : ConnId) :
    Queued (c :: q) q' [] (c :: l) [] := by
  refine ⟨h.order.cons_cons c, fun x => ?_⟩
  have hx := h.count x
  simp only [List.cons_append, List.count_cons] at hx ⊢
  omega

theorem registerConnection_queued (ip port : Nat) :
    Queued cl.rendezvousConnIds (cl.registerConnection ip port).client.rendezvousConnIds
      (cl.pushed (.registerConnection ip port)) [] [] := by
  simp only [pushed, registerConnection]
  cases hdst : cl.getDstNodeId ip with
  | none => exact Queued.same _
  | some dstNodeId =>
    dsimp only
    by_cases hno : (!cl.hasConn || cl.closing) = true
    · rw [if_pos hno, if_neg fun hyes => by simp_all]
      exact Queued.same _
    · have hyes : ((some dstNodeId).isSome && cl.hasConn && !cl.closing) = true := by
        simpa using hno
      rw [if_neg hno, if_pos hyes]
      exact Queued.push _ _

theorem closeConnection_queued (connId : ConnId) :
    Queued cl.rendezvousConnIds (cl.closeConnection connId).client.rendezvousConnIds []
      [] (cl.removed (.closeConnection connId)) := by
  simp only [removed, closeConnection]
  cases hclosing : cl.closing with
  | true => exact Queued.same _
  | false =>
    cases hfind : cl.connStates.find? connId with
    | none => exact Queued.same _
    | some e => exact Queued.remove _ _

theorem recv_queued (msg : DownMsg) :
    Queued cl.rendezvousConnIds (cl.recv msg).client.rendezvousConnIds (cl.pushed (.recv msg)) []
      (cl.removed (.recv msg)) := by
  cases msg with
  | conn connId ip port mode srcIp bestEffort serial =>
    simp only [pushed, removed, recv, onRecvMsgConn]
    cases hfind : cl.connStates.find? connId with
    | none => exact Queued.push _ _
    | some e => exact Queued.same _
  | connStatus connId status mode dstIp =>
    simp only [pushed, recv, onRecvMsgConnStatus]
    cases hfind : cl.connStates.find? connId with
    | none =>
      cases status with
      | err code =>
        simp only [removed, hfind]
        exact Queued.same _
      | pending | established => exact Queued.same _
    | some e =>
      cases status with
      | pending => exact Queued.same _
      | established =>
        dsimp only
        split <;> exact Queued.same _
      | err code =>
        simp only [removed, hfind]
        exact Queued.remove _ _
  | _ => exact Queued.same _

theorem onRendezvous_queue {connId : ConnId} {err : Nat} {bound : Bool} :
    (cl.onRendezvous connId err bound).client.rendezvousConnIds = cl.rendezvousConnIds := by
  rcases onRendezvous_cases cl connId err bound with ⟨_, heq⟩ | ⟨e, he, heq | ⟨err', heq⟩⟩ <;>
    rw [heq]

theorem onProxyDone_queue {connId : ConnId} :
    (cl.onProxyDone connId).rendezvousConnIds = cl.rendezvousConnIds := by
  rcases onProxyDone_cases cl connId with heq | ⟨_, _, heq⟩ <;> rw [heq]

theorem attachProxy_queue {connId : ConnId} {res : Bool} :
    (cl.attachProxy connId res).rendezvousConnIds = cl.rendezvousConnIds := by
  rcases attachProxy_cases cl connId res with ⟨_, heq⟩ | ⟨e, he, heq | heq⟩ <;> rw [heq]

/-- The front of the queue leaves it just when its session may be started. -/
theorem atFront_queue {running res : Bool} {connId : ConnId} {e : ConnState}
    {rest : List ConnId} :
    (cl.atFront running res connId e rest).client.rendezvousConnIds =
      if e.mode.any fun kind => !(kind = .symmConn && running) then rest
      else cl.rendezvousConnIds := by
  unfold atFront
  cases hmode : e.mode with
  | none =>
    dsimp only
    split <;> rfl
  | some kind =>
    dsimp only
    by_cases hwait : kind = .symmConn ∧ running = true
    · rw [if_pos hwait, if_neg (by simp [hwait])]
      rfl
    · rw [if_neg hwait, if_pos (by simpa [imp_iff_not_or] using hwait)]
      unfold startFront
      dsimp only
      split <;> rfl

theorem scan_queued (ok res : Bool) (q : List ConnId) :
    Queued q (scan { cl with ok := ok } cl.symmConnRunning res q).client.rendezvousConnIds []
      (q.takeWhile cl.noEntry ++ ((q.dropWhile cl.noEntry).take 1).filter cl.startable) [] := by
  induction q generalizing ok with
  | nil => exact Queued.same _
  | cons connId rest ih =>
    simp only [scan]
    cases hfind : cl.connStates.find? connId with
    | none =>
      have hno : cl.noEntry connId = true := by simp [noEntry, hfind]
      rw [List.dropWhile_cons_of_pos hno, List.takeWhile_cons_of_pos hno]
      exact (ih _).cons connId
    | some e =>
      have hno : ¬cl.noEntry connId = true := by simp [noEntry, hfind]
      rw [List.dropWhile_cons_of_neg hno, List.takeWhile_cons_of_neg hno, atFront_queue]
      have hstart : cl.startable connId =
          e.mode.any fun kind => !(kind = .symmConn && cl.symmConnRunning) := by
        simp [startable, hfind]
      rw [← hstart, List.take_succ_cons, List.take_zero, List.filter_singleton]
      cases cl.startable connId with
      | true => exact Queued.pop [connId] rest
      | false => exact Queued.same _

/-- Nothing but a call of `processRendezvous` takes an id off the front. -/
theorem perform_queued {i : Nat} {res bound : Bool} {task : Task} {rest : List Task}
    (h : cl.threads[i]? = some (task :: rest)) :
    Queued cl.rendezvousConnIds (cl.perform res bound task).client.rendezvousConnIds []
      (cl.left (.run i res bound)) [] := by
  cases task with
  | rendezvous =>
    simp only [left, scans, h, perform, processRendezvous]
    split
    · exact scan_queued cl.ok res cl.rendezvousConnIds
    · exact Queued.same _
  | attachProxy connId res' =>
    simp only [left, scans, h, perform, attachProxy_queue]
    exact Queued.same _
  | established connId =>
    simp only [left, scans, h, perform, apply_ite Res.client,
      apply_ite Client.rendezvousConnIds, onRendezvous_queue, ite_self]
    exact Queued.same _
  | invoke | startProxy | closed =>
    simp only [left, scans, h, perform]
    exact Queued.same _

/-- Every step treats the queue as a queue. -/
theorem step_queued (hs : cl.step ev = some (cl', sent)) :
    Queued cl.rendezvousConnIds cl'.rendezvousConnIds (cl.pushed ev) (cl.left ev)
      (cl.removed ev) := by
  cases ev with
  | registerConnection ip port =>
    cases hs
    exact registerConnection_queued ip port
  | closeConnection connId =>
    obtain ⟨_, heq⟩ := Option.ite_none_right_eq_some.mp hs
    cases heq
    exact closeConnection_queued connId
  | recv msg =>
    obtain ⟨_, heq⟩ := Option.ite_none_right_eq_some.mp hs
    cases heq
    exact recv_queued msg
  | run i res bound =>
    simp only [step] at hs
    split at hs
    · rename_i task rest hthread
      cases hs
      exact perform_queued hthread
    · cases hs
  | rendezvous connId err bound =>
    obtain ⟨_, heq⟩ := Option.ite_none_right_eq_some.mp hs
    cases heq
    exact Queued.of_eq onRendezvous_queue
  | proxyDone connId =>
    obtain ⟨_, heq⟩ := Option.ite_none_right_eq_some.mp hs
    cases heq
    exact Queued.of_eq onProxyDone_queue
  | probed | connected | lost =>
    obtain ⟨_, heq⟩ := Option.ite_none_right_eq_some.mp hs
    cases heq
    exact Queued.same _
  | shutdown =>
    cases hs
    exact Queued.same _

end Client

end DTun.Node.MasterClient
