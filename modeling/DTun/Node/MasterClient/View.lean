import Mathlib.Data.Multiset.Filter
import DTun.Node.MasterClient.Spec

/-!
# One connection's part of the client

`view` is what the client holds about one connection id: its entry, how often it stands in
the queue, the unfinished tasks and the log records about it. `Move` lists all that a step
can do to it, and `step_move` says that the list is complete. Invariants that speak about
one connection at a time are proved by cases on `Move`.
-/

namespace DTun.Node.MasterClient

open DTun.Lib

def Task.about (c : ConnId) : Task → Bool
  | .invoke c' _ => c' = c
  | .startProxy c' => c' = c
  | .attachProxy c' _ => c' = c
  | .established c' => c' = c
  | .rendezvous => false
  | .closed c' => c' = c

def Record.about (c : ConnId) : Record → Bool
  | .registered c' => c' = c
  | .invoked c' _ => c' = c
  | .closed c' => c' = c

/-- The message opens or closes the connection. -/
def about (c : ConnId) : UpMsg → Bool
  | .connCreate c' _ _ _ _ => c' = c
  | .connClose c' _ => c' = c
  | _ => false

@[ext] structure View where
  entry : Option ConnState
  queued : Nat
  tasks : Multiset Task
  log : List Record

/-- The tasks `ts` are given apart from the client, as a step is a handler that leaves
tasks. -/
def Client.viewWith (cl : Client) (ts : List Task) (c : ConnId) : View where
  entry := cl.connStates.find? c
  queued := cl.rendezvousConnIds.count c
  tasks := ts.filter (Task.about c)
  log := cl.log.filter (Record.about c)

def Client.view (cl : Client) (c : ConnId) : View := cl.viewWith cl.pending c

/-- What an event of client `cl` does to its view of `c`, and the messages about `c` that
the handler sends. -/
inductive Move (cl : Client) (c : ConnId) : Event → View → View → List UpMsg → Prop where
  | other {ev : Event} {v : View} : Move cl c ev v v []
  /-- `processRendezvous` drops an id without an entry. -/
  | dropped {ev : Event} {v : View} {n : Nat} (hentry : v.entry = none) (hn : n ≤ v.queued) :
    Move cl c ev v { v with queued := n } []
  | registered {ip port dstNodeId : Nat} {v : View} {send : Bool} (hid : c = cl.nextId)
      (hroute : cl.getDstNodeId ip = some dstNodeId) :
    Move cl c (.registerConnection ip port) v
      { v with
        entry := some
          { remoteIp := ip, remotePort := port, callback := true
            status := if send then .pending else .none }
        queued := v.queued + 1
        log := v.log ++ [.registered c] }
      (if send then [.connCreate c dstNodeId ip port cl.bestEffort] else [])
  | closeMissed {v : View} (h : cl.closing = true ∨ v.entry = none) :
    Move cl c (.closeConnection c) v { v with tasks := .closed c ::ₘ v.tasks } []
  | closed {v : View} {e : ConnState} (hown : c.nodeId = cl.nodeId) (hclosing : cl.closing = false)
      (he : v.entry = some e) :
    Move cl c (.closeConnection c) v
      { v with entry := none, queued := 0, tasks := .closed c ::ₘ v.tasks }
      (if e.status = .pending then [.connClose c false] else [])
  | requested {ip port srcIp serial : Nat} {mode : RMode} {bestEffort : Bool} {v : View}
      (he : v.entry = none) :
    Move cl c (.recv (.conn c ip port mode srcIp bestEffort serial)) v
      { v with
        entry := some
          { remoteIp := ip, remotePort := port, mode := some (.ofRMode mode)
            rSess := some
              { kind := .ofRMode mode, bestEffort := bestEffort, peerIp := srcIp }
            status := .pending, tag := some serial }
        queued := v.queued + 1 } []
  | replied {mode : RMode} {dstIp : Nat} {v : View} {e : ConnState} (he : v.entry = some e) :
    Move cl c (.recv (.connStatus c .pending mode dstIp)) v
      { v with entry := some { e with dstNodeIp := dstIp, mode := some (.ofRMode mode) } } []
  | reported {mode : RMode} {dstIp : Nat} {v : View} {e : ConnState} (he : v.entry = some e)
      (hsess : e.rSess.isSome = true) :
    Move cl c (.recv (.connStatus c .established mode dstIp)) v
      { v with
        entry := some { e with status := .established }
        tasks := .established c ::ₘ v.tasks } []
  | refused {mode : RMode} {dstIp code : Nat} {v : View} {e : ConnState} (he : v.entry = some e) :
    Move cl c (.recv (.connStatus c (.err code) mode dstIp)) v
      { v with
        entry := none, queued := 0
        tasks := if e.callback then .invoke c code ::ₘ v.tasks else v.tasks } []
  /-- The session of the entry calls back, by itself or out of `onEstablished`. -/
  | succeeded {ev : Event} {v : View} {e : ConnState} {ts : Multiset Task}
      (he : v.entry = some e) (hstarted : e.started = true)
      (hts : ts = v.tasks ∨ v.tasks = .established c ::ₘ ts) :
    Move cl c ev v
      { v with
        entry := some { e with rSess := none, status := .established, keepalive := true }
        tasks := (if e.callback then .invoke c 0 else .startProxy c) ::ₘ ts }
      (if e.status = .established then [] else [.connClose c true])
  | failed {ev : Event} {v : View} {e : ConnState} {ts : Multiset Task} {err : Nat}
      (he : v.entry = some e) (hstarted : e.started = true)
      (hts : ts = v.tasks ∨ v.tasks = .established c ::ₘ ts) :
    Move cl c ev v
      { v with entry := none, tasks := if e.callback then .invoke c err ::ₘ ts else ts }
      [.connClose c (e.status = .established)]
  | proxyDone {v : View} {e : ConnState} (he : v.entry = some e)
      (h : e.proxySession = true ∨ .attachProxy c true ∈ v.tasks) :
    Move cl c (.proxyDone c) v { v with entry := none } []
  | invoked {ev : Event} {v : View} {err : Nat} {ts : Multiset Task}
      (hts : v.tasks = .invoke c err ::ₘ ts) :
    Move cl c ev v { v with tasks := ts, log := v.log ++ [.invoked c err] } []
  | proxyStarted {ev : Event} {v : View} {res : Bool} {ts : Multiset Task}
      (hts : v.tasks = .startProxy c ::ₘ ts) :
    Move cl c ev v { v with tasks := .attachProxy c res ::ₘ ts } []
  | proxyMissed {ev : Event} {v : View} {res : Bool} {ts : Multiset Task} (he : v.entry = none)
      (hts : v.tasks = .attachProxy c res ::ₘ ts) : Move cl c ev v { v with tasks := ts } []
  | proxySet {ev : Event} {v : View} {e : ConnState} {res : Bool} {ts : Multiset Task}
      (he : v.entry = some e) (hts : v.tasks = .attachProxy c res ::ₘ ts) :
    Move cl c ev v { v with entry := some { e with proxySession := true }, tasks := ts } []
  | proxyFailed {ev : Event} {v : View} {e : ConnState} {res : Bool} {ts : Multiset Task}
      (he : v.entry = some e) (hts : v.tasks = .attachProxy c res ::ₘ ts) :
    Move cl c ev v { v with entry := none, tasks := ts } []
  | notCalled {ev : Event} {v : View} {ts : Multiset Task}
      (hts : v.tasks = .established c ::ₘ ts) : Move cl c ev v { v with tasks := ts } []
  | returned {ev : Event} {v : View} {ts : Multiset Task} (hts : v.tasks = .closed c ::ₘ ts) :
    Move cl c ev v { v with tasks := ts, log := v.log ++ [.closed c] } []
  | create {ev : Event} {v : View} {e : ConnState} {dstNodeId : Nat} (he : v.entry = some e)
      (hqueued : 0 < v.queued) (hmode : e.mode = none) (hstatus : e.status = .none) :
    Move cl c ev v { v with entry := some { e with status := .pending } }
      [.connCreate c dstNodeId e.remoteIp e.remotePort cl.bestEffort]
  | started {ev : Event} {v : View} {e : ConnState} {kind : Kind} {n : Nat}
      (he : v.entry = some e) (hqueued : v.queued = n + 1) (hmode : e.mode = some kind) :
    Move cl c ev v
      { v with
        entry := some { e with rSess := some { cl.sessionOf e kind with started := true } }
        queued := n } []
  | startFailed {ev : Event} {v : View} {e : ConnState} {kind : Kind} {n : Nat}
      (he : v.entry = some e) (hqueued : v.queued = n + 1) (hmode : e.mode = some kind) :
    Move cl c ev v
      { v with
        entry := none, queued := n
        tasks := if e.callback then .invoke c 0x10 ::ₘ v.tasks else v.tasks }
      [.connClose c false]

namespace Client

variable {cl cl' : Client} {ev : Event} {c : ConnId} {ts rest : List Task}

section Views

@[simp] theorem viewWith_entry : (cl.viewWith ts c).entry = cl.connStates.find? c := rfl

@[simp] theorem viewWith_queued : (cl.viewWith ts c).queued = cl.rendezvousConnIds.count c := rfl

@[simp] theorem viewWith_tasks :
    (cl.viewWith ts c).tasks = (ts.filter (Task.about c) : Multiset Task) := rfl

@[simp] theorem viewWith_log : (cl.viewWith ts c).log = cl.log.filter (Record.about c) := rfl

theorem viewWith_perm {ts' : List Task} (h : ts.Perm ts') :
    cl.viewWith ts c = cl.viewWith ts' c := by
  refine View.ext rfl rfl ?_ rfl
  exact Multiset.coe_eq_coe.mpr (h.filter _)

/-- A view does not change when the fields it is made of do not. -/
theorem viewWith_congr {ts' : List Task} (hfind : cl'.connStates.find? c = cl.connStates.find? c)
    (hqueue : cl'.rendezvousConnIds.count c = cl.rendezvousConnIds.count c)
    (hts : ts'.filter (Task.about c) = ts.filter (Task.about c))
    (hlog : cl'.log.filter (Record.about c) = cl.log.filter (Record.about c)) :
    cl'.viewWith ts' c = cl.viewWith ts c := by
  refine View.ext hfind hqueue ?_ hlog
  rw [viewWith_tasks, viewWith_tasks, hts]

theorem about_rendezvous : Task.about c .rendezvous = false := rfl

end Views

/-- Up to the form in which the new view and the messages are given. -/
theorem Move.of_eq {v v' v'' : View} {sent sent' : List UpMsg} (h : Move cl c ev v v' sent)
    (hv : v'' = v') (hs : sent' = sent) : Move cl c ev v v'' sent' := by
  rw [hv, hs]
  exact h

theorem registerConnection_move (ip port : Nat) :
    Move cl c (.registerConnection ip port) (cl.viewWith ts c)
      ((cl.registerConnection ip port).client.viewWith
        ((cl.registerConnection ip port).tasks ++ ts) c)
      ((cl.registerConnection ip port).sent.filter (about c)) := by
  rcases registerConnection_cases cl ip port with heq | ⟨dst, send, hroute, _, _, _, heq⟩
  · rw [heq]
    exact .other
  rw [heq]
  by_cases hc : c = cl.nextId
  · subst hc
    refine Move.of_eq (@Move.registered cl cl.nextId ip port dst _ send rfl hroute)
      (View.ext ?_ ?_ rfl ?_) ?_
    · simp
    · simp
    · simp [Record.about]
    · cases send <;> simp [about]
  · refine Move.of_eq .other (viewWith_congr ?_ ?_ rfl ?_) ?_
    · simp [OrderedMap.find?_insert_of_ne _ hc]
    · simp [List.count_append, Ne.symm hc]
    · simp [Record.about, Ne.symm hc]
    · cases send <;> simp [about, Ne.symm hc]

theorem closeConnection_move {connId : ConnId} (hown : connId.nodeId = cl.nodeId) :
    Move cl c (.closeConnection connId) (cl.viewWith ts c)
      ((cl.closeConnection connId).client.viewWith ((cl.closeConnection connId).tasks ++ ts) c)
      ((cl.closeConnection connId).sent.filter (about c)) := by
  rcases closeConnection_cases cl connId with ⟨hmiss, heq⟩ | ⟨e, hclosing, he, heq⟩
  · rw [heq]
    by_cases hc : connId = c
    · subst hc
      refine Move.of_eq (.closeMissed hmiss) (View.ext rfl rfl ?_ rfl) rfl
      simp [Task.about]
    · refine Move.of_eq .other (viewWith_congr rfl rfl ?_ rfl) rfl
      simp [Task.about, hc]
  · rw [heq]
    by_cases hc : connId = c
    · subst hc
      refine Move.of_eq (.closed hown hclosing he) (View.ext ?_ ?_ ?_ rfl) ?_
      · simp
      · simp [List.count_eq_zero]
      · simp [Task.about]
      · split <;> simp [about]
    · refine Move.of_eq .other (viewWith_congr ?_ ?_ ?_ rfl) ?_
      · simp [OrderedMap.find?_erase_of_ne _ (Ne.symm hc)]
      · simp [List.count_filter, Ne.symm hc]
      · simp [Task.about, hc]
      · split <;> simp [about, hc]

theorem recv_move (msg : DownMsg) :
    Move cl c (.recv msg) (cl.viewWith ts c)
      ((cl.recv msg).client.viewWith ((cl.recv msg).tasks ++ ts) c)
      ((cl.recv msg).sent.filter (about c)) := by
  cases msg with
  | conn connId ip port mode srcIp bestEffort serial =>
    simp only [recv, onRecvMsgConn]
    cases hfind : cl.connStates.find? connId with
    | some e => exact .other
    | none =>
      by_cases hc : connId = c
      · subst hc
        refine Move.of_eq (.requested hfind) (View.ext ?_ ?_ ?_ rfl) rfl
        · simp
        · simp
        · simp [Task.about]
      · refine Move.of_eq .other (viewWith_congr ?_ ?_ ?_ rfl) rfl
        · simp [OrderedMap.find?_insert_of_ne _ (Ne.symm hc)]
        · simp [List.count_append, hc]
        · simp [Task.about]
  | connStatus connId status mode dstIp =>
    simp only [recv, onRecvMsgConnStatus]
    cases hfind : cl.connStates.find? connId with
    | none => exact .other
    | some e =>
      simp only
      by_cases hc : connId = c
      · subst hc
        cases status with
        | pending =>
          refine Move.of_eq (.replied hfind) (View.ext ?_ rfl ?_ rfl) rfl
          · simp
          · simp [Task.about]
        | established =>
          simp only
          split_ifs with hsess
          · refine Move.of_eq (.reported hfind hsess) (View.ext ?_ rfl ?_ rfl) rfl
            · simp
            · simp [Task.about]
          · exact Move.of_eq .other (viewWith_congr rfl rfl rfl rfl) rfl
        | err code =>
          refine Move.of_eq (.refused hfind) (View.ext ?_ ?_ ?_ rfl) rfl
          · simp
          · simp [List.count_eq_zero]
          · cases e.callback <;> simp [Task.about]
      · cases status with
        | pending =>
          refine Move.of_eq .other (viewWith_congr ?_ rfl rfl rfl) rfl
          simp [OrderedMap.find?_insert_of_ne _ (Ne.symm hc)]
        | established =>
          simp only
          split_ifs with hsess
          · refine Move.of_eq .other (viewWith_congr ?_ rfl ?_ rfl) rfl
            · simp [OrderedMap.find?_insert_of_ne _ (Ne.symm hc)]
            · simp [Task.about, hc]
          · exact Move.of_eq .other (viewWith_congr rfl rfl rfl rfl) rfl
        | err code =>
          refine Move.of_eq .other (viewWith_congr ?_ ?_ ?_ rfl) rfl
          · simp [OrderedMap.find?_erase_of_ne _ (Ne.symm hc)]
          · simp [List.count_filter, Ne.symm hc]
          · cases e.callback <;> simp [Task.about, hc]
  | probe srcIp srcPort => exact .other
  | fast connId nodeIp nodePort => exact .other
  | symm connId nodeIp nodePort => exact .other
  | ready connId => exact .other
  | next connId => exact .other

/-- The callback of a started session. `before` are the tasks, of which the call may have
been one. -/
theorem onRendezvous_move {connId : ConnId} {e : ConnState} {before : List Task} (err : Nat)
    (bound : Bool) (he : cl.connStates.find? connId = some e) (hstarted : e.started = true)
    (hbefore : before = ts ∨ before = .established connId :: ts) :
    Move cl c ev (cl.viewWith before c)
      ((cl.onRendezvous connId err bound).client.viewWith
        ((cl.onRendezvous connId err bound).tasks ++ ts) c)
      ((cl.onRendezvous connId err bound).sent.filter (about c)) := by
  by_cases hc : connId = c
  · subst hc
    have hts : (ts.filter (Task.about connId) : Multiset Task) =
          (cl.viewWith before connId).tasks ∨
        (cl.viewWith before connId).tasks =
          .established connId ::ₘ (ts.filter (Task.about connId) : Multiset Task) := by
      rcases hbefore with rfl | rfl
      · exact Or.inl rfl
      · exact Or.inr (by simp [Task.about])
    rcases onRendezvous_cases cl connId err bound with ⟨_, heq⟩ | ⟨e', he', heq | ⟨err', heq⟩⟩
    · rw [heq]
      rcases hbefore with rfl | rfl
      · exact .other
      · have hts : (cl.viewWith (.established connId :: ts) connId).tasks =
            .established connId ::ₘ (ts.filter (Task.about connId) : Multiset Task) := by
          simp [Task.about]
        exact Move.of_eq (.notCalled hts) rfl rfl
    · rw [heq]
      obtain rfl := Option.some.inj (he.symm.trans he')
      refine Move.of_eq (.succeeded he hstarted hts) (View.ext ?_ rfl ?_ rfl) ?_
      · simp
      · cases e.callback <;> simp [Task.about]
      · split <;> simp [about]
    · rw [heq]
      obtain rfl := Option.some.inj (he.symm.trans he')
      refine Move.of_eq (@Move.failed _ _ ev _ _ _ err' he hstarted hts) (View.ext ?_ rfl ?_ rfl) ?_
      · simp
      · cases e.callback <;> simp [Task.about]
      · simp [about]
  · have hts : before.filter (Task.about c) = ts.filter (Task.about c) := by
      rcases hbefore with rfl | rfl
      · rfl
      · simp [Task.about, hc]
    rcases onRendezvous_cases cl connId err bound with ⟨_, heq⟩ | ⟨e', he', heq | ⟨err', heq⟩⟩
    · rw [heq]
      exact Move.of_eq .other (viewWith_congr rfl rfl hts.symm rfl) rfl
    · rw [heq]
      refine Move.of_eq .other (viewWith_congr ?_ rfl ?_ rfl) ?_
      · simp [OrderedMap.find?_insert_of_ne _ (Ne.symm hc)]
      · cases e'.callback <;> simp [Task.about, hc, hts]
      · split <;> simp [about, hc]
    · rw [heq]
      refine Move.of_eq .other (viewWith_congr ?_ rfl ?_ rfl) ?_
      · simp [OrderedMap.find?_erase_of_ne _ (Ne.symm hc)]
      · cases e'.callback <;> simp [Task.about, hc, hts]
      · simp [about, hc]

theorem onProxyDone_move {connId : ConnId}
    (h : (∃ e, cl.connStates.find? connId = some e ∧ e.proxySession = true) ∨
      Task.attachProxy connId true ∈ ts) :
    Move cl c (.proxyDone connId) (cl.viewWith ts c) ((cl.onProxyDone connId).viewWith ts c)
      [] := by
  rcases onProxyDone_cases cl connId with heq | ⟨e, he, heq⟩
  · rw [heq]
    exact .other
  rw [heq]
  by_cases hc : connId = c
  · subst hc
    refine Move.of_eq (.proxyDone he ?_) (View.ext ?_ rfl rfl rfl) rfl
    · rcases h with ⟨e', he', hproxy⟩ | hmem
      · obtain rfl := Option.some.inj (he.symm.trans he')
        exact Or.inl hproxy
      · exact Or.inr (by simpa [Task.about] using hmem)
    · simp
  · refine Move.of_eq .other (viewWith_congr ?_ rfl rfl rfl) rfl
    simp [OrderedMap.find?_erase_of_ne _ (Ne.symm hc)]

theorem attachProxy_move {connId : ConnId} {res : Bool} :
    Move cl c ev (cl.viewWith (.attachProxy connId res :: ts) c)
      ((cl.attachProxy connId res).viewWith ts c) [] := by
  by_cases hc : connId = c
  · subst hc
    have hts : (cl.viewWith (.attachProxy connId res :: ts) connId).tasks =
        .attachProxy connId res ::ₘ (ts.filter (Task.about connId) : Multiset Task) := by
      simp [Task.about]
    rcases attachProxy_cases cl connId res with ⟨hnone, heq⟩ | ⟨e, he, heq | heq⟩
    · rw [heq]
      exact Move.of_eq (.proxyMissed hnone hts) rfl rfl
    · rw [heq]
      refine Move.of_eq (.proxySet he hts) (View.ext ?_ rfl rfl rfl) rfl
      simp
    · rw [heq]
      refine Move.of_eq (.proxyFailed he hts) (View.ext ?_ rfl rfl rfl) rfl
      simp
  · rcases attachProxy_cases cl connId res with ⟨hnone, heq⟩ | ⟨e, he, heq | heq⟩
    · rw [heq]
      refine Move.of_eq .other (viewWith_congr rfl rfl ?_ rfl) rfl
      simp [Task.about, hc]
    · rw [heq]
      refine Move.of_eq .other (viewWith_congr ?_ rfl ?_ rfl) rfl
      · simp [OrderedMap.find?_insert_of_ne _ (Ne.symm hc)]
      · simp [Task.about, hc]
    · rw [heq]
      refine Move.of_eq .other (viewWith_congr ?_ rfl ?_ rfl) rfl
      · simp [OrderedMap.find?_erase_of_ne _ (Ne.symm hc)]
      · simp [Task.about, hc]

section Front

variable {connId : ConnId} {e : ConnState} {queue : List ConnId} {r : Res} {ok : Bool}

/-- What happens at the front is not about any other id. -/
theorem atFront_frame
    (h : AtFront { cl with ok := ok, rendezvousConnIds := connId :: queue } connId e queue r)
    (hc : connId ≠ c) :
    r.client.viewWith (r.tasks ++ ts) c = { cl.viewWith ts c with queued := queue.count c } ∧
      r.sent.filter (about c) = [] := by
  cases h with
  | create =>
    refine ⟨View.ext ?_ ?_ rfl rfl, by simp [about, hc]⟩
    · simp [OrderedMap.find?_insert_of_ne _ (Ne.symm hc)]
    · simp [assert, hc]
  | blocked =>
    refine ⟨View.ext rfl ?_ rfl rfl, rfl⟩
    simp [assert, hc]
  | started =>
    refine ⟨View.ext ?_ rfl ?_ rfl, rfl⟩
    · simp [OrderedMap.find?_insert_of_ne _ (Ne.symm hc)]
    · simp [about_rendezvous]
  | failed =>
    refine ⟨View.ext ?_ rfl ?_ rfl, by simp [about, hc]⟩
    · simp [OrderedMap.find?_erase_of_ne _ (Ne.symm hc)]
    · cases e.callback <;> simp [Task.about, hc]

theorem atFront_move (he : cl.connStates.find? connId = some e)
    (h : AtFront { cl with ok := ok, rendezvousConnIds := connId :: queue } connId e queue r)
    (hcount : cl.rendezvousConnIds.count connId = queue.count connId + 1) :
    Move cl connId ev (cl.viewWith ts connId) (r.client.viewWith (r.tasks ++ ts) connId)
      (r.sent.filter (about connId)) := by
  cases h with
  | create hmode hstatus =>
    have hpos : 0 < (cl.viewWith ts connId).queued := by
      rw [viewWith_queued]
      omega
    refine Move.of_eq (@Move.create _ _ ev _ _ ((cl.getDstNodeId e.remoteIp).getD 0) he hpos hmode
      hstatus) (View.ext ?_ ?_ rfl rfl) ?_
    · simp
    · simp [assert, hcount]
    · simp [about, getDstNodeId]
  | blocked =>
    refine Move.of_eq .other (View.ext rfl ?_ rfl rfl) rfl
    simp [assert, hcount]
  | started hmode _ =>
    refine Move.of_eq (.started he hcount hmode) (View.ext ?_ rfl ?_ rfl) rfl
    · simp [sessionOf]
    · simp [about_rendezvous]
  | failed hmode =>
    refine Move.of_eq (.startFailed he hcount hmode) (View.ext ?_ rfl ?_ rfl) ?_
    · simp
    · cases e.callback <;> simp [Task.about]
    · simp [about]

end Front

theorem processRendezvous_move (res : Bool) :
    Move cl c ev (cl.viewWith ts c)
      ((cl.processRendezvous res).client.viewWith ((cl.processRendezvous res).tasks ++ ts) c)
      ((cl.processRendezvous res).sent.filter (about c)) := by
  rcases processRendezvous_cases cl res with
    ⟨_, heq⟩ | ⟨_, gone, queue, hqueue, hgone, ⟨hnil, heq⟩ | ⟨connId, rest, e, rfl, he, hfront⟩⟩
  · rw [heq]
    exact .other
  · rw [heq]
    by_cases hc : c ∈ gone
    · exact Move.of_eq (.dropped (hgone c hc) (Nat.zero_le _)) rfl rfl
    · refine Move.of_eq .other (View.ext rfl ?_ rfl rfl) rfl
      simp [hqueue, hnil, List.count_eq_zero_of_not_mem hc]
  · by_cases hne : connId = c
    · subst hne
      have hc : connId ∉ gone := fun hmem => by simp [hgone connId hmem] at he
      refine atFront_move he hfront ?_
      simp [hqueue, List.count_eq_zero_of_not_mem hc]
    · obtain ⟨hview, hsent⟩ := @atFront_frame cl c ts connId e rest _ _ hfront hne
      have hcount : cl.rendezvousConnIds.count c = gone.count c + rest.count c := by
        simp [hqueue, hne]
      by_cases hc : c ∈ gone
      · refine Move.of_eq (.dropped (n := rest.count c) (hgone c hc) ?_) hview hsent
        rw [viewWith_queued]
        omega
      · refine Move.of_eq .other (hview.trans (View.ext rfl ?_ rfl rfl)) hsent
        rw [viewWith_queued, hcount, List.count_eq_zero_of_not_mem hc, Nat.zero_add]

theorem perform_move (res bound : Bool) (task : Task) :
    Move cl c ev (cl.viewWith (task :: ts) c)
      ((cl.perform res bound task).client.viewWith ((cl.perform res bound task).tasks ++ ts) c)
      ((cl.perform res bound task).sent.filter (about c)) := by
  have hpop : ∀ {t : Task}, t.about c = true → (cl.viewWith (t :: ts) c).tasks =
      t ::ₘ (ts.filter (Task.about c) : Multiset Task) := by
    intro t ht
    simp [ht]
  have hkeep : ∀ {t : Task}, t.about c = false → cl.viewWith (t :: ts) c = cl.viewWith ts c := by
    intro t ht
    refine viewWith_congr rfl rfl ?_ rfl
    simp [ht]
  cases task with
  | invoke connId err =>
    by_cases hc : connId = c
    · subst hc
      refine Move.of_eq (.invoked (hpop (by simp [Task.about]))) (View.ext rfl rfl rfl ?_) rfl
      simp [perform, Record.about]
    · rw [hkeep (by simp [Task.about, hc])]
      refine Move.of_eq .other (viewWith_congr rfl rfl rfl ?_) rfl
      simp [perform, Record.about, hc]
  | startProxy connId =>
    by_cases hc : connId = c
    · subst hc
      refine Move.of_eq (@Move.proxyStarted _ _ ev _ res _ (hpop (by simp [Task.about])))
        (View.ext rfl rfl ?_ rfl) rfl
      simp [perform, Task.about]
    · rw [hkeep (by simp [Task.about, hc])]
      refine Move.of_eq .other (viewWith_congr rfl rfl ?_ rfl) rfl
      simp [perform, Task.about, hc]
  | attachProxy connId res' => exact attachProxy_move
  | established connId =>
    simp only [perform]
    split_ifs with hcalls
    · obtain ⟨e, he, hstarted⟩ : ∃ e, cl.connStates.find? connId = some e ∧ e.started = true := by
        simpa [Option.any_eq_true] using (Bool.and_eq_true_iff.mp hcalls).2
      exact onRendezvous_move 0 bound he hstarted (Or.inr rfl)
    · by_cases hc : connId = c
      · subst hc
        exact Move.of_eq (.notCalled (hpop (by simp [Task.about]))) rfl rfl
      · rw [hkeep (by simp [Task.about, hc])]
        exact .other
  | rendezvous =>
    rw [hkeep rfl]
    exact processRendezvous_move res
  | closed connId =>
    by_cases hc : connId = c
    · subst hc
      refine Move.of_eq (.returned (hpop (by simp [Task.about]))) (View.ext rfl rfl rfl ?_) rfl
      simp [perform, Record.about]
    · rw [hkeep (by simp [Task.about, hc])]
      refine Move.of_eq .other (viewWith_congr rfl rfl rfl ?_) rfl
      simp [perform, Record.about, hc]

theorem handled_move {r : Res} (h : Handled cl ev r rest) :
    Move cl c ev (cl.view c) (r.client.viewWith (r.tasks ++ rest) c) (r.sent.filter (about c)) := by
  cases h with
  | probed => exact .other
  | connected => exact .other
  | lost => exact .other
  | recv => exact recv_move _
  | register => exact registerConnection_move _ _
  | close hown => exact closeConnection_move hown
  | rendezvous he hstarted => exact onRendezvous_move _ _ he hstarted (Or.inl rfl)
  | proxyDone h => exact onProxyDone_move h
  | run hperm =>
    rw [view, viewWith_perm hperm]
    exact perform_move _ _ _
  | shutdown => exact .other

/-- A step of the client moves its view of every connection, and what the master gets
about the connection is what the move sends. -/
theorem step_move {sent : List UpMsg} (h : cl.step ev = some (cl', sent)) (c : ConnId) :
    ∃ out, Move cl c ev (cl.view c) (cl'.view c) out ∧ sent.filter (about c) = cl.wire out := by
  obtain ⟨r, rest, hr, hpending, hcl, hsent⟩ := step_handled h
  have hview : cl'.view c = r.client.viewWith (r.tasks ++ rest) c := by
    rw [view, viewWith_perm hpending]
    conv_lhs => rw [hcl]
    rfl
  refine ⟨r.sent.filter (about c), hview ▸ handled_move hr, ?_⟩
  rcases hsent with ⟨ip, port, rfl, rfl⟩ | ⟨_, rfl⟩
  · cases hr
    exact (wire_nil cl).symm
  · unfold wire
    split <;> rfl

end Client

end DTun.Node.MasterClient
