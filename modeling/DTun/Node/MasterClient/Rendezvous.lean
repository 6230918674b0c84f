import DTun.Node.MasterClient.Queue

/-!
# The rendezvous loop

With the master's replies in order, no assertion of the client fails, and whenever no
handler is under way the front of the queue waits for something that will come: a reply of
the master, or the end of the session that is running.
-/

namespace DTun.Node.MasterClient

open DTun.Lib

variable {cl cl' : Client} {c : ConnId} {ev : Event} {v v' : View} {sent : List UpMsg}

/-- An entry with a session, or one that is established, has a mode. -/
structure Moded (v : View) : Prop where
  session : ∀ e, v.entry = some e → e.rSess.isSome = true → e.mode.isSome = true
  established : ∀ e, v.entry = some e → e.status = .established → e.mode.isSome = true

/-- The session of an entry is of the entry's mode, and an entry that waits to be sent has a
route. -/
structure Shaped (cl : Client) (v : View) : Prop where
  kind : ∀ e r, v.entry = some e → e.rSess = some r → e.mode = some r.kind
  route : ∀ e, v.entry = some e → e.mode = none → (cl.getDstNodeId e.remoteIp).isSome = true

/-- `PENDING` comes only for an entry that waits for it. -/
def ReplyOk (cl : Client) : Event → Prop
  | .recv (.connStatus connId .pending _ _) =>
    ∀ e, cl.connStates.find? connId = some e → e.mode = none ∧ e.status = .pending
  | _ => True

theorem isSome_of_started {e : ConnState} (h : e.started = true) : e.rSess.isSome = true := by
  obtain ⟨r, hr, _⟩ := (Option.any_eq_true _ _).mp h
  rw [hr]
  rfl

theorem Move.moded (hm : Move cl c ev v v' sent) (h : Moded v) : Moded v' := by
  obtain ⟨hsess, hest⟩ := h
  cases hm with
  | other => exact ⟨hsess, hest⟩
  | dropped => exact ⟨hsess, hest⟩
  | registered =>
    refine ⟨by simp, entry_some fun hstatus => ?_⟩
    split at hstatus <;> cases hstatus
  | closeMissed => exact ⟨hsess, hest⟩
  | closed => exact ⟨by simp, by simp⟩
  | requested => exact ⟨by simp, by simp⟩
  | replied => exact ⟨by simp, by simp⟩
  | reported he hr =>
    have hmode := hsess _ he hr
    exact ⟨entry_some fun _ => hmode, entry_some fun _ => hmode⟩
  | refused => exact ⟨by simp, by simp⟩
  | succeeded he hs =>
    have hmode := hsess _ he (isSome_of_started hs)
    exact ⟨entry_some fun _ => hmode, entry_some fun _ => hmode⟩
  | failed => exact ⟨by simp, by simp⟩
  | proxyDone => exact ⟨by simp, by simp⟩
  | invoked => exact ⟨hsess, hest⟩
  | proxyStarted => exact ⟨hsess, hest⟩
  | proxyMissed => exact ⟨hsess, hest⟩
  | proxySet he =>
    have hs := hsess _ he
    have hstatus := hest _ he
    exact ⟨entry_some hs, entry_some hstatus⟩
  | proxyFailed => exact ⟨by simp, by simp⟩
  | notCalled => exact ⟨hsess, hest⟩
  | returned => exact ⟨hsess, hest⟩
  | create he =>
    have hs := hsess _ he
    exact ⟨entry_some hs, by simp⟩
  | started he hq hmode =>
    have hsome := Option.isSome_of_eq_some hmode
    exact ⟨entry_some fun _ => hsome, entry_some fun _ => hsome⟩
  | startFailed => exact ⟨by simp, by simp⟩

/-- The session that is started is of the class that the mode asks for. -/
theorem Shaped.sessionOf_kind (h : Shaped cl v) {e : ConnState} {kind : Kind}
    (he : v.entry = some e) (hmode : e.mode = some kind) : (cl.sessionOf e kind).kind = kind := by
  unfold Client.sessionOf
  cases hr : e.rSess with
  | none => rfl
  | some r => exact (Option.some.inj (hmode.symm.trans (h.kind e r he hr))).symm

/-- The session of the only entry there is. -/
theorem session_some {e : ConnState} (h : ∀ r, e.rSess = some r → e.mode = some r.kind) :
    ∀ e' r, some e = some e' → e'.rSess = some r → e'.mode = some r.kind := by
  rintro _ r ⟨⟩
  exact h r

theorem Move.shaped (hm : Move cl c ev v v' sent) (hv : v = cl.view c) (hok : ReplyOk cl ev)
    (h : Shaped cl v) : Shaped cl v' := by
  have hsess : ∀ e kind, v.entry = some e → e.mode = some kind →
      (cl.sessionOf e kind).kind = kind := fun _ _ he hmode => h.sessionOf_kind he hmode
  obtain ⟨hkind, hroute⟩ := h
  cases hm with
  | other => exact ⟨hkind, hroute⟩
  | dropped => exact ⟨hkind, hroute⟩
  | registered hid hdst =>
    refine ⟨session_some fun r hr => ?_, entry_some fun _ => Option.isSome_of_eq_some hdst⟩
    cases hr
  | closeMissed => exact ⟨hkind, hroute⟩
  | closed => exact ⟨by simp, by simp⟩
  | requested =>
    refine ⟨session_some fun r hr => ?_, by simp⟩
    rw [← Option.some.inj hr]
  | replied he =>
    -- an entry that waits for a reply has no session
    subst hv
    obtain ⟨hmode, -⟩ := hok _ he
    have hk := fun r => hkind _ r he
    refine ⟨session_some fun r hr => ?_, by simp⟩
    have hkind' := hk r hr
    rw [hmode] at hkind'
    cases hkind'
  | reported he =>
    have hk := fun r => hkind _ r he
    have hr := hroute _ he
    exact ⟨session_some hk, entry_some hr⟩
  | refused => exact ⟨by simp, by simp⟩
  | succeeded he =>
    have hr := hroute _ he
    refine ⟨session_some fun r hr => ?_, entry_some hr⟩
    cases hr
  | failed => exact ⟨by simp, by simp⟩
  | proxyDone => exact ⟨by simp, by simp⟩
  | invoked => exact ⟨hkind, hroute⟩
  | proxyStarted => exact ⟨hkind, hroute⟩
  | proxyMissed => exact ⟨hkind, hroute⟩
  | proxySet he =>
    have hk := fun r => hkind _ r he
    have hr := hroute _ he
    exact ⟨session_some hk, entry_some hr⟩
  | proxyFailed => exact ⟨by simp, by simp⟩
  | notCalled => exact ⟨hkind, hroute⟩
  | returned => exact ⟨hkind, hroute⟩
  | create he =>
    have hk := fun r => hkind _ r he
    have hr := hroute _ he
    exact ⟨session_some hk, entry_some hr⟩
  | started he hq hmode =>
    have hk := hsess _ _ he hmode
    have hr := hroute _ he
    refine ⟨session_some fun r hr => ?_, entry_some hr⟩
    rw [← Option.some.inj hr]
    exact hmode.trans (congrArg some hk.symm)
  | startFailed => exact ⟨by simp, by simp⟩

/-- The front of the queue is one of the three things it may wait for. -/
def FrontOk (cl : Client) : Prop :=
  ∀ c, cl.rendezvousConnIds.head? = some c → ∃ e, cl.connStates.find? c = some e ∧
    ((e.mode = none ∧ e.status = .pending) ∨
      (e.mode = some .symmConn ∧ cl.symmConnRunning = true) ∨
      (e.mode = none ∧ e.status = .none ∧ cl.symmConnRunning = true))

/-- What holds of a client with the unfinished tasks `ts` as long as ids are free when they
are taken. -/
structure Steady (cl : Client) (ts : List Task) : Prop where
  owned : ∀ c, Owned (c.nodeId = cl.nodeId) (cl.viewWith ts c)
  accounted : ∀ c, Accounted (cl.viewWith ts c)
  moded : ∀ c, Moded (cl.viewWith ts c)
  idle : cl.link = .idle → cl.rendezvousConnIds = []
  front : cl.hasConn = true → .rendezvous ∈ ts ∨ FrontOk cl

/-- With replies in order, the assertions hold as well. -/
structure Sound (cl : Client) (ts : List Task) : Prop extends Steady cl ts where
  shaped : ∀ c, Shaped cl (cl.viewWith ts c)
  ok : cl.ok = true

namespace Client

variable {ts rest : List Task} {r : Res}

theorem mem_queue_iff : c ∈ cl.rendezvousConnIds ↔ 0 < (cl.viewWith ts c).queued := by
  simp [List.count_pos_iff]

/-- At the front of the queue every assertion holds. -/
theorem atFront_ok {connId : ConnId} {e : ConnState} {queue : List ConnId} {ok : Bool}
    (hshaped : Shaped cl (cl.viewWith ts connId)) (hacc : Accounted (cl.viewWith ts connId))
    (hmem : connId ∈ cl.rendezvousConnIds) (he : cl.connStates.find? connId = some e)
    (h : AtFront { cl with ok := ok, rendezvousConnIds := connId :: queue } connId e queue r)
    (hok : ok = true) : r.client.ok = true := by
  obtain ⟨e', he', hstarted, hnot⟩ := hacc.waiting (mem_queue_iff.mp hmem)
  obtain rfl := Option.some.inj (he.symm.trans he')
  have hkeep : e.keepalive = false := by
    by_contra hk
    exact hnot (hacc.held e he (Or.inl (by simpa using hk)))
  have hproxy : e.proxySession = false := by
    by_contra hp
    exact hnot (hacc.held e he (Or.inr (by simpa using hp)))
  cases h with
  | create hmode _ =>
    have hroute := hshaped.route e he hmode
    simpa [assert, hok, hstarted, hkeep, hproxy, getDstNodeId] using hroute
  | blocked => simp [assert, hok, hstarted, hkeep, hproxy]
  | started hmode _ =>
    have hk := decide_eq_true (hshaped.sessionOf_kind he hmode)
    simp only [assert, hok, hstarted, hkeep, hproxy, Bool.not_false, Bool.and_self, Bool.true_and]
    exact hk
  | failed hmode =>
    have hk := decide_eq_true (hshaped.sessionOf_kind he hmode)
    simp only [assert, hok, hstarted, hkeep, hproxy, Bool.not_false, Bool.and_self, Bool.true_and]
    exact hk

theorem processRendezvous_ok (hshaped : ∀ c, Shaped cl (cl.viewWith ts c))
    (hacc : ∀ c, Accounted (cl.viewWith ts c)) (hok : cl.ok = true) (res : Bool) :
    (cl.processRendezvous res).client.ok = true := by
  rcases processRendezvous_cases cl res with
    ⟨_, heq⟩ | ⟨_, gone, queue, hqueue, hgone, hrest⟩
  · rw [heq]
    exact hok
  -- every queued id has an entry, so none is dropped
  have hnil : gone = [] := by
    refine List.eq_nil_iff_forall_not_mem.mpr fun c hc => ?_
    obtain ⟨e, he, _⟩ := (hacc c).waiting (mem_queue_iff.mp (by simp [hqueue, hc]))
    rw [viewWith_entry, hgone c hc] at he
    cases he
  subst hnil
  rcases hrest with ⟨_, heq⟩ | ⟨connId, rest, e, rfl, he, hfront⟩
  · rw [heq]
    simpa using hok
  · exact atFront_ok (hshaped connId) (hacc connId) (by simp [hqueue]) he hfront
      (by simpa using hok)

theorem handled_ok (h : Handled cl ev r rest) (hs : Sound cl cl.pending) (hreply : ReplyOk cl ev) :
    r.client.ok = true := by
  have honRendezvous : ∀ c err bound, (cl.onRendezvous c err bound).client.ok = true := by
    intro c err bound
    rcases onRendezvous_cases cl c err bound with ⟨_, heq⟩ | ⟨e, _, heq | ⟨_, heq⟩⟩ <;>
      rw [heq] <;> exact hs.ok
  cases h with
  | probed => exact hs.ok
  | connected => exact hs.ok
  | lost => exact hs.ok
  | @recv msg =>
    cases msg with
    | conn => simp only [recv, onRecvMsgConn]; split <;> exact hs.ok
    | connStatus connId status mode dstIp =>
      simp only [recv, onRecvMsgConnStatus]
      split
      · exact hs.ok
      · rename_i e he
        cases status with
        | pending =>
          have hwaits := hreply e he
          simpa [assert, hs.ok] using hwaits
        | established =>
          simp only
          split
          · rename_i hsess
            have hmode := (hs.moded connId).session e he hsess
            simp [assert, hs.ok, hmode]
          · exact hs.ok
        | err code => exact hs.ok
    | _ => exact hs.ok
  | register =>
    rcases registerConnection_cases cl _ _ with heq | ⟨_, _, _, _, _, _, heq⟩ <;>
      rw [heq] <;> exact hs.ok
  | @close connId hown =>
    rcases closeConnection_cases cl connId with ⟨_, heq⟩ | ⟨e, _, he, heq⟩
    · rw [heq]
      exact hs.ok
    · rw [heq]
      have hproxy : e.proxySession = false := by
        by_contra hp
        exact (hs.owned connId).proxySession e he (by simpa using hp) hown
      simp [assert, hs.ok, hproxy]
  | rendezvous => exact honRendezvous _ _ _
  | @proxyDone connId =>
    rcases onProxyDone_cases cl connId with heq | ⟨_, _, heq⟩ <;> simp only [heq] <;> exact hs.ok
  | @run _ res bound task =>
    cases task with
    | attachProxy connId res' =>
      rcases attachProxy_cases cl connId res' with ⟨_, heq⟩ | ⟨e, _, heq | heq⟩ <;>
        simp only [perform, heq] <;> exact hs.ok
    | established connId =>
      simp only [perform]
      split
      · exact honRendezvous _ _ _
      · exact hs.ok
    | rendezvous => exact processRendezvous_ok hs.shaped hs.accounted hs.ok res
    | _ => exact hs.ok
  | shutdown => exact hs.ok

theorem symmConnRunning_of_started (hstarted : ∀ c e, cl.connStates.find? c = some e →
    e.started = true → cl'.connStates.find? c = some e) (h : cl.symmConnRunning = true) :
    cl'.symmConnRunning = true := by
  obtain ⟨c, e, he, hp⟩ := (OrderedMap.any_iff _ _).mp h
  exact (OrderedMap.any_iff _ _).mpr ⟨c, e, hstarted c e he (Bool.and_eq_true_iff.mp hp).1, hp⟩

/-- The front stays as it is when its entry and the started sessions do. -/
theorem frontOk_of_same (h : FrontOk cl)
    (hhead : cl'.rendezvousConnIds.head? = cl.rendezvousConnIds.head?)
    (hentry : ∀ c ∈ cl.rendezvousConnIds, cl'.connStates.find? c = cl.connStates.find? c)
    (hstarted : ∀ c e, cl.connStates.find? c = some e → e.started = true →
      cl'.connStates.find? c = some e) : FrontOk cl' := by
  have hrun := symmConnRunning_of_started hstarted
  intro c hc
  rw [hhead] at hc
  obtain ⟨e, he, hcase⟩ := h c hc
  refine ⟨e, (hentry c (List.mem_of_mem_head? hc)).trans he, ?_⟩
  rcases hcase with hreply | ⟨hmode, hr⟩ | ⟨hmode, hstatus, hr⟩
  · exact Or.inl hreply
  · exact Or.inr (Or.inl ⟨hmode, hrun hr⟩)
  · exact Or.inr (Or.inr ⟨hmode, hstatus, hrun hr⟩)

/-- An entry whose rendezvous has succeeded does not matter to the front. -/
theorem frontOk_of_done {e : ConnState} (h : FrontOk cl) (hacc : Accounted (cl.viewWith ts c))
    (he : cl.connStates.find? c = some e) (hdone : e.Done)
    (hqueue : cl'.rendezvousConnIds = cl.rendezvousConnIds)
    (hother : ∀ k, k ≠ c → cl'.connStates.find? k = cl.connStates.find? k) : FrontOk cl' := by
  have hnot : c ∉ cl.rendezvousConnIds := fun hmem => by
    have hzero := hacc.queued_eq_zero he (Or.inr hdone)
    have hpos : 0 < (cl.viewWith ts c).queued := mem_queue_iff.mp hmem
    omega
  refine frontOk_of_same h (by rw [hqueue]) (fun k hk => hother k ?_) (fun k ek hek hs => ?_)
  · rintro rfl
    exact hnot hk
  · refine (hother k ?_).trans hek
    rintro rfl
    obtain rfl := Option.some.inj (he.symm.trans hek)
    simp [ConnState.started, hdone.2] at hs

/-- A new connection is sent at once, or stands behind the front, or waits for a session. -/
theorem frontOk_register {e : ConnState} (h : FrontOk cl)
    (hfresh : cl.connStates.find? cl.nextId = none)
    (hqueued : ∀ c ∈ cl.rendezvousConnIds, cl.connStates.find? c ≠ none)
    (hmode : e.mode = none)
    (hstatus : e.status =
      if !cl.symmConnRunning && cl.rendezvousConnIds.isEmpty then .pending else .none)
    (hqueue : cl'.rendezvousConnIds = cl.rendezvousConnIds ++ [cl.nextId])
    (hstates : cl'.connStates = cl.connStates.insert cl.nextId e) : FrontOk cl' := by
  have hother : ∀ c, cl.connStates.find? c ≠ none →
      cl'.connStates.find? c = cl.connStates.find? c := by
    intro c hc
    rw [hstates, OrderedMap.find?_insert_of_ne]
    rintro rfl
    exact hc hfresh
  have hstarted : ∀ c e, cl.connStates.find? c = some e → e.started = true →
      cl'.connStates.find? c = some e := fun c e he _ => (hother c (by simp [he])).trans he
  by_cases hempty : cl.rendezvousConnIds = []
  · intro c hc
    obtain rfl : cl.nextId = c := by simpa [hqueue, hempty] using hc
    refine ⟨e, by simp [hstates], ?_⟩
    by_cases hrun : cl.symmConnRunning = true
    · refine Or.inr (Or.inr ⟨hmode, ?_, symmConnRunning_of_started hstarted hrun⟩)
      simpa [hrun] using hstatus
    · refine Or.inl ⟨hmode, ?_⟩
      simpa [hrun, hempty] using hstatus
  · refine frontOk_of_same h ?_ (fun c hc => hother c (hqueued c hc)) hstarted
    rw [hqueue, List.head?_append_of_ne_nil _ hempty]

/-- A call of `processRendezvous` that is the last one leaves the front in order. -/
theorem processRendezvous_front (hmoded : ∀ c, Moded (cl.viewWith ts c)) (res : Bool) :
    (cl.processRendezvous res).client.hasConn = true →
      .rendezvous ∈ (cl.processRendezvous res).tasks ∨
        FrontOk (cl.processRendezvous res).client := by
  intro hconn
  rcases processRendezvous_cases cl res with
    ⟨hno, heq⟩ | ⟨_, gone, queue, hqueue, hgone, ⟨hnil, heq⟩ | ⟨connId, rest, e, rfl, he, hfront⟩⟩
  · rw [heq, hno] at hconn
    cases hconn
  · rw [heq]
    exact Or.inr fun c hc => by cases hc
  · have hest := (hmoded connId).established e he
    generalize cl.processRendezvous res = r at hfront ⊢
    cases hfront with
    | create hmode _ =>
      refine Or.inr fun c hc => ?_
      obtain rfl := Option.some.inj hc
      exact ⟨_, OrderedMap.find?_insert_self _, Or.inl ⟨hmode, rfl⟩⟩
    | blocked hwhy =>
      refine Or.inr fun c hc => ?_
      obtain rfl := Option.some.inj hc
      refine ⟨e, he, ?_⟩
      rcases hwhy with ⟨hmode, hstatus⟩ | hrun
      · refine Or.inl ⟨hmode, ?_⟩
        -- an established entry has a mode
        cases hs : e.status with
        | none => exact absurd hs hstatus
        | pending => rfl
        | established => simp [hmode] at hest; exact absurd hs hest
      · exact Or.inr (Or.inl hrun)
    | started => exact Or.inl (by simp)
    | failed => exact Or.inl (by simp)

/-- Nothing about the queue, the entries or the loop has changed. -/
theorem front_of_same (h : cl.hasConn = true → .rendezvous ∈ ts ∨ FrontOk cl)
    (hlink : cl'.link = cl.link) (hqueue : cl'.rendezvousConnIds = cl.rendezvousConnIds)
    (hstates : cl'.connStates = cl.connStates) {ts' : List Task}
    (hts : Task.rendezvous ∈ ts → .rendezvous ∈ ts') :
    cl'.hasConn = true → .rendezvous ∈ ts' ∨ FrontOk cl' := by
  intro hconn
  rw [hasConn, hlink] at hconn
  rcases h hconn with hmem | hfront
  · exact Or.inl (hts hmem)
  · refine Or.inr (frontOk_of_same hfront (by rw [hqueue]) ?_ ?_)
    · intro c _
      rw [hstates]
    · intro c e he _
      rwa [hstates]

theorem onRendezvous_front (h : cl.hasConn = true → .rendezvous ∈ ts ∨ FrontOk cl)
    (connId : ConnId) (err : Nat) (bound : Bool) {ts' : List Task}
    (hts : Task.rendezvous ∈ ts → .rendezvous ∈ ts') :
    (cl.onRendezvous connId err bound).client.hasConn = true →
      .rendezvous ∈ (cl.onRendezvous connId err bound).tasks ++ ts' ∨
        FrontOk (cl.onRendezvous connId err bound).client := by
  rcases onRendezvous_cases cl connId err bound with ⟨_, heq⟩ | ⟨e, _, heq | ⟨_, heq⟩⟩
  · rw [heq]
    exact front_of_same h rfl rfl rfl hts
  · rw [heq]
    exact fun _ => Or.inl (by simp)
  · rw [heq]
    exact fun _ => Or.inl (by simp)

theorem recv_front (h : cl.hasConn = true → .rendezvous ∈ ts ∨ FrontOk cl) (msg : DownMsg) :
    (cl.recv msg).client.hasConn = true →
      .rendezvous ∈ (cl.recv msg).tasks ++ ts ∨ FrontOk (cl.recv msg).client := by
  cases msg with
  | conn =>
    simp only [recv, onRecvMsgConn]
    split
    · exact h
    · exact fun _ => Or.inl (by simp)
  | connStatus connId status mode dstIp =>
    simp only [recv, onRecvMsgConnStatus]
    split
    · exact h
    · -- whatever the status, the loop runs at the end
      cases status with
      | pending => exact fun _ => Or.inl (by simp)
      | established =>
        simp only
        split <;> exact fun _ => Or.inl (by simp)
      | err code => exact fun _ => Or.inl (by simp)
  | _ => exact h

theorem attachProxy_front (h : cl.hasConn = true → .rendezvous ∈ ts ∨ FrontOk cl) {res : Bool}
    (hacc : Accounted (cl.viewWith (.attachProxy c res :: ts) c)) :
    (cl.attachProxy c res).hasConn = true →
      .rendezvous ∈ ts ∨ FrontOk (cl.attachProxy c res) := by
  rcases attachProxy_cases cl c res with ⟨_, heq⟩ | ⟨e, he, hcase⟩
  · rw [heq]
    exact h
  have hdone : e.Done := hacc.tasks (.attachProxy c res) (by simp [Task.about]) rfl e he
  rcases hcase with heq | heq <;> rw [heq] <;> intro hconn
  · rcases h hconn with hmem | hfront
    · exact Or.inl hmem
    · exact Or.inr (frontOk_of_done hfront hacc he hdone rfl
        fun k hk => OrderedMap.find?_insert_of_ne _ hk)
  · rcases h hconn with hmem | hfront
    · exact Or.inl hmem
    · exact Or.inr (frontOk_of_done hfront hacc he hdone rfl
        fun k hk => OrderedMap.find?_erase_of_ne _ hk)

theorem onProxyDone_front (h : cl.hasConn = true → .rendezvous ∈ ts ∨ FrontOk cl)
    (hacc : Accounted (cl.viewWith ts c))
    (hproxy : (∃ e, cl.connStates.find? c = some e ∧ e.proxySession = true) ∨
      Task.attachProxy c true ∈ ts) :
    (cl.onProxyDone c).hasConn = true → .rendezvous ∈ ts ∨ FrontOk (cl.onProxyDone c) := by
  rcases onProxyDone_cases cl c with heq | ⟨e, he, heq⟩
  · rw [heq]
    exact h
  have hdone : e.Done := by
    rcases hproxy with ⟨e', he', hp⟩ | hmem
    · obtain rfl := Option.some.inj (he.symm.trans he')
      exact hacc.held e he (Or.inr hp)
    · exact hacc.tasks (.attachProxy c true) (by simpa [Task.about] using hmem) rfl e he
  rw [heq]
  intro hconn
  rcases h hconn with hmem | hfront
  · exact Or.inl hmem
  · exact Or.inr (frontOk_of_done hfront hacc he hdone rfl
      fun k hk => OrderedMap.find?_erase_of_ne _ hk)

theorem perform_front {task : Task} (hs : Steady cl (task :: ts)) (res bound : Bool) :
    (cl.perform res bound task).client.hasConn = true →
      .rendezvous ∈ (cl.perform res bound task).tasks ++ ts ∨
        FrontOk (cl.perform res bound task).client := by
  -- a task other than the loop leaves the loop where it is
  have hpop : task ≠ .rendezvous → cl.hasConn = true → .rendezvous ∈ ts ∨ FrontOk cl := by
    intro hne hconn
    rcases hs.front hconn with hmem | hfront
    · exact Or.inl ((List.mem_cons.mp hmem).resolve_left (Ne.symm hne))
    · exact Or.inr hfront
  cases task with
  | invoke connId err => exact front_of_same (hpop (by simp)) rfl rfl rfl id
  | startProxy connId =>
    exact front_of_same (hpop (by simp)) rfl rfl rfl fun hmem => by simp [perform, hmem]
  | attachProxy connId res' => exact attachProxy_front (hpop (by simp)) (hs.accounted connId)
  | established connId =>
    simp only [perform]
    split
    · exact onRendezvous_front (hpop (by simp)) _ _ _ id
    · exact hpop (by simp)
  | rendezvous =>
    intro hconn
    rcases processRendezvous_front hs.moded res hconn with hmem | hfront
    · exact Or.inl (List.mem_append_left _ hmem)
    · exact Or.inr hfront
  | closed connId => exact front_of_same (hpop (by simp)) rfl rfl rfl id

/-- The order of the tasks does not matter. -/
theorem steady_of_perm {ts' : List Task} (hperm : ts.Perm ts') (h : Steady cl ts) :
    Steady cl ts' := by
  have hview : ∀ c, cl.viewWith ts c = cl.viewWith ts' c := fun c => viewWith_perm hperm
  exact ⟨fun c => hview c ▸ h.owned c, fun c => hview c ▸ h.accounted c,
    fun c => hview c ▸ h.moded c, h.idle, fun hconn => (h.front hconn).imp_left hperm.mem_iff.mp⟩

theorem sound_of_perm {ts' : List Task} (hperm : ts.Perm ts') (h : Sound cl ts) :
    Sound cl ts' := by
  have hview : ∀ c, cl.viewWith ts c = cl.viewWith ts' c := fun c => viewWith_perm hperm
  exact ⟨steady_of_perm hperm h.toSteady, fun c => hview c ▸ h.shaped c, h.ok⟩

theorem handled_front (h : Handled cl ev r rest) (hs : Steady cl cl.pending)
    (hfree : IdsFree cl ev) :
    r.client.hasConn = true → .rendezvous ∈ r.tasks ++ rest ∨ FrontOk r.client := by
  cases h with
  | probed hl =>
    refine fun _ => Or.inr fun c hc => ?_
    simp [hs.idle hl] at hc
  | connected hl =>
    intro _
    rcases hl with hl | hl
    · refine Or.inr fun c hc => ?_
      simp [hs.idle hl] at hc
    · exact hs.front (by simp [hasConn, hl])
  | lost => exact fun hconn => by simp [hasConn] at hconn
  | recv => exact recv_front hs.front _
  | @register remoteIp remotePort =>
    rcases registerConnection_cases cl remoteIp remotePort with
      heq | ⟨dst, send, _, hconn, _, hsend, heq⟩
    · rw [heq]
      exact hs.front
    · rw [heq]
      intro _
      rcases hs.front hconn with hmem | hfront
      · exact Or.inl (by simpa using hmem)
      · refine Or.inr (frontOk_register hfront hfree ?_ rfl ?_ rfl rfl)
        · intro c hc
          obtain ⟨e, he, _⟩ := (hs.accounted c).waiting (mem_queue_iff.mp hc)
          exact ne_of_eq_of_ne he (by simp)
        · simp [hsend]
  | @close connId =>
    rcases closeConnection_cases cl connId with ⟨_, heq⟩ | ⟨e, _, _, heq⟩
    · rw [heq]
      exact front_of_same hs.front rfl rfl rfl fun hmem => by simp [hmem]
    · rw [heq]
      exact fun _ => Or.inl (by simp)
  | rendezvous => exact onRendezvous_front hs.front _ _ _ id
  | proxyDone hproxy => exact onProxyDone_front hs.front (hs.accounted _) hproxy
  | run hperm => exact perform_front (steady_of_perm hperm hs) _ _
  | shutdown => exact front_of_same hs.front rfl rfl rfl id

/-- Before the client has a connection its queue is empty. -/
theorem handled_idle (h : Handled cl ev r rest) (hs : Steady cl cl.pending)
    (hlink : r.client.link = .idle) : r.client.rendezvousConnIds = [] := by
  have hconn : cl.link = .idle → cl.hasConn = false := fun hl => by simp [hasConn, hl]
  have honRendezvous : ∀ c err bound, (cl.onRendezvous c err bound).client.rendezvousConnIds =
      cl.rendezvousConnIds := by
    intro c err bound
    rcases onRendezvous_cases cl c err bound with ⟨_, heq⟩ | ⟨e, _, heq | ⟨_, heq⟩⟩ <;> rw [heq]
  cases h with
  | probed => cases hlink
  | connected => cases hlink
  | lost => cases hlink
  | recv hserver =>
    rw [(recv_base _).link, hserver] at hlink
    cases hlink
  | @register remoteIp remotePort =>
    rcases registerConnection_cases cl remoteIp remotePort with heq | ⟨_, _, _, hyes, _, _, heq⟩
    · rw [heq] at hlink ⊢
      exact hs.idle hlink
    · rw [heq] at hlink
      rw [hconn hlink] at hyes
      cases hyes
  | @close connId =>
    rcases closeConnection_cases cl connId with ⟨_, heq⟩ | ⟨e, _, _, heq⟩
    · rw [heq] at hlink ⊢
      exact hs.idle hlink
    · rw [heq] at hlink ⊢
      simp [hs.idle hlink]
  | rendezvous =>
    rw [honRendezvous]
    rw [(onRendezvous_base _ _ _).link] at hlink
    exact hs.idle hlink
  | @proxyDone connId =>
    rcases onProxyDone_cases cl connId with heq | ⟨_, _, heq⟩
    · rw [heq] at hlink ⊢
      exact hs.idle hlink
    · rw [heq] at hlink ⊢
      exact hs.idle hlink
  | @run _ res bound task =>
    rw [(perform_base res bound task).link] at hlink
    have hnil := hs.idle hlink
    cases task with
    | attachProxy connId res' =>
      rcases attachProxy_cases cl connId res' with ⟨_, heq⟩ | ⟨e, _, heq | heq⟩ <;>
        simp only [perform, heq] <;> exact hnil
    | established connId =>
      simp only [perform]
      split
      · exact (honRendezvous _ _ _).trans hnil
      · exact hnil
    | rendezvous => simp [perform, processRendezvous, hconn hlink, hnil]
    | _ => exact hnil
  | shutdown => exact hs.idle hlink

theorem handled_steady (h : Handled cl ev r rest) (hs : Steady cl cl.pending)
    (hoffer : OfferOk cl ev) (hfree : IdsFree cl ev) : Steady r.client (r.tasks ++ rest) := by
  refine ⟨fun c => ?_, fun c => ?_, fun c => ?_, handled_idle h hs, handled_front h hs hfree⟩
  · rw [(handled_config h).1]
    exact (handled_move h).owned hoffer (hs.owned c)
  · exact (handled_move h).accounted rfl (hfree.reuseOk c) (hs.owned c) (hs.accounted c)
  · exact (handled_move h).moded (hs.moded c)

theorem handled_sound (h : Handled cl ev r rest) (hs : Sound cl cl.pending)
    (hoffer : OfferOk cl ev) (hfree : IdsFree cl ev) (hreply : ReplyOk cl ev) :
    Sound r.client (r.tasks ++ rest) := by
  refine ⟨handled_steady h hs.toSteady hoffer hfree, fun c => ?_, handled_ok h hs hreply⟩
  obtain ⟨hkind, hroute⟩ := (handled_move h).shaped rfl hreply (hs.shaped c)
  refine ⟨hkind, fun e he hmode => ?_⟩
  have := hroute e he hmode
  rwa [getDstNodeId, (handled_config h).2]

theorem step_steady (h : cl.step ev = some (cl', sent)) (hs : Steady cl cl.pending)
    (hoffer : OfferOk cl ev) (hfree : IdsFree cl ev) : Steady cl' cl'.pending :=
  step_preserves steady_of_perm (fun _ h => ⟨h.owned, h.accounted, h.moded, h.idle, h.front⟩)
    (fun hh => handled_steady hh hs hoffer hfree) h

theorem step_sound (h : cl.step ev = some (cl', sent)) (hs : Sound cl cl.pending)
    (hoffer : OfferOk cl ev) (hfree : IdsFree cl ev) (hreply : ReplyOk cl ev) :
    Sound cl' cl'.pending :=
  step_preserves sound_of_perm
    (fun _ h => ⟨⟨h.owned, h.accounted, h.moded, h.idle, h.front⟩,
      fun c => ⟨(h.shaped c).kind, (h.shaped c).route⟩, h.ok⟩)
    (fun hh => handled_sound hh hs hoffer hfree hreply) h

/-- The constructor's client. -/
theorem sound_new (nodeId : Nat) (routes : List RouteEntry) (bestEffort : Bool) :
    Sound { nodeId := nodeId, routes := routes, bestEffort := bestEffort } [] := by
  refine ⟨⟨fun c => ⟨?_, ?_, ?_, ?_⟩, fun c => ⟨?_, ?_, ?_, ?_⟩, fun c => ⟨?_, ?_⟩, ?_, ?_⟩,
    fun c => ⟨?_, ?_⟩, rfl⟩ <;> simp [hasConn]

end Client

end DTun.Node.MasterClient
