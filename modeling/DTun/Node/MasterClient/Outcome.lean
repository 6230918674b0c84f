import DTun.Node.MasterClient.Queue

/-!
# The outcome of a registered connection

The log of a client records what the users of `registerConnection` see. An outcome is in
order when the callback runs at most once for a registration, and not after
`closeConnection` has returned. A step can break this in three ways: an error for a
connection that has succeeded finds the entry with its callback still there; a call to
`closeConnection` comes while the callback is on its way; and `registerConnection` may
draw an id that is still in use. `OutcomeOk` excludes the three.
-/

namespace DTun.Node.MasterClient

open DTun.Lib

/-- After these records about `c` its callback has not been used up: the last of them is the
registration. -/
def Armed (c : ConnId) (log : List Record) : Prop := log.getLast? = some (.registered c)

/-- The callback is invoked only while it has not been used up: not a second time for one
registration, and not after `closeConnection`. -/
def OutcomesInOrder (log : List Record) : Prop :=
  ∀ c pre err post, log.filter (Record.about c) = pre ++ .invoked c err :: post → Armed c pre

def Task.isInvoke : Task → Bool
  | .invoke _ _ => true
  | _ => false

/-- How many calls of a callback are on their way. -/
def invokes (ts : Multiset Task) : Nat := ts.countP (fun t => t.isInvoke = true)

@[simp] theorem invokes_zero : invokes 0 = 0 := rfl

@[simp] theorem invokes_cons (t : Task) (ts : Multiset Task) :
    invokes (t ::ₘ ts) = invokes ts + if t.isInvoke then 1 else 0 := by
  simp [invokes, Multiset.countP_cons]

theorem armed_registered (c : ConnId) (log : List Record) :
    Armed c (log ++ [.registered c]) := List.getLast?_concat

structure Outcome (c : ConnId) (v : View) : Prop where
  past : ∀ pre err post, v.log = pre ++ .invoked c err :: post → Armed c pre
  once : invokes v.tasks ≤ 1
  task : 0 < invokes v.tasks → Armed c v.log
  entry : ∀ e, v.entry = some e → e.callback = true → ¬ e.Done →
    Armed c v.log ∧ invokes v.tasks = 0
  closed : .closed c ∈ v.tasks →
    invokes v.tasks = 0 ∧ ∀ e, v.entry = some e → e.callback = false

/-- The three conditions on a step of the client. The destructor is the end of the
client, so `closeConnection` is not called after it. -/
def OutcomeOk (cl : Client) : Event → Prop
  | .recv (.connStatus connId (.err _) _ _) =>
    ∀ e ∈ cl.connStates.find? connId, e.callback = true → ¬ e.Done
  | .closeConnection connId => cl.closing = false ∧ invokes (cl.view connId).tasks = 0
  | .registerConnection _ _ =>
    cl.connStates.find? cl.nextId = none ∧ (cl.view cl.nextId).tasks = 0
  | _ => True

instance (cl : Client) : (ev : Event) → Decidable (OutcomeOk cl ev)
  | .recv (.connStatus connId (.err _) _ _) =>
    inferInstanceAs
      (Decidable (∀ e ∈ cl.connStates.find? connId, e.callback = true → ¬ e.Done))
  | .closeConnection connId =>
    inferInstanceAs (Decidable (cl.closing = false ∧ invokes (cl.view connId).tasks = 0))
  | .registerConnection _ _ =>
    inferInstanceAs
      (Decidable (cl.connStates.find? cl.nextId = none ∧ (cl.view cl.nextId).tasks = 0))
  | .recv (.connStatus _ .pending _ _) | .recv (.connStatus _ .established _ _)
  | .recv (.conn ..) | .recv (.probe ..) | .recv (.fast ..) | .recv (.symm ..)
  | .recv (.ready ..) | .recv (.next ..) | .probed | .connected _ _ | .lost
  | .rendezvous _ _ _ | .proxyDone _ | .run _ _ _ | .shutdown => isTrue trivial

variable {cl : Client} {c : ConnId} {ev : Event} {v v' : View} {sent : List UpMsg}

/-- One more record keeps the past in order unless it is an invocation out of order. -/
theorem past_snoc {log : List Record} {r : Record}
    (h : ∀ pre err post, log = pre ++ .invoked c err :: post → Armed c pre)
    (hr : ∀ err, r = .invoked c err → Armed c log) :
    ∀ pre err post, log ++ [r] = pre ++ .invoked c err :: post → Armed c pre := by
  intro pre err post hsplit
  rcases List.eq_nil_or_concat post with rfl | ⟨post', x, rfl⟩
  · obtain ⟨rfl, hlast⟩ := List.append_inj' hsplit rfl
    exact hr err (List.cons.inj hlast).1
  · have hsplit' : log ++ [r] = (pre ++ .invoked c err :: post') ++ [x] := by
      simpa using hsplit
    exact h pre err post' (List.append_inj' hsplit' rfl).1

/-- A move that calls nothing and registers nothing: the entry keeps its callback and no
rendezvous is taken back. -/
theorem Outcome.quiet (h : Outcome c v) (hlog : v'.log = v.log)
    (hinv : invokes v'.tasks = invokes v.tasks)
    (hclosed : .closed c ∈ v'.tasks → .closed c ∈ v.tasks)
    (hentry : ∀ e', v'.entry = some e' →
      ∃ e, v.entry = some e ∧ e'.callback = e.callback ∧ (e.Done → e'.Done)) :
    Outcome c v' := by
  refine ⟨hlog ▸ h.past, hinv ▸ h.once, fun hpos => ?_, fun e' he' hcb hnot => ?_, fun hmem => ?_⟩
  · rw [hlog]
    exact h.task (hinv ▸ hpos)
  · obtain ⟨e, he, hsame, hdone⟩ := hentry e' he'
    rw [hlog, hinv]
    exact h.entry e he (hsame ▸ hcb) (fun hd => hnot (hdone hd))
  · obtain ⟨hzero, hcb⟩ := h.closed (hclosed hmem)
    refine ⟨hinv.trans hzero, fun e' he' => ?_⟩
    obtain ⟨e, he, hsame, _⟩ := hentry e' he'
    exact hsame.trans (hcb e he)

/-- A move that ends the rendezvous of an entry that was not done: the entry goes, or stays
as one that is done, and its callback is on its way if it has one. -/
theorem Outcome.answered {e : ConnState} {ts : Multiset Task} (h : Outcome c v) (err : Nat)
    (he : v.entry = some e) (hnot : e.callback = true → ¬ e.Done)
    (hinv : invokes ts = invokes v.tasks) (hmem : .closed c ∈ ts → .closed c ∈ v.tasks)
    (hlog : v'.log = v.log)
    (htasks : e.callback = true → v'.tasks = .invoke c err ::ₘ ts)
    (htasks' : e.callback = false → invokes v'.tasks = invokes ts ∧
      (.closed c ∈ v'.tasks → .closed c ∈ ts))
    (hentry : ∀ e', v'.entry = some e' → e'.callback = e.callback ∧ e'.Done) :
    Outcome c v' := by
  cases hcb : e.callback with
  | true =>
    obtain ⟨harmed, hzero⟩ := h.entry e he hcb (hnot hcb)
    have hone : invokes v'.tasks = 1 := by
      simp [htasks hcb, hinv, hzero, Task.isInvoke]
    refine ⟨hlog ▸ h.past, hone.le, fun _ => hlog ▸ harmed, fun e' he' _ hdone => ?_,
      fun hc => ?_⟩
    · exact absurd (hentry e' he').2 hdone
    · have hc' : .closed c ∈ ts := by simpa [htasks hcb] using hc
      have := (h.closed (hmem hc')).2 e he
      rw [hcb] at this
      cases this
  | false =>
    obtain ⟨hsame, hcl⟩ := htasks' hcb
    exact h.quiet hlog (hsame.trans hinv) (hmem ∘ hcl) fun e' he' =>
      ⟨e, he, (hentry e' he').1, fun _ => (hentry e' he').2⟩

theorem Move.outcome (hm : Move cl c ev v v' sent) (hv : v = cl.view c) (hok : OutcomeOk cl ev)
    (hown : Owned (c.nodeId = cl.nodeId) v) (hacc : c.nodeId = cl.nodeId → Accounted v)
    (h : Outcome c v) : Outcome c v' := by
  have hwait : ∀ e, v.entry = some e → e.callback = true → 0 < v.queued → ¬ e.Done := by
    intro e he hcb hq
    obtain ⟨e', he', _, hnot⟩ := (hacc ((hown.callback e he).mp hcb)).waiting hq
    obtain rfl := Option.some.inj (he.symm.trans he')
    exact hnot
  have hstart : ∀ e : ConnState, e.started = true → ¬ e.Done := by
    rintro e hs ⟨_, hnone⟩
    simp [ConnState.started, hnone] at hs
  have hcalled : ∀ ts, ts = v.tasks ∨ v.tasks = .established c ::ₘ ts →
      invokes ts = invokes v.tasks ∧ (.closed c ∈ ts → .closed c ∈ v.tasks) := by
    rintro ts (rfl | hts)
    · exact ⟨rfl, id⟩
    · simp [hts, Task.isInvoke]
  cases hm with
  | other => exact h
  | dropped he hn => exact ⟨h.past, h.once, h.task, h.entry, h.closed⟩
  | registered hid =>
    subst hv hid
    obtain ⟨hnone, hnil⟩ := hok
    exact ⟨past_snoc h.past (by simp), h.once, fun _ => armed_registered _ _,
      fun _ _ _ _ => ⟨armed_registered _ _, by simp [hnil]⟩, by simp [hnil]⟩
  | closeMissed hmiss =>
    subst hv
    obtain ⟨hclosing, hinv⟩ := hok
    have hnone := hmiss.resolve_left (by simp [hclosing])
    exact ⟨h.past, by simp [hinv, Task.isInvoke], by simp [hinv, Task.isInvoke],
      by simp [hnone], by simp [hinv, hnone, Task.isInvoke]⟩
  | closed =>
    subst hv
    obtain ⟨_, hinv⟩ := hok
    exact ⟨h.past, by simp [hinv, Task.isInvoke], by simp [hinv, Task.isInvoke], by simp,
      by simp [hinv, Task.isInvoke]⟩
  | requested he =>
    refine ⟨h.past, h.once, h.task, ?_, fun hc => ⟨(h.closed hc).1, ?_⟩⟩
    · simp
    · simp
  | replied he =>
    refine h.quiet rfl rfl id ?_
    rintro _ ⟨⟩
    exact ⟨_, he, rfl, id⟩
  | reported he hsess =>
    refine h.quiet rfl (by simp [Task.isInvoke]) (by simp) ?_
    rintro _ ⟨⟩
    exact ⟨_, he, rfl, fun hd => ⟨rfl, hd.2⟩⟩
  | @refused _ _ code _ e he =>
    subst hv
    refine h.answered code he (hok _ he) rfl id rfl (fun hcb => if_pos hcb) ?_ (by simp)
    simp +contextual
  | succeeded he hs hts =>
    obtain ⟨hinv, hmem⟩ := hcalled _ hts
    refine h.answered 0 he (fun _ => hstart _ hs) hinv hmem rfl ?_ ?_ ?_
    · simp +contextual
    · simp +contextual [Task.isInvoke]
    · rintro _ ⟨⟩
      exact ⟨rfl, rfl, rfl⟩
  | @failed _ _ _ _ err he hs hts =>
    obtain ⟨hinv, hmem⟩ := hcalled _ hts
    refine h.answered err he (fun _ => hstart _ hs) hinv hmem rfl (fun hcb => if_pos hcb) ?_
      (by simp)
    simp +contextual
  | proxyDone he hp => exact h.quiet rfl rfl id (by simp)
  | invoked hts =>
    have hpos : 0 < invokes v.tasks := by simp [hts, Task.isInvoke]
    have hzero := h.once
    rw [hts, invokes_cons, Task.isInvoke, if_pos rfl] at hzero
    refine ⟨past_snoc h.past fun _ _ => h.task hpos, by simp; omega, fun hp => ?_,
      fun e he hcb hnot => ?_, fun hc => ?_⟩
    · simp only at hp
      omega
    · have := (h.entry e he hcb hnot).2
      omega
    · have := (h.closed (by simpa [hts] using hc)).1
      omega
  | proxyStarted hts =>
    refine h.quiet rfl (by simp [hts, Task.isInvoke]) (by simp [hts]) fun e he => ⟨e, he, rfl, id⟩
  | proxyMissed _ hts =>
    exact h.quiet rfl (by simp [hts, Task.isInvoke]) (by simp [hts]) fun e he => ⟨e, he, rfl, id⟩
  | proxySet he hts =>
    refine h.quiet rfl (by simp [hts, Task.isInvoke]) (by simp [hts]) ?_
    rintro _ ⟨⟩
    exact ⟨_, he, rfl, id⟩
  | proxyFailed he hts =>
    exact h.quiet rfl (by simp [hts, Task.isInvoke]) (by simp [hts]) (by simp)
  | notCalled hts =>
    exact h.quiet rfl (by simp [hts, Task.isInvoke]) (by simp [hts]) fun e he => ⟨e, he, rfl, id⟩
  | @returned _ _ ts hts =>
    obtain ⟨hinv, hcb⟩ := h.closed (by simp [hts])
    have hzero : invokes ts = 0 := by simpa [hts, Task.isInvoke] using hinv
    refine ⟨past_snoc h.past (by simp), by simp [hzero], by simp [hzero], fun e he hcb' _ => ?_,
      fun _ => ⟨hzero, hcb⟩⟩
    rw [hcb e he] at hcb'
    cases hcb'
  | create he hq hmode hstatus =>
    refine h.quiet rfl rfl id ?_
    rintro _ ⟨⟩
    exact ⟨_, he, rfl, fun hd => absurd hd.1 (by simp [hstatus])⟩
  | @started _ _ e _ _ he hq hmode =>
    refine ⟨h.past, h.once, h.task, ?_, fun hc => ⟨(h.closed hc).1, ?_⟩⟩
    · rintro _ ⟨⟩ hcb _
      exact h.entry _ he hcb (hwait _ he hcb (by omega))
    · rintro _ ⟨⟩
      exact (h.closed hc).2 e he
  | @startFailed _ _ e _ _ he hq hmode =>
    have hnot := hwait e he
    refine h.answered 0x10 he (fun hcb => hnot hcb (by omega)) rfl id rfl
      (fun hcb => if_pos hcb) ?_ (by simp)
    simp +contextual

end DTun.Node.MasterClient
