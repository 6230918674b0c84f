import DTun.Util.StreamWrite

/-!
# A stream connection after a failed write

When the handle's `write` fails, `onHandleWrite` clears both queues and reports the error to
every request. The transport may be alive all the same: `tcp_write` answers `ERR_MEM` and the
pcb stays. It then still owes acknowledgements for the bytes it took before, and the
connection counts them against whatever requests are waiting when they come.
-/

namespace DTun.Util.StreamWrite

open DTun.Lib.Runs

variable {admits : Nat → Nat → Bool} {c c' : Conn} {n : Nat}

def Answer.err : Answer → Option Int
  | .took _ => none
  | .failed err => some err

/-- The error that the attempts to send end with. -/
def failure (answers : List Answer) : Option Int := answers.findSome? Answer.err

/-- The attempts to send that follow the event fail with this error. -/
def Event.failure : Event → Option Int
  | .write call => StreamWrite.failure call.answers
  | .sent _ _ answers => StreamWrite.failure answers
  | .writable answers => StreamWrite.failure answers
  | .error _ => none

/-- The writes of a callback wait until the event has been handled: `write` posts them. -/
def Event.Posted : Event → Prop
  | .sent _ script _ => ∀ calls ∈ script, calls = []
  | _ => True

instance : ∀ e : Event, Decidable e.Posted
  | .sent _ script _ => inferInstanceAs (Decidable (∀ calls ∈ script, calls = []))
  | .write _ | .writable _ | .error _ => inferInstanceAs (Decidable True)

/-- The requests that an acknowledgement of `numBytes` completes. -/
def completed : List WriteReq → Nat → List WriteReq
  | [], _ => []
  | req :: rest, numBytes =>
    if numBytes = 0 ∨ numBytes < req.data.length then []
    else req :: completed rest (numBytes - req.data.length)

/-- The callbacks of the requests that the event completes. -/
def Event.completes (c : Conn) : Event → List Nat
  | .sent numBytes _ _ => (completed c.writeQueue numBytes).map WriteReq.callback
  | .write _ | .writable _ | .error _ => []

/-- The callbacks that wait when the attempts to send begin. -/
def Event.waits (c : Conn) : Event → List Nat
  | .write _ => c.writeQueue.map WriteReq.callback ++ [c.requests.length]
  | .sent numBytes _ _ =>
    (c.writeQueue.drop (completed c.writeQueue numBytes).length).map WriteReq.callback
  | .writable _ | .error _ => c.writeQueue.map WriteReq.callback

/-- The bytes that were asked to be sent and that neither an acknowledgement nor an error has
settled, as the events tell it: `credit` is the number before the event. -/
def Event.settle (credit : Nat) (e : Event) : Nat :=
  if e.failure.isSome then 0
  else
    match e with
    | .write call => credit + call.data.length
    | .sent numBytes _ _ => credit - numBytes
    | .writable _ => credit
    | .error _ => 0

theorem Event.settle_failed {e : Event} {err : Int} (h : e.failure = some err) (credit : Nat) :
    e.settle credit = 0 := by
  unfold Event.settle
  rw [h]
  rfl

/-- No more bytes are acknowledged than were asked to be sent since the last error. -/
def Event.Paid (credit : Nat) : Event → Prop
  | .sent numBytes _ _ => numBytes ≤ credit
  | .write _ | .writable _ | .error _ => True

instance (credit : Nat) : ∀ e : Event, Decidable (e.Paid credit)
  | .sent numBytes _ _ => inferInstanceAs (Decidable (numBytes ≤ credit))
  | .write _ | .writable _ | .error _ => inferInstanceAs (Decidable True)

/-- What the attempts to send leave of the requests that wait: all of them, or none, with the
error reported to each. -/
theorem writeOut_cases {answers : List Answer} (hw : writeOut admits c answers = some c') :
    (failure answers = none ∧ c'.writeQueue = c.writeQueue ∧ c'.log = c.log ∧
      c'.asserts = c.asserts) ∨
    ∃ err, failure answers = some err ∧ c'.writeQueue = [] ∧ c'.asserts = c.asserts ∧
      c'.log = c.log ++ c.writeQueue.map fun req => (req.callback, err) := by
  induction answers generalizing c with
  | nil =>
    obtain ⟨-, ⟨⟩⟩ := Option.ite_none_right_eq_some.mp hw
    exact Or.inl ⟨rfl, rfl, rfl, rfl⟩
  | cons answer more ih =>
    simp only [writeOut] at hw
    split at hw
    · cases hw
    · obtain ⟨-, ⟨⟩⟩ := Option.ite_none_right_eq_some.mp hw
      exact Or.inr ⟨_, rfl, rfl, rfl, rfl⟩
    · obtain ⟨-, hw⟩ := Option.ite_none_right_eq_some.mp hw
      split at hw
      · obtain ⟨hmore, ⟨⟩⟩ := Option.ite_none_right_eq_some.mp hw
        rw [hmore]
        exact Or.inl ⟨rfl, rfl, rfl, rfl⟩
      · have hmore := ih hw
        exact hmore

/-- Every request has been called back once or is waiting, in the order of the requests. -/
def InOrder (c : Conn) : Prop :=
  c.log.map Prod.fst ++ c.writeQueue.map WriteReq.callback = List.range c.requests.length

theorem InOrder.failAll (h : InOrder c) (err : Int) : InOrder (failAll c err) := by
  show _ = List.range c.requests.length
  rw [← h]
  simp [StreamWrite.failAll, Function.comp_def]

theorem writeOut_inOrder {answers : List Answer} (h : InOrder c)
    (hw : writeOut admits c answers = some c') : InOrder c' := by
  have hrequests : c'.requests = c.requests := by simpa using (writeOut_grows hw).requests
  rcases writeOut_cases hw with ⟨-, hqueue, hlog, -⟩ | ⟨err, -, hqueue, -, hlog⟩
  · rw [InOrder, hqueue, hlog, hrequests]
    exact h
  · rw [InOrder, hqueue, hlog, hrequests, ← h]
    simp [Function.comp_def]

theorem onWrite_inOrder {call : Call} (h : InOrder c) (hw : onWrite admits c call = some c') :
    InOrder c' := by
  have hpush : InOrder { c with
      writeQueue := c.writeQueue ++ [⟨call.data, c.requests.length⟩]
      writeOutQueue := c.writeOutQueue ++ [call.data]
      requests := c.requests ++ [call.data] } := by
    simp only [InOrder, List.map_append, List.map_cons, List.map_nil, List.length_append,
      List.length_singleton, List.range_succ]
    rw [← List.append_assoc, h]
  simp only [onWrite] at hw
  split at hw
  · exact writeOut_inOrder hpush hw
  · obtain ⟨-, ⟨⟩⟩ := Option.ite_none_right_eq_some.mp hw
    exact hpush

theorem consume_inOrder {err : Int} {script : List (List Call)} (h : InOrder c)
    (hw : consume admits err c n script = some c') : InOrder c' := by
  induction script generalizing c n with
  | nil =>
    simp only [consume] at hw
    split at hw
    · obtain ⟨⟩ := hw
      exact h
    · split at hw
      · obtain ⟨⟩ := hw
        exact h
      · rename_i hq
        obtain ⟨-, ⟨⟩⟩ := Option.ite_none_left_eq_some.mp hw
        rw [InOrder, hq] at h
        exact h
  | cons calls script ih =>
    simp only [consume] at hw
    obtain ⟨-, hw⟩ := Option.ite_none_left_eq_some.mp hw
    split at hw
    · cases hw
    · rename_i req rest hq
      obtain ⟨-, hw⟩ := Option.ite_none_right_eq_some.mp hw
      obtain ⟨m, hm, hw⟩ := Option.bind_eq_some_iff.mp hw
      have hpop : InOrder { c with
          writeQueue := rest
          log := c.log ++ [(req.callback, if n - req.data.length = 0 then err else 0)] } := by
        rw [InOrder, hq] at h
        simpa [InOrder] using h
      exact ih (exec_invariant (fun _ _ _ => onWrite_inOrder) hpop hm) hw

theorem onHandleWrite_inOrder {err : Int} {script : List (List Call)} {answers : List Answer}
    (h : InOrder c) (hw : onHandleWrite admits c err n script answers = some c') :
    InOrder c' := by
  obtain ⟨m, hm, hw⟩ := Option.bind_eq_some_iff.mp hw
  have hclear : InOrder (if err = 0 then c else { c with writeOutQueue := [] }) := by
    split <;> exact h
  have hm := consume_inOrder hclear hm
  split at hw
  · exact writeOut_inOrder hm hw
  · obtain ⟨-, ⟨⟩⟩ := Option.ite_none_right_eq_some.mp hw
    exact hm.failAll err

theorem step_inOrder {e : Event} (h : InOrder c) (hs : step admits c e = some c') :
    InOrder c' := by
  cases e with
  | write call => exact onWrite_inOrder h hs
  | sent k script answers =>
    obtain ⟨-, hs⟩ := Option.ite_none_right_eq_some.mp hs
    have hacked : InOrder { c with acked := c.acked + k } := h
    exact onHandleWrite_inOrder hacked hs
  | writable answers =>
    rw [step] at hs
    exact onHandleWrite_inOrder h hs
  | error err =>
    obtain ⟨-, hs⟩ := Option.ite_none_right_eq_some.mp hs
    exact onHandleWrite_inOrder h hs

/-- The bytes that wait for acknowledgement. -/
def waiting (c : Conn) : Nat := (c.writeQueue.map WriteReq.data).flatten.length

theorem waiting_cons {req : WriteReq} {rest : List WriteReq} (hq : c.writeQueue = req :: rest) :
    waiting c = req.data.length + (rest.map WriteReq.data).flatten.length := by
  rw [waiting, hq, List.map_cons, List.flatten_cons, List.length_append]

theorem waiting_nil (hq : c.writeQueue = []) : waiting c = 0 := by
  rw [waiting, hq]
  rfl

/-- What the first loop of `onHandleWrite` does when no callback writes. -/
structure Consumed (c c' : Conn) (n : Nat) : Prop where
  log : c'.log = c.log ++ (completed c.writeQueue n).map fun req => (req.callback, 0)
  queue : c'.writeQueue.map WriteReq.callback =
    (c.writeQueue.drop (completed c.writeQueue n).length).map WriteReq.callback
  waiting : waiting c' = waiting c - n
  asserts : c'.asserts = true ↔ c.asserts = true ∧ n ≤ StreamWrite.waiting c

theorem consumed_zero (c : Conn) : Consumed c c 0 := by
  have hnone : completed c.writeQueue 0 = [] := by
    cases c.writeQueue with
    | nil => rfl
    | cons req rest => rw [completed, if_pos (Or.inl rfl)]
  constructor <;> simp [hnone]

/-- The loop ends at a request that is acknowledged in part, or finds no request. -/
theorem consumed_last (hn : n ≠ 0)
    (hw : consume admits 0 c n [] = some c') : Consumed c c' n := by
  rw [consume, if_neg hn] at hw
  split at hw
  · rename_i hq
    obtain ⟨⟩ := hw
    constructor <;> simp [hq, completed, hn, waiting]
  · rename_i req rest hq
    obtain ⟨hlt, ⟨⟩⟩ := Option.ite_none_left_eq_some.mp hw
    have hwaits := waiting_cons hq
    have hnone : completed c.writeQueue n = [] := by
      rw [hq, completed, if_pos (Or.inr (by omega))]
    refine ⟨by simp [hnone], by rw [hnone, hq]; rfl, ?_, ?_⟩
    · rw [waiting_cons rfl, hwaits, List.length_drop]
      omega
    · have hle : n ≤ waiting c := by omega
      simp [hle]

theorem consume_consumed {script : List (List Call)} (hposted : ∀ calls ∈ script, calls = [])
    (hw : consume admits 0 c n script = some c') : Consumed c c' n := by
  induction script generalizing c n with
  | nil =>
    by_cases hn : n = 0
    · subst hn
      obtain ⟨⟩ := hw
      exact consumed_zero _
    · exact consumed_last hn hw
  | cons calls script ih =>
    simp only [consume] at hw
    obtain ⟨hn, hw⟩ := Option.ite_none_left_eq_some.mp hw
    split at hw
    · cases hw
    · rename_i req rest hq
      obtain ⟨hle, hw⟩ := Option.ite_none_right_eq_some.mp hw
      rw [hposted calls List.mem_cons_self, exec_nil, Option.bind_some, ite_self] at hw
      have hrest := ih (fun calls hmem => hposted calls (List.mem_cons_of_mem _ hmem)) hw
      have hwaits := waiting_cons hq
      have hfirst : completed c.writeQueue n = req :: completed rest (n - req.data.length) := by
        rw [hq, completed, if_neg (by omega)]
      refine ⟨?_, ?_, ?_, ?_⟩
      · rw [hrest.log, hfirst, List.append_assoc]
        rfl
      · rw [hrest.queue, hfirst, hq]
        rfl
      · rw [hrest.waiting, hwaits, waiting]
        dsimp only
        omega
      · rw [hrest.asserts, hwaits, waiting]
        dsimp only
        refine and_congr_right fun _ => ?_
        omega

/-- What an event does to the requests that wait, and to the assertion. -/
structure Handled (c c' : Conn) (e : Event) : Prop where
  waiting : waiting c' = e.settle (waiting c)
  asserts : c'.asserts = true ↔ c.asserts = true ∧ e.Paid (StreamWrite.waiting c)
  failed : ∀ err, e.failure = some err → c'.writeQueue = [] ∧
    c'.log = c.log ++ (e.completes c).map (fun id => (id, 0)) ++
      (e.waits c).map fun id => (id, err)

/-- The last loop of `onHandleWrite`, after the event has been counted. -/
theorem Handled.of_writeOut {m : Conn} {e : Event} {answers : List Answer}
    (hw : writeOut admits m answers = some c') (hfailure : e.failure = failure answers)
    (hwaiting : failure answers = none → StreamWrite.waiting m = e.settle (StreamWrite.waiting c))
    (hasserts : m.asserts = true ↔ c.asserts = true ∧ e.Paid (StreamWrite.waiting c))
    (hlog : m.log = c.log ++ (e.completes c).map fun id => (id, 0))
    (hqueue : m.writeQueue.map WriteReq.callback = e.waits c) : Handled c c' e := by
  rcases writeOut_cases hw with ⟨hnone, hq, -, ha⟩ | ⟨err, hsome, hq, ha, hl⟩
  · refine ⟨?_, ha ▸ hasserts, fun err herr => ?_⟩
    · rw [← hwaiting hnone, StreamWrite.waiting, hq, StreamWrite.waiting]
    · cases (hfailure.trans hnone).symm.trans herr
  · refine ⟨?_, ha ▸ hasserts, fun err' herr => ⟨hq, ?_⟩⟩
    · rw [waiting_nil hq, Event.settle_failed (hfailure.trans hsome)]
    · cases (hfailure.trans hsome).symm.trans herr
      rw [hl, hlog, ← hqueue, List.map_map]
      rfl

theorem write_handled {call : Call} (hs : onWrite admits c call = some c') :
    Handled c c' (.write call) := by
  have hsize : StreamWrite.waiting { c with
      writeQueue := c.writeQueue ++ [⟨call.data, c.requests.length⟩]
      writeOutQueue := c.writeOutQueue ++ [call.data]
      requests := c.requests ++ [call.data] } = StreamWrite.waiting c + call.data.length := by
    simp [StreamWrite.waiting]
  have hsettle (hnone : failure call.answers = none) :
      (Event.write call).settle (StreamWrite.waiting c) =
        StreamWrite.waiting c + call.data.length := by
    simp [Event.settle, Event.failure, hnone]
  simp only [onWrite] at hs
  split at hs
  · refine .of_writeOut hs rfl (fun hnone => hsize.trans (hsettle hnone).symm) ?_ ?_ ?_ <;>
      simp [Event.Paid, Event.completes, Event.waits]
  · obtain ⟨hnil, ⟨⟩⟩ := Option.ite_none_right_eq_some.mp hs
    have hnone : failure call.answers = none := by rw [hnil]; rfl
    refine ⟨hsize.trans (hsettle hnone).symm, by simp [Event.Paid], fun err herr => ?_⟩
    cases hnone.symm.trans herr

theorem step_handled {e : Event} (hposted : e.Posted) (hs : step admits c e = some c') :
    Handled c c' e := by
  cases e with
  | write call => exact write_handled hs
  | sent k script answers =>
    obtain ⟨-, hs⟩ := Option.ite_none_right_eq_some.mp hs
    obtain ⟨m, hm, hs⟩ := Option.bind_eq_some_iff.mp hs
    have hconsumed := consume_consumed hposted hm
    refine .of_writeOut hs rfl (fun hnone => ?_) hconsumed.asserts ?_ hconsumed.queue
    · rw [hconsumed.waiting, Event.settle, Event.failure, hnone]
      rfl
    · rw [hconsumed.log, Event.completes, List.map_map]
      rfl
  | writable answers =>
    rw [step, onHandleWrite_zero] at hs
    refine .of_writeOut hs rfl (fun hnone => ?_) ?_ ?_ rfl <;>
      simp_all [Event.settle, Event.failure, Event.Paid, Event.completes]
  | error err =>
    obtain ⟨herr, hs⟩ := Option.ite_none_right_eq_some.mp hs
    simp only [onHandleWrite, if_neg herr, consume, if_true, Option.bind_some] at hs
    obtain ⟨⟩ := hs
    exact ⟨rfl, by simp [failAll, Event.Paid], by rintro _ ⟨⟩⟩

/-- In every run every request is called back exactly once or is waiting, and when the handle's
`write` fails, the requests that the event has completed are called back without error and all
that wait are called back with the error. The assertion holds throughout exactly when the
transport never acknowledges more bytes than were asked to be sent since the last error. -/
theorem failed_write_safe_iff {es : List Event} (hrun : exec (step admits) init es = some c)
    (hposted : ∀ e ∈ es, e.Posted) :
    (c.log.map Prod.fst ++ c.writeQueue.map WriteReq.callback = List.range c.requests.length ∧
      ∀ e c' err, e.Posted → step admits c e = some c' → e.failure = some err →
        c'.writeQueue = [] ∧
          c'.log = c.log ++ (e.completes c).map (fun id => (id, 0)) ++
            (e.waits c).map fun id => (id, err)) ∧
    ((∀ pre post m, es = pre ++ post → exec (step admits) init pre = some m →
        m.asserts = true) ↔
      Along (fun credit e => some (Event.settle credit e))
        (fun credit e => e.Paid credit) 0 es) := by
  have hinit : InOrder init := rfl
  have horder := exec_invariant (fun _ _ _ => step_inOrder) hinit hrun
  refine ⟨⟨horder, fun e c' err he hs hfail => (step_handled he hs).failed err hfail⟩, ?_⟩
  have hpaid : ∀ a e b, e.Posted → a.asserts = true → step admits a e = some b →
      (b.asserts = true ↔ e.Paid (waiting a)) := by
    intro a e b he ha hs
    rw [(step_handled he hs).asserts]
    exact and_iff_right ha
  rw [invariant_iff_along_of (I := fun m => m.asserts = true)
    (P := fun m e => e.Paid (waiting m)) hpaid rfl hposted hrun]
  exact along_map (f := waiting) (P := fun credit e => e.Paid credit)
    (fun a e b he hs => (step_handled he hs).waiting) hposted hrun

/-- A byte is in flight when the second request fails; its acknowledgement is then counted
against a third request. -/
theorem failed_write_safe_iff_covered : let es : List Event :=
      [.write ⟨[1, 2], [.took 2]⟩, .write ⟨[3], []⟩, .sent 1 [] [.failed (-1)],
        .write ⟨[4, 5], [.took 0]⟩, .sent 1 [] [.took 2]]
    ∃ c, exec (step prompt) init es = some c ∧ c.log = [(0, -1), (1, -1)] ∧ c.asserts = true := by
  intro es
  refine exec_check_and (by decide +kernel) fun c hrun _ => ?_
  have hsafe := (failed_write_safe_iff hrun (by decide)).2.mpr (by decide +kernel)
  exact hsafe es [] c (List.append_nil es).symm hrun

/-- The acknowledgement finds no request. -/
theorem failed_write_asserts : ∃ c, exec (step prompt) init
      [.write ⟨[1, 2], [.took 2]⟩, .write ⟨[3], []⟩, .sent 1 [] [.failed (-1)], .sent 1 [] []] =
        some c ∧ c.asserts = false :=
  exec_check (by decide +kernel)

end DTun.Util.StreamWrite
