import DTun.Lib.Runs
import DTun.Lib.Segments

/-!
# Writing to a stream connection

The write side of `LTUDPConnection`, which `UTPConnection` repeats. A request stands in two
queues: `writeOutQueue_` holds what the transport has still to take and `writeQueue_` what
it has still to acknowledge. Both go through the same requests, each at its own pace, so
each is the list of requests seen through an offset.

A callback may write again. Such writes are made while the acknowledgement is still being
handled, and an event lists them callback by callback; a callback that reports an error
writes nothing here, and no callback closes the connection.
-/

namespace DTun.Util.StreamWrite

open DTun.Lib.Runs DTun.Lib.Segments

/-- What the handle's `write` answers: the bytes it took, or its error. -/
inductive Answer where
  | took (numWritten : Nat)
  | failed (err : Int)
  deriving DecidableEq, Repr

/-- A request that waits for acknowledgement: `data` lies between `first` and `last`. -/
structure WriteReq where
  data : List UInt8
  callback : Nat
  deriving DecidableEq, Repr

/-- The connection. `log` is the callbacks invoked and `asserts` tells that the assertion of
`onHandleWrite` has held. The source has no `requests`, `accepted` and `acked`: they are
the requests made, the bytes the transport took and how many of those it acknowledged. -/
structure Conn where
  writeQueue : List WriteReq
  writeOutQueue : List (List UInt8)
  log : List (Nat × Int)
  asserts : Bool
  requests : List (List UInt8)
  accepted : List UInt8
  acked : Nat
  deriving DecidableEq, Repr

def init : Conn where
  writeQueue := []
  writeOutQueue := []
  log := []
  asserts := true
  requests := []
  accepted := []
  acked := 0

/-- A call of `write`, with the answers to the attempts to send that it makes. -/
structure Call where
  data : List UInt8
  answers : List Answer
  deriving DecidableEq, Repr

/-- Report an error to every request. -/
def failAll (c : Conn) (err : Int) : Conn :=
  { c with
    writeQueue := []
    writeOutQueue := []
    log := c.log ++ c.writeQueue.map fun req => (req.callback, err) }

-- which counts the transport may answer, given how many bytes it holds unacknowledged
variable (admits : Nat → Nat → Bool)

/-- The last loop of `onHandleWrite`, one answer for each turn. A request that the transport
took in part is offered again. -/
def writeOut (c : Conn) : List Answer → Option Conn
  | [] => if c.writeOutQueue = [] then some c else none
  | answer :: more =>
    match c.writeOutQueue, answer with
    | [], _ => none
    | _ :: _, .failed err => if err ≠ 0 ∧ more = [] then some (failAll c err) else none
    | piece :: rest, .took numWritten =>
      if numWritten ≤ piece.length ∧ admits (c.accepted.length - c.acked) numWritten = true then
        if numWritten = 0 then
          if more = [] then some c else none
        else
          writeOut { c with
            writeOutQueue :=
              if piece.length ≤ numWritten then rest else piece.drop numWritten :: rest
            accepted := c.accepted ++ piece.take numWritten } more
      else none

/-- Only a request that finds `writeQueue_` empty tries to send. -/
def onWrite (c : Conn) (call : Call) : Option Conn :=
  let c' := { c with
    writeQueue := c.writeQueue ++ [⟨call.data, c.requests.length⟩]
    writeOutQueue := c.writeOutQueue ++ [call.data]
    requests := c.requests ++ [call.data] }
  if c'.writeQueue.length = 1 then
    -- `onHandleWrite(0, 0)`, see `onHandleWrite_zero`
    writeOut admits c' call.answers
  else if call.answers = [] then some c' else none

/-- The first loop of `onHandleWrite`. The script has the writes of each callback that is
invoked. -/
def consume (err : Int) (c : Conn) (numBytes : Nat) : List (List Call) → Option Conn
  | [] =>
    if numBytes = 0 then some c
    else
      match c.writeQueue with
      | [] => some { c with asserts := false }
      | req :: rest =>
        if req.data.length ≤ numBytes then none
        else some { c with writeQueue := { req with data := req.data.drop numBytes } :: rest }
  | calls :: script =>
    if numBytes = 0 then none
    else
      match c.writeQueue with
      | [] => none
      | req :: rest =>
        if req.data.length ≤ numBytes then
          let left := numBytes - req.data.length
          let c' := { c with
            writeQueue := rest
            log := c.log ++ [(req.callback, if left = 0 then err else 0)] }
          (exec (onWrite admits) c' calls).bind fun c' => consume err c' left script
        else none

def onHandleWrite (c : Conn) (err : Int) (numBytes : Nat) (script : List (List Call))
    (answers : List Answer) : Option Conn :=
  let c := if err = 0 then c else { c with writeOutQueue := [] }
  (consume admits err c numBytes script).bind fun c =>
    if err = 0 then writeOut admits c answers
    else if answers = [] then some (failAll c err) else none

/-- `sent` is `sentFunc` and `onSent`, `writable` is `onWriteable`, `error` is `errorFunc`
and `onError`. -/
inductive Event where
  | write (call : Call)
  | sent (numBytes : Nat) (script : List (List Call)) (answers : List Answer)
  | writable (answers : List Answer)
  | error (err : Int)
  deriving DecidableEq, Repr

def step (c : Conn) : Event → Option Conn
  | .write call => onWrite admits c call
  | .sent numBytes script answers =>
    if 0 < numBytes ∧ c.acked + numBytes ≤ c.accepted.length then
      onHandleWrite admits { c with acked := c.acked + numBytes } 0 numBytes script answers
    else none
  | .writable answers => onHandleWrite admits c 0 0 [] answers
  | .error err => if err ≠ 0 then onHandleWrite admits c err 0 [] [] else none

/-- A transport takes something whenever it holds nothing unacknowledged. -/
def prompt (unacked numWritten : Nat) : Bool := unacked ≠ 0 || numWritten ≠ 0

/-- Without an error and without acknowledged bytes only the last loop does anything. -/
theorem onHandleWrite_zero (c : Conn) (answers : List Answer) :
    onHandleWrite admits c 0 0 [] answers = writeOut admits c answers := by
  simp [onHandleWrite, consume]

def Answer.isTook : Answer → Bool
  | .took _ => true
  | .failed _ => false

/-- The transport reports no error. -/
def Served (answers : List Answer) : Prop := ∀ a ∈ answers, a.isTook = true

/-- A request for at least one byte that meets no error. -/
def Call.Clean (call : Call) : Prop := call.data ≠ [] ∧ Served call.answers

def Event.Clean : Event → Prop
  | .write call => call.Clean
  | .sent _ script answers => (∀ calls ∈ script, ∀ call ∈ calls, call.Clean) ∧ Served answers
  | .writable answers => Served answers
  | .error _ => False

variable {admits} {c c' : Conn} {n : Nat}

/-- Both queues are the requests through an offset: `writeOutQueue_` after the accepted
bytes, `writeQueue_` after the acknowledged ones but for `n` that are still to be consumed.
The requests that have been passed have been called back, in order. -/
structure Sound (c : Conn) (n : Nat) : Prop where
  solid : Solid c.requests
  account : c.accepted ++ c.writeOutQueue.flatten = c.requests.flatten
  acked : n ≤ c.acked ∧ c.acked ≤ c.accepted.length
  out : c.writeOutQueue = skip c.requests c.accepted.length
  queue : c.writeQueue.map WriteReq.data = skip c.requests (c.acked - n)
  ids : c.writeQueue.map WriteReq.callback =
    List.range' (passed c.requests (c.acked - n)) c.writeQueue.length
  log : c.log = (List.range (passed c.requests (c.acked - n))).map fun i => (i, 0)
  asserts : c.asserts = true

theorem init_sound : Sound init 0 where
  solid := by simp [Solid, init]
  account := rfl
  acked := ⟨Nat.le_refl _, Nat.le_refl _⟩
  out := rfl
  queue := rfl
  ids := rfl
  log := rfl
  asserts := rfl

theorem Sound.accepted_le (h : Sound c n) : c.accepted.length ≤ c.requests.flatten.length := by
  rw [← h.account, List.length_append]
  omega

/-- The bytes waiting for acknowledgement are those in flight, those acknowledged but not
yet consumed, and those not yet taken. -/
theorem Sound.unconsumed (h : Sound c n) :
    (c.writeQueue.map WriteReq.data).flatten.length =
      c.accepted.length - c.acked + n + c.writeOutQueue.flatten.length := by
  have hlen := congrArg List.length h.account
  have hacked := h.acked
  rw [List.length_append] at hlen
  rw [h.queue, flatten_skip, List.length_drop]
  omega

/-- A piece that the transport took in part or as a whole. -/
theorem Sound.took (h : Sound c n) {piece : List UInt8} {rest : List (List UInt8)}
    (hout : c.writeOutQueue = piece :: rest) {k : Nat} (hk : k ≤ piece.length) :
    Sound { c with
      writeOutQueue := if piece.length ≤ k then rest else piece.drop k :: rest
      accepted := c.accepted ++ piece.take k } n := by
  have hsolid : Solid (piece :: rest) := by
    rw [← hout, h.out]
    exact solid_skip h.solid _
  have hskip : (if piece.length ≤ k then rest else piece.drop k :: rest) =
      skip (piece :: rest) k := by
    rw [skip]
    split
    · rw [show k - piece.length = 0 by omega, skip_zero hsolid.of_cons.2]
    · rfl
  have hlen : (c.accepted ++ piece.take k).length = c.accepted.length + k := by
    rw [List.length_append, List.length_take, Nat.min_eq_left hk]
  have hacked : c.acked ≤ (c.accepted ++ piece.take k).length :=
    Nat.le_trans h.acked.2 (by rw [hlen]; omega)
  refine ⟨h.solid, ?_, ⟨h.acked.1, hacked⟩, ?_, h.queue, h.ids, h.log, h.asserts⟩
  · have hpiece : piece.take k ++ (skip (piece :: rest) k).flatten = (piece :: rest).flatten := by
      rw [flatten_skip, List.flatten_cons, List.drop_append_of_le_length hk, ← List.append_assoc,
        List.take_append_drop]
    rw [hskip, List.append_assoc, hpiece, ← hout]
    exact h.account
  · rw [hskip, hlen, ← skip_skip h.solid, ← h.out, hout]

/-- Sending keeps the queues sound, and stops when everything is taken or when the transport
takes nothing. -/
theorem writeOut_sound {answers : List Answer} (hserved : Served answers) (h : Sound c n)
    (hw : writeOut admits c answers = some c') :
    Sound c' n ∧ (c'.writeOutQueue = [] ∨ admits (c'.accepted.length - c'.acked) 0 = true) := by
  induction answers generalizing c with
  | nil =>
    rw [writeOut] at hw
    split at hw
    · rename_i hout
      obtain rfl := Option.some.inj hw
      exact ⟨h, Or.inl hout⟩
    · cases hw
  | cons answer more ih =>
    have hmore : Served more := fun a ha => hserved a (List.mem_cons_of_mem _ ha)
    cases hout : c.writeOutQueue with
    | nil => simp [writeOut, hout] at hw
    | cons piece rest =>
      cases answer with
      | failed err => cases hserved _ List.mem_cons_self
      | took k =>
        simp only [writeOut, hout] at hw
        split at hw
        · rename_i hk
          by_cases hzero : k = 0
          · subst hzero
            rw [if_pos rfl] at hw
            split at hw
            · obtain rfl := Option.some.inj hw
              exact ⟨h, Or.inr hk.2⟩
            · cases hw
          · rw [if_neg hzero] at hw
            exact ih hmore (h.took hout hk.1) hw
        · cases hw

/-- A request behind the others in both queues. -/
theorem Sound.push (h : Sound c n) {data : List UInt8} (hdata : data ≠ []) :
    Sound { c with
      writeQueue := c.writeQueue ++ [⟨data, c.requests.length⟩]
      writeOutQueue := c.writeOutQueue ++ [data]
      requests := c.requests ++ [data] } n := by
  have hacked := h.acked
  have haccepted := h.accepted_le
  have hle : c.acked - n ≤ c.requests.flatten.length := by omega
  refine ⟨solid_append_singleton h.solid hdata, ?_, hacked, ?_, ?_, ?_, ?_, h.asserts⟩
  · simp only [List.flatten_append, List.flatten_singleton, ← h.account, List.append_assoc]
  · simp only [skip_append haccepted hdata, h.out]
  · simp only [skip_append hle hdata, List.map_append, h.queue, List.map_cons, List.map_nil]
  · have hcount := passed_add_length_skip c.requests (c.acked - n)
    rw [← h.queue, List.length_map] at hcount
    simp only [passed_append hle hdata, List.map_append, h.ids, List.map_cons, List.map_nil,
      List.length_append, List.length_singleton, List.range'_1_concat, ← hcount]
  · simp only [passed_append hle hdata, h.log]

theorem onWrite_sound {call : Call} (hclean : call.Clean) (h : Sound c n)
    (hw : onWrite admits c call = some c') : Sound c' n := by
  have hpush := h.push hclean.1
  simp only [onWrite] at hw
  split at hw
  · exact (writeOut_sound hclean.2 hpush hw).1
  · split at hw
    · obtain rfl := Option.some.inj hw
      exact hpush
    · cases hw

/-- While bytes are to be consumed some request waits for them. -/
theorem Sound.queue_ne_nil (h : Sound c n) (hn : n ≠ 0) : c.writeQueue ≠ [] := by
  intro hnil
  have hskip : skip c.requests (c.acked - n) = [] := by rw [← h.queue, hnil, List.map_nil]
  have hall := (skip_eq_nil_iff h.solid).mp hskip
  have hacked := h.acked
  have haccepted := h.accepted_le
  omega

/-- The front request is acknowledged whole and called back. -/
theorem Sound.pop (h : Sound c n) {req : WriteReq} {rest : List WriteReq}
    (hq : c.writeQueue = req :: rest) (hle : req.data.length ≤ n) :
    Sound { c with writeQueue := rest, log := c.log ++ [(req.callback, 0)] }
      (n - req.data.length) := by
  have hacked := h.acked
  have hqueue : req.data :: rest.map WriteReq.data = skip c.requests (c.acked - n) := by
    rw [← h.queue, hq, List.map_cons]
  have hsolid : Solid (req.data :: rest.map WriteReq.data) := by
    rw [hqueue]
    exact solid_skip h.solid _
  have hoff : c.acked - (n - req.data.length) = c.acked - n + req.data.length := by omega
  have hrest : skip c.requests (c.acked - n + req.data.length) = rest.map WriteReq.data := by
    rw [← skip_skip h.solid, ← hqueue, skip_of_le (Nat.le_refl _), Nat.sub_self,
      skip_zero hsolid.of_cons.2]
  have hpassed : passed c.requests (c.acked - n + req.data.length) =
      passed c.requests (c.acked - n) + 1 := by
    rw [passed_add, ← hqueue, passed_of_le (Nat.le_refl _), Nat.sub_self,
      passed_zero hsolid.of_cons.2]
  have hids := h.ids
  rw [hq, List.map_cons, List.length_cons, List.range'_succ] at hids
  obtain ⟨hid, hids⟩ := List.cons.inj hids
  refine ⟨h.solid, h.account, ⟨Nat.le_trans (Nat.sub_le _ _) hacked.1, hacked.2⟩, h.out, ?_, ?_, ?_,
    h.asserts⟩
  · rw [hoff, hrest]
  · rw [hoff, hpassed]
    exact hids
  · rw [hoff, hpassed, h.log, hid, List.range_succ, List.map_append, List.map_singleton]

/-- Part of the front request is acknowledged. -/
theorem Sound.advance (h : Sound c n) {req : WriteReq} {rest : List WriteReq}
    (hq : c.writeQueue = req :: rest) (hlt : n < req.data.length) :
    Sound { c with writeQueue := { req with data := req.data.drop n } :: rest } 0 := by
  have hacked := h.acked
  have hqueue : req.data :: rest.map WriteReq.data = skip c.requests (c.acked - n) := by
    rw [← h.queue, hq, List.map_cons]
  have hoff : c.acked - 0 = c.acked - n + n := by omega
  have hpassed : passed c.requests (c.acked - n + n) = passed c.requests (c.acked - n) := by
    rw [passed_add, ← hqueue, passed_of_lt hlt, Nat.add_zero]
  have hids := h.ids
  rw [hq] at hids
  refine ⟨h.solid, h.account, ⟨Nat.zero_le _, hacked.2⟩, h.out, ?_, ?_, ?_, h.asserts⟩
  · rw [hoff, ← skip_skip h.solid, ← hqueue, skip_of_lt hlt, List.map_cons]
  · rw [hoff, hpassed]
    exact hids
  · rw [hoff, hpassed]
    exact h.log

theorem onWrites_sound {calls : List Call} (hclean : ∀ call ∈ calls, call.Clean) (h : Sound c n)
    (hw : exec (onWrite admits) c calls = some c') : Sound c' n :=
  exec_invariant_along (P := fun _ call => call.Clean) (I := fun c => Sound c n)
    (fun _ _ _ hs hcall hstep => onWrite_sound hcall hs hstep) h
    (along_of_forall fun call hmem _ => hclean call hmem) hw

/-- The acknowledged bytes are consumed to the last one, whatever the callbacks write. -/
theorem consume_sound {script : List (List Call)}
    (hclean : ∀ calls ∈ script, ∀ call ∈ calls, call.Clean) (h : Sound c n)
    (hw : consume admits 0 c n script = some c') : Sound c' 0 := by
  induction script generalizing c n with
  | nil =>
    by_cases hn : n = 0
    · subst hn
      simp only [consume, if_true, Option.some.injEq] at hw
      exact hw ▸ h
    · cases hq : c.writeQueue with
      | nil => exact absurd hq (h.queue_ne_nil hn)
      | cons req rest =>
        simp only [consume, if_neg hn, hq] at hw
        split at hw
        · cases hw
        · obtain rfl := Option.some.inj hw
          exact h.advance hq (by omega)
  | cons calls script ih =>
    by_cases hn : n = 0
    · simp [consume, hn] at hw
    · cases hq : c.writeQueue with
      | nil => exact absurd hq (h.queue_ne_nil hn)
      | cons req rest =>
        simp only [consume, if_neg hn, hq, ite_self] at hw
        split at hw
        · rename_i hle
          obtain ⟨m, hm, hw⟩ := Option.bind_eq_some_iff.mp hw
          have hcalls := onWrites_sound (hclean calls List.mem_cons_self) (h.pop hq hle) hm
          exact ih (fun calls hmem => hclean calls (List.mem_cons_of_mem _ hmem)) hcalls hw
        · cases hw

/-- Acknowledged bytes that are still to be consumed. -/
theorem Sound.ack (h : Sound c 0) {k : Nat} (hk : c.acked + k ≤ c.accepted.length) :
    Sound { c with acked := c.acked + k } k := by
  have hoff : c.acked + k - k = c.acked - 0 := by omega
  refine ⟨h.solid, h.account, ⟨Nat.le_add_left _ _, hk⟩, h.out, ?_, ?_, ?_, h.asserts⟩
  · rw [hoff]
    exact h.queue
  · rw [hoff]
    exact h.ids
  · rw [hoff]
    exact h.log

theorem writable_sound {answers : List Answer} (hserved : Served answers) (h : Sound c 0)
    (hs : step admits c (.writable answers) = some c') :
    Sound c' 0 ∧ (c'.writeOutQueue = [] ∨ admits (c'.accepted.length - c'.acked) 0 = true) := by
  rw [step, onHandleWrite_zero] at hs
  exact writeOut_sound hserved h hs

theorem sent_sound {k : Nat} {script : List (List Call)} {answers : List Answer}
    (hclean : ∀ calls ∈ script, ∀ call ∈ calls, call.Clean) (hserved : Served answers)
    (h : Sound c 0) (hs : step admits c (.sent k script answers) = some c') :
    Sound c' 0 ∧ (c'.writeOutQueue = [] ∨ admits (c'.accepted.length - c'.acked) 0 = true) := by
  simp only [step] at hs
  split at hs
  · rename_i hk
    obtain ⟨m, hm, hs⟩ := Option.bind_eq_some_iff.mp hs
    exact writeOut_sound hserved (consume_sound hclean (h.ack hk.2) hm) hs
  · cases hs

theorem step_sound {e : Event} (hclean : e.Clean) (h : Sound c 0)
    (hs : step admits c e = some c') : Sound c' 0 := by
  cases e with
  | write call => exact onWrite_sound hclean h hs
  | sent k script answers => exact (sent_sound hclean.1 hclean.2 h hs).1
  | writable answers => exact (writable_sound hclean h hs).1
  | error err => cases hclean

/-- Requests are added as they are made, and accepted bytes are never taken back; a
transport that takes nothing leaves them as they are. -/
structure Grows (admits : Nat → Nat → Bool) (calls : List Call) (c c' : Conn) : Prop where
  requests : c'.requests = c.requests ++ calls.map Call.data
  acked : c'.acked = c.acked
  accepted : c.accepted <+: c'.accepted
  shut : (∀ unacked k, admits unacked k = true → k = 0) → c'.accepted = c.accepted

theorem Grows.of_eq (hrequests : c'.requests = c.requests) (hacked : c'.acked = c.acked)
    (haccepted : c'.accepted = c.accepted) : Grows admits [] c c' where
  requests := by rw [hrequests, List.map_nil, List.append_nil]
  acked := hacked
  accepted := ⟨[], by rw [List.append_nil, haccepted]⟩
  shut := fun _ => haccepted

theorem Grows.trans {c'' : Conn} {calls calls' : List Call} (h : Grows admits calls c c')
    (h' : Grows admits calls' c' c'') : Grows admits (calls ++ calls') c c'' where
  requests := by rw [h'.requests, h.requests, List.map_append, List.append_assoc]
  acked := h'.acked.trans h.acked
  accepted := h.accepted.trans h'.accepted
  shut := fun hshut => (h'.shut hshut).trans (h.shut hshut)

theorem writeOut_grows {answers : List Answer} (hw : writeOut admits c answers = some c') :
    Grows admits [] c c' := by
  induction answers generalizing c with
  | nil =>
    rw [writeOut] at hw
    split at hw
    · rw [← Option.some.inj hw]
      exact .of_eq rfl rfl rfl
    · cases hw
  | cons answer more ih =>
    simp only [writeOut] at hw
    split at hw
    · cases hw
    · split at hw
      · rw [← Option.some.inj hw]
        exact .of_eq rfl rfl rfl
      · cases hw
    · split at hw
      · rename_i hk
        split at hw
        · split at hw
          · rw [← Option.some.inj hw]
            exact .of_eq rfl rfl rfl
          · cases hw
        · rename_i hpos
          have hmore := ih hw
          exact ⟨hmore.requests, hmore.acked, (List.prefix_append _ _).trans hmore.accepted,
            fun hshut => absurd (hshut _ _ hk.2) hpos⟩
      · cases hw

theorem onWrite_grows {call : Call} (hw : onWrite admits c call = some c') :
    Grows admits [call] c c' := by
  have hpush : Grows admits [call] c { c with
      writeQueue := c.writeQueue ++ [⟨call.data, c.requests.length⟩]
      writeOutQueue := c.writeOutQueue ++ [call.data]
      requests := c.requests ++ [call.data] } :=
    ⟨rfl, rfl, List.prefix_refl _, fun _ => rfl⟩
  simp only [onWrite] at hw
  split at hw
  · exact hpush.trans (writeOut_grows hw)
  · split at hw
    · rw [← Option.some.inj hw]
      exact hpush
    · cases hw

theorem onWrites_grows {calls : List Call} (hw : exec (onWrite admits) c calls = some c') :
    Grows admits calls c c' :=
  exec_induction (motive := fun calls m => Grows admits calls c m) (.of_eq rfl rfl rfl)
    (fun _ _ _ _ _ ih hm => ih.trans (onWrite_grows hm)) hw

theorem consume_grows {err : Int} {script : List (List Call)}
    (hw : consume admits err c n script = some c') : Grows admits script.flatten c c' := by
  induction script generalizing c n with
  | nil =>
    simp only [consume] at hw
    split at hw
    · rw [← Option.some.inj hw]
      exact .of_eq rfl rfl rfl
    · split at hw
      · rw [← Option.some.inj hw]
        exact .of_eq rfl rfl rfl
      · split at hw
        · cases hw
        · rw [← Option.some.inj hw]
          exact .of_eq rfl rfl rfl
  | cons calls script ih =>
    simp only [consume] at hw
    split at hw
    · cases hw
    · split at hw
      · cases hw
      · split at hw
        · obtain ⟨m, hm, hw⟩ := Option.bind_eq_some_iff.mp hw
          have hcalls := onWrites_grows hm
          have hpop : Grows admits calls c m :=
            ⟨hcalls.requests, hcalls.acked, hcalls.accepted, hcalls.shut⟩
          exact hpop.trans (ih hw)
        · cases hw

theorem onHandleWrite_grows {err : Int} {script : List (List Call)} {answers : List Answer}
    (hw : onHandleWrite admits c err n script answers = some c') :
    Grows admits script.flatten c c' := by
  obtain ⟨m, hm, hw⟩ := Option.bind_eq_some_iff.mp hw
  have hclear : Grows admits [] c (if err = 0 then c else { c with writeOutQueue := [] }) := by
    split <;> exact .of_eq rfl rfl rfl
  have hconsumed : Grows admits script.flatten c m := hclear.trans (consume_grows hm)
  have hrest : Grows admits [] m c' := by
    split at hw
    · exact writeOut_grows hw
    · split at hw
      · rw [← Option.some.inj hw]
        exact .of_eq rfl rfl rfl
      · cases hw
  simpa using hconsumed.trans hrest

/-- The calls of `write` that an event makes. -/
def Event.calls : Event → List Call
  | .write call => [call]
  | .sent _ script _ => script.flatten
  | .writable _ => []
  | .error _ => []

theorem step_requests {e : Event} (hs : step admits c e = some c') :
    c'.requests = c.requests ++ e.calls.map Call.data := by
  cases e with
  | write call => exact (onWrite_grows hs).requests
  | sent k script answers =>
    simp only [step] at hs
    split at hs
    · have hsent := onHandleWrite_grows hs
      exact hsent.requests
    · cases hs
  | writable answers =>
    rw [step, onHandleWrite_zero] at hs
    exact (writeOut_grows hs).requests
  | error err =>
    simp only [step] at hs
    split at hs
    · exact (onHandleWrite_grows hs).requests
    · cases hs

/-- The requests of a run are those its events make, in order. -/
theorem run_requests {es : List Event} (hrun : exec (step admits) init es = some c) :
    c.requests = (es.flatMap Event.calls).map Call.data := by
  refine exec_induction
    (motive := fun es m => m.requests = (es.flatMap Event.calls).map Call.data)
    rfl (fun es m e m' _ ih hm => ?_) hrun
  rw [step_requests hm, ih, List.flatMap_append, List.flatMap_singleton, List.map_append]

/-- A request that waits has a byte in flight, so an acknowledgement is still to come. -/
def Driven (c : Conn) : Prop := c.writeQueue ≠ [] → c.acked < c.accepted.length

/-- An attempt to send leaves a byte in flight or has nothing left to send. -/
theorem Sound.driven (h : Sound c 0)
    (hsent : c.writeOutQueue = [] ∨ prompt (c.accepted.length - c.acked) 0 = true) : Driven c := by
  intro hne
  rcases hsent with hout | hprompt
  · have haccount := congrArg List.length h.account
    have hunconsumed := h.unconsumed
    have hsolid : Solid (c.writeQueue.map WriteReq.data) := by
      rw [h.queue]
      exact solid_skip h.solid _
    cases hq : c.writeQueue with
    | nil => exact absurd hq hne
    | cons req rest =>
      rw [hq, List.map_cons] at hsolid
      have hpos := hsolid.of_cons.1
      rw [hq, List.map_cons, List.flatten_cons, List.length_append, hout, List.flatten_nil,
        List.length_nil] at hunconsumed
      omega
  · have hflight : c.accepted.length - c.acked ≠ 0 := by simpa [prompt] using hprompt
    omega

theorem step_driven {e : Event} (hclean : e.Clean) (h : Sound c 0) (hd : Driven c)
    (hs : step prompt c e = some c') : Driven c' := by
  have hs' := step_sound hclean h hs
  cases e with
  | write call =>
    simp only [step, onWrite] at hs
    split at hs
    · exact hs'.driven (writeOut_sound hclean.2 (h.push hclean.1) hs).2
    · rename_i hlen
      split at hs
      · obtain rfl := Option.some.inj hs
        intro _
        refine hd fun hnil => hlen ?_
        simp [hnil]
      · cases hs
  | sent k script answers => exact hs'.driven (sent_sound hclean.1 hclean.2 h hs).2
  | writable answers => exact hs'.driven (writable_sound hclean h hs).2
  | error err => cases hclean

/-- For every run of non-empty requests, acknowledgements and partial accepts over a prompt
transport that reports no error: the transport takes the requests in order, each byte once;
what waits for acknowledgement is what is in flight and what is still to be taken; requests
are called back without error, in order, each once and as soon as its last byte is
acknowledged; the assertion holds; and a request that waits has a byte in flight. -/
theorem writes_complete_in_order {es : List Event} (hclean : ∀ e ∈ es, e.Clean)
    (hrun : exec (step prompt) init es = some c) :
    c.requests = (es.flatMap Event.calls).map Call.data ∧
    c.accepted ++ c.writeOutQueue.flatten = c.requests.flatten ∧
    (c.writeQueue.map WriteReq.data).flatten.length =
      c.accepted.length - c.acked + c.writeOutQueue.flatten.length ∧
    (∃ k ≤ c.requests.length, c.log = (List.range k).map (fun i => (i, 0)) ∧
      ∀ i < c.requests.length, i < k ↔ (c.requests.take (i + 1)).flatten.length ≤ c.acked) ∧
    c.asserts = true ∧
    (c.writeQueue ≠ [] → c.acked < c.accepted.length) := by
  obtain ⟨hsound, hdriven⟩ : Sound c 0 ∧ Driven c :=
    exec_invariant_along (P := fun _ e => e.Clean) (I := fun c => Sound c 0 ∧ Driven c)
      (fun _ _ _ hs he hstep => ⟨step_sound he hs.1 hstep, step_driven he hs.1 hs.2 hstep⟩)
      ⟨init_sound, fun hne => absurd rfl hne⟩ (along_of_forall fun e he _ => hclean e he) hrun
  have hcount := passed_add_length_skip c.requests c.acked
  refine ⟨run_requests hrun, hsound.account, hsound.unconsumed,
    ⟨passed c.requests c.acked, by omega, hsound.log, ?_⟩, hsound.asserts, hdriven⟩
  intro i hi
  exact lt_passed_iff hi c.acked

/-- Two requests, the first taken in three pieces; its callback writes a third one, and the
second one is called back with the third still in flight. -/
theorem writes_complete_in_order_reentrant :
    ∃ c, exec (step prompt) init
        [.write ⟨[1, 2, 3], [.took 2, .took 0]⟩, .write ⟨[4, 5], []⟩,
          .sent 2 [] [.took 1, .took 1, .took 0], .sent 1 [[⟨[6], []⟩]] [.took 1, .took 1],
          .sent 2 [[]] []] = some c ∧
      (c.log = [(0, 0), (1, 0)] ∧ c.accepted = [1, 2, 3, 4, 5, 6] ∧ c.writeQueue = [⟨[6], 2⟩]) ∧
      c.acked < c.accepted.length := by
  refine exec_check_and (by decide +kernel) fun c hrun hc =>
    (writes_complete_in_order ?_ hrun).2.2.2.2.2 ?_
  · simp [Event.Clean, Call.Clean, Served, Answer.isTook]
  · rw [hc.2.2]
    exact List.cons_ne_nil _ _

end DTun.Util.StreamWrite
