import Mathlib.Data.List.TakeDrop
import DTun.Lib.CircularBuffer
import DTun.Lib.Runs

/-!
# Reading from a stream connection

The read side of `LTUDPConnection` over `LTUDPHandleImpl`, which `UTPConnection` and
`UTPHandleImpl` repeat: received bytes wait in `rcvBuff_`, read requests wait in
`readQueue_`, and `onHandleRead` serves them. A callback is recorded in `log`; it may ask
for another read, which is a later `onRead`, but it does not close the connection here.

At end of stream the handle reports `DTUN_ERR_CONN_CLOSED` together with what it copies,
whether or not `rcvBuff_` still holds bytes. The last section says exactly when a reader
that stops there has seen every byte.
-/

namespace DTun.Util.StreamRead

open DTun.Lib DTun.Lib.Runs

/-- `DTUN_ERR_CONN_CLOSED`. -/
def connClosed : Int := -9999

inductive Transport where
  | ltudp
  | utp
  deriving DecidableEq, Repr

/-- The error of a read on a handle without a socket: `ERR_ABRT` or `1`. -/
def Transport.abrt : Transport → Int
  | .ltudp => -13
  | .utp => 1

/-- The read side of a handle: `socket` tells that `pcb_` (`utpSock_`) is not null. -/
structure HandleImpl (capacity : Nat) where
  transport : Transport
  rcvBuff : CircularBuffer UInt8 capacity
  eof : Bool
  socket : Bool

variable {capacity : Nat}

/-- Copy up to `left` bytes out of the buffer; the error does not depend on the copy. -/
def HandleImpl.read (h : HandleImpl capacity) (left : Nat) :
    HandleImpl capacity × List UInt8 × Int :=
  let data := if h.rcvBuff.content = [] then [] else h.rcvBuff.copy left
  let h' := if h.rcvBuff.content = [] then h
    else { h with rcvBuff := h.rcvBuff.eraseBegin data.length }
  let err := if h.eof then connClosed else if h.socket then 0 else h.transport.abrt
  (h', data, err)

/-- A request: `left` is `last - first` and `data` is what it has been given so far, so
`total_read` is its length. -/
structure ReadReq where
  left : Nat
  data : List UInt8
  callback : Nat
  readAll : Bool
  deriving DecidableEq, Repr

/-- One invocation of a request's callback: the error and the bytes it reports. -/
structure Callback where
  callback : Nat
  err : Int
  data : List UInt8
  deriving DecidableEq, Repr

/-- The connection. `delivered` collects the bytes accepted from the transport; the source
has no such variable and no step reads it. -/
structure Conn (capacity : Nat) where
  impl : HandleImpl capacity
  readQueue : List ReadReq
  log : List Callback
  delivered : List UInt8

def init (capacity : Nat) (transport : Transport) : Conn capacity where
  impl := ⟨transport, .empty, false, true⟩
  readQueue := []
  log := []
  delivered := []

/-- How a finished request reports: data and an error are two callbacks. -/
def complete (req : ReadReq) (err : Int) : List Callback :=
  if err ≠ 0 ∧ req.data ≠ [] then [⟨req.callback, 0, req.data⟩, ⟨req.callback, err, []⟩]
  else [⟨req.callback, err, req.data⟩]

/-- One turn of the loop of `onHandleRead`; `none` leaves the loop. -/
def readTurn (s : Conn capacity) : Option (Conn capacity) :=
  match s.readQueue with
  | [] => none
  | req :: rest =>
    let (impl, data, err) := s.impl.read req.left
    if data = [] ∧ err = 0 then none
    else
      let req' := { req with left := req.left - data.length, data := req.data ++ data }
      if req.readAll = false ∨ req'.left = 0 ∨ err ≠ 0 then
        some { s with impl := impl, readQueue := rest, log := s.log ++ complete req' err }
      else
        some { s with impl := impl, readQueue := req' :: rest }

/-- What every turn of the loop lowers: it completes a request or consumes a byte. -/
def work (s : Conn capacity) : Nat := s.readQueue.length + s.impl.rcvBuff.size

def onHandleRead (s : Conn capacity) : Conn capacity := loop readTurn (work s + 1) s

/-- `recvFunc` with a `pbuf`: data that does not fit is refused and nothing is read. -/
def recv (s : Conn capacity) (data : List UInt8) : Conn capacity :=
  if h : data.length ≤ capacity - s.impl.rcvBuff.size then
    onHandleRead { s with
      impl := { s.impl with rcvBuff := s.impl.rcvBuff.insertEnd data h }
      delivered := s.delivered ++ data }
  else s

/-- `recvFunc` with `NULL`. -/
def recvEof (s : Conn capacity) : Conn capacity :=
  onHandleRead { s with impl := { s.impl with eof := true } }

/-- `errorFunc`: the socket is gone. -/
def errorFunc (s : Conn capacity) : Conn capacity :=
  onHandleRead { s with impl := { s.impl with socket := false } }

def onRead (s : Conn capacity) (len callback : Nat) (readAll : Bool) : Conn capacity :=
  let s' := { s with readQueue := s.readQueue ++ [⟨len, [], callback, readAll⟩] }
  if s'.readQueue.length = 1 then onHandleRead s' else s'

inductive Event where
  | recv (data : List UInt8)
  | eof
  | error
  | read (len callback : Nat) (readAll : Bool)
  deriving DecidableEq, Repr

def step (s : Conn capacity) : Event → Conn capacity
  | .recv data => recv s data
  | .eof => recvEof s
  | .error => errorFunc s
  | .read len callback readAll => onRead s len callback readAll

def run (s : Conn capacity) (es : List Event) : Conn capacity := es.foldl step s

/-- The error `read` reports next. -/
def HandleImpl.readErr (h : HandleImpl capacity) : Int :=
  if h.eof then connClosed else if h.socket then 0 else h.transport.abrt

theorem readErr_eq_zero_iff (h : HandleImpl capacity) :
    h.readErr = 0 ↔ h.eof = false ∧ h.socket = true := by
  unfold HandleImpl.readErr Transport.abrt connClosed
  cases h.eof <;> cases h.socket <;> cases h.transport <;> decide

/-- A read takes a prefix of the buffer, as long as the request allows. -/
theorem HandleImpl.read_eq (h : HandleImpl capacity) (left : Nat) :
    ∃ h' : HandleImpl capacity, h.read left = (h', h.rcvBuff.content.take left, h.readErr) ∧
      h'.rcvBuff.content = h.rcvBuff.content.drop left ∧ h'.eof = h.eof ∧ h'.socket = h.socket := by
  refine ⟨(h.read left).1, ?_⟩
  unfold HandleImpl.read
  by_cases hnil : h.rcvBuff.content = []
  · simp [hnil, readErr]
  · simp only [hnil, if_false, CircularBuffer.copy_eq, CircularBuffer.content_eraseBegin,
      List.length_take, readErr, true_and, and_true]
    rcases Nat.le_total left h.rcvBuff.content.length with hle | hle
    · rw [Nat.min_eq_left hle]
    · rw [Nat.min_eq_right hle, List.drop_length, List.drop_eq_nil_of_le hle]

/-- The front request with what a read gives it. -/
def ReadReq.take (req : ReadReq) (buff : List UInt8) : ReadReq :=
  { req with
    left := req.left - (buff.take req.left).length, data := req.data ++ buff.take req.left }

/-- A turn gives the front request what the buffer has for it, and completes it or keeps
it in front. -/
theorem readTurn_cases {s s' : Conn capacity} (h : readTurn s = some s') :
    ∃ req rest impl, s.readQueue = req :: rest ∧
      impl.rcvBuff.content = s.impl.rcvBuff.content.drop req.left ∧
      impl.eof = s.impl.eof ∧ impl.socket = s.impl.socket ∧
      ¬ (s.impl.rcvBuff.content.take req.left = [] ∧ s.impl.readErr = 0) ∧
      (s' = { s with
          impl := impl
          readQueue := rest
          log := s.log ++ complete (req.take s.impl.rcvBuff.content) s.impl.readErr } ∨
        (s.impl.readErr = 0 ∧
          s' = { s with impl := impl, readQueue := req.take s.impl.rcvBuff.content :: rest })) := by
  unfold readTurn at h
  cases hq : s.readQueue with
  | nil => rw [hq] at h; cases h
  | cons req rest =>
    obtain ⟨impl, hread, hcontent, heof, hsocket⟩ := s.impl.read_eq req.left
    simp only [hq, hread] at h
    refine ⟨req, rest, impl, rfl, hcontent, heof, hsocket, ?_⟩
    split at h
    · cases h
    · rename_i hgo
      refine ⟨hgo, ?_⟩
      split at h
      · exact Or.inl (Option.some.inj h).symm
      · rename_i hkeep
        refine Or.inr ⟨?_, (Option.some.inj h).symm⟩
        by_contra herr
        exact hkeep (Or.inr (Or.inr herr))

/-- With an error to report a turn always completes the front request, and the error stays. -/
theorem readTurn_error {s : Conn capacity} {req : ReadReq} {rest : List ReadReq}
    (hq : s.readQueue = req :: rest) (herr : s.impl.readErr ≠ 0) :
    ∃ impl, impl.rcvBuff.content = s.impl.rcvBuff.content.drop req.left ∧ impl.readErr ≠ 0 ∧
      readTurn s = some { s with
        impl := impl
        readQueue := rest
        log := s.log ++ complete (req.take s.impl.rcvBuff.content) s.impl.readErr } := by
  obtain ⟨impl, hread, hcontent, heof, hsocket⟩ := s.impl.read_eq req.left
  refine ⟨impl, hcontent, ?_, ?_⟩
  · rw [Ne, readErr_eq_zero_iff] at herr ⊢
    rwa [heof, hsocket]
  · simp only [readTurn, hq, hread]
    rw [if_neg (fun h => herr h.2), if_pos (Or.inr (Or.inr herr))]
    rfl

theorem readTurn_work {s s' : Conn capacity} (h : readTurn s = some s') : work s' < work s := by
  obtain ⟨req, rest, impl, hq, hcontent, _, _, hgo, hs'⟩ := readTurn_cases h
  have hsize : impl.rcvBuff.size ≤ s.impl.rcvBuff.size := by
    unfold CircularBuffer.size
    rw [hcontent, List.length_drop]
    omega
  rcases hs' with rfl | ⟨herr, rfl⟩
  · simp only [work, hq, List.length_cons]
    omega
  · -- no error, so the request has been given at least one byte
    have htake : s.impl.rcvBuff.content.take req.left ≠ [] := fun hnil => hgo ⟨hnil, herr⟩
    have hpos := List.length_pos_iff.mpr htake
    rw [List.length_take] at hpos
    simp only [work, hq, List.length_cons, CircularBuffer.size, hcontent, List.length_drop]
    omega

/-- `onHandleRead` returns only when the queue is empty or the front request has to wait. -/
theorem onHandleRead_done (s : Conn capacity) : readTurn (onHandleRead s) = none :=
  loop_ends work (fun _ _ => readTurn_work) (Nat.lt_succ_self _)

/-- The bytes reported by callbacks without an error. -/
def reported (log : List Callback) : List UInt8 := (log.map Callback.data).flatten

/-- The bytes reported without an error before the first `DTUN_ERR_CONN_CLOSED`, if there
is one. -/
def closedBytes : List Callback → Option (List UInt8)
  | [] => none
  | c :: rest =>
    if c.err = connClosed then some []
    else (closedBytes rest).map ((if c.err = 0 then c.data else []) ++ ·)

theorem closedBytes_append {l : List Callback} (h : ∀ c ∈ l, c.err = 0) (m : List Callback) :
    closedBytes (l ++ m) = (closedBytes m).map (reported l ++ ·) := by
  induction l with
  | nil => simp [reported]
  | cons c l ih =>
    have hc : c.err = 0 := h c List.mem_cons_self
    rw [List.cons_append, closedBytes, ih fun c hc => h c (List.mem_cons_of_mem _ hc)]
    simp [hc, connClosed, reported, Function.comp_def]

theorem closedBytes_complete (req : ReadReq) (more : List Callback) :
    closedBytes (complete req connClosed ++ more) = some req.data := by
  unfold complete
  by_cases hnil : req.data = []
  · simp [hnil, closedBytes]
  · simp [hnil, closedBytes, connClosed]

/-- No step takes a callback back. -/
theorem readTurn_log {s s' : Conn capacity} {l : List Callback} (hl : l <+: s.log)
    (h : readTurn s = some s') : l <+: s'.log := by
  obtain ⟨req, rest, impl, _, _, _, _, _, rfl | ⟨_, rfl⟩⟩ := readTurn_cases h
  · exact hl.trans (List.prefix_append _ _)
  · exact hl

theorem loop_log {s : Conn capacity} {l : List Callback} (hl : l <+: s.log) (n : Nat) :
    l <+: (loop readTurn n s).log :=
  loop_invariant (I := fun t : Conn capacity => l <+: t.log) (fun _ _ => readTurn_log) hl n

theorem step_log (s : Conn capacity) (e : Event) : s.log <+: (step s e).log := by
  cases e with
  | recv data =>
    simp only [step, recv]
    split
    · exact loop_log (by exact List.prefix_rfl) _
    · exact List.prefix_refl _
  | eof => exact loop_log (by exact List.prefix_rfl) _
  | error => exact loop_log (by exact List.prefix_rfl) _
  | read len callback readAll =>
    simp only [step, onRead]
    split
    · exact loop_log (by exact List.prefix_rfl) _
    · exact List.prefix_refl _

theorem run_log (s : Conn capacity) (es : List Event) : s.log <+: (run s es).log := by
  induction es generalizing s with
  | nil => exact List.prefix_refl _
  | cons e es ih => exact (step_log s e).trans (ih (step s e))

/-- The bytes the front request has been given already. -/
def pending (s : Conn capacity) : List UInt8 := (s.readQueue.head?.map ReadReq.data).getD []

/-- While the stream is open every callback is without error, only the front request holds
bytes, and reported, held and buffered bytes are the delivered ones in order. -/
structure Open (s : Conn capacity) : Prop where
  eof : s.impl.eof = false
  socket : s.impl.socket = true
  log : ∀ c ∈ s.log, c.err = 0
  waiting : ∀ req ∈ s.readQueue.tail, req.data = []
  account : reported s.log ++ pending s ++ s.impl.rcvBuff.content = s.delivered

theorem init_open (transport : Transport) : Open (init capacity transport) :=
  ⟨rfl, rfl, by simp [init], by simp [init], rfl⟩

theorem Open.readErr {s : Conn capacity} (h : Open s) : s.impl.readErr = 0 := by
  simp [HandleImpl.readErr, h.eof, h.socket]

theorem readTurn_open {s s' : Conn capacity} (h : Open s) (hs : readTurn s = some s') :
    Open s' := by
  obtain ⟨req, rest, impl, hq, hcontent, heof, hsocket, _, hs'⟩ := readTurn_cases hs
  have hrest : ∀ q ∈ rest, q.data = [] := by simpa [hq] using h.waiting
  have hacc := h.account
  simp only [pending, hq, List.head?_cons, Option.map_some, Option.getD_some] at hacc
  rcases hs' with rfl | ⟨_, rfl⟩
  · -- completed without an error: one callback with everything the request got
    have hcomplete : complete (req.take s.impl.rcvBuff.content) s.impl.readErr =
        [⟨req.callback, 0, req.data ++ s.impl.rcvBuff.content.take req.left⟩] := by
      simp [complete, h.readErr, ReadReq.take]
    have hpending : (rest.head?.map ReadReq.data).getD [] = [] := by
      cases rest with
      | nil => rfl
      | cons q rest => simpa using hrest q List.mem_cons_self
    refine ⟨heof.trans h.eof, hsocket.trans h.socket, ?_, ?_, ?_⟩
    · rw [hcomplete]
      intro c hc
      rcases List.mem_append.mp hc with hc | hc
      · exact h.log c hc
      · rw [List.mem_singleton.mp hc]
    · exact fun q hq => hrest q (List.mem_of_mem_tail hq)
    · rw [hcomplete]
      simp only [pending, hpending, hcontent, ← hacc, reported, List.map_append, List.map_cons,
        List.map_nil, List.flatten_append, List.flatten_cons, List.flatten_nil, List.append_nil,
        List.append_assoc, List.take_append_drop]
  · refine ⟨heof.trans h.eof, hsocket.trans h.socket, h.log, hrest, ?_⟩
    simp only [pending, List.head?_cons, Option.map_some, Option.getD_some, ReadReq.take, hcontent,
      ← hacc, List.append_assoc, List.take_append_drop]

theorem onHandleRead_open {s : Conn capacity} (h : Open s) : Open (onHandleRead s) :=
  loop_invariant (fun _ _ => readTurn_open) h _

/-- The events of a stream that has not ended. -/
def Event.isOpen : Event → Prop
  | .recv _ | .read _ _ _ => True
  | _ => False

theorem step_open {s : Conn capacity} (h : Open s) {e : Event} (he : e.isOpen) :
    Open (step s e) := by
  cases e with
  | recv data =>
    simp only [step, recv]
    split
    · refine onHandleRead_open ⟨h.eof, h.socket, h.log, h.waiting, ?_⟩
      simp only [pending, CircularBuffer.content_insertEnd, ← h.account, List.append_assoc]
    · exact h
  | read len callback readAll =>
    have hopen : Open { s with readQueue := s.readQueue ++ [⟨len, [], callback, readAll⟩] } := by
      cases hq : s.readQueue with
      | nil =>
        have hacc := h.account
        simp only [pending, hq, List.head?_nil, Option.map_none, Option.getD_none] at hacc
        exact ⟨h.eof, h.socket, h.log, by simp, by simpa [pending] using hacc⟩
      | cons req rest =>
        have hacc := h.account
        have hwait := h.waiting
        simp only [pending, hq, List.head?_cons, Option.map_some, Option.getD_some] at hacc
        refine ⟨h.eof, h.socket, h.log, ?_, by simpa [pending] using hacc⟩
        intro q hmem
        rw [List.cons_append, List.tail_cons] at hmem
        rcases List.mem_append.mp hmem with hmem | hmem
        · exact hwait q (by rw [hq]; exact hmem)
        · rw [List.mem_singleton.mp hmem]
    simp only [step, onRead]
    split
    · exact onHandleRead_open hopen
    · exact hopen
  | eof => cases he
  | error => cases he

theorem run_open {s : Conn capacity} (h : Open s) {es : List Event} (hes : ∀ e ∈ es, e.isOpen) :
    Open (run s es) := by
  induction es generalizing s with
  | nil => exact h
  | cons e es ih =>
    exact ih (step_open h (hes e List.mem_cons_self)) fun e he => hes e (List.mem_cons_of_mem _ he)

/-- The first request served after the end of the stream completes with the closed error,
after what the buffer still has for it. -/
theorem onHandleRead_eof {s : Conn capacity} (heof : s.impl.eof = true)
    (hlog : ∀ c ∈ s.log, c.err = 0) {req : ReadReq} {rest : List ReadReq}
    (hq : s.readQueue = req :: rest) {final : List Callback}
    (hfinal : (onHandleRead s).log <+: final) :
    closedBytes final =
      some (reported s.log ++ req.data ++ s.impl.rcvBuff.content.take req.left) := by
  have herr : s.impl.readErr = connClosed := by simp [HandleImpl.readErr, heof]
  obtain ⟨impl, _, _, hturn⟩ := readTurn_error hq (by rw [herr]; decide)
  rw [herr] at hturn
  have hgrow : s.log ++ complete (req.take s.impl.rcvBuff.content) connClosed <+:
      (onHandleRead s).log := by
    rw [onHandleRead, loop_of_some hturn]
    exact loop_log (by exact List.prefix_rfl) _
  obtain ⟨more, rfl⟩ := hgrow.trans hfinal
  rw [List.append_assoc, closedBytes_append hlog, closedBytes_complete]
  simp [ReadReq.take]

/-- The remaining length of the first request that is served after the end of the stream:
the one that is waiting when it ends, or else the first one made later. -/
def firstServed (s : Conn capacity) (post : List Event) : Option Nat :=
  match s.readQueue, post with
  | req :: _, _ => some req.left
  | [], .read len _ _ :: _ => some len
  | [], _ => none

def Event.isRead : Event → Prop
  | .read _ _ _ => True
  | _ => False

/-- The bytes reported before the closed error are all that was delivered but for what the
first request served after the end of the stream has no room for. -/
theorem closedBytes_run {s : Conn capacity} (h : Open s) {post : List Event}
    (hpost : ∀ e ∈ post, e.isRead) :
    match firstServed s post with
    | none => closedBytes (run (step s .eof) post).log = none
    | some n => ∃ got, got ++ s.impl.rcvBuff.content = s.delivered ∧
        closedBytes (run (step s .eof) post).log = some (got ++ s.impl.rcvBuff.content.take n) := by
  have hacc := h.account
  cases hq : s.readQueue with
  | cons req rest =>
    simp only [firstServed, hq]
    simp only [pending, hq, List.head?_cons, Option.map_some, Option.getD_some] at hacc
    refine ⟨_, hacc, ?_⟩
    exact onHandleRead_eof (s := { s with impl := { s.impl with eof := true } }) rfl h.log hq
      (run_log _ _)
  | nil =>
    simp only [pending, hq, List.head?_nil, Option.map_none, Option.getD_none,
      List.append_nil] at hacc
    -- nobody is waiting, so the end of the stream itself calls nobody back
    have hnone : readTurn { s with impl := { s.impl with eof := true } } = none := by
      simp [readTurn, hq]
    have heof : step s .eof = { s with impl := { s.impl with eof := true } } :=
      loop_of_none hnone _
    rw [heof]
    cases post with
    | nil =>
      have hlog := closedBytes_append h.log []
      simpa [firstServed, hq, run, closedBytes] using hlog
    | cons e post =>
      cases e with
      | read len callback readAll =>
        simp only [firstServed, hq]
        refine ⟨_, hacc, ?_⟩
        have hserve := onHandleRead_eof (s := { s with
          impl := { s.impl with eof := true }, readQueue := [⟨len, [], callback, readAll⟩] })
          rfl h.log rfl (run_log _ post)
        simpa [run, step, onRead, hq] using hserve
      | recv => exact absurd (hpost _ List.mem_cons_self) id
      | eof => exact absurd (hpost _ List.mem_cons_self) id
      | error => exact absurd (hpost _ List.mem_cons_self) id

/-- For every stream of deliveries and reads, its end, and reads after it: the bytes
reported before the first closed error are exactly the delivered ones if and only if the
first request served after the end has room for everything still buffered then. -/
theorem eof_reports_all_iff (transport : Transport) (pre post : List Event)
    (hpre : ∀ e ∈ pre, e.isOpen) (hpost : ∀ e ∈ post, e.isRead) :
    (∀ bytes, closedBytes (run (step (run (init capacity transport) pre) .eof) post).log =
        some bytes → bytes = (run (init capacity transport) pre).delivered) ↔
    ∀ n, firstServed (run (init capacity transport) pre) post = some n →
      (run (init capacity transport) pre).impl.rcvBuff.size ≤ n := by
  have hopen : Open (run (init capacity transport) pre) := run_open (init_open transport) hpre
  generalize run (init capacity transport) pre = s at hopen
  have hrun := closedBytes_run hopen hpost
  cases hserved : firstServed s post with
  | none =>
    rw [hserved] at hrun
    simp [hrun]
  | some n =>
    rw [hserved] at hrun
    obtain ⟨got, hall, hbytes⟩ := hrun
    rw [hbytes, ← hall]
    simp only [Option.some.injEq, forall_eq', List.append_cancel_left_eq]
    exact List.take_eq_self_iff _

/-- Three bytes and the end of the stream, then a read of four: nothing is lost. -/
theorem eof_reports_all_iff_room :
    let t := run (step (run (init 8 .ltudp) [.recv [1, 2, 3]]) .eof) [.read 4 0 false]
    closedBytes t.log = some [1, 2, 3] ∧
      ∀ bytes, closedBytes t.log = some bytes → bytes = [1, 2, 3] := by
  refine ⟨by decide, ?_⟩
  refine (eof_reports_all_iff .ltudp [.recv [1, 2, 3]] [.read 4 0 false] ?_ ?_).mpr ?_
  · simp [Event.isOpen]
  · simp [Event.isRead]
  · decide

/-- Three bytes and the end of the stream, then a read of two: the reader is told that the
stream is closed and the third byte stays in the buffer. -/
theorem short_read_loses_bytes :
    let s := run (init 8 .ltudp) [.recv [1, 2, 3]]
    let t := run (step s .eof) [.read 2 0 false]
    closedBytes t.log = some [1, 2] ∧ s.delivered = [1, 2, 3] ∧
      t.impl.rcvBuff.content = [3] ∧ t.readQueue = [] := by
  decide

end DTun.Util.StreamRead
