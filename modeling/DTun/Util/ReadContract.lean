import Mathlib.Data.List.Nodup
import Mathlib.Data.List.Pairwise
import DTun.Util.StreamRead

/-!
# When a read request is called back

Who reads from a stream connection takes a callback without error for a finished request:
the sessions of the master assert then that a message body has come whole. This module
says when the connection keeps to that. A request that holds bytes, or is given some, when
the stream has ended is called back twice, the first time without error and with however
many bytes there are; every other request is called back once and, if it was made with
`readAll`, with all it asked for or with an error.
-/

namespace DTun.Util.StreamRead

open DTun.Lib DTun.Lib.Runs

variable {capacity : Nat}

/-- The callback of the request that an event makes. -/
def Event.request? : Event → Option Nat
  | .read _ callback _ => some callback
  | .recv _ | .eof | .error => none

/-- The callbacks of the requests made, in order. -/
def requests (es : List Event) : List Nat := es.filterMap Event.request?

/-- Every request is called back at most once, and a `readAll` request without error only
with as many bytes as it asked for. -/
structure Contract (es : List Event) (log : List Callback) : Prop where
  once : ∀ k, (log.map Callback.callback).count k ≤ 1
  whole : ∀ c ∈ log, ∀ len, Event.read len c.callback true ∈ es → c.err = 0 → c.data.length = len

/-- The request holds no byte and would be given none. -/
def Dry (buff : List UInt8) (req : ReadReq) : Prop := req.data = [] ∧ buff.take req.left = []

/-- The stream ends between requests: no waiting request has a byte when it ends, and a
later request finds none. -/
def Settled (s : Conn capacity) : Event → Prop
  | .recv _ => True
  | .eof | .error => ∀ req ∈ s.readQueue, Dry s.impl.rcvBuff.content req
  | .read len _ _ => s.impl.readErr ≠ 0 → s.impl.rcvBuff.content.take len = []

/-- Without an error the front request is completed only if it may be short or is full. -/
theorem readTurn_full {s s' : Conn capacity} (h : readTurn s = some s')
    (herr : s.impl.readErr = 0) {req : ReadReq} {rest : List ReadReq}
    (hq : s.readQueue = req :: rest) (hdone : s'.readQueue = rest) (hall : req.readAll = true) :
    (req.take s.impl.rcvBuff.content).left = 0 := by
  obtain ⟨impl, hread, _⟩ := s.impl.read_eq req.left
  simp only [readTurn, hq, hread, herr] at h
  split at h
  · cases h
  · split at h
    · rename_i hfull
      rcases hfull with hfull | hfull | hfull
      · rw [hall] at hfull
        cases hfull
      · exact hfull
      · exact absurd rfl hfull
    · obtain rfl := Option.some.inj h
      exact absurd (congrArg List.length hdone) (by simp)

theorem length_take_req (req : ReadReq) (buff : List UInt8) :
    (req.take buff).left + (req.take buff).data.length = req.left + req.data.length := by
  simp only [ReadReq.take, List.length_append, List.length_take]
  omega

/-- While requests are served: callbacks and waiting requests are the requests made, in
order; a callback without error has all that a `readAll` request asked for; and after the
end of the stream no waiting request has a byte. -/
structure Kept (es : List Event) (s : Conn capacity) : Prop where
  order : s.log.map Callback.callback ++ s.readQueue.map ReadReq.callback = requests es
  asked : ∀ req ∈ s.readQueue,
    Event.read (req.left + req.data.length) req.callback req.readAll ∈ es
  whole : ∀ c ∈ s.log, c.err = 0 → ∃ len readAll, Event.read len c.callback readAll ∈ es ∧
    (readAll = true → c.data.length = len)
  dry : s.impl.readErr ≠ 0 → ∀ req ∈ s.readQueue, Dry s.impl.rcvBuff.content req

theorem Dry.drop {buff : List UInt8} {req : ReadReq} (h : Dry buff req) :
    buff.drop req.left = buff := by
  rcases List.take_eq_nil_iff.mp h.2 with hzero | hnil
  · rw [hzero, List.drop_zero]
  · rw [hnil, List.drop_nil]

/-- A dry request that meets the end of the stream is called back once. -/
theorem complete_dry {buff : List UInt8} {req : ReadReq} (h : Dry buff req) (err : Int) :
    complete (req.take buff) err = [⟨req.callback, err, []⟩] := by
  simp [complete, ReadReq.take, h.1, h.2]

theorem readTurn_kept {es : List Event} {s s' : Conn capacity} (h : Kept es s)
    (hs : readTurn s = some s') : Kept es s' := by
  obtain ⟨req, rest, impl, hq, hcontent, heof, hsocket, _, hs'⟩ := readTurn_cases hs
  have herr : impl.readErr = 0 ↔ s.impl.readErr = 0 := by
    rw [readErr_eq_zero_iff, readErr_eq_zero_iff, heof, hsocket]
  have horder := h.order
  have hasked := h.asked
  have hdry := h.dry
  rw [hq] at horder hasked hdry
  have hreq := hasked req List.mem_cons_self
  have hrest : impl.readErr ≠ 0 → ∀ q ∈ rest, Dry impl.rcvBuff.content q := by
    intro hne q hmem
    have hall := hdry fun hzero => hne (herr.mpr hzero)
    rw [hcontent, (hall req List.mem_cons_self).drop]
    exact hall q (List.mem_cons_of_mem _ hmem)
  have hfull := fun hzero => readTurn_full hs hzero hq
  rcases hs' with rfl | ⟨hzero, rfl⟩
  · -- one callback, which has everything if it is without error
    obtain ⟨cb, hcomplete, hid, hwhole⟩ : ∃ cb : Callback,
        complete (req.take s.impl.rcvBuff.content) s.impl.readErr = [cb] ∧
        cb.callback = req.callback ∧ (cb.err = 0 → req.readAll = true →
          cb.data.length = req.left + req.data.length) := by
      by_cases hzero : s.impl.readErr = 0
      · refine ⟨⟨req.callback, 0, (req.take s.impl.rcvBuff.content).data⟩, ?_, rfl,
          fun _ hall => ?_⟩
        · simp [complete, hzero, ReadReq.take]
        · have hlen := length_take_req req s.impl.rcvBuff.content
          rw [hfull hzero rfl hall, Nat.zero_add] at hlen
          exact hlen
      · exact ⟨_, complete_dry (hdry hzero req List.mem_cons_self) _, rfl,
          fun hcerr => absurd hcerr hzero⟩
    refine ⟨?_, fun q hmem => hasked q (List.mem_cons_of_mem _ hmem), ?_, hrest⟩
    · simpa [hcomplete, hid] using horder
    · intro c hc hcerr
      rw [hcomplete] at hc
      rcases List.mem_append.mp hc with hc | hc
      · exact h.whole c hc hcerr
      · rw [List.mem_singleton.mp hc] at hcerr ⊢
        rw [hid]
        exact ⟨_, req.readAll, hreq, hwhole hcerr⟩
  · refine ⟨?_, ?_, h.whole, fun hne => absurd (herr.mpr hzero) hne⟩
    · simpa [ReadReq.take] using horder
    · intro q hmem
      rcases List.mem_cons.mp hmem with rfl | hmem
      · rw [length_take_req]
        exact hreq
      · exact hasked q (List.mem_cons_of_mem _ hmem)

/-- After the end of the stream nobody is waiting. -/
def Ended (s : Conn capacity) : Prop := s.impl.readErr ≠ 0 → s.readQueue = []

theorem onHandleRead_ended (s : Conn capacity) : Ended (onHandleRead s) := by
  intro herr
  have hdone := onHandleRead_done s
  cases hq : (onHandleRead s).readQueue with
  | nil => rfl
  | cons req rest =>
    obtain ⟨impl, _, _, hturn⟩ := readTurn_error hq herr
    rw [hturn] at hdone
    cases hdone

theorem onHandleRead_kept {es : List Event} {s : Conn capacity} (h : Kept es s) :
    Kept es (onHandleRead s) :=
  loop_invariant (fun _ _ => readTurn_kept) h _

/-- A request that is not alone in the queue was made before the end of the stream. -/
theorem step_ended {s : Conn capacity} (h : Ended s) (e : Event) : Ended (step s e) := by
  cases e with
  | recv data =>
    simp only [step, recv]
    split
    · exact onHandleRead_ended _
    · exact h
  | eof => exact onHandleRead_ended _
  | error => exact onHandleRead_ended _
  | read len callback readAll =>
    simp only [step, onRead]
    split
    · exact onHandleRead_ended _
    · rename_i hlen
      intro herr
      exact absurd (by rw [h herr]; rfl) hlen

theorem run_snoc (s : Conn capacity) (es : List Event) (e : Event) :
    run s (es ++ [e]) = step (run s es) e := by
  rw [run, run, List.foldl_append]
  rfl

theorem run_ended (transport : Transport) (es : List Event) :
    Ended (run (init capacity transport) es) := by
  induction es using List.reverseRecOn with
  | nil => exact fun _ => rfl
  | append_singleton es e ih =>
    rw [run_snoc]
    exact step_ended ih e

/-- An event that asks for nothing changes nothing of what has been asked. -/
theorem Kept.snoc {es : List Event} {s : Conn capacity} (h : Kept es s) {e : Event}
    (he : e.request? = none) : Kept (es ++ [e]) s := by
  refine ⟨?_, fun req hmem => List.mem_append_left _ (h.asked req hmem), ?_, h.dry⟩
  · rw [h.order, requests, requests, List.filterMap_append]
    simp [he]
  · intro c hc hcerr
    obtain ⟨len, readAll, hmem, hlen⟩ := h.whole c hc hcerr
    exact ⟨len, readAll, List.mem_append_left _ hmem, hlen⟩

theorem step_kept {es : List Event} {s : Conn capacity} (h : Kept es s) (hended : Ended s)
    {e : Event} (he : Settled s e) : Kept (es ++ [e]) (step s e) := by
  cases e with
  | recv data =>
    have hkept := h.snoc (e := .recv data) rfl
    simp only [step, recv]
    split
    · refine onHandleRead_kept ⟨hkept.order, hkept.asked, hkept.whole, fun herr req hmem => ?_⟩
      rw [hended herr] at hmem
      cases hmem
    · exact hkept
  | eof =>
    have hkept := h.snoc (e := .eof) rfl
    exact onHandleRead_kept ⟨hkept.order, hkept.asked, hkept.whole, fun _ => he⟩
  | error =>
    have hkept := h.snoc (e := .error) rfl
    exact onHandleRead_kept ⟨hkept.order, hkept.asked, hkept.whole, fun _ => he⟩
  | read len callback readAll =>
    have hkept : Kept (es ++ [.read len callback readAll])
        { s with readQueue := s.readQueue ++ [⟨len, [], callback, readAll⟩] } := by
      refine ⟨?_, ?_, ?_, ?_⟩
      · simp [requests, Event.request?, ← List.append_assoc, h.order]
      · intro req hmem
        rcases List.mem_append.mp hmem with hmem | hmem
        · exact List.mem_append_left _ (h.asked req hmem)
        · rw [List.mem_singleton.mp hmem]
          exact List.mem_append_right _ List.mem_cons_self
      · intro c hc hcerr
        obtain ⟨n, all, hmem, hlen⟩ := h.whole c hc hcerr
        exact ⟨n, all, List.mem_append_left _ hmem, hlen⟩
      · intro herr req hmem
        rw [hended herr, List.nil_append] at hmem
        rw [List.mem_singleton.mp hmem]
        exact ⟨rfl, he herr⟩
    simp only [step, onRead]
    split
    · exact onHandleRead_kept hkept
    · exact hkept

theorem run_kept (transport : Transport) {es : List Event}
    (hset : ∀ pre e post, es = pre ++ e :: post →
      Settled (run (init capacity transport) pre) e) :
    Kept es (run (init capacity transport) es) := by
  induction es using List.reverseRecOn with
  | nil => exact ⟨rfl, by simp [run, init], by simp [run, init], by simp [run, init]⟩
  | append_singleton es e ih =>
    rw [run_snoc]
    refine step_kept (ih fun pre e' post hsplit => ?_) (run_ended transport es) (hset es e [] rfl)
    exact hset pre e' (post ++ [e]) (by rw [hsplit, List.append_assoc, List.cons_append])

/-- Events that make a request with the same callback are the same. -/
theorem request_unique {es : List Event} (hids : (requests es).Nodup) {e e' : Event} (he : e ∈ es)
    (he' : e' ∈ es) {k : Nat} (hk : e.request? = some k) (hk' : e'.request? = some k) : e = e' := by
  by_contra hne
  have hpair := List.pairwise_filterMap.mp hids
  have : Std.Symm fun e e' : Event =>
      ∀ b, e.request? = some b → ∀ b', e'.request? = some b' → b ≠ b' :=
    ⟨fun _ _ h b hb b' hb' heq => h b' hb' b hb heq.symm⟩
  exact hpair.forall he he' hne k hk k hk' rfl

theorem Kept.contract {es : List Event} {s : Conn capacity} (h : Kept es s)
    (hids : (requests es).Nodup) : Contract es s.log := by
  refine ⟨fun k => ?_, fun c hc len hread hcerr => ?_⟩
  · have hnodup : (s.log.map Callback.callback).Nodup := by
      rw [← h.order] at hids
      exact hids.of_append_left
    exact List.nodup_iff_count_le_one.mp hnodup k
  · obtain ⟨len', readAll, hmem, hlen⟩ := h.whole c hc hcerr
    have hsame := request_unique hids hread hmem rfl rfl
    obtain ⟨rfl, rfl⟩ : len = len' ∧ true = readAll := by simpa using hsame
    exact hlen rfl

/-- A request that has a byte when it is completed with an error is called back twice. -/
theorem two_le_count_complete {buff : List UInt8} {req : ReadReq} (h : ¬ Dry buff req) {err : Int}
    (herr : err ≠ 0) :
    2 ≤ ((complete (req.take buff) err).map Callback.callback).count req.callback := by
  have hdata : (req.take buff).data ≠ [] := by
    intro hnil
    exact h (List.append_eq_nil_iff.mp hnil)
  rw [complete, if_pos ⟨herr, hdata⟩]
  simp [ReadReq.take]

theorem count_le_of_grown {l m : List Callback} (h : l <+: m) (k : Nat) :
    (l.map Callback.callback).count k ≤ (m.map Callback.callback).count k :=
  ((h.map Callback.callback).sublist).count_le k

/-- The loop serves the whole queue with the error, so the first request that is not dry is
called back twice. -/
theorem loop_twice {s : Conn capacity} (herr : s.impl.readErr ≠ 0)
    (h : ¬ ∀ req ∈ s.readQueue, Dry s.impl.rcvBuff.content req) {n : Nat}
    (hn : s.readQueue.length ≤ n) :
    ∃ k, 2 ≤ ((loop readTurn n s).log.map Callback.callback).count k := by
  induction n generalizing s with
  | zero =>
    rw [List.length_eq_zero_iff.mp (Nat.le_zero.mp hn)] at h
    exact absurd (by simp) h
  | succ n ih =>
    cases hq : s.readQueue with
    | nil =>
      rw [hq] at h
      exact absurd (by simp) h
    | cons req rest =>
      rw [hq] at h hn
      obtain ⟨impl, hcontent, herr', hturn⟩ := readTurn_error hq herr
      rw [loop_of_some hturn]
      by_cases hdry : Dry s.impl.rcvBuff.content req
      · refine ih herr' (fun hrest => h fun q hmem => ?_) (Nat.le_of_succ_le_succ hn)
        rcases List.mem_cons.mp hmem with rfl | hmem
        · exact hdry
        · have hq' := hrest q hmem
          rwa [hcontent, hdry.drop] at hq'
      · refine ⟨req.callback, Nat.le_trans (two_le_count_complete hdry herr) ?_⟩
        refine Nat.le_trans ?_ (count_le_of_grown (loop_log (List.prefix_refl _) n) _)
        simp only [List.map_append, List.count_append]
        omega

theorem onHandleRead_twice {s : Conn capacity} (herr : s.impl.readErr ≠ 0)
    (h : ¬ ∀ req ∈ s.readQueue, Dry s.impl.rcvBuff.content req) :
    ∃ k, 2 ≤ ((onHandleRead s).log.map Callback.callback).count k :=
  loop_twice herr h (by unfold work; omega)

/-- An end of the stream that cuts a request has it called back twice. -/
theorem step_twice {s : Conn capacity} (hended : Ended s) {e : Event} (he : ¬ Settled s e) :
    ∃ k, 2 ≤ ((step s e).log.map Callback.callback).count k := by
  cases e with
  | recv data => exact absurd trivial he
  | eof =>
    refine onHandleRead_twice (fun hzero => ?_) he
    cases ((readErr_eq_zero_iff _).mp hzero).1
  | error =>
    refine onHandleRead_twice (fun hzero => ?_) he
    cases ((readErr_eq_zero_iff _).mp hzero).2
  | read len callback readAll =>
    obtain ⟨herr, hbyte⟩ := Classical.not_imp.mp he
    simp only [step, onRead, hended herr, List.nil_append, List.length_singleton, if_true]
    refine onHandleRead_twice herr fun hdry => hbyte ?_
    exact (hdry _ List.mem_cons_self).2

/-- For every run of deliveries, requests, ends of stream and errors, with requests told
apart by their callbacks: the connection keeps to the contract if and only if the stream
never ends within a request. -/
theorem read_contract_iff (transport : Transport) {es : List Event} (hids : (requests es).Nodup) :
    Contract es (run (init capacity transport) es).log ↔
      ∀ pre e post, es = pre ++ e :: post → Settled (run (init capacity transport) pre) e := by
  constructor
  · rintro hcontract pre e post rfl
    by_contra hcut
    obtain ⟨k, hk⟩ := step_twice (run_ended transport pre) hcut
    have hrun : run (init capacity transport) (pre ++ e :: post) =
        run (step (run (init capacity transport) pre) e) post := List.foldl_append
    have honce := hcontract.once k
    have hgrow := count_le_of_grown (run_log (step (run (init capacity transport) pre) e) post) k
    rw [hrun] at honce
    omega
  · intro hset
    exact (run_kept transport hset).contract hids

/-- A message that has come whole when the stream ends. -/
theorem read_contract_iff_whole :
    let es : List Event := [.read 2 0 true, .recv [1, 2], .eof, .read 2 1 true]
    (run (init 8 .ltudp) es).log = [⟨0, 0, [1, 2]⟩, ⟨1, connClosed, []⟩] ∧
      ∀ pre e post, es = pre ++ e :: post → Settled (run (init 8 .ltudp) pre) e := by
  have hlog : (run (init 8 .ltudp) [.read 2 0 true, .recv [1, 2], .eof, .read 2 1 true]).log =
      [⟨0, 0, [1, 2]⟩, ⟨1, connClosed, []⟩] := by decide
  refine ⟨hlog, (read_contract_iff .ltudp (by decide)).mp ⟨fun k => ?_, ?_⟩⟩
  · exact List.nodup_iff_count_le_one.mp (by decide) k
  · intro c hc len hread herr
    rw [hlog] at hc
    rcases List.mem_cons.mp hc with rfl | hc
    · have hlen : len = 2 := by simpa using hread
      exact hlen.symm
    · rw [List.mem_singleton.mp hc] at herr
      cases herr

/-- A message of four bytes of which two come before the end of the stream: its request is
called back twice, and first as if the message were there. -/
theorem cut_message_completed :
    let es : List Event := [.read 4 0 true, .recv [1, 2], .eof]
    let log := (run (init 8 .ltudp) es).log
    log = [⟨0, 0, [1, 2]⟩, ⟨0, connClosed, []⟩] ∧ (requests es).Nodup ∧
      ¬ (∀ k, (log.map Callback.callback).count k ≤ 1) ∧
      ¬ (∀ c ∈ log, ∀ len, Event.read len c.callback true ∈ es → c.err = 0 →
        c.data.length = len) := by
  refine ⟨by decide, by decide, fun honce => ?_, fun hwhole => ?_⟩
  · exact absurd (honce 0) (by decide)
  · exact absurd (hwhole ⟨0, 0, [1, 2]⟩ (by decide) 4 (by decide) rfl) (by decide)

end DTun.Util.StreamRead
