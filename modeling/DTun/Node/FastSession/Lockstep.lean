import DTun.Node.FastSession.Attempts

/-!
# The two sides of a fast rendezvous in step

There is one turn. It is taken by `READY`, then by the peer that gets ready, its
`HELLO_FAST`, the address on its way to the owner and the owner's socket, until the owner
gives that up and asks again. So the owner's `READY`s and the peer's step index go
together, in every run of the two sides and the server.
-/

namespace DTun.Node.FastSession

open Lib.Runs

namespace State

variable {n n' : State} {i : Side} {e : Event} {m : Option Down} {s : Session} {env : Env}
  {out : Out}

structure Turn (n : State) : Prop where
  owner : ∀ o, n.sess .owner = some o → Asker o
  peer : ∀ p, n.sess .peer = some p → Answerer p
  one : n.readies + n.preparing + n.helloes + n.fasts + n.opened ≤ 1
  unasked : ∀ o, n.sess .owner = some o → o.portReservation ≠ .granted →
    n.readies + n.preparing + n.helloes + n.fasts + n.opened = 0
  noReady : .ready ∉ n.up.peer ∧ .ready ∉ n.down.owner
  closed : ∀ i, .status true ∈ n.down.get i → n.conn = false
  established : ∀ i s, n.sess i = some s → (n.entry.get i).established = true → n.conn = false
  /-- What the owner has sent the peer has read, or it is in flight. -/
  count : n.conn = true → ∀ o p, n.sess .owner = some o → n.sess .peer = some p →
    o.asked = p.got + n.readies

theorem turn_init (bestEffort : Bool) : (init bestEffort).Turn := by
  refine ⟨?_, ?_, by decide +revert, by decide +revert, ?_, ?_, ?_, ?_⟩
  · rintro _ ⟨⟩
    exact ⟨rfl, rfl, by simp, fun _ => rfl, fun _ => rfl, nofun, nofun, Nat.zero_le _,
      fun hn => absurd rfl hn, fun _ => ⟨rfl, rfl, rfl⟩⟩
  · rintro _ ⟨⟩
    exact ⟨rfl, rfl, fun _ => rfl, fun _ => rfl, fun hn => absurd rfl hn, nofun, rfl,
      fun _ => ⟨rfl, rfl⟩⟩
  · exact ⟨List.not_mem_nil, List.not_mem_nil⟩
  · intro i hm
    cases i <;> cases hm
  · intro i s _ he
    cases i <;> cases he
  · rintro _ _ _ ⟨⟩ ⟨⟩
    simp [Session.asked, Session.got, readies, init]

theorem opened_eq {o : Session} (ho : n.sess .owner = some o) : n.opened = o.hasSocket := by
  rw [opened, ho, Option.any_some, Session.hasSocket]

theorem preparing_eq {p : Session} (hp : n.sess .peer = some p) :
    n.preparing = p.isPreparing := by
  rw [preparing, hp, Option.any_some, Session.isPreparing]

/-- While the turn is taken the owner has its ports. -/
theorem Turn.asked (h : n.Turn) {o : Session} (ho : n.sess .owner = some o)
    (hpos : 0 < n.readies + n.preparing + n.helloes + n.fasts + n.opened) :
    o.portReservation = .granted := by
  refine Decidable.not_not.mp fun hg => ?_
  have := h.unasked o ho hg
  omega

/-- Messages are read, relayed or lost and no turn is added. -/
theorem Turn.channels (h : n.Turn) (hsess : ∀ i, n'.sess i = n.sess i)
    (hconn : n'.conn = true → n.conn = true)
    (hturn : n'.readies + n'.helloes + n'.fasts ≤ n.readies + n.helloes + n.fasts)
    (hnoReady : .ready ∉ n'.up.peer ∧ .ready ∉ n'.down.owner)
    (hclosed : ∀ i, .status true ∈ n'.down.get i → n'.conn = false)
    (hest : ∀ i s, n.sess i = some s → (n'.entry.get i).established = true → n'.conn = false)
    (hcount : n'.conn = true → ∀ o p, n.sess .owner = some o → n.sess .peer = some p →
      n'.readies = n.readies) : n'.Turn := by
  have hpreparing : n'.preparing = n.preparing := by rw [preparing, preparing, hsess]
  have hopened : n'.opened = n.opened := by rw [opened, opened, hsess]
  have hone := h.one
  refine ⟨?_, ?_, by omega, ?_, hnoReady, hclosed, ?_, ?_⟩
  · rw [hsess]
    exact h.owner
  · rw [hsess]
    exact h.peer
  · rw [hsess]
    intro o ho hg
    have := h.unasked o ho hg
    omega
  · intro i s
    rw [hsess]
    exact hest i s
  · rw [hsess, hsess]
    intro hc o p ho hp
    rw [hcount hc o p ho hp]
    exact h.count (hconn hc) o p ho hp

theorem sublist_set {α : Type} {p : Pair (List α)} {ds : List α} (h : ds.Sublist (p.get i))
    (j : Side) : ((p.set i ds).get j).Sublist (p.get j) := by
  cases i <;> cases j <;>
    first
    | exact .refl _
    | exact h

/-- A side reads a message and does nothing. -/
theorem Turn.ignores (h : n.Turn) {msg : Down} {rest : List Down}
    (hdown : n.down.get i = msg :: rest)
    (hover : n.sess i = none ∨ (n.entry.get i).established = true) :
    Turn { n with down := n.down.set i rest } := by
  have hsub := sublist_set (p := n.down) (hdown ▸ List.sublist_cons_self msg rest)
  refine h.channels (fun _ => rfl) id ?_ ?_ ?_ ?_ ?_
  · exact Nat.add_le_add (Nat.add_le_add_right (Nat.add_le_add_left ((hsub .peer).count_le _) _) _)
      (hsub .owner).countP_le
  · exact ⟨h.noReady.1, fun hm => h.noReady.2 ((hsub .owner).subset hm)⟩
  · exact fun j hm => h.closed j ((hsub j).subset hm)
  · exact h.established
  · intro hc o p ho hp
    cases i with
    | owner => rfl
    | peer =>
      rcases hover with hnone | hest
      · cases hnone.symm.trans hp
      · cases hc.symm.trans (h.established .peer p hp hest)

theorem count_set_append {α : Type} [DecidableEq α] {p : Pair (List α)} {x y : α} (j : Side)
    (hne : x ≠ y) : ((p.set i (p.get i ++ [x])).get j).count y = (p.get j).count y := by
  cases i <;> cases j <;> simp [hne]

/-- The server tells a side something that is neither a turn nor a report of success. -/
theorem Turn.tells (h : n.Turn) (i : Side) {msg : Down} {conn : Bool}
    (hconn : conn = true → n.conn = true) (hready : msg ≠ .ready)
    (hfast : isFast msg = false) (hstatus : msg ≠ .status true ∨ conn = false) :
    Turn { n with conn := conn, down := n.down.set i (n.down.get i ++ [msg]) } := by
  have hmem : ∀ x j, x ∈ (n.down.set i (n.down.get i ++ [msg])).get j → x = msg ∨
      x ∈ n.down.get j := by
    intro x j hm
    cases i <;> cases j <;> simp_all [or_comm]
  have hreadies : readies { n with
      conn := conn, down := n.down.set i (n.down.get i ++ [msg]) } = n.readies :=
    congrArg (_ + ·) (count_set_append .peer hready)
  refine h.channels (fun _ => rfl) hconn ?_ ?_ ?_ ?_ ?_
  · rw [hreadies]
    apply Nat.add_le_add_left
    cases i <;> simp [fasts, hfast]
  · exact ⟨h.noReady.1, fun hm => (hmem _ .owner hm).elim (fun hr => hready hr.symm) h.noReady.2⟩
  · intro j hm
    rcases hmem _ j hm with heq | hold
    · exact hstatus.resolve_left fun hne => hne heq.symm
    · exact Bool.eq_false_iff.mpr fun hc => Bool.eq_false_iff.mp (h.closed j hold) (hconn hc)
  · intro j s hs he
    exact Bool.eq_false_iff.mpr fun hc =>
      Bool.eq_false_iff.mp (h.established j s hs he) (hconn hc)
  · exact fun _ _ _ _ _ => hreadies

/-- A message of a side is taken from its channel. -/
theorem Turn.taken (h : n.Turn) {msg : Up} {rest : List Up} (hup : n.up.get i = msg :: rest)
    (hmsg : msg ≠ .ready ∨ n.conn = false) : Turn { n with up := n.up.set i rest } := by
  have hsub := sublist_set (p := n.up) (hup ▸ List.sublist_cons_self msg rest)
  refine h.channels (fun _ => rfl) id ?_ ?_ h.closed h.established ?_
  · exact Nat.add_le_add_right (Nat.add_le_add_right (Nat.add_le_add_right
      ((hsub .owner).count_le _) _) _) _
  · exact ⟨fun hm => h.noReady.1 ((hsub .peer).subset hm), h.noReady.2⟩
  · intro hc o p _ _
    have hne := hmsg.resolve_right fun hf => Bool.noConfusion (hc.symm.trans hf)
    cases i with
    | owner =>
      simp only [Pair.get_owner] at hup
      simp [readies, hup, hne]
    | peer => rfl

theorem Turn.relays (h : n.Turn) {msg : Up} {rest : List Up} (hup : n.up.get i = msg :: rest)
    (hconn : n.conn = true) : (relay { n with up := n.up.set i rest } i msg).Turn := by
  unfold relay
  rw [if_pos hconn]
  cases msg with
  | next => exact (h.taken hup (Or.inl nofun)).tells i.other id nofun rfl (Or.inl nofun)
  | close established =>
    exact (h.taken hup (Or.inl nofun)).tells i.other nofun nofun rfl (Or.inr rfl)
  | ready =>
    cases i with
    | peer => exact absurd (by rw [← Pair.get_peer, hup]; exact List.mem_cons_self) h.noReady.1
    | owner =>
      simp only [Pair.get_owner] at hup
      have hreadies : readies { n with
          up := n.up.set .owner rest
          down := n.down.set .peer (n.down.get .peer ++ [.ready]) } = n.readies := by
        simp [readies, hup]
        omega
      refine h.channels (fun _ => rfl) id ?_ h.noReady ?_ h.established fun _ _ _ _ _ => hreadies
      · exact Nat.add_le_add_right (Nat.add_le_add_right (Nat.le_of_eq hreadies) _) _
      · intro j hm
        apply h.closed j
        cases j <;> simpa using hm

theorem Turn.losesHello (h : n.Turn) (k : Nat) :
    Turn { n with hellos := n.hellos.eraseIdx k } := by
  have hsub : (n.hellos.eraseIdx k).Sublist n.hellos := List.eraseIdx_sublist _ _
  exact h.channels (fun _ => rfl) id
    (Nat.add_le_add_right (Nat.add_le_add_left hsub.countP_le _) _) h.noReady h.closed
    h.established fun _ _ _ _ _ => rfl

theorem Turn.servesHello (h : n.Turn) {k : Nat} {addr : Addr}
    (hk : n.hellos[k]? = some (i, addr)) :
    Turn { n with
      hellos := n.hellos.eraseIdx k
      down := if n.conn then n.down.set i.other (n.down.get i.other ++ [.fast addr])
        else n.down } := by
  by_cases hconn : n.conn = true
  · rw [if_pos hconn]
    obtain ⟨hlt, hget⟩ := List.getElem?_eq_some_iff.mp hk
    have hcount : n.helloes = (n.hellos.eraseIdx k).countP (fun h => h.1 = .peer) +
        if i = .peer then 1 else 0 := by
      rw [helloes, ← (List.getElem_cons_eraseIdx_perm hlt).countP_eq, hget]
      cases i <;> simp
    have hready : Down.fast addr ≠ .ready := by rintro ⟨⟩
    refine h.channels (fun _ => rfl) id ?_ ?_ ?_ h.established ?_
    · rw [hcount]
      cases i <;> simp [readies, helloes, fasts, isFast]
      omega
    · have := h.noReady
      cases i <;> simpa using this
    · intro j hm
      apply h.closed j
      cases i <;> cases j <;> simpa using hm
    · intro _ _ _ _ _
      exact congrArg (_ + ·) (count_set_append .peer hready)
  · rw [if_neg hconn]
    exact h.losesHello k

theorem Turn.disconnects (h : n.Turn) (i : Side) :
    Turn { n with
      conn := false
      down := if n.conn then n.down.set i.other (n.down.get i.other ++ [.status false])
        else n.down } := by
  by_cases hconn : n.conn = true
  · rw [if_pos hconn]
    exact h.tells i.other nofun nofun rfl (Or.inr rfl)
  · rw [if_neg hconn]
    exact h.channels (fun _ => rfl) nofun (Nat.le_refl _) h.noReady (fun _ _ => rfl)
      (fun _ _ _ _ => rfl) nofun

/-- A side has read all but `ds`, its entry becomes `o`, and it sends messages, `HELLO_FAST`s
and pings. -/
def does (n : State) (i : Side) (ds : List Down) (o : Entry) (ms : List Up)
    (hs : List (Side × Addr)) (ps : List (Addr × Addr)) : State :=
  put { n with down := n.down.set i ds } i o ms hs ps

section Does

variable {ds : List Down} {o : Entry} {ms : List Up} {hs : List (Side × Addr)}
  {ps : List (Addr × Addr)}

theorem readies_does_owner :
    (n.does .owner ds o ms hs ps).readies = n.readies + ms.count .ready := by
  simp only [readies, does, put, Pair.set_owner, Pair.get_owner, List.count_append]
  omega

theorem readies_does_peer :
    (n.does .peer ds o ms hs ps).readies + n.down.peer.count .ready =
      n.readies + ds.count .ready := by
  simp only [readies, does, put, Pair.set_peer]
  omega

theorem closed_does (h : n.Turn) (hds : ds.Sublist (n.down.get i)) (j : Side)
    (hm : .status true ∈ (n.does i ds o ms hs ps).down.get j) : n.conn = false :=
  h.closed j ((sublist_set hds j).subset hm)

theorem established_does (h : n.Turn)
    (ho : ∀ s, o.rSess = some s → o.established = true → n.conn = false) (j : Side) (s : Session)
    (hs' : (n.does i ds o ms hs ps).sess j = some s)
    (he : ((n.does i ds o ms hs ps).entry.get j).established = true) : n.conn = false := by
  cases i <;> cases j <;>
    first
    | exact ho s hs' he
    | exact h.established .owner s hs' he
    | exact h.established .peer s hs' he

/-- The session of the owner is over. -/
theorem Turn.leaves_owner (h : n.Turn) (hds : ds.Sublist n.down.owner) (ho : o.rSess = none)
    (hms : .ready ∉ ms) : (n.does .owner ds o ms [] ps).Turn := by
  have hone := h.one
  have hfasts : ds.countP isFast ≤ n.fasts := hds.countP_le
  have hnone : ∀ o', (n.does .owner ds o ms [] ps).sess .owner ≠ some o' :=
    fun o' ho' => by cases ho.symm.trans ho'
  have hopened : (n.does .owner ds o ms [] ps).opened = 0 := by
    show (if o.rSess.any (fun o => o.pingConn.isSome) then 1 else 0) = 0
    rw [ho]
    rfl
  have hhelloes : (n.does .owner ds o ms [] ps).helloes = n.helloes + 0 := helloes_put .owner
  refine ⟨fun o' ho' => absurd ho' (hnone o'), h.peer, ?_, fun o' ho' => absurd ho' (hnone o'),
    ⟨h.noReady.1, fun hm => h.noReady.2 (hds.subset hm)⟩, closed_does h hds,
    established_does h (fun s hs => by cases ho.symm.trans hs),
    fun _ o' _ ho' => absurd ho' (hnone o')⟩
  rw [readies_does_owner, List.count_eq_zero_of_not_mem hms, hhelloes, hopened]
  show n.readies + 0 + n.preparing + (n.helloes + 0) + ds.countP isFast + 0 ≤ 1
  omega

/-- The session of the peer is over. -/
theorem Turn.leaves_peer (h : n.Turn) (hds : ds.Sublist n.down.peer) (ho : o.rSess = none)
    (hms : .ready ∉ ms) : (n.does .peer ds o ms [] ps).Turn := by
  have hnone : ∀ o', (n.does .peer ds o ms [] ps).sess .peer ≠ some o' :=
    fun o' ho' => by cases ho.symm.trans ho'
  have hpreparing : (n.does .peer ds o ms [] ps).preparing = 0 := by
    show (if o.rSess.any Session.preparing then 1 else 0) = 0
    rw [ho]
    rfl
  have hhelloes : (n.does .peer ds o ms [] ps).helloes = n.helloes + 0 := helloes_put .peer
  have hreadies : (n.does .peer ds o ms [] ps).readies ≤ n.readies :=
    Nat.add_le_add_left (hds.count_le .ready) _
  have hfasts : (n.does .peer ds o ms [] ps).fasts = n.fasts := rfl
  have hopened : (n.does .peer ds o ms [] ps).opened = n.opened := rfl
  have hone := h.one
  refine ⟨h.owner, fun o' ho' => absurd ho' (hnone o'), by omega, ?_, ⟨?_, h.noReady.2⟩,
    closed_does h hds, established_does h (fun s hs => by cases ho.symm.trans hs),
    fun _ _ o' _ ho' => absurd ho' (hnone o')⟩
  · intro o' ho' hg
    have := h.unasked o' ho' hg
    omega
  · exact fun hm => (List.mem_append.mp hm).elim h.noReady.1 hms

/-- The owner goes on, and it takes a turn only if it may. -/
theorem Turn.asks (h : n.Turn) (hs : n.sess .owner = some s) (hds : ds.Sublist n.down.owner)
    (hmay : n.readies + n.preparing + n.helloes + ds.countP isFast + n.opened + s.mayAsk m ≤ 1)
    (ha : Asks e m s out) :
    (n.does .owner ds (n.entryWith .owner out.sess) out.sent
      (out.hello.map (fun addr => (Side.owner, addr))).toList ps).Turn := by
  generalize hn' : n.does .owner ds (n.entryWith .owner out.sess) out.sent
    (out.hello.map (fun addr => (Side.owner, addr))).toList ps = n'
  have hsess : n'.sess .owner = some out.sess := by rw [← hn']; rfl
  have hreadies : n'.readies = n.readies + out.sent.count .ready := by
    rw [← hn', readies_does_owner]
  have hhelloes : n'.helloes = n.helloes := by
    rw [← hn', does, helloes_put]
    cases out.hello <;> simp [helloes]
  have hopened := opened_eq hsess
  have hwas := opened_eq hs
  have hturn := ha.turn
  have hpreparing : n'.preparing = n.preparing := by rw [← hn']; rfl
  have hfasts : n'.fasts = ds.countP isFast := by rw [← hn']; rfl
  refine ⟨?_, ?_, by omega, ?_, ?_, ?_, ?_, ?_⟩
  · rw [hsess]
    rintro _ ⟨⟩
    exact ha.side
  · rw [← hn']
    exact h.peer
  · rw [hsess]
    rintro _ ⟨⟩ hg
    obtain ⟨hwait, hsilent⟩ := ha.waits hg
    have hzero := h.unasked s hs hwait
    have hclosed : out.sess.hasSocket = 0 := by simp [Session.hasSocket, ha.side.unopened hg]
    have hless : ds.countP isFast ≤ n.fasts := hds.countP_le
    rw [List.count_eq_zero_of_not_mem hsilent] at hreadies
    omega
  · rw [← hn']
    exact ⟨h.noReady.1, fun hm => h.noReady.2 (hds.subset hm)⟩
  · rw [← hn']
    exact closed_does h hds
  · rw [← hn']
    exact established_does h fun _ _ => h.established .owner s hs
  · intro hc o p ho hp
    rw [hsess] at ho
    cases ho
    rw [← hn'] at hc hp
    rw [ha.asked, hreadies, h.count hc s p hs hp]
    omega

/-- The peer goes on, and it takes a turn only if it has read `READY`. -/
theorem Turn.answers (h : n.Turn) (hs : n.sess .peer = some s) (hds : ds.Sublist n.down.peer)
    (hread : n.down.peer.count .ready = ds.count .ready + asksNow m) (ha : Answers e m s out) :
    (n.does .peer ds (n.entryWith .peer out.sess) out.sent
      (out.hello.map (fun addr => (Side.peer, addr))).toList ps).Turn := by
  have hcount : (n.does .peer ds (n.entryWith .peer out.sess) out.sent
      (out.hello.map (fun addr => (Side.peer, addr))).toList ps).readies +
        n.down.peer.count .ready = n.readies + ds.count .ready := readies_does_peer
  generalize hn' : n.does .peer ds (n.entryWith .peer out.sess) out.sent
    (out.hello.map (fun addr => (Side.peer, addr))).toList ps = n' at hcount
  have hsess : n'.sess .peer = some out.sess := by rw [← hn']; rfl
  have hreadies : n'.readies + asksNow m = n.readies := by omega
  have hhelloes : n'.helloes = n.helloes + out.hello.toList.length := by
    rw [← hn', does, helloes_put]
    cases out.hello <;> simp [helloes]
  have hpreparing := preparing_eq hsess
  have hwas := preparing_eq hs
  have hturn := ha.turn
  have hopened : n'.opened = n.opened := by rw [← hn']; rfl
  have hfasts : n'.fasts = n.fasts := by rw [← hn']; rfl
  have hone := h.one
  refine ⟨?_, ?_, by omega, ?_, ?_, ?_, ?_, ?_⟩
  · rw [← hn']
    exact h.owner
  · rw [hsess]
    rintro _ ⟨⟩
    exact ha.side
  · intro o ho hg
    rw [← hn'] at ho
    have := h.unasked o ho hg
    omega
  · rw [← hn']
    exact ⟨fun hm => (List.mem_append.mp hm).elim h.noReady.1 ha.silent, h.noReady.2⟩
  · rw [← hn']
    exact closed_does h hds
  · rw [← hn']
    exact established_does h fun _ _ => h.established .peer s hs
  · intro hc o p ho hp
    rw [hsess] at hp
    cases hp
    rw [← hn'] at hc ho
    have hcount := h.count hc o s ho hs
    rw [ha.got]
    omega

theorem act_does (hd : out.done = none) :
    act { n with down := n.down.set i ds } i env out =
      n.does i ds (n.entryWith i out.sess) out.sent
        (out.hello.map (fun addr => (i, addr))).toList out.ping.toList := by
  rw [act_of_none hd]
  rfl

/-- A handler that ends the session. -/
theorem act_leaves (env : Env) (hd : out.done ≠ none) (hsilent : .ready ∉ out.sent)
    (hhello : out.hello = none) :
    ∃ o ms, o.rSess = none ∧ .ready ∉ ms ∧
      act { n with down := n.down.set i ds } i env out = n.does i ds o ms [] out.ping.toList := by
  obtain ⟨ok, hok⟩ := Option.ne_none_iff_exists'.mp hd
  refine ⟨_, _, rfl, ?_, by rw [act_of_some hok, hhello]; rfl⟩
  intro hm
  rcases List.mem_append.mp hm with hm | hm
  · exact hsilent hm
  · split at hm
    · split at hm <;> simp at hm
    · simp at hm

/-- The owner never reads `READY`. -/
theorem Turn.owner_reads (h : n.Turn) (hread : n.down.owner = m.toList ++ ds) :
    m ≠ some .ready :=
  fun hm => h.noReady.2 (by rw [hread, hm]; exact List.mem_cons_self)

/-- The owner reads an address only while it waits for it. -/
theorem Turn.reads_fast (h : n.Turn) (hs : n.sess .owner = some s)
    (hread : n.down.owner = m.toList ++ ds) (hm : m.any isFast = true) :
    s.pingConn = none ∧ s.portReservation = .granted := by
  have hone := h.one
  have hfasts : 0 < n.fasts := by
    rw [fasts, hread, List.countP_append]
    cases m with
    | none => cases hm
    | some msg =>
      rw [Option.any_some] at hm
      have hpos : 0 < [msg].countP isFast :=
        List.countP_pos_iff.mpr ⟨msg, List.mem_singleton_self msg, hm⟩
      exact Nat.add_pos_left hpos _
  refine ⟨Option.not_isSome_iff_eq_none.mp fun hopen => ?_, h.asked hs (by omega)⟩
  have : n.opened = 1 := by rw [opened_eq hs, Session.hasSocket, if_pos hopen]
  omega

theorem Turn.owner_asks (h : n.Turn) (hs : n.sess .owner = some s)
    (hread : n.down.owner = m.toList ++ ds) (hh : Handles .owner e m s env out)
    (hd : out.done = none) : Asks e m s out :=
  hh.asks hd (h.owner s hs) (h.owner_reads hread) (h.reads_fast hs hread)

/-- The peer reads `READY` only while it is not getting ready. -/
theorem Turn.peer_answers (h : n.Turn) (hs : n.sess .peer = some s)
    (hread : n.down.peer = m.toList ++ ds) (hh : Handles .peer e m s env out)
    (hd : out.done = none) : Answers e m s out := by
  apply hh.answers hd (h.peer s hs)
  intro hm
  have hone := h.one
  have hreadies : 0 < n.readies := by
    have hmem : Down.ready ∈ n.down.peer := by
      rw [hread, hm]
      exact List.mem_cons_self
    exact Nat.add_pos_right _ (List.count_pos_iff.mpr hmem)
  rw [← preparing_eq hs]
  omega

theorem Turn.owner_acts (h : n.Turn) (hs : n.sess .owner = some s)
    (hread : n.down.owner = m.toList ++ ds) (hh : Handles .owner e m s env out) :
    (act { n with down := n.down.set .owner ds } .owner env out).Turn := by
  have hds : ds.Sublist n.down.owner := hread ▸ List.sublist_append_right _ _
  by_cases hd : out.done = none
  · have hfasts : n.fasts = (if m.any isFast then 1 else 0) + ds.countP isFast := by
      rw [fasts, hread, List.countP_append]
      cases m <;> simp [List.countP_singleton]
    have hone := h.one
    rw [act_does hd]
    apply h.asks hs hds _ (h.owner_asks hs hread hh hd)
    by_cases hg : s.portReservation = .granted
    · by_cases hm : m.any isFast = true
      · rw [if_pos hm] at hfasts
        simp only [Session.mayAsk, hm, Bool.true_or, if_true]
        omega
      · simp only [Session.mayAsk, hg, Bool.eq_false_iff.mpr hm, ne_eq, not_true_eq_false,
          decide_false, Bool.or_self, Bool.false_eq_true, if_false]
        omega
    · have hzero := h.unasked s hs hg
      simp only [Session.mayAsk, hg, ne_eq, not_false_eq_true, decide_true, Bool.or_true, if_true]
      omega
  · obtain ⟨hsilent, hhello⟩ := hh.over hd
    obtain ⟨o, ms, ho, hms, hact⟩ := act_leaves (n := n) (i := .owner) env hd hsilent hhello
    rw [hact]
    exact h.leaves_owner hds ho hms

theorem Turn.peer_acts (h : n.Turn) (hs : n.sess .peer = some s)
    (hread : n.down.peer = m.toList ++ ds) (hh : Handles .peer e m s env out) :
    (act { n with down := n.down.set .peer ds } .peer env out).Turn := by
  have hds : ds.Sublist n.down.peer := hread ▸ List.sublist_append_right _ _
  by_cases hd : out.done = none
  · have hcount : n.down.peer.count .ready = ds.count .ready + asksNow m := by
      rw [hread, List.count_append, Nat.add_comm]
      cases m with
      | none => rfl
      | some msg => simp [asksNow, List.count_singleton]
    rw [act_does hd]
    exact h.answers hs hds hcount (h.peer_answers hs hread hh hd)
  · obtain ⟨hsilent, hhello⟩ := hh.over hd
    obtain ⟨o, ms, ho, hms, hact⟩ := act_leaves (n := n) (i := .peer) env hd hsilent hhello
    rw [hact]
    exact h.leaves_peer hds ho hms

theorem Turn.acts (h : n.Turn) (hs : n.sess i = some s) (hread : n.down.get i = m.toList ++ ds)
    (hh : Handles i e m s env out) : (act { n with down := n.down.set i ds } i env out).Turn := by
  cases i with
  | owner => exact h.owner_acts hs hread hh
  | peer => exact h.peer_acts hs hread hh

theorem Turn.leaves (h : n.Turn) (hds : ds.Sublist (n.down.get i)) (hms : .ready ∉ ms) :
    (leave { n with down := n.down.set i ds } i ms).Turn := by
  have hdoes : leave { n with down := n.down.set i ds } i ms =
      n.does i ds { n.entry.get i with rSess := none } ms [] [] := by
    simp only [leave, does, put, List.append_nil]
  rw [hdoes]
  cases i with
  | owner => exact h.leaves_owner hds rfl hms
  | peer => exact h.leaves_peer hds rfl hms

/-- A side is told of the success of the other. Its session is over, unless it has not
started. -/
theorem Turn.marks (h : n.Turn) (hs : n.sess i = some s)
    (hdown : n.down.get i = .status true :: ds) :
    (act (markEstablished { n with down := n.down.set i ds } i) i env s.onEstablished).Turn := by
  have hds : ds.Sublist (n.down.get i) := hdown ▸ List.sublist_cons_self _ _
  have hconn := h.closed i (by rw [hdown]; exact List.mem_cons_self)
  have hdoes : ∀ o ms hs ps,
      (n.markEstablished i).does i ds o ms hs ps = n.does i ds o ms hs ps := by
    intro o ms hs ps
    simp only [does, put, markEstablished, Pair.set_set]
  have hmark : markEstablished { n with down := n.down.set i ds } i =
      { n.markEstablished i with down := (n.markEstablished i).down.set i ds } := rfl
  rw [hmark]
  unfold Session.onEstablished
  split
  · generalize hout : ({ sess := { s with callback := false }, done := some true } : Out) = out
    have hdone : out.done ≠ none := by rw [← hout]; exact Option.some_ne_none _
    obtain ⟨o, ms, ho, hms, hact⟩ := act_leaves (n := n.markEstablished i) (i := i) env hdone
      (by rw [← hout]; exact List.not_mem_nil) (by rw [← hout])
    rw [hact, hdoes]
    cases i with
    | owner => exact h.leaves_owner hds ho hms
    | peer => exact h.leaves_peer hds ho hms
  · rw [act_does rfl, hdoes]
    have hsub := sublist_set hds
    simp only [does, put, Option.map_none, Option.toList_none, List.append_nil, Pair.set_get]
    refine h.channels ?_ id ?_ ?_ ?_ (fun _ _ _ _ => hconn) ?_
    · intro j
      cases i <;> cases j <;>
        first
        | exact hs.symm
        | rfl
    · exact Nat.add_le_add (Nat.add_le_add_right (Nat.add_le_add_left
        ((hsub .peer).count_le _) _) _) (hsub .owner).countP_le
    · exact ⟨h.noReady.1, fun hm => h.noReady.2 ((hsub .owner).subset hm)⟩
    · exact fun j hm => h.closed j ((hsub j).subset hm)
    · exact fun hc => Bool.noConfusion (hc.symm.trans hconn)

theorem Turn.step (h : n.Turn) (hs : n.step e = some n') : n'.Turn := by
  cases step_cases hs with
  | acts hsess hh =>
    have hread : ∀ i, n.down.get i = none.toList ++ n.down.get i := fun _ => rfl
    have hacts := h.acts hsess (hread _) hh
    rwa [Pair.set_get] at hacts
  | reads hdown hsess _ hh => exact h.acts (m := some _) hsess hdown hh
  | ignores hdown hover => exact h.ignores hdown hover
  | established hdown hsess => exact h.marks hsess hdown
  | failed hdown =>
    exact h.leaves (hdown ▸ List.sublist_cons_self _ _) List.not_mem_nil
  | @refused i _ =>
    have hms : Up.ready ∉ [Up.close false] := by simp
    have hleaves := h.leaves (i := i) (.refl _) hms
    rwa [Pair.set_get] at hleaves
  | @closed established =>
    have hms : Up.ready ∉ if established then [] else [Up.close false] := by split <;> simp
    have hleaves := h.leaves (i := .owner) (.refl _) hms
    rwa [Pair.set_get] at hleaves
  | dropped hup hgone => exact h.taken hup (Or.inr hgone)
  | relayed hup hconn => exact h.relays hup hconn
  | helloes hk => exact h.servesHello hk
  | losesHello => exact h.losesHello _
  | losesPing =>
    exact h.channels (fun _ => rfl) id (Nat.le_refl _) h.noReady h.closed h.established
      fun _ _ _ _ _ => rfl
  | disconnects => exact h.disconnects _

end Does

theorem Run.turn {bestEffort : Bool} {es : List Event} (h : Run bestEffort es n) : n.Turn :=
  exec_invariant (fun _ _ _ => Turn.step) (turn_init bestEffort) h

end State

end DTun.Node.FastSession
