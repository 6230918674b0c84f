import DTun.Util.Ltudp.Reverse

/-!
# The TCP ports that `pcbConnect` makes up

A connector gives every UDP port of a peer a TCP port of its own, the first one from 0x400
on that is free. The search for it is one pass over `portMap`, which is ordered by
`PortComparer`, and a candidate that wraps around to 0 says that there is none. The pass
finds the first gap because the keys start at 0x400, and they do so in every state a
connector reaches.

`portMap` stores its keys and ports in network order. The model has them in host order; the
loop of `pcbConnect` gives the same result on either.
-/

namespace DTun.Util.Ltudp

open Lib (OrderedMap)
open Lib.Runs

/-- `htons`, and as well `ntohs`: the two bytes of a `uint16_t` change places. -/
def htons (x : Nat) : Nat := x % 256 * 256 + x / 256 % 256

theorem htons_lt (x : Nat) : htons x < 65536 := by
  unfold htons
  omega

/-- Swapping twice leaves the `uint16_t` that the number was truncated to. -/
theorem htons_htons (x : Nat) : htons (htons x) = x % 65536 := by
  have hlow : htons x % 256 = x / 256 % 256 := by
    unfold htons
    omega
  have hhigh : htons x / 256 = x % 256 := by
    unfold htons
    omega
  rw [htons, hlow, hhigh]
  omega

theorem htons_inj {x y : Nat} (hx : x < 65536) (hy : y < 65536) : htons x = htons y ↔ x = y := by
  unfold htons
  omega

namespace PeerInfo

/-- The loop of `pcbConnect` on the entries as they are stored. -/
def searchStored (port : Nat) : Nat → List (Nat × PortInfo) → Bool × Nat
  | portToUse, [] => (false, portToUse)
  | portToUse, e :: rest =>
    if e.2.port = port then (true, e.1)
    else searchStored port
      (if e.1 = portToUse then htons (htons portToUse + 1) else portToUse) rest

/-- An entry in the other byte order. -/
def swapEntry (e : Nat × PortInfo) : Nat × PortInfo :=
  (htons e.1, { e.2 with port := htons e.2.port })

/-- The search in network order, with its result turned to host order, is the search of the
model. -/
theorem search_swap {port use : Nat} {l : List (Nat × PortInfo)} (hport : port < 65536)
    (huse : use < 65536) (hl : ∀ e ∈ l, e.1 < 65536 ∧ e.2.port < 65536) :
    search (htons port) (htons use) (l.map swapEntry) =
      ((searchStored port use l).1, htons (searchStored port use l).2) := by
  induction l generalizing use with
  | nil => rfl
  | cons e rest ih =>
    obtain ⟨hkey, hvalue⟩ := hl e List.mem_cons_self
    have hrest : ∀ e ∈ rest, e.1 < 65536 ∧ e.2.port < 65536 :=
      fun e' he' => hl e' (List.mem_cons_of_mem _ he')
    rw [List.map_cons, search, searchStored]
    simp only [swapEntry, htons_inj hvalue hport, htons_inj hkey huse]
    by_cases hfound : e.2.port = port
    · rw [if_pos hfound, if_pos hfound]
    · rw [if_neg hfound, if_neg hfound]
      by_cases htaken : e.1 = use
      · rw [if_pos htaken, if_pos htaken, ← htons_htons]
        exact ih (htons_lt _) hrest
      · rw [if_neg htaken, if_neg htaken]
        exact ih huse hrest

/-- The candidate that is left is the first free port from `use` on, 0 when all of them up
to 0xFFFF are keys. The keys from the candidate on have not been passed yet. -/
theorem search_gap {port use key : Nat} {l : List (Nat × PortInfo)}
    (hl : l.Pairwise (fun a b => a.1 < b.1)) (hge : ∀ e ∈ l, use ≤ e.1) (huse : use < 65536)
    (h : search port use l = (false, key)) :
    (∀ k, use ≤ k → k < 65536 → (∃ e ∈ l, e.1 = k)) ∧ key = 0 ∨
      use ≤ key ∧ key < 65536 ∧ (∀ e ∈ l, e.1 ≠ key) ∧
        ∀ k, use ≤ k → k < key → ∃ e ∈ l, e.1 = k := by
  induction l generalizing use with
  | nil =>
    simp only [search, Prod.mk.injEq, true_and] at h
    subst h
    right
    exact ⟨le_refl _, huse, by simp, fun k hle hlt => absurd hlt (by omega)⟩
  | cons e rest ih =>
    obtain ⟨he, hrest⟩ := List.pairwise_cons.mp hl
    have hfirst := hge e List.mem_cons_self
    by_cases heq : e.1 = use
    · -- the candidate is taken and moves on by one
      have hnext : ∀ e' ∈ rest, use + 1 ≤ e'.1 := by
        intro e' he'
        have := he e' he'
        omega
      have hcover : ∀ k, use ≤ k → (use + 1 ≤ k → ∃ e' ∈ rest, e'.1 = k) →
          ∃ e' ∈ e :: rest, e'.1 = k := by
        intro k hle htail
        by_cases hk : k = use
        · exact ⟨e, List.mem_cons_self, heq.trans hk.symm⟩
        · obtain ⟨e', hmem, hek⟩ := htail (by omega)
          exact ⟨e', List.mem_cons_of_mem _ hmem, hek⟩
      rw [search, if_pos heq] at h
      split at h
      · simp at h
      · by_cases hwrap : use + 1 = 65536
        · left
          rw [hwrap] at h
          have hlt : ∀ e' ∈ rest, 0 < e'.1 := fun e' he' => Nat.zero_lt_of_lt (he e' he')
          refine ⟨fun k hle hk => hcover k hle (fun hlt => ?_), search_below hlt h⟩
          omega
        · have hlt : use + 1 < 65536 := by omega
          rw [Nat.mod_eq_of_lt hlt] at h
          rcases ih hrest hnext hlt h with ⟨hall, hzero⟩ | ⟨hle, hbound, hne, hbefore⟩
          · left
            exact ⟨fun k hle hk => hcover k hle (fun hle' => hall k hle' hk), hzero⟩
          · right
            refine ⟨by omega, hbound, ?_, ?_⟩
            · intro e' he'
              rcases List.mem_cons.mp he' with rfl | he'
              · omega
              · exact hne e' he'
            · intro k hle' hk
              exact hcover k hle' (fun hle'' => hbefore k hle'' hk)
    · -- no key that is left is the candidate
      have hlt : ∀ e' ∈ e :: rest, use < e'.1 := by
        intro e' he'
        rcases List.mem_cons.mp he' with rfl | he'
        · omega
        · have := he e' he'
          omega
      have hkey := search_below hlt h
      subst hkey
      right
      refine ⟨le_refl _, huse, fun e' he' => (hlt e' he').ne', ?_⟩
      intro k hle hk
      omega

/-- Without an entry for the port the result is the candidate that is left. -/
theorem connect_search {peer : PeerInfo} {port : Port}
    (habsent : ∀ k info, peer.portMap.find? k = some info → info.port ≠ port) :
    search port 0x400 peer.portMap.entries = (false, (peer.connect port).2) := by
  rw [connect]
  generalize hsearch : search port 0x400 peer.portMap.entries = r
  obtain ⟨found, key⟩ := r
  cases found with
  | true =>
    obtain ⟨info, hmem, hport⟩ := search_found hsearch
    exact absurd hport (habsent key info (peer.portMap.mem_entries_iff.mp hmem))
  | false =>
    by_cases hkey : key = 0
    · simp [hkey]
    · simp [hkey]

/-- All TCP ports of the peer are at least 0x400. -/
def VirtualKeys (peer : PeerInfo) : Prop :=
  ∀ key info, peer.portMap.find? key = some info → 0x400 ≤ key

theorem VirtualKeys.gap {peer : PeerInfo} (h : peer.VirtualKeys) (port : Port)
    (habsent : ∀ k info, peer.portMap.find? k = some info → info.port ≠ port) :
    (∀ k, 0x400 ≤ k → k ≤ 0xFFFF → peer.portMap.find? k ≠ none) ∧ (peer.connect port).2 = 0 ∨
      0x400 ≤ (peer.connect port).2 ∧ (peer.connect port).2 ≤ 0xFFFF ∧
        peer.portMap.find? (peer.connect port).2 = none ∧
        ∀ k, 0x400 ≤ k → k < (peer.connect port).2 → peer.portMap.find? k ≠ none := by
  have hge : ∀ e ∈ peer.portMap.entries, 0x400 ≤ e.1 :=
    fun e he => h e.1 e.2 (peer.portMap.mem_entries_iff.mp he)
  have hkey : ∀ k, (∃ e ∈ peer.portMap.entries, e.1 = k) → peer.portMap.find? k ≠ none := by
    rintro k ⟨e, hmem, rfl⟩
    rw [peer.portMap.mem_entries_iff.mp hmem]
    exact Option.some_ne_none _
  rcases search_gap peer.portMap.sorted hge (by decide) (connect_search habsent) with
    ⟨hall, hzero⟩ | ⟨hle, hbound, hne, hbefore⟩
  · left
    exact ⟨fun k hk hlt => hkey k (hall k hk (Nat.lt_succ_of_le hlt)), hzero⟩
  · right
    refine ⟨hle, Nat.le_of_lt_succ hbound, ?_, fun k hk hlt => hkey k (hbefore k hk hlt)⟩
    cases hfind : peer.portMap.find? (peer.connect port).2 with
    | none => rfl
    | some info => exact absurd rfl (hne _ (peer.portMap.mem_entries_iff.mpr hfind))

theorem VirtualKeys.connect {peer : PeerInfo} (h : peer.VirtualKeys) (port : Port) :
    (peer.connect port).1.VirtualKeys := by
  have hconn := peer.connected port
  have hgap := h.gap port
  generalize peer.connect port = r at hconn hgap
  cases hconn with
  | busy _ => exact h
  | joined hfind _ => exact OrderedMap.forall_key_insert _ h (h _ _ hfind)
  | opened hkey _ habsent =>
    rcases hgap habsent with ⟨_, hzero⟩ | ⟨hle, _⟩
    · exact absurd hzero hkey
    · exact OrderedMap.forall_key_insert _ h hle

theorem VirtualKeys.disconnect {peer peer' : PeerInfo} {key : Port} (h : peer.VirtualKeys)
    (hok : peer.disconnect key = .ok peer') : peer'.VirtualKeys := by
  obtain ⟨info, hfind, _, rfl⟩ := disconnect_ok hok
  exact OrderedMap.forall_key_insert _ h (h _ _ hfind)

/-- A datagram only moves an entry to another UDP port or drops one. -/
theorem VirtualKeys.received {peer peer' : PeerInfo} {srcPort src key : Port}
    (h : peer.VirtualKeys) (hr : peer.Received srcPort src peer' key) : peer'.VirtualKeys := by
  cases hr with
  | same _ _ _ => exact h
  | fresh _ _ => exact h
  | moved _ hinfo _ _ => exact OrderedMap.forall_key_insert _ h (h _ _ hinfo)
  | taken _ hinfo _ _ _ =>
    apply OrderedMap.forall_key_insert _ _ (h _ _ hinfo)
    intro k info hi
    exact h k info (OrderedMap.find?_of_erase _ hi)

/-- No entry but the one of the result changes. -/
theorem connect_frame (peer : PeerInfo) (port : Port) {k : Port}
    (hk : k ≠ (peer.connect port).2) :
    (peer.connect port).1.portMap.find? k = peer.portMap.find? k := by
  have hconn := peer.connected port
  generalize peer.connect port = r at hconn hk
  cases hconn with
  | busy _ => rfl
  | joined _ _ => exact OrderedMap.find?_insert_of_ne _ hk
  | opened _ _ _ => exact OrderedMap.find?_insert_of_ne _ hk

/-- The entry of the result stands for the port that was asked for. -/
theorem connect_maps (peer : PeerInfo) (port : Port) (hkey : (peer.connect port).2 ≠ 0) :
    ∃ info, (peer.connect port).1.portMap.find? (peer.connect port).2 = some info ∧
      info.port = port := by
  have hconn := peer.connected port
  generalize peer.connect port = r at hconn hkey
  cases hconn with
  | busy _ => exact absurd rfl hkey
  | joined _ hport => exact ⟨_, OrderedMap.find?_insert_self _, hport⟩
  | opened _ _ _ => exact ⟨_, OrderedMap.find?_insert_self _, rfl⟩

/-- A port that has an entry keeps it. -/
theorem connect_mapped {peer : PeerInfo} {port : Port}
    (h : ∃ k info, peer.portMap.find? k = some info ∧ info.port = port) :
    ∃ info, peer.portMap.find? (peer.connect port).2 = some info ∧ info.port = port := by
  obtain ⟨k, info, hfind, hport⟩ := h
  have hconn := peer.connected port
  generalize peer.connect port = r at hconn
  cases hconn with
  | busy habsent => exact absurd hport (habsent k info hfind)
  | joined hfind' hport' => exact ⟨_, hfind', hport'⟩
  | opened _ _ habsent => exact absurd hport (habsent k info hfind)

/-- 0 is the result exactly when the port has no entry and there is no free key. -/
theorem VirtualKeys.connect_zero_iff {peer : PeerInfo} {port : Port} (h : peer.VirtualKeys) :
    (peer.connect port).2 = 0 ↔
      (∀ k info, peer.portMap.find? k = some info → info.port ≠ port) ∧
        ∀ k, 0x400 ≤ k → k ≤ 0xFFFF → peer.portMap.find? k ≠ none := by
  constructor
  · intro hzero
    have habsent : ∀ k info, peer.portMap.find? k = some info → info.port ≠ port := by
      intro k info hfind hport
      obtain ⟨info', hfind', _⟩ := connect_mapped ⟨k, info, hfind, hport⟩
      have hle := h _ _ hfind'
      rw [hzero] at hle
      exact absurd hle (by decide)
    refine ⟨habsent, ?_⟩
    rcases h.gap port habsent with ⟨hall, _⟩ | ⟨hle, _⟩
    · exact hall
    · rw [hzero] at hle
      exact absurd hle (by decide)
  · rintro ⟨habsent, hall⟩
    rcases h.gap port habsent with ⟨_, hzero⟩ | ⟨hle, hbound, hfree, _⟩
    · exact hzero
    · exact absurd hfree (hall _ hle hbound)

end PeerInfo

namespace ConnectionInfo

variable {c c' : ConnectionInfo} {e : Event} {es : List Event} {ip : Ip}

/-- For a connector, all TCP ports of the peer at `ip` are at least 0x400. -/
def VirtualKeys (c : ConnectionInfo) (ip : Ip) : Prop :=
  c.isAcceptor = false → ∀ key info, c.mapping ip key = some info → 0x400 ≤ key

theorem VirtualKeys.peer (h : c.VirtualKeys ip) (hrole : c.isAcceptor = false) :
    ((c.peers.find? ip).getD {}).VirtualKeys := by
  intro key info hi
  rw [c.getD_find?] at hi
  exact h hrole key info hi

theorem VirtualKeys.found (h : c.VirtualKeys ip) (hrole : c.isAcceptor = false)
    {peer : PeerInfo} (hfind : c.peers.find? ip = some peer) : peer.VirtualKeys := by
  have hpeer := h.peer hrole
  rw [hfind] at hpeer
  exact hpeer

theorem VirtualKeys.setPeer {ip' : Ip} {peer : PeerInfo} (h : c.VirtualKeys ip)
    (hpeer : ip = ip' → peer.VirtualKeys) : (c.setPeer ip' peer).VirtualKeys ip := by
  intro hrole key info hi
  rw [mapping_setPeer] at hi
  split at hi
  · rename_i heq
    exact hpeer heq key info hi
  · exact h hrole key info hi

theorem step_virtualKeys (h : c.VirtualKeys ip) (hstep : c.step e = some c') :
    c'.VirtualKeys ip := by
  cases step_change hstep with
  | kept _ hrole hpeers =>
    intro hrole' key info hi
    rw [mapping, hpeers] at hi
    exact h (hrole ▸ hrole') key info hi
  | cleared _ hpeers =>
    intro _ key info hi
    rw [mapping, hpeers] at hi
    cases hi
  | connect hrole _ =>
    apply h.setPeer
    rintro rfl
    exact (h.peer hrole).connect _
  | disconnect hrole hfind hpeer =>
    apply h.setPeer
    rintro rfl
    exact (h.found hrole hfind).disconnect hpeer
  | learn hrole =>
    intro hrole'
    rw [ConnectionInfo.setPeer, hrole] at hrole'
    cases hrole'
  | ignored _ _ => exact h
  | received hrole hfind hpeer =>
    apply h.setPeer
    rintro rfl
    exact (h.found hrole hfind).received hpeer

theorem exec_virtualKeys (h : c.VirtualKeys ip) (hexec : exec step c es = some c') :
    c'.VirtualKeys ip :=
  exec_invariant (I := fun c => c.VirtualKeys ip) (fun _ _ _ => step_virtualKeys) h hexec

theorem run_virtualKeys (hrun : Run es c) (ip : Ip) : c.VirtualKeys ip :=
  exec_virtualKeys (fun _ key info hi => by cases hi) hrun

theorem pcbConnect_eq (hrole : c.isAcceptor = false) {port : Port} (hip : ip ≠ 0)
    (hport : port ≠ 0) :
    c.pcbConnect ip port =
      .ok (c.setPeer ip (((c.peers.find? ip).getD {}).connect port).1,
        (((c.peers.find? ip).getD {}).connect port).2) := by
  rw [pcbConnect, if_neg (not_or.mpr ⟨hip, hport⟩), if_neg (Bool.eq_false_iff.mp hrole)]

/-- For a connector whose TCP ports for a peer are all at least 0x400, and they stay so
whatever happens while it is a connector: `pcbConnect` returns a key of the UDP port when it
has one, and otherwise the least port from 0x400 on that is no key, which then stands for
it. The result is 0 exactly when the UDP port has no entry and all keys are taken, and no
entry but that of the result changes. -/
theorem pcbConnect_allocates (hrole : c.isAcceptor = false)
    (hkeys : ∀ k info, c.mapping ip k = some info → 0x400 ≤ k) :
    (∀ es c', exec step c es = some c' → c'.isAcceptor = false →
      ∀ k info, c'.mapping ip k = some info → 0x400 ≤ k) ∧
    ∀ port, ip ≠ 0 → port ≠ 0 → ∃ c' key, c.pcbConnect ip port = .ok (c', key) ∧
      ((∃ k info, c.mapping ip k = some info ∧ info.port = port) →
        ∃ info, c.mapping ip key = some info ∧ info.port = port) ∧
      ((∀ k info, c.mapping ip k = some info → info.port ≠ port) → key ≠ 0 →
        0x400 ≤ key ∧ key ≤ 0xFFFF ∧ c.mapping ip key = none ∧
          ∀ k, 0x400 ≤ k → k < key → c.mapping ip k ≠ none) ∧
      (key ≠ 0 → ∃ info, c'.mapping ip key = some info ∧ info.port = port) ∧
      (key = 0 ↔ (∀ k info, c.mapping ip k = some info → info.port ≠ port) ∧
        ∀ k, 0x400 ≤ k → k ≤ 0xFFFF → c.mapping ip k ≠ none) ∧
      ∀ ip' k, (ip', k) ≠ (ip, key) → c'.mapping ip' k = c.mapping ip' k := by
  have hvirtual : c.VirtualKeys ip := fun _ => hkeys
  refine ⟨fun es c' hexec => exec_virtualKeys hvirtual hexec, ?_⟩
  intro port hip hport
  have hpeer := hvirtual.peer hrole
  refine ⟨_, _, pcbConnect_eq hrole hip hport, ?_⟩
  simp only [← c.getD_find?, mapping_setPeer, if_true]
  generalize hfind : (c.peers.find? ip).getD {} = peer at hpeer
  refine ⟨PeerInfo.connect_mapped, ?_, peer.connect_maps port, hpeer.connect_zero_iff, ?_⟩
  · intro habsent hkey
    exact (hpeer.gap port habsent).resolve_left fun hall => hkey hall.2
  · intro ip' k hne
    by_cases heq : ip' = ip
    · subst heq
      rw [if_pos rfl, hfind]
      exact peer.connect_frame port fun hk => hne (by rw [hk])
    · rw [if_neg heq]

/-- A second connection to UDP port 53 shares the entry of the first, and one to another UDP
port of the peer gets an entry of its own. -/
theorem pcbConnect_allocates_shared :
    ∃ c, Run [.bindConnector (some 9), .connect 7 53] c ∧
      (∃ c' key, c.pcbConnect 7 53 = .ok (c', key) ∧
        ∃ info, c.mapping 7 key = some info ∧ info.port = 53) ∧
      ∃ c' key, c.pcbConnect 7 80 = .ok (c', key) ∧ key ≠ 0 ∧
        ∃ info, c'.mapping 7 key = some info ∧ info.port = 80 := by
  obtain ⟨c, hrun, hrole, hfirst, hnext⟩ : ∃ c, Run [.bindConnector (some 9), .connect 7 53] c ∧
      (c.isAcceptor = false ∧ c.mapping 7 0x400 = some { port := 53, numActiveConns := 1 } ∧
        c.mapping 7 0x401 = none) := exec_check (by decide +kernel)
  have hspec := (pcbConnect_allocates hrole (run_virtualKeys hrun 7 hrole)).2
  obtain ⟨c₁, key₁, hok₁, hmapped, _⟩ := hspec 53 (by decide) (by decide)
  obtain ⟨c₂, key₂, hok₂, _, _, hentry, hzero, _⟩ := hspec 80 (by decide) (by decide)
  have hkey : key₂ ≠ 0 := fun hz => (hzero.mp hz).2 0x401 (by decide) (by decide) hnext
  exact ⟨c, hrun, ⟨c₁, key₁, hok₁, hmapped ⟨_, _, hfirst, rfl⟩⟩, c₂, key₂, hok₂, hkey, hentry hkey⟩

end ConnectionInfo

end DTun.Util.Ltudp
