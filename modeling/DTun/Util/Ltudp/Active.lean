import DTun.Util.Ltudp.Reverse

/-!
# The entries an LTUDP connector uses

A connector and its connected pcbs: `pcbConnect` gives a pcb the key of an entry, and
`pcbDisconnect` gives it back. `numActiveConns` counts the pcbs that hold the key. The entry
of a connected pcb has to stay, with a port that is not 0, for its segments to be sent. A
remap drops the entry that has the new port, and does not look at who uses it.
-/

namespace DTun.Util.Ltudp

open Lib.Calls Lib.Runs

/-- A connector with the peer addresses and keys of its connected pcbs. -/
structure Connector where
  info : ConnectionInfo := {}
  pcbs : List (Ip × Port) := []

namespace Connector

inductive Event where
  | connect (ip : Ip) (port : Port)
  | disconnect (ip : Ip) (key : Port)
  | datagram (d : Datagram)
  deriving DecidableEq, Repr

def call (t : Connector) : Event → Except Assertion Connector
  | .connect ip port => (t.info.pcbConnect ip port).map fun r =>
    { info := r.1, pcbs := if r.2 = 0 then t.pcbs else (ip, r.2) :: t.pcbs }
  | .disconnect ip key => (t.info.pcbDisconnect ip key).map fun c =>
    { info := c, pcbs := t.pcbs.erase (ip, key) }
  | .datagram d => (t.info.onRecv d).map fun r => { t with info := r.1 }

/-- Only a connected pcb is disconnected. -/
def Enabled (t : Connector) : Event → Prop
  | .disconnect ip key => (ip, key) ∈ t.pcbs
  | _ => True

instance (t : Connector) : ∀ e, Decidable (t.Enabled e)
  | .disconnect _ _ => inferInstanceAs (Decidable (_ ∈ _))
  | .connect _ _ => inferInstanceAs (Decidable True)
  | .datagram _ => inferInstanceAs (Decidable True)

def step (t : Connector) (e : Event) : Option Connector :=
  if t.Enabled e then (t.call e).toOption else none

abbrev Run (es : List Event) (t : Connector) : Prop := exec step {} es = some t

/-- The key that a call of `pcbConnect` returns. -/
def returned (t : Connector) : Event → List (Ip × Port)
  | .connect ip port =>
    match t.info.pcbConnect ip port with
    | .ok (_, key) => if key = 0 then [] else [(ip, key)]
    | .error _ => []
  | _ => []

/-- The key that a call of `pcbDisconnect` is about. -/
def released (_ : Connector) : Event → List (Ip × Port)
  | .disconnect ip key => [(ip, key)]
  | _ => []

end Connector

/-- When the datagram remaps an entry, no connection uses the entry that has the datagram's
UDP port, and that port is not 0 unless no connection uses the remapped entry either. -/
def PeerInfo.Idle (peer : PeerInfo) (srcPort src : Port) : Prop :=
  peer.remaps srcPort src = true →
    ((peer.portMap.first? (·.port = srcPort)).all fun e => e.2.numActiveConns = 0) = true ∧
    (srcPort = 0 → (((peer.revPortMap.find? src).bind fun r => peer.portMap.find? r.port).all
      fun info => info.numActiveConns = 0) = true)

instance (peer : PeerInfo) (srcPort src : Port) : Decidable (peer.Idle srcPort src) :=
  inferInstanceAs (Decidable (_ → _))

namespace Connector

variable {t t' : Connector} {e : Event} {es : List Event} {ip : Ip} {key : Port}
  {info : PortInfo}

def Idle (t : Connector) : Event → Prop
  | .datagram d => ((t.info.peers.find? d.srcIp).all fun peer => peer.Idle d.srcPort d.src) = true
  | _ => True

instance (t : Connector) : ∀ e, Decidable (t.Idle e)
  | .datagram _ => inferInstanceAs (Decidable (_ = true))
  | .connect _ _ => inferInstanceAs (Decidable True)
  | .disconnect _ _ => inferInstanceAs (Decidable True)

/-- The count of every entry is the number of pcbs that hold its key, and the key of every
connected pcb has an entry with a port. -/
structure Kept (t : Connector) : Prop where
  connector : t.info.isAcceptor = false
  keys : ∀ ip key info, t.info.mapping ip key = some info → key ≠ 0
  counts : ∀ ip key info, t.info.mapping ip key = some info →
    info.numActiveConns = t.pcbs.count (ip, key)
  mapped : ∀ ip key, (ip, key) ∈ t.pcbs →
    ip ≠ 0 ∧ ∃ info, t.info.mapping ip key = some info ∧ info.port ≠ 0

theorem Kept.active (h : t.Kept) (hmem : (ip, key) ∈ t.pcbs)
    (hinfo : t.info.mapping ip key = some info) : 0 < info.numActiveConns := by
  rw [h.counts ip key info hinfo]
  exact_mod_cast List.count_pos_iff.mpr hmem

theorem kept_init : Kept {} where
  connector := rfl
  keys := fun ip key info h => by cases h
  counts := fun ip key info h => by cases h
  mapped := fun ip key h => by cases h

/-- A call that changes no entry and no pcb. -/
theorem Kept.of_entries (h : t.Kept) (hrole : t'.info.isAcceptor = false)
    (hpcbs : t'.pcbs = t.pcbs)
    (hentry : ∀ ip key, t'.info.mapping ip key = t.info.mapping ip key) : t'.Kept where
  connector := hrole
  keys := fun ip key info hi => h.keys ip key info (hentry ip key ▸ hi)
  counts := fun ip key info hi => by
    rw [hpcbs]
    exact h.counts ip key info (hentry ip key ▸ hi)
  mapped := fun ip key hmem => by
    rw [hentry ip key]
    exact h.mapped ip key (hpcbs ▸ hmem)

/-- A call that changes one entry and the pcbs that hold its key. -/
theorem Kept.update (h : t.Kept) (info : PortInfo) (hrole : t'.info.isAcceptor = false)
    (hentry : ∀ ip' key', t'.info.mapping ip' key' =
      if ip' = ip ∧ key' = key then some info else t.info.mapping ip' key')
    (hkey : key ≠ 0) (hcount : info.numActiveConns = t'.pcbs.count (ip, key))
    (hother : ∀ p, p ≠ (ip, key) → t'.pcbs.count p = t.pcbs.count p)
    (hport : (ip, key) ∈ t'.pcbs → ip ≠ 0 ∧ info.port ≠ 0) : t'.Kept where
  connector := hrole
  keys := fun ip' key' i hi => by
    rw [hentry] at hi
    split at hi
    · rename_i heq
      rw [heq.2]
      exact hkey
    · exact h.keys ip' key' i hi
  counts := fun ip' key' i hi => by
    rw [hentry] at hi
    split at hi
    · rename_i heq
      cases hi
      rw [heq.1, heq.2]
      exact hcount
    · rename_i hne
      rw [hother (ip', key') (fun heq => hne (Prod.mk.inj heq))]
      exact h.counts ip' key' i hi
  mapped := fun ip' key' hmem => by
    rw [hentry]
    by_cases heq : ip' = ip ∧ key' = key
    · obtain ⟨rfl, rfl⟩ := heq
      obtain ⟨hip, hp⟩ := hport hmem
      exact ⟨hip, info, if_pos ⟨rfl, rfl⟩, hp⟩
    · rw [if_neg heq]
      refine h.mapped ip' key' (List.count_pos_iff.mp ?_)
      rw [← hother (ip', key') (fun hp => heq (Prod.mk.inj hp))]
      exact List.count_pos_iff.mpr hmem

/-- A call that drops an entry whose key no pcb holds. -/
theorem Kept.drop (h : t.Kept) (hrole : t'.info.isAcceptor = false) (hpcbs : t'.pcbs = t.pcbs)
    (hentry : ∀ ip' key', t'.info.mapping ip' key' =
      if ip' = ip ∧ key' = key then none else t.info.mapping ip' key')
    (hfree : (ip, key) ∉ t.pcbs) : t'.Kept := by
  have hold : ∀ ip' key' i, t'.info.mapping ip' key' = some i →
      t.info.mapping ip' key' = some i := by
    intro ip' key' i hi
    rw [hentry] at hi
    split at hi
    · cases hi
    · exact hi
  constructor
  · exact hrole
  · exact fun ip' key' i hi => h.keys ip' key' i (hold ip' key' i hi)
  · intro ip' key' i hi
    rw [hpcbs]
    exact h.counts ip' key' i (hold ip' key' i hi)
  · intro ip' key' hmem
    rw [hpcbs] at hmem
    have hne : ¬ (ip' = ip ∧ key' = key) := by
      rintro ⟨rfl, rfl⟩
      exact hfree hmem
    rw [hentry, if_neg hne]
    exact h.mapped ip' key' hmem

end Connector

theorem ConnectionInfo.mapping_update {c : ConnectionInfo} {ip : Ip} {key : Port}
    {peer : PeerInfo} {info : PortInfo}
    (hpeer : ∀ k, peer.portMap.find? k = if k = key then some info else c.mapping ip k)
    (ip' : Ip) (key' : Port) :
    (c.setPeer ip peer).mapping ip' key' =
      if ip' = ip ∧ key' = key then some info else c.mapping ip' key' := by
  rw [mapping_setPeer]
  by_cases hip : ip' = ip
  · subst hip
    simp [hpeer]
  · simp [hip]

theorem ConnectionInfo.isSome_mapping_setPeer {c : ConnectionInfo} {ip ip' : Ip} {key : Port}
    {peer : PeerInfo} (h : (c.mapping ip key).isSome = true)
    (hpeer : ip = ip' → (peer.portMap.find? key).isSome = true) :
    ((c.setPeer ip' peer).mapping ip key).isSome = true := by
  rw [mapping_setPeer]
  split
  · rename_i heq
    exact hpeer heq
  · exact h

theorem PeerInfo.Idle.port_ne {peer : PeerInfo} {srcPort src : Port} {r info : PortInfo}
    (h : peer.Idle srcPort src) (hrev : peer.revPortMap.find? src = some r)
    (hinfo : peer.portMap.find? r.port = some info) (hport : info.port ≠ srcPort)
    (hactive : 0 < info.numActiveConns) : srcPort ≠ 0 := by
  intro hzero
  have hremaps : peer.remaps srcPort src = true := by
    simp [remaps, hrev, hinfo, hport]
  have hidle := (h hremaps).2 hzero
  simp only [hrev, Option.bind_some, hinfo, Option.all_some, decide_eq_true_eq] at hidle
  omega

namespace Connector

variable {t t' : Connector} {e : Event} {es : List Event} {ip : Ip} {key port : Port}
  {info : PortInfo}

theorem Kept.connect (h : t.Kept) (hcall : t.call (.connect ip port) = .ok t') : t'.Kept := by
  obtain ⟨⟨c, key⟩, hok, rfl⟩ := map_eq_ok hcall
  obtain ⟨hip, hport, hrole, rfl, hkey⟩ := ConnectionInfo.pcbConnect_ok hok
  dsimp only
  have hconn := PeerInfo.connected ((t.info.peers.find? ip).getD {}) port
  generalize (((t.info.peers.find? ip).getD {}).connect port) = r at hconn hkey
  subst hkey
  cases hconn with
  | busy _ =>
    refine h.of_entries h.connector rfl fun ip' key' => ?_
    rw [ConnectionInfo.mapping_setPeer, t.info.getD_find?]
    split
    · rename_i heq
      rw [heq]
    · rfl
  | @joined key info hfind hp =>
    rw [t.info.getD_find?] at hfind
    have hkey : key ≠ 0 := h.keys ip key info hfind
    rw [if_neg hkey]
    refine h.update { info with numActiveConns := info.numActiveConns + 1 }
      h.connector (ConnectionInfo.mapping_update fun k => ?_) hkey ?_ (fun p hne => ?_) ?_
    · rw [Lib.OrderedMap.find?_insert, t.info.getD_find?]
    · change info.numActiveConns + 1 = _
      rw [List.count_cons_self, h.counts ip key info hfind]
      rfl
    · exact List.count_cons_of_ne (fun heq => hne heq.symm)
    · exact fun _ => ⟨hip, hp ▸ hport⟩
  | @opened key hkey hfind _ =>
    rw [t.info.getD_find?] at hfind
    have hfree : (ip, key) ∉ t.pcbs := by
      intro hmem
      obtain ⟨_, i, hi, _⟩ := h.mapped ip key hmem
      rw [hfind] at hi
      cases hi
    rw [if_neg hkey]
    refine h.update { port := port, numActiveConns := 1 }
      h.connector (ConnectionInfo.mapping_update fun k => ?_) hkey ?_ (fun p hne => ?_) ?_
    · rw [Lib.OrderedMap.find?_insert, t.info.getD_find?]
    · change (1 : Int) = _
      rw [List.count_cons_self, List.count_eq_zero_of_not_mem hfree]
      rfl
    · exact List.count_cons_of_ne (fun heq => hne heq.symm)
    · exact fun _ => ⟨hip, hport⟩

theorem Kept.disconnect (h : t.Kept) (hmem : (ip, key) ∈ t.pcbs)
    (hcall : t.call (.disconnect ip key) = .ok t') : t'.Kept := by
  obtain ⟨c, hok, rfl⟩ := map_eq_ok hcall
  obtain ⟨hrole, peer, peer', hfind, hpeer, rfl⟩ := ConnectionInfo.pcbDisconnect_ok hok
  obtain ⟨info, hinfo, hpos, rfl⟩ := PeerInfo.disconnect_ok hpeer
  have hentry : t.info.mapping ip key = some info := by
    rw [ConnectionInfo.mapping_of_find? hfind]
    exact hinfo
  obtain ⟨hip, i, hi, hport⟩ := h.mapped ip key hmem
  cases hentry.symm.trans hi
  refine h.update { info with numActiveConns := info.numActiveConns - 1 }
    h.connector (ConnectionInfo.mapping_update fun k => ?_) (h.keys ip key info hentry) ?_
    (fun p hne => ?_) ?_
  · rw [Lib.OrderedMap.find?_insert, ConnectionInfo.mapping_of_find? hfind]
  · have hcount := List.count_pos_iff.mpr hmem
    change info.numActiveConns - 1 = _
    rw [List.count_erase_self, h.counts ip key info hentry]
    omega
  · exact List.count_erase_of_ne (fun heq => hne heq)
  · exact fun _ => ⟨hip, hport⟩

theorem Kept.datagram {d : Datagram} (h : t.Kept) (hidle : t.Idle (.datagram d))
    (hcall : t.call (.datagram d) = .ok t') : t'.Kept := by
  obtain ⟨⟨c, seg⟩, hok, rfl⟩ := map_eq_ok hcall
  dsimp only
  cases ConnectionInfo.onRecv_change hok with
  | kept he _ _ => exact absurd rfl (he d)
  | cleared he _ => exact absurd rfl (he d)
  | learn hrole =>
    rw [h.connector] at hrole
    cases hrole
  | ignored _ _ => exact h
  | @received _ peer peer' key hrole hfind hpeer =>
    simp only [Idle, hfind, Option.all_some, decide_eq_true_eq] at hidle
    have hbase := ConnectionInfo.mapping_of_find? hfind
    cases hpeer with
    | same _ _ _ =>
      refine h.of_entries h.connector rfl fun ip' key' => ?_
      rw [ConnectionInfo.mapping_setPeer]
      split
      · rename_i heq
        rw [heq, hbase]
      · rfl
    | fresh _ _ =>
      refine h.of_entries h.connector rfl fun ip' key' => ?_
      rw [ConnectionInfo.mapping_setPeer]
      split
      · rename_i heq
        rw [heq, hbase]
      · rfl
    | @moved r info hrev hinfo hport hfirst =>
      have hentry : t.info.mapping d.srcIp r.port = some info := (hbase _).trans hinfo
      refine h.update { info with port := d.srcPort } h.connector
        (ConnectionInfo.mapping_update fun k => ?_) (h.keys _ _ info hentry)
        (h.counts _ _ info hentry) (fun _ _ => rfl) fun hmem => ?_
      · rw [Lib.OrderedMap.find?_insert, hbase]
      · have hne := hidle.port_ne hrev hinfo hport (h.active hmem hentry)
        exact ⟨(h.mapped _ _ hmem).1, hne⟩
    | @taken r info other tmpPort hrev hinfo hport hfirst hother =>
      have hentry : t.info.mapping d.srcIp r.port = some info := (hbase _).trans hinfo
      obtain ⟨hfound, _⟩ := peer.portMap.first?_eq_some hfirst
      have hfree : (d.srcIp, tmpPort) ∉ t.pcbs := by
        intro hmem
        have hpos := h.active hmem ((hbase _).trans hfound)
        omega
      -- first the entry is dropped, then the other one gets its port
      have hdrop : Kept { t with
          info := t.info.setPeer d.srcIp
            { peer with portMap := peer.portMap.erase tmpPort } } := by
        refine h.drop h.connector rfl (fun ip' key' => ?_) hfree
        rw [ConnectionInfo.mapping_setPeer]
        by_cases hip : ip' = d.srcIp
        · simp [hip, Lib.OrderedMap.find?_erase, hbase]
        · simp [hip]
      refine hdrop.update { info with port := d.srcPort } h.connector (fun ip' key' => ?_)
        (h.keys _ _ info hentry) (h.counts _ _ info hentry) (fun _ _ => rfl) fun hmem => ?_
      · rw [ConnectionInfo.mapping_setPeer, ConnectionInfo.mapping_setPeer]
        by_cases hip : ip' = d.srcIp
        · simp [hip, Lib.OrderedMap.find?_insert]
        · simp [hip]
      · have hport' := hidle.port_ne hrev hinfo hport (h.active hmem hentry)
        exact ⟨(h.mapped _ _ hmem).1, hport'⟩

theorem step_kept (h : t.Kept) (hidle : t.Idle e) (hstep : t.step e = some t') : t'.Kept := by
  rw [step] at hstep
  split at hstep
  · rename_i hen
    have hcall := toOption_eq_some hstep
    cases e with
    | connect ip port => exact h.connect hcall
    | disconnect ip key => exact h.disconnect hen hcall
    | datagram d => exact h.datagram hidle hcall
  · cases hstep

theorem run_kept (hidle : Along step Idle {} es) (hrun : Run es t) : t.Kept :=
  exec_invariant_along (fun _ _ _ h hp hs => step_kept h hp hs) kept_init hidle hrun

/-- `numActiveConns` of the entry of a key, 0 when there is none. -/
def numActive (t : Connector) (ip : Ip) (key : Port) : Int :=
  ((t.info.mapping ip key).map PortInfo.numActiveConns).getD 0

theorem mapping_of_numActive (h : 0 < t.numActive ip key) :
    ∃ info, t.info.mapping ip key = some info ∧ 0 < info.numActiveConns := by
  rw [numActive] at h
  cases hentry : t.info.mapping ip key with
  | none => rw [hentry] at h; cases h
  | some info =>
    rw [hentry] at h
    exact ⟨info, rfl, h⟩

/-- A step drops no entry that a connection uses. -/
theorem step_entry (hstep : t.step e = some t') (hactive : 0 < t.numActive ip key) :
    (t'.info.mapping ip key).isSome = true := by
  obtain ⟨info, hentry, hpos⟩ := mapping_of_numActive hactive
  have hsome : (t.info.mapping ip key).isSome = true := Option.isSome_iff_exists.mpr ⟨_, hentry⟩
  rw [step] at hstep
  split at hstep
  · have hcall := toOption_eq_some hstep
    cases e with
    | connect ip' port =>
      obtain ⟨⟨c, k⟩, hok, rfl⟩ := map_eq_ok hcall
      obtain ⟨_, _, _, rfl, _⟩ := ConnectionInfo.pcbConnect_ok hok
      refine ConnectionInfo.isSome_mapping_setPeer hsome fun heq => ?_
      subst heq
      rw [← t.info.getD_find?] at hsome
      have hconn := PeerInfo.connected ((t.info.peers.find? ip).getD {}) port
      generalize ((t.info.peers.find? ip).getD {}).connect port = r at hconn
      cases hconn with
      | busy _ => exact hsome
      | joined _ _ => exact PeerInfo.isSome_insert hsome
      | opened _ _ _ => exact PeerInfo.isSome_insert hsome
    | disconnect ip' k =>
      obtain ⟨c, hok, rfl⟩ := map_eq_ok hcall
      obtain ⟨_, peer, peer', hfind, hpeer, rfl⟩ := ConnectionInfo.pcbDisconnect_ok hok
      obtain ⟨_, _, _, rfl⟩ := PeerInfo.disconnect_ok hpeer
      refine ConnectionInfo.isSome_mapping_setPeer hsome fun heq => ?_
      subst heq
      rw [ConnectionInfo.mapping_of_find? hfind] at hsome
      exact PeerInfo.isSome_insert hsome
    | datagram d =>
      obtain ⟨⟨c, seg⟩, hok, rfl⟩ := map_eq_ok hcall
      cases ConnectionInfo.onRecv_change hok with
      | kept he _ _ => exact absurd rfl (he d)
      | cleared he _ => exact absurd rfl (he d)
      | ignored _ _ => exact hsome
      | learn _ =>
        refine ConnectionInfo.isSome_mapping_setPeer hsome fun heq => ?_
        subst heq
        rw [← t.info.getD_find?] at hsome
        exact PeerInfo.isSome_insert hsome
      | @received _ peer peer' _ _ hfind hpeer =>
        refine ConnectionInfo.isSome_mapping_setPeer hsome fun heq => ?_
        subst heq
        rw [ConnectionInfo.mapping_of_find? hfind] at hsome hentry
        cases hpeer with
        | same _ _ _ => exact hsome
        | fresh _ _ => exact hsome
        | moved _ _ _ _ => exact PeerInfo.isSome_insert hsome
        | @taken r i other tmpPort _ _ _ hfirst hidle =>
          obtain ⟨hfound, _⟩ := peer.portMap.first?_eq_some hfirst
          have hne : key ≠ tmpPort := by
            rintro rfl
            cases hentry.symm.trans hfound
            omega
          refine PeerInfo.isSome_insert ?_
          rw [Lib.OrderedMap.find?_erase_of_ne _ hne]
          exact hsome
  · cases hstep

/-- A call that meets the condition passes the assertion of `~PortInfo`. -/
theorem Idle.not_portInfo (hidle : t.Idle e) : failed (t.call e) ≠ some .portInfo := by
  intro hfail
  have herr := failed_eq_some hfail
  cases e with
  | connect ip port =>
    have hconn := map_eq_error herr
    rw [ConnectionInfo.pcbConnect] at hconn
    split at hconn
    · cases hconn
    · split at hconn
      · cases hconn
      · cases hconn
  | disconnect ip key =>
    have hdisc := map_eq_error herr
    rw [ConnectionInfo.pcbDisconnect] at hdisc
    split at hdisc
    · cases hdisc
    · split at hdisc
      · cases hdisc
      · split at hdisc
        · cases hdisc
        · have hpeer := map_eq_error hdisc
          rw [PeerInfo.disconnect] at hpeer
          split at hpeer
          · cases hpeer
          · split at hpeer
            · cases hpeer
            · cases hpeer
  | datagram d =>
    obtain ⟨peer, hfind, hrecv⟩ := ConnectionInfo.onRecv_error (map_eq_error herr)
    simp only [Idle, hfind, Option.all_some, decide_eq_true_eq] at hidle
    obtain ⟨r, hrev, ⟨hne, _⟩ | ⟨_, info, e, hinfo, hport, hfirst, hactive⟩⟩ :=
      PeerInfo.receive_error hrecv
    · cases hne
    · have hremaps : peer.remaps d.srcPort d.src = true := by
        simp [PeerInfo.remaps, hrev, hinfo, hport]
      have hzero := (hidle hremaps).1
      rw [hfirst] at hzero
      exact hactive (by simpa using hzero)

/-- The pcbs are the keys that were returned and not yet released. -/
theorem run_count (hrun : Run es t) (p : Ip × Port) :
    t.pcbs.count p + (trace step released {} es).count p =
      (trace step returned {} es).count p := by
  refine exec_induction (motive := fun es t => t.pcbs.count p +
    (trace step released {} es).count p = (trace step returned {} es).count p) rfl ?_ hrun
  intro es t e t' hrun ih hstep
  rw [trace_snoc released hrun, trace_snoc returned hrun, List.count_append, List.count_append]
  rw [step] at hstep
  split at hstep
  · rename_i hen
    have hcall := toOption_eq_some hstep
    cases e with
    | connect ip port =>
      obtain ⟨⟨c, key⟩, hok, rfl⟩ := map_eq_ok hcall
      simp only [released, returned, hok, List.count_nil]
      split
      · simpa using ih
      · rw [List.count_cons, List.count_singleton]
        omega
    | disconnect ip key =>
      obtain ⟨c, hok, rfl⟩ := map_eq_ok hcall
      have hmem : (ip, key) ∈ t.pcbs := hen
      simp only [released, returned, List.count_nil, List.count_singleton]
      rw [List.count_erase]
      by_cases hp : (ip, key) = p
      · subst hp
        have := List.count_pos_iff.mpr hmem
        simp only [beq_self_eq_true, ↓reduceIte]
        omega
      · have hbeq : ((ip, key) == p) = false := by simpa using hp
        simp only [hbeq, Bool.false_eq_true, ↓reduceIte]
        omega
    | datagram d =>
      obtain ⟨_, _, rfl⟩ := map_eq_ok hcall
      simpa [released, returned] using ih
  · cases hstep

theorem Kept.disconnect_finds (h : t.Kept) (hmem : (ip, key) ∈ t.pcbs) :
    failed (t.info.pcbDisconnect ip key) = none := by
  obtain ⟨hip, info, hentry, _⟩ := h.mapped ip key hmem
  have hkey := h.keys ip key info hentry
  have hpos := h.active hmem hentry
  have hrole := h.connector
  cases hfind : t.info.peers.find? ip with
  | none =>
    rw [ConnectionInfo.mapping, hfind] at hentry
    cases hentry
  | some peer =>
    rw [ConnectionInfo.mapping_of_find? hfind] at hentry
    have hle : 1 ≤ info.numActiveConns := hpos
    simp [ConnectionInfo.pcbDisconnect, PeerInfo.disconnect, hip, hkey, hrole, hfind, hentry, hle,
      Except.map, failed]

/-- In every run of `pcbConnect`, `pcbDisconnect` and datagrams in which no datagram remaps
an entry to the port of another entry in use, or an entry in use to port 0: the count of
every entry is what its key was returned less what it was released, every connected pcb can
be disconnected and its segments have a port to go to, and no step drops an entry in use. -/
theorem active_mappings_kept (hidle : Along step Idle {} es) (hrun : Run es t) :
    (∀ ip key info, t.info.mapping ip key = some info →
      info.numActiveConns = ((trace step returned {} es).count (ip, key) : Int) -
        (trace step released {} es).count (ip, key)) ∧
    (∀ ip key, (trace step released {} es).count (ip, key) <
        (trace step returned {} es).count (ip, key) →
      failed (t.info.pcbDisconnect ip key) = none ∧ t.info.actualPort ip key ≠ 0) ∧
    ∀ e, t.Idle e → failed (t.call e) ≠ some .portInfo ∧
      ∀ t', t.step e = some t' → ∀ ip key, 0 < t.numActive ip key →
        (t'.info.mapping ip key).isSome = true := by
  have hkept := run_kept hidle hrun
  refine ⟨fun ip key info hentry => ?_, fun ip key hlt => ?_, fun e he => ⟨he.not_portInfo, ?_⟩⟩
  · have hcount := run_count hrun (ip, key)
    rw [hkept.counts ip key info hentry]
    omega
  · have hcount := run_count hrun (ip, key)
    have hmem : (ip, key) ∈ t.pcbs := List.count_pos_iff.mp (by omega)
    obtain ⟨_, info, hentry, hport⟩ := hkept.mapped ip key hmem
    rw [ConnectionInfo.actualPort_of_mapping hentry]
    exact ⟨hkept.disconnect_finds hmem, hport⟩
  · intro t' hstep ip key hactive
    exact step_entry hstep hactive

/-- Two pcbs to one port and one to another; the last is disconnected, and then the port of
the first two is remapped to its port. -/
theorem active_mappings_kept_remapped :
    let es : List Event := [.connect 9 100, .connect 9 100, .connect 9 200,
      .disconnect 9 0x401, .datagram ⟨9, 100, 1, 5⟩, .datagram ⟨9, 200, 1, 5⟩]
    ∃ t, Run es t ∧ t.pcbs = [(9, 0x400), (9, 0x400)] ∧ t.info.actualPort 9 0x400 = 200 ∧
      (∀ info, t.info.mapping 9 0x400 = some info → info.numActiveConns = 2) ∧
      failed (t.info.pcbDisconnect 9 0x400) = none := by
  obtain ⟨t, hrun, hpcbs, hport⟩ : ∃ t, Run [.connect 9 100, .connect 9 100, .connect 9 200,
      .disconnect 9 0x401, .datagram ⟨9, 100, 1, 5⟩, .datagram ⟨9, 200, 1, 5⟩] t ∧
      (t.pcbs = [(9, 0x400), (9, 0x400)] ∧ t.info.actualPort 9 0x400 = 200) :=
    exec_check (by decide +kernel)
  obtain ⟨hcounts, hfinds, _⟩ := active_mappings_kept (by decide +kernel) hrun
  refine ⟨t, hrun, hpcbs, hport, fun info hentry => ?_, (hfinds 9 0x400 (by decide +kernel)).1⟩
  rw [hcounts 9 0x400 info hentry]
  decide +kernel

/-- Two pcbs of one peer are connected, and the TCP port that stands for the first sends
from the UDP port of the second: the entry of the second is erased although it is in use,
which `~PortInfo` asserts against. And a datagram from UDP port 0 leaves a connected pcb with
no port to send to. -/
theorem active_mapping_dropped :
    (∃ t, Run [.connect 9 100, .connect 9 200, .datagram ⟨9, 100, 1, 5⟩] t ∧
      t.numActive 9 0x401 = 1 ∧ failed (t.call (.datagram ⟨9, 200, 1, 5⟩)) = some .portInfo) ∧
    ∃ t, Run [.connect 9 100, .datagram ⟨9, 100, 1, 5⟩, .datagram ⟨9, 0, 1, 5⟩] t ∧
      t.numActive 9 0x400 = 1 ∧ t.info.actualPort 9 0x400 = 0 :=
  ⟨exec_check (by decide +kernel), exec_check (by decide +kernel)⟩

end Connector

end DTun.Util.Ltudp
