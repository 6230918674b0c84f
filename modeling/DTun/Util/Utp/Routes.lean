import DTun.Util.Utp.Manager
import DTun.Lib.OrderedMap

/-!
# Routes and sockets of a UTP transport

`Exact` says what a `ConnectionInfo` has to hold: the sockets that were bound on its transport
and one route for the peer name of each, and nothing else but the route of the datagram that
is being received. It only looks at the sockets of its own transport, so that a change to one
of them leaves the other transports alone.
-/

namespace DTun.Util.Utp

open Lib (OrderedMap)

namespace ConnectionInfo

variable {c : ConnectionInfo} {ip ip' : Ip} {u u' : UtpPort} {peer : PeerInfo}

theorem route_of_find? (h : c.peers.find? ip = some peer) (u : UtpPort) :
    c.route ip u = peer.portMap.find? u := by
  rw [route, h, Option.bind_some]

theorem getD_find? (c : ConnectionInfo) (ip : Ip) (u : UtpPort) :
    ((c.peers.find? ip).getD {}).portMap.find? u = c.route ip u := by
  rw [route]
  cases c.peers.find? ip with
  | none => rfl
  | some peer => rfl

theorem route_setRoute (c : ConnectionInfo) (ip : Ip) (u : UtpPort) (info : PortInfo) (ip' : Ip)
    (u' : UtpPort) : (c.setRoute ip u info).route ip' u' =
      if (ip', u') = (ip, u) then some info else c.route ip' u' := by
  rw [route, setRoute, OrderedMap.find?_insert]
  by_cases hip : ip' = ip
  · subst hip
    rw [if_pos rfl, Option.bind_some, OrderedMap.find?_insert, c.getD_find?]
    simp only [Prod.mk.injEq, true_and]
  · rw [if_neg hip, if_neg (fun h => hip (congrArg Prod.fst h))]
    rfl

theorem route_eraseRoute (hfind : c.peers.find? ip = some peer) (u : UtpPort) (ip' : Ip)
    (u' : UtpPort) : (c.eraseRoute ip peer u).route ip' u' =
      if (ip', u') = (ip, u) then none else c.route ip' u' := by
  have herase : (peer.portMap.erase u).find? u' =
      if (ip, u') = (ip, u) then none else c.route ip u' := by
    rw [OrderedMap.find?_erase, route_of_find? hfind]
    simp only [Prod.mk.injEq, true_and]
  rw [route, eraseRoute]
  dsimp only
  by_cases hip : ip' = ip
  · subst hip
    rw [← herase]
    split
    · rename_i hempty
      rw [OrderedMap.find?_erase, if_pos rfl, (OrderedMap.entries_isEmpty_iff _).mp hempty u']
      rfl
    · rw [OrderedMap.find?_insert_self]
      rfl
  · rw [if_neg (fun h => hip (congrArg Prod.fst h)), route]
    split
    · rw [OrderedMap.find?_erase_of_ne _ hip]
    · rw [OrderedMap.find?_insert_of_ne _ hip]

/-- A route that is in use stays. -/
theorem dropRoute_of_mtu (hpeer : c.peers.find? ip = some peer) {info : PortInfo}
    (hfind : peer.portMap.find? u = some info) (hmtu : info.mtuDiscovery = true) :
    c.dropRoute ip u = c := by
  have hsame : c.peers.insert ip peer = c.peers := OrderedMap.ext_find? fun k => by
    rw [OrderedMap.find?_insert]
    split
    · rename_i heq
      rw [heq, hpeer]
    · rfl
  simp only [dropRoute, hpeer, Option.getD_some, hfind, Option.any_some, hmtu, Bool.not_true,
    Bool.false_eq_true, ↓reduceIte, hsame]

theorem dropRoute_of_not (hpeer : c.peers.find? ip = some peer) {info : PortInfo}
    (hfind : peer.portMap.find? u = some info) (hmtu : info.mtuDiscovery = false) :
    c.dropRoute ip u = c.eraseRoute ip peer u := by
  simp only [dropRoute, hpeer, Option.getD_some, hfind, Option.any_some, hmtu, Bool.not_false,
    ↓reduceIte]

/-- No peer is without routes. -/
def NoEmptyPeer (c : ConnectionInfo) : Prop :=
  ∀ ip peer, c.peers.find? ip = some peer → peer.portMap.entries.isEmpty = false

theorem NoEmptyPeer.setRoute (h : c.NoEmptyPeer) (ip : Ip) (u : UtpPort) (info : PortInfo) :
    (c.setRoute ip u info).NoEmptyPeer := by
  intro ip' peer hp
  rw [ConnectionInfo.setRoute, OrderedMap.find?_insert] at hp
  split at hp
  · cases hp
    rw [Bool.eq_false_iff]
    intro hempty
    have hnone := (OrderedMap.entries_isEmpty_iff _).mp hempty u
    rw [OrderedMap.find?_insert_self] at hnone
    cases hnone
  · exact h ip' peer hp

theorem NoEmptyPeer.eraseRoute (h : c.NoEmptyPeer) (ip : Ip) (peer : PeerInfo) (u : UtpPort) :
    (c.eraseRoute ip peer u).NoEmptyPeer := by
  intro ip' peer' hp
  rw [ConnectionInfo.eraseRoute] at hp
  dsimp only at hp
  split at hp
  · exact h ip' peer' (OrderedMap.find?_of_erase _ hp)
  · rename_i hempty
    rw [OrderedMap.find?_insert] at hp
    split at hp
    · cases hp
      exact Bool.eq_false_iff.mpr hempty
    · exact h ip' peer' hp

/-- Where no peer is without routes, no routes means no peers. -/
theorem NoEmptyPeer.peers_isEmpty (h : c.NoEmptyPeer) (hroutes : ∀ ip u, c.route ip u = none) :
    c.peers.entries.isEmpty = true := by
  rw [OrderedMap.entries_isEmpty_iff]
  intro ip
  cases hp : c.peers.find? ip with
  | none => rfl
  | some peer =>
    have hempty : peer.portMap.entries.isEmpty = true := by
      rw [OrderedMap.entries_isEmpty_iff]
      intro u
      rw [← route_of_find? hp, hroutes]
    rw [h ip peer hp] at hempty
    cases hempty

end ConnectionInfo

/-- One of the sockets of the transport has the peer name. -/
def named (sockets : OrderedMap Nat Socket) (conn : Conn) (ip : Ip) (u : UtpPort) : Bool :=
  sockets.any fun _ k => k.conn = conn && k.name = some (ip, u)

theorem named_iff {sockets : OrderedMap Nat Socket} {conn : Conn} {ip : Ip} {u : UtpPort} :
    named sockets conn ip u = true ↔
      ∃ s k, sockets.find? s = some k ∧ k.conn = conn ∧ k.name = some (ip, u) := by
  rw [named, OrderedMap.any_iff]
  simp only [Bool.and_eq_true, decide_eq_true_eq]

/-- What is expected of the route of a peer name: that of a socket has its `mtuDiscovery`,
that of the datagram has none yet. -/
def expected (sockets : OrderedMap Nat Socket) (recv : Option (Ip × UtpPort)) (conn : Conn)
    (ip : Ip) (u : UtpPort) : Option Bool :=
  if named sockets conn ip u = true then some true
  else if recv = some (ip, u) then some false
  else none

/-- The `ConnectionInfo` of a transport, given all sockets and the datagram that is being
received through the transport. -/
structure Exact (sockets : OrderedMap Nat Socket) (recv : Option (Ip × UtpPort)) (conn : Conn)
    (c : ConnectionInfo) : Prop where
  socks : ∀ s, s ∈ c.utpSocks ↔ ∃ k, sockets.find? s = some k ∧ k.conn = conn
  nodup : c.utpSocks.Nodup
  acceptor : ∀ i, c.acceptorHandle = some i ↔
    ∃ s k, sockets.find? s = some k ∧ k.conn = conn ∧ k.name = none ∧ k.handle = some i
  routes : ∀ ip u, (c.route ip u).map PortInfo.mtuDiscovery = expected sockets recv conn ip u
  peers : c.NoEmptyPeer

namespace Exact

variable {sockets sockets' : OrderedMap Nat Socket} {recv : Option (Ip × UtpPort)} {conn : Conn}
  {c : ConnectionInfo} {n s : Nat} {k : Socket} {ip : Ip} {u : UtpPort}

/-- Only the sockets of the transport count. -/
theorem agree (h : Exact sockets recv conn c)
    (hsame : ∀ s k, k.conn = conn → (sockets'.find? s = some k ↔ sockets.find? s = some k)) :
    Exact sockets' recv conn c where
  socks := fun s => by
    rw [h.socks s]
    exact exists_congr fun k => and_congr_left fun hk => (hsame s k hk).symm
  nodup := h.nodup
  acceptor := fun i => by
    rw [h.acceptor i]
    exact exists_congr fun s => exists_congr fun k => and_congr_left fun hk => (hsame s k hk.1).symm
  routes := fun ip u => by
    have hnamed : named sockets' conn ip u = named sockets conn ip u := by
      rw [Bool.eq_iff_iff, named_iff, named_iff]
      exact exists_congr fun s => exists_congr fun k => and_congr_left fun hk => hsame s k hk.1
    rw [h.routes ip u, expected, expected, hnamed]
  peers := h.peers

theorem insert_other (h : Exact sockets recv conn c) (hfind : ∀ k', sockets.find? n = some k' →
    k'.conn ≠ conn) (hk : k.conn ≠ conn) : Exact (sockets.insert n k) recv conn c := by
  refine h.agree fun s k' hk' => ?_
  rw [OrderedMap.find?_insert]
  split
  · rename_i heq
    subst heq
    constructor
    · intro hsome
      cases hsome
      exact absurd hk' hk
    · intro hsome
      exact absurd hk' (hfind k' hsome)
  · exact Iff.rfl

theorem erase_other (h : Exact sockets recv conn c) (hfind : ∀ k', sockets.find? n = some k' →
    k'.conn ≠ conn) : Exact (sockets.erase n) recv conn c := by
  refine h.agree fun s k' hk' => ?_
  rw [OrderedMap.find?_erase]
  split
  · rename_i heq
    subst heq
    exact ⟨fun hsome => (by cases hsome), fun hsome => absurd hk' (hfind k' hsome)⟩
  · exact Iff.rfl

/-- A new transport has no sockets. -/
theorem fresh (hnone : ∀ s k, sockets.find? s = some k → k.conn ≠ conn) :
    Exact sockets none conn {} where
  socks := fun s => ⟨fun h => (List.not_mem_nil h).elim,
    fun ⟨k, hk, hc⟩ => absurd hc (hnone s k hk)⟩
  nodup := List.nodup_nil
  acceptor := fun i => ⟨fun h => (by cases h), fun ⟨s, k, hk, hc, _⟩ => absurd hc (hnone s k hk)⟩
  routes := fun ip u => by
    have hnamed : ¬ named sockets conn ip u = true := by
      rw [named_iff]
      rintro ⟨s, k, hk, hc, _⟩
      exact hnone s k hk hc
    rw [expected, if_neg hnamed]
    rfl
  peers := fun ip peer hp => by cases hp

theorem named_insert (hfind : sockets.find? n = none) (conn : Conn) (ip : Ip) (u : UtpPort) :
    named (sockets.insert n k) conn ip u = true ↔
      named sockets conn ip u = true ∨ k.conn = conn ∧ k.name = some (ip, u) := by
  simp only [named_iff, OrderedMap.find?_insert]
  constructor
  · rintro ⟨s, k', hk', hc⟩
    split at hk'
    · cases hk'
      exact .inr hc
    · exact .inl ⟨s, k', hk', hc⟩
  · rintro (⟨s, k', hk', hc⟩ | hc)
    · refine ⟨s, k', ?_, hc⟩
      rw [if_neg]
      · exact hk'
      · intro heq
        rw [heq, hfind] at hk'
        cases hk'
    · exact ⟨n, k, if_pos rfl, hc⟩

theorem mem_insert (h : Exact sockets recv conn c) (hk : k.conn = conn) (s : Nat) :
    s ∈ n :: c.utpSocks ↔ ∃ k', (sockets.insert n k).find? s = some k' ∧ k'.conn = conn := by
  rw [List.mem_cons, h.socks s, OrderedMap.find?_insert]
  split
  · rename_i heq
    exact ⟨fun _ => ⟨k, rfl, hk⟩, fun _ => .inl heq⟩
  · rename_i hne
    exact ⟨fun hs => hs.resolve_left hne, .inr⟩

theorem nodup_cons (h : Exact sockets recv conn c) (hfind : sockets.find? n = none) :
    (n :: c.utpSocks).Nodup := by
  refine List.nodup_cons.mpr ⟨fun hn => ?_, h.nodup⟩
  obtain ⟨k, hk, _⟩ := (h.socks n).mp hn
  rw [hfind] at hk
  cases hk

/-- A new socket of the transport listens. -/
theorem addListening (h : Exact sockets recv conn c) (hfind : sockets.find? n = none)
    (hnone : c.acceptorHandle = none) {i : Nat} (hk : k.conn = conn) (hname : k.name = none)
    (hhandle : k.handle = some i) :
    Exact (sockets.insert n k) recv conn
      { c with acceptorHandle := some i, utpSocks := n :: c.utpSocks } where
  socks := h.mem_insert hk
  nodup := h.nodup_cons hfind
  acceptor := by
    intro i'
    constructor
    · intro hi
      cases hi
      exact ⟨n, k, OrderedMap.find?_insert_self _, hk, hname, hhandle⟩
    · rintro ⟨s, k', hk', hc, hn, hh⟩
      rw [OrderedMap.find?_insert] at hk'
      split at hk'
      · cases hk'
        rw [hhandle] at hh
        exact hh
      · have hold := (h.acceptor i').mpr ⟨s, k', hk', hc, hn, hh⟩
        rw [hnone] at hold
        cases hold
  routes := by
    intro ip u
    have hnamed : named (sockets.insert n k) conn ip u = named sockets conn ip u := by
      rw [Bool.eq_iff_iff, named_insert hfind]
      refine or_iff_left fun hc => ?_
      rw [hname] at hc
      cases hc.2
    rw [expected, hnamed]
    exact h.routes ip u
  peers := h.peers

/-- A new socket of the transport takes a route over, or makes it. -/
theorem addNamed (h : Exact sockets recv conn c) (hfind : sockets.find? n = none)
    (hk : k.conn = conn) (hname : k.name = some (ip, u)) (port : Port) :
    Exact (sockets.insert n k) recv conn
      { c.setRoute ip u { port := port, mtuDiscovery := true } with
        utpSocks := n :: c.utpSocks } where
  socks := h.mem_insert hk
  nodup := h.nodup_cons hfind
  acceptor := by
    intro i
    refine (h.acceptor i).trans ?_
    constructor
    · rintro ⟨s, k', hk', hc⟩
      refine ⟨s, k', ?_, hc⟩
      rw [OrderedMap.find?_insert_of_ne]
      · exact hk'
      · intro heq
        rw [heq, hfind] at hk'
        cases hk'
    · rintro ⟨s, k', hk', hc, hn, hh⟩
      rw [OrderedMap.find?_insert] at hk'
      split at hk'
      · cases hk'
        rw [hname] at hn
        cases hn
      · exact ⟨s, k', hk', hc, hn, hh⟩
  routes := by
    intro ip' u'
    show ((c.setRoute ip u _).route ip' u').map _ = _
    rw [ConnectionInfo.route_setRoute, expected]
    split
    · rename_i heq
      rw [if_pos ((named_insert hfind _ _ _).mpr (.inr ⟨hk, by rw [hname, heq]⟩))]
      rfl
    · rename_i hne
      have hnamed : named (sockets.insert n k) conn ip' u' = named sockets conn ip' u' := by
        rw [Bool.eq_iff_iff, named_insert hfind]
        refine or_iff_left fun hc => hne ?_
        rw [hname] at hc
        exact (Option.some.inj hc.2).symm
      rw [hnamed]
      exact h.routes ip' u'
  peers := h.peers.setRoute ip u _

/-- The route of a datagram, before libutp sees it. -/
theorem recvBegin (h : Exact sockets none conn c) (srcPort : Port) :
    Exact sockets (some (ip, u)) conn
      (c.setRoute ip u { (c.route ip u).getD { port := srcPort } with port := srcPort }) where
  socks := h.socks
  nodup := h.nodup
  acceptor := h.acceptor
  routes := by
    intro ip' u'
    have hroute := h.routes ip' u'
    rw [ConnectionInfo.route_setRoute]
    by_cases heq : (ip', u') = (ip, u)
    · cases heq
      rw [if_pos rfl, expected]
      rw [expected] at hroute
      split
      · rename_i hnamed
        rw [if_pos hnamed] at hroute
        obtain ⟨info, hinfo, hmtu⟩ := Option.map_eq_some_iff.mp hroute
        rw [hinfo]
        exact congrArg some hmtu
      · rename_i hnamed
        rw [if_neg hnamed, if_neg (by simp), Option.map_eq_none_iff] at hroute
        rw [hroute, if_pos rfl]
        rfl
    · rw [if_neg heq, hroute, expected, expected, if_neg (c := none = some (ip', u')) (by simp),
        if_neg (c := some (ip, u) = some (ip', u'))]
      exact fun hsome => heq (Option.some.inj hsome).symm
  peers := h.peers.setRoute ip u _

theorem routed (h : Exact sockets recv conn c) :
    (c.route ip u).isSome = true ↔ named sockets conn ip u = true ∨ recv = some (ip, u) := by
  have hroute := h.routes ip u
  rw [expected] at hroute
  split at hroute
  · rename_i hnamed
    obtain ⟨info, hinfo, _⟩ := Option.map_eq_some_iff.mp hroute
    rw [hinfo]
    exact ⟨fun _ => .inl hnamed, fun _ => rfl⟩
  · rename_i hnamed
    split at hroute
    · rename_i hrecv
      obtain ⟨info, hinfo, _⟩ := Option.map_eq_some_iff.mp hroute
      rw [hinfo]
      exact ⟨fun _ => .inr hrecv, fun _ => rfl⟩
    · rename_i hrecv
      rw [Option.map_eq_none_iff] at hroute
      rw [hroute]
      exact ⟨fun hs => (by cases hs), fun hs => (hs.elim hnamed hrecv).elim⟩

/-- The route of the datagram is gone, unless a socket has it. -/
theorem recvEnd (h : Exact sockets (some (ip, u)) conn c) :
    Exact sockets none conn (c.dropRoute ip u) := by
  obtain ⟨info, hinfo⟩ := Option.isSome_iff_exists.mp (h.routed.mpr (.inr rfl))
  have hroute := h.routes ip u
  rw [hinfo, expected, Option.map_some] at hroute
  obtain ⟨peer, hpeer, hfind⟩ := Option.bind_eq_some_iff.mp hinfo
  -- the other routes do not change with what is received
  have hother : ∀ ip' u', (ip', u') ≠ (ip, u) →
      expected sockets (some (ip, u)) conn ip' u' = expected sockets none conn ip' u' := by
    intro ip' u' hne
    have hne : some (ip, u) ≠ some (ip', u') := fun heq => hne (Option.some.inj heq).symm
    have hnone : (none : Option (Ip × UtpPort)) ≠ some (ip', u') := by simp
    rw [expected, expected, if_neg hne, if_neg hnone]
  split at hroute
  · rename_i hnamed
    rw [ConnectionInfo.dropRoute_of_mtu hpeer hfind (Option.some.inj hroute)]
    refine ⟨h.socks, h.nodup, h.acceptor, fun ip' u' => ?_, h.peers⟩
    rw [h.routes]
    by_cases heq : (ip', u') = (ip, u)
    · cases heq
      rw [expected, expected, if_pos hnamed, if_pos hnamed]
    · exact hother ip' u' heq
  · rename_i hnamed
    rw [if_pos rfl] at hroute
    rw [ConnectionInfo.dropRoute_of_not hpeer hfind (Option.some.inj hroute)]
    refine ⟨h.socks, h.nodup, h.acceptor, fun ip' u' => ?_, h.peers.eraseRoute ip peer u⟩
    rw [ConnectionInfo.route_eraseRoute hpeer]
    split
    · rename_i heq
      cases heq
      rw [expected, if_neg hnamed, if_neg (by simp)]
      rfl
    · rename_i hne
      rw [h.routes, hother ip' u' hne]

theorem mem_erase (h : Exact sockets recv conn c) (s' : Nat) :
    s' ∈ c.utpSocks.erase s ↔ ∃ k', (sockets.erase s).find? s' = some k' ∧ k'.conn = conn := by
  rw [h.nodup.mem_erase_iff, h.socks s', OrderedMap.find?_erase]
  split
  · rename_i heq
    exact ⟨fun hs => absurd heq hs.1, fun ⟨k', hk', _⟩ => (by cases hk')⟩
  · rename_i hne
    exact ⟨fun hs => hs.2, fun hs => ⟨hne, hs⟩⟩

/-- The listening socket goes, the only one. -/
theorem removeListening (h : Exact sockets recv conn c) (hk : sockets.find? s = some k)
    (hname : k.name = none) (honly : ∀ s' k', sockets.find? s' = some k' → k'.conn = conn →
      k'.name = none → s' = s) :
    Exact (sockets.erase s) recv conn
      { c with acceptorHandle := none, utpSocks := c.utpSocks.erase s } where
  socks := h.mem_erase
  nodup := h.nodup.erase s
  acceptor := by
    intro i
    refine ⟨fun hi => (by cases hi), fun ⟨s', k', hk', hc, hn, _⟩ => ?_⟩
    rw [OrderedMap.find?_erase] at hk'
    split at hk'
    · cases hk'
    · rename_i hne
      exact absurd (honly s' k' hk' hc hn) hne
  routes := by
    intro ip u
    have hnamed : named (sockets.erase s) conn ip u = named sockets conn ip u := by
      rw [Bool.eq_iff_iff, named_iff, named_iff]
      refine exists_congr fun s' => exists_congr fun k' => and_congr_left fun hc => ?_
      rw [OrderedMap.find?_erase]
      split
      · rename_i heq
        refine ⟨fun hs => (by cases hs), fun hs => ?_⟩
        rw [heq, hk] at hs
        cases hs
        rw [hname] at hc
        cases hc.2
      · exact Iff.rfl
    rw [expected, hnamed]
    exact h.routes ip u
  peers := h.peers

/-- A socket with a peer loses its handle. -/
theorem detach (h : Exact sockets recv conn c) (hk : sockets.find? s = some k)
    (hname : k.name ≠ none) :
    Exact (sockets.insert s { k with handle := none }) recv conn c where
  socks := by
    intro s'
    rw [h.socks s', OrderedMap.find?_insert]
    split
    · rename_i heq
      rw [heq, hk]
      simp only [Option.some.injEq, exists_eq_left']
    · exact Iff.rfl
  nodup := h.nodup
  acceptor := by
    intro i
    rw [h.acceptor i]
    refine exists_congr fun s' => ?_
    rw [OrderedMap.find?_insert]
    split
    · rename_i heq
      rw [heq, hk]
      simp [hname]
    · exact Iff.rfl
  routes := by
    intro ip u
    have hnamed : named (sockets.insert s { k with handle := none }) conn ip u =
        named sockets conn ip u := by
      rw [Bool.eq_iff_iff, named_iff, named_iff]
      refine exists_congr fun s' => ?_
      rw [OrderedMap.find?_insert]
      split
      · rename_i heq
        rw [heq, hk]
        simp only [Option.some.injEq, exists_eq_left']
      · exact Iff.rfl
    rw [expected, hnamed]
    exact h.routes ip u
  peers := h.peers

/-- The socket's route is found, and goes with the socket when no other one has its name. -/
theorem removeUtpSock (h : Exact sockets none conn c) (hk : sockets.find? s = some k)
    (hc : k.conn = conn) (hname : k.name = some (ip, u))
    (honly : ∀ s' k', sockets.find? s' = some k' → k'.name = some (ip, u) → s' = s) :
    ∃ c', c.removeUtpSock s (some (ip, u)) = .ok c' ∧ Exact (sockets.erase s) none conn c' := by
  have hmem : s ∈ c.utpSocks := (h.socks s).mpr ⟨k, hk, hc⟩
  have hnamed : named sockets conn ip u = true := named_iff.mpr ⟨s, k, hk, hc, hname⟩
  obtain ⟨info, hinfo⟩ := Option.isSome_iff_exists.mp (h.routed.mpr (.inl hnamed))
  obtain ⟨peer, hpeer, hfind⟩ := Option.bind_eq_some_iff.mp hinfo
  refine ⟨({ c with utpSocks := c.utpSocks.erase s }).eraseRoute ip peer u, ?_, ?_⟩
  · rw [ConnectionInfo.removeUtpSock, if_neg (not_not_intro hmem)]
    dsimp only
    rw [hpeer]
    dsimp only
    rw [hfind, if_pos Option.isSome_some]
  · refine ⟨h.mem_erase, h.nodup.erase s, fun i => ?_, fun ip' u' => ?_,
      h.peers.eraseRoute ip peer u⟩
    · refine (h.acceptor i).trans (exists_congr fun s' => exists_congr fun k' => ?_)
      rw [OrderedMap.find?_erase]
      split
      · rename_i heq
        subst heq
        refine ⟨fun ⟨hk', _, hn, _⟩ => ?_, fun ⟨hk', _⟩ => (by cases hk')⟩
        rw [hk] at hk'
        cases hk'
        rw [hname] at hn
        cases hn
      · exact Iff.rfl
    · show ((c.eraseRoute ip peer u).route ip' u').map _ = _
      rw [ConnectionInfo.route_eraseRoute hpeer, expected, if_neg (c := none = some (ip', u'))
        (by simp)]
      split
      · rename_i heq
        cases heq
        rw [if_neg]
        · rfl
        · rw [named_iff]
          rintro ⟨s', k', hk', _, hn⟩
          rw [OrderedMap.find?_erase] at hk'
          split at hk'
          · cases hk'
          · rename_i hne
            exact hne (honly s' k' hk' hn)
      · rename_i hne
        have hsame : named (sockets.erase s) conn ip' u' = named sockets conn ip' u' := by
          rw [Bool.eq_iff_iff, named_iff, named_iff]
          refine exists_congr fun s' => exists_congr fun k' => and_congr_left fun hn => ?_
          rw [OrderedMap.find?_erase]
          split
          · rename_i heq
            refine ⟨fun hs => (by cases hs), fun hs => ?_⟩
            rw [heq, hk] at hs
            cases hs
            rw [hname] at hn
            exact absurd (Option.some.inj hn.2).symm hne
          · exact Iff.rfl
        rw [hsame, h.routes, expected, if_neg (c := none = some (ip', u')) (by simp)]

end Exact

end DTun.Util.Utp
