import Mathlib.Data.Nat.Find
import DTun.Node.MasterClient.Model
import DTun.Util.StreamAppConfig

/-!
# The routes of a node

The constructor of `DMasterClient` makes `routes_` as long as there are keys below
`node.route`, and each key fills the entry that `atoi` of it names. An entry that no key
fills, or whose mask does not parse, keeps the mask 0 and covers every address. Here the
answers of `getDstNodeId` are compared with those of the routes that the configuration
gives: the first of them, by index, that parses and covers the address.
-/

namespace DTun.Node.MasterClient

open DTun.Util DTun.Util.StreamAppConfig

/-- What a key below `node.route` says about addresses: `none` is what does not parse. -/
structure RouteRule where
  index : Int
  ip : Option Nat
  mask : Option Nat
  deriving DecidableEq, Repr

/-- All that the constructor reads for a key. -/
structure RouteLine extends RouteRule where
  node : Int
  deriving DecidableEq, Repr

def RouteEntry.covers (r : RouteEntry) (a : Nat) : Bool := a &&& r.mask = r.ip &&& r.mask

/-- One turn of the constructor's loop on the entry that it fills. -/
def RouteEntry.fill (r : RouteEntry) (l : RouteLine) : RouteEntry where
  ip := l.ip.getD r.ip
  mask := l.mask.getD r.mask
  nodeId := if 0 ≤ l.node then some l.node.toNat else r.nodeId

def setRoute (routes : List RouteEntry) (l : RouteLine) : List RouteEntry :=
  if l.index < 0 ∨ (routes.length : Int) ≤ l.index then routes
  else routes.modify l.index.toNat (·.fill l)

/-- The loop of the constructor. -/
def routesOf (lines : List RouteLine) : List RouteEntry :=
  lines.foldl setRoute (List.replicate lines.length {})

def routeKeys (cfg : PTree) : List Str := getSubKeys cfg "node.route".toList

def routeField (key field : Str) : Str := "node.route.".toList ++ key ++ '.' :: field

def routeRule (cfg : PTree) (key : Str) : RouteRule where
  index := Text.atoi key
  ip := Text.stringToIp (getString cfg (routeField key "ip".toList))
  mask := Text.stringToIp (getString cfg (routeField key "mask".toList))

def routeNode (cfg : PTree) (key : Str) : Int :=
  getSInt32 cfg (routeField key "node".toList) (-2 ^ 31) (2 ^ 31 - 1)

def routeLines (cfg : PTree) : List RouteLine :=
  (routeKeys cfg).map fun key => { routeRule cfg key with node := routeNode cfg key }

/-- `routes_` after the constructor. -/
def routes (cfg : PTree) : List RouteEntry := routesOf (routeLines cfg)

/-- Both addresses parse and the route covers `a`. -/
def RouteRule.covers (r : RouteRule) (a : Nat) : Bool :=
  match r.ip, r.mask with
  | some ip, some mask => a &&& mask = ip &&& mask
  | _, _ => false

/-- The index is one of the table. -/
def RouteRule.inRange (r : RouteRule) (size : Nat) : Bool := 0 ≤ r.index && r.index < size

/-- A route that is given and covers `a`. -/
def RouteRule.applies (r : RouteRule) (size a : Nat) : Bool := r.inRange size && r.covers a

def RouteLine.answer (l : RouteLine) : Option Nat := if 0 ≤ l.node then some l.node.toNat else none

theorem applies_iff {r : RouteRule} {size a : Nat} :
    r.applies size a = true ↔ 0 ≤ r.index ∧ r.index < size ∧ r.covers a = true := by
  simp [RouteRule.applies, RouteRule.inRange, and_assoc]

/-- The answer for `a` is that of a route with the least index among those that apply, and
no node when none applies. -/
def FirstMatch (lines : List RouteLine) (a : Nat) (answer : Option Nat) : Prop :=
  (∃ l ∈ lines, l.applies lines.length a = true ∧
    (∀ l' ∈ lines, l'.applies lines.length a = true → l.index ≤ l'.index) ∧
    answer = l.answer) ∨
  (∀ l ∈ lines, l.applies lines.length a = false) ∧ answer = none

instance (lines : List RouteLine) (a : Nat) (answer : Option Nat) :
    Decidable (FirstMatch lines a answer) :=
  inferInstanceAs (Decidable (_ ∨ _))

/-- The lines that fill entry `i`, in order. -/
def linesAt (lines : List RouteLine) (i : Nat) : List RouteLine :=
  lines.filter fun l => l.index = i

/-- The entry that these lines leave. -/
def entryAt (lines : List RouteLine) (i : Nat) : RouteEntry :=
  (linesAt lines i).foldl RouteEntry.fill {}

theorem getElem?_setRoute (rs : List RouteEntry) (l : RouteLine) (i : Nat) :
    (setRoute rs l)[i]? = rs[i]?.map fun r => if l.index = i then r.fill l else r := by
  unfold setRoute
  split
  · rename_i hout
    cases hi : rs[i]? with
    | none => rfl
    | some r =>
      obtain ⟨hlt, _⟩ := List.getElem?_eq_some_iff.mp hi
      have hne : l.index ≠ i := by omega
      rw [Option.map_some, if_neg hne]
  · rename_i hin
    rw [List.getElem?_modify]
    have hiff : l.index.toNat = i ↔ l.index = i := by omega
    cases hi : rs[i]? with
    | none => simp
    | some r => simp [hiff]

theorem getElem?_foldl_setRoute (lines : List RouteLine) (rs : List RouteEntry) (i : Nat) :
    (lines.foldl setRoute rs)[i]? = rs[i]?.map ((linesAt lines i).foldl RouteEntry.fill) := by
  induction lines generalizing rs with
  | nil => simp [linesAt]
  | cons l ls ih =>
    rw [List.foldl_cons, ih, getElem?_setRoute, Option.map_map]
    congr 1
    funext r
    by_cases hl : l.index = i
    · simp [linesAt, hl]
    · simp [linesAt, hl]

theorem getElem?_routesOf (lines : List RouteLine) (i : Nat) :
    (routesOf lines)[i]? = if i < lines.length then some (entryAt lines i) else none := by
  rw [routesOf, getElem?_foldl_setRoute, List.getElem?_replicate]
  split
  · rfl
  · rfl

/-- The last node that is not negative among the lines of an entry. -/
theorem nodeId_foldl_fill (ls : List RouteLine) (r : RouteEntry) :
    (ls.foldl RouteEntry.fill r).nodeId =
      ((ls.filter fun l => 0 ≤ l.node).getLast?.map fun l => l.node.toNat).or r.nodeId := by
  induction ls generalizing r with
  | nil => rfl
  | cons l ls ih =>
    rw [List.foldl_cons, ih]
    by_cases hl : 0 ≤ l.node
    · rw [List.filter_cons_of_pos (by simpa using hl), List.getLast?_cons]
      cases (ls.filter fun l => 0 ≤ l.node).getLast? with
      | none => simp [RouteEntry.fill, hl]
      | some l' => simp
    · rw [List.filter_cons_of_neg (by simpa using hl)]
      simp [RouteEntry.fill, hl]

/-- The address and the mask that rules leave in an entry: the last ones that parse. -/
def kept (rules : List RouteRule) : Nat × Nat :=
  rules.foldl (fun r p => (p.ip.getD r.1, p.mask.getD r.2)) (0, 0)

theorem foldl_fill_kept (ls : List RouteLine) (r : RouteEntry) :
    ((ls.foldl RouteEntry.fill r).ip, (ls.foldl RouteEntry.fill r).mask) =
      (ls.map RouteLine.toRouteRule).foldl (fun r p => (p.ip.getD r.1, p.mask.getD r.2))
        (r.ip, r.mask) := by
  induction ls generalizing r with
  | nil => rfl
  | cons l ls ih =>
    rw [List.foldl_cons, ih, List.map_cons, List.foldl_cons]
    rfl

/-- The rules for entry `i`. -/
def rulesAt (rules : List RouteRule) (i : Nat) : List RouteRule :=
  rules.filter fun p => p.index = i

/-- Entry `i` covers `a`, whatever its rules say for themselves. -/
def catches (rules : List RouteRule) (a i : Nat) : Bool :=
  a &&& (kept (rulesAt rules i)).2 = (kept (rulesAt rules i)).1 &&& (kept (rulesAt rules i)).2

theorem map_linesAt (lines : List RouteLine) (i : Nat) :
    (linesAt lines i).map RouteLine.toRouteRule = rulesAt (lines.map RouteLine.toRouteRule) i := by
  rw [rulesAt, linesAt, List.filter_map]
  rfl

theorem covers_entryAt (lines : List RouteLine) (a i : Nat) :
    (entryAt lines i).covers a = catches (lines.map RouteLine.toRouteRule) a i := by
  have hkept := foldl_fill_kept (linesAt lines i) {}
  rw [map_linesAt] at hkept
  have hip : (entryAt lines i).ip = (kept (rulesAt (lines.map RouteLine.toRouteRule) i)).1 :=
    congrArg Prod.fst hkept
  have hmask : (entryAt lines i).mask = (kept (rulesAt (lines.map RouteLine.toRouteRule) i)).2 :=
    congrArg Prod.snd hkept
  rw [RouteEntry.covers, hip, hmask]
  rfl

/-- Entry `i` is the first one that covers `a`. -/
structure FirstCatch (rules : List RouteRule) (a i : Nat) : Prop where
  lt : i < rules.length
  here : catches rules a i = true
  before : ∀ j < i, catches rules a j = false

theorem firstCatch_or (rules : List RouteRule) (a : Nat) :
    (∃ i, FirstCatch rules a i) ∨ ∀ i < rules.length, catches rules a i = false := by
  by_cases h : ∃ i, i < rules.length ∧ catches rules a i = true
  · left
    obtain ⟨hlt, hhere⟩ := Nat.find_spec h
    refine ⟨Nat.find h, hlt, hhere, ?_⟩
    intro j hj
    have hmin := Nat.find_min h hj
    cases hc : catches rules a j with
    | false => rfl
    | true => exact absurd ⟨hj.trans hlt, hc⟩ hmin
  · right
    intro i hi
    cases hc : catches rules a i with
    | false => rfl
    | true => exact absurd ⟨i, hi, hc⟩ h

variable {lines : List RouteLine} {a i : Nat} {cl : Client}

theorem getDstNodeId_eq (cl : Client) (a : Nat) :
    cl.getDstNodeId a = (cl.routes.find? (·.covers a)).bind RouteEntry.nodeId := by
  unfold Client.getDstNodeId RouteEntry.covers
  cases cl.routes.find? fun r => a &&& r.mask = r.ip &&& r.mask with
  | some r => rfl
  | none => rfl

theorem getDstNodeId_caught (hroutes : cl.routes = routesOf lines)
    (h : FirstCatch (lines.map RouteLine.toRouteRule) a i) :
    cl.getDstNodeId a = (entryAt lines i).nodeId := by
  have hlt : i < lines.length := by simpa using h.lt
  have hfind : cl.routes.find? (·.covers a) = some (entryAt lines i) := by
    rw [hroutes, List.find?_eq_some_iff_getElem, covers_entryAt]
    have hget : (routesOf lines)[i]? = some (entryAt lines i) := by
      rw [getElem?_routesOf, if_pos hlt]
    obtain ⟨hi, heq⟩ := List.getElem?_eq_some_iff.mp hget
    refine ⟨h.here, i, hi, heq, ?_⟩
    intro j hj
    have hgetj : (routesOf lines)[j]? = some (entryAt lines j) := by
      rw [getElem?_routesOf, if_pos (hj.trans hlt)]
    obtain ⟨_, heqj⟩ := List.getElem?_eq_some_iff.mp hgetj
    rw [heqj, covers_entryAt, h.before j hj]
    rfl
  rw [getDstNodeId_eq, hfind]
  rfl

theorem getDstNodeId_missed (hroutes : cl.routes = routesOf lines)
    (h : ∀ i < lines.length, catches (lines.map RouteLine.toRouteRule) a i = false) :
    cl.getDstNodeId a = none := by
  have hfind : cl.routes.find? (·.covers a) = none := by
    rw [hroutes, List.find?_eq_none]
    intro r hr
    obtain ⟨i, hi⟩ := List.mem_iff_getElem?.mp hr
    rw [getElem?_routesOf] at hi
    split at hi
    · rename_i hlt
      obtain rfl := Option.some.inj hi
      rw [covers_entryAt, h i hlt]
      exact Bool.false_ne_true
    · cases hi
  rw [getDstNodeId_eq, hfind]
  rfl

/-- The rules settle `a`. Either the first entry that covers it has rules, all of them cover
it, and no rule with a smaller index does; or no rule in range covers it, and the first entry
that does, if there is one, has no rules. -/
def Settled (rules : List RouteRule) (a : Nat) : Prop :=
  (∃ i, FirstCatch rules a i ∧ rulesAt rules i ≠ [] ∧ (∀ p ∈ rulesAt rules i, p.covers a = true) ∧
    ∀ p ∈ rules, p.applies rules.length a = true → i ≤ p.index) ∨
  (∀ p ∈ rules, p.applies rules.length a = false) ∧
    ∀ i, FirstCatch rules a i → rulesAt rules i = []

theorem mem_linesAt {l : RouteLine} : l ∈ linesAt lines i ↔ l ∈ lines ∧ l.index = i := by
  simp [linesAt]

theorem rulesAt_eq_nil :
    rulesAt (lines.map RouteLine.toRouteRule) i = [] ↔ linesAt lines i = [] := by
  rw [← map_linesAt, List.map_eq_nil_iff]

/-- The node of an entry is the answer of one of its lines, if it has any. -/
theorem nodeId_entryAt (hne : linesAt lines i ≠ []) :
    ∃ l ∈ linesAt lines i, (entryAt lines i).nodeId = l.answer := by
  rw [entryAt, nodeId_foldl_fill]
  cases hlast : ((linesAt lines i).filter fun l => 0 ≤ l.node).getLast? with
  | some l =>
    obtain ⟨hmem, hnode⟩ := List.mem_filter.mp (List.mem_of_getLast? hlast)
    refine ⟨l, hmem, ?_⟩
    simp [RouteLine.answer, of_decide_eq_true hnode]
  | none =>
    -- all nodes are negative, so any line will do
    obtain ⟨l, ls, hl⟩ := List.exists_cons_of_ne_nil hne
    have hmem : l ∈ linesAt lines i := by rw [hl]; exact List.mem_cons_self
    have hnil := List.getLast?_eq_none_iff.mp hlast
    have hneg : l.node < 0 := by simpa using List.filter_eq_nil_iff.mp hnil l hmem
    refine ⟨l, hmem, ?_⟩
    simp [RouteLine.answer, hneg]

theorem nodeId_entryAt_empty (h : linesAt lines i = []) : (entryAt lines i).nodeId = none := by
  rw [entryAt, h]
  rfl

/-- When the rules settle an address its answer is right, whatever the nodes are. -/
theorem Settled.firstMatch (h : Settled (lines.map RouteLine.toRouteRule) a)
    (hroutes : cl.routes = routesOf lines) : FirstMatch lines a (cl.getDstNodeId a) := by
  unfold Settled at h
  rw [List.length_map, List.forall_mem_map] at h
  rcases h with ⟨i, hcatch, hne, hall, hleast⟩ | ⟨hnone, hempty⟩
  · left
    rw [List.forall_mem_map] at hleast
    have hlines : linesAt lines i ≠ [] := fun hnil => hne (rulesAt_eq_nil.mpr hnil)
    obtain ⟨l, hl, hnode⟩ := nodeId_entryAt hlines
    obtain ⟨hmem, hindex⟩ := mem_linesAt.mp hl
    have hlt : i < lines.length := by simpa using hcatch.lt
    rw [← map_linesAt, List.forall_mem_map] at hall
    refine ⟨l, hmem, ?_, ?_, ?_⟩
    · rw [applies_iff]
      exact ⟨by omega, by omega, hall l hl⟩
    · intro l' hl' happlies
      rw [hindex]
      exact hleast l' hl' happlies
    · rw [getDstNodeId_caught hroutes hcatch, hnode]
  · right
    refine ⟨hnone, ?_⟩
    rcases firstCatch_or (lines.map RouteLine.toRouteRule) a with ⟨i, hcatch⟩ | hmissed
    · rw [getDstNodeId_caught hroutes hcatch]
      exact nodeId_entryAt_empty (rulesAt_eq_nil.mp (hempty i hcatch))
    · rw [List.length_map] at hmissed
      exact getDstNodeId_missed hroutes hmissed

/-- Rules as they are meant to be written: every entry has exactly one, and all of them
parse. -/
structure WellFormed (rules : List RouteRule) : Prop where
  single : ∀ i < rules.length, ∃ p, rulesAt rules i = [p]
  parses : ∀ p ∈ rules, p.ip.isSome = true ∧ p.mask.isSome = true

/-- Such an entry covers what its rule covers. -/
theorem WellFormed.catches_eq {rules : List RouteRule} (h : WellFormed rules) {p : RouteRule}
    (hp : rulesAt rules i = [p]) (a : Nat) : catches rules a i = p.covers a := by
  have hmem : p ∈ rules := by
    have hself : p ∈ rulesAt rules i := by rw [hp]; exact List.mem_singleton_self p
    exact (List.mem_filter.mp hself).1
  obtain ⟨hip, hmask⟩ := h.parses p hmem
  obtain ⟨ip, hip⟩ := Option.isSome_iff_exists.mp hip
  obtain ⟨mask, hmask⟩ := Option.isSome_iff_exists.mp hmask
  rw [catches, hp, RouteRule.covers, hip, hmask]
  simp [kept, hip, hmask]

/-- Rules that are well formed settle every address. -/
theorem WellFormed.settled {rules : List RouteRule} (h : WellFormed rules) (a : Nat) :
    Settled rules a := by
  have hat : ∀ p ∈ rules, p.applies rules.length a = true →
      ∃ j : Nat, p.index = j ∧ j < rules.length ∧ catches rules a j = true := by
    intro p hp happlies
    obtain ⟨hpos, hlt, hcovers⟩ := applies_iff.mp happlies
    obtain ⟨j, hj⟩ := Int.eq_ofNat_of_zero_le hpos
    have hjlt : j < rules.length := by omega
    obtain ⟨q, hq⟩ := h.single j hjlt
    have hmem : p ∈ rulesAt rules j := List.mem_filter.mpr ⟨hp, decide_eq_true hj⟩
    rw [hq, List.mem_singleton] at hmem
    refine ⟨j, hj, hjlt, ?_⟩
    rw [h.catches_eq hq, ← hmem]
    exact hcovers
  rcases firstCatch_or rules a with ⟨i, hcatch⟩ | hmissed
  · left
    obtain ⟨p, hp⟩ := h.single i hcatch.lt
    refine ⟨i, hcatch, by rw [hp]; exact List.cons_ne_nil p [], ?_, ?_⟩
    · rw [hp]
      intro q hq
      rw [List.mem_singleton.mp hq, ← h.catches_eq hp]
      exact hcatch.here
    · intro q hq happlies
      obtain ⟨j, hj, _, hc⟩ := hat q hq happlies
      rw [hj]
      by_contra hlt
      have hfalse := hcatch.before j (by omega)
      exact Bool.false_ne_true (hfalse.symm.trans hc)
  · right
    constructor
    · intro p hp
      cases happlies : p.applies rules.length a with
      | false => rfl
      | true =>
        obtain ⟨j, _, hjlt, hc⟩ := hat p hp happlies
        exact absurd hc (by simp [hmissed j hjlt])
    · intro i hcatch
      exact absurd hcatch.here (by simp [hmissed i hcatch.lt])

/-- Lines with the rules of `keys` and other nodes. -/
def relabel (keys : List Str) (rule : Str → RouteRule) (node : Str → Int) : List RouteLine :=
  keys.map fun k => { rule k with node := node k }

variable {keys : List Str} {rule : Str → RouteRule} {node : Str → Int}

theorem map_relabel : (relabel keys rule node).map RouteLine.toRouteRule = keys.map rule := by
  simp [relabel, Function.comp_def]

theorem length_relabel : (relabel keys rule node).length = keys.length := List.length_map _

theorem mem_rulesAt {p : RouteRule} :
    p ∈ rulesAt (keys.map rule) i ↔ ∃ k ∈ keys, rule k = p ∧ p.index = i := by
  simp only [rulesAt, List.mem_filter, List.mem_map, decide_eq_true_eq]
  constructor
  · rintro ⟨⟨k, hk, heq⟩, hindex⟩
    exact ⟨k, hk, heq, hindex⟩
  · rintro ⟨k, hk, heq, hindex⟩
    exact ⟨⟨k, hk, heq⟩, hindex⟩

theorem mem_relabel {l : RouteLine} :
    l ∈ relabel keys rule node ↔ ∃ k ∈ keys, { rule k with node := node k } = l :=
  List.mem_map

/-- With nodes 1 and -1 an entry that has a line with node 1 gets that node. -/
theorem nodeId_relabel (hnode : ∀ k, node k = 1 ∨ node k = -1) {k : Str} (hk : k ∈ keys)
    (hindex : (rule k).index = i) (hone : node k = 1) :
    (entryAt (relabel keys rule node) i).nodeId = some 1 := by
  have hmem : { rule k with node := node k } ∈ linesAt (relabel keys rule node) i :=
    mem_linesAt.mpr ⟨mem_relabel.mpr ⟨k, hk, rfl⟩, hindex⟩
  rw [entryAt, nodeId_foldl_fill]
  cases hlast : ((linesAt (relabel keys rule node) i).filter fun l => 0 ≤ l.node).getLast? with
  | none =>
    have hnil := List.getLast?_eq_none_iff.mp hlast
    have hneg := List.filter_eq_nil_iff.mp hnil _ hmem
    simp [hone] at hneg
  | some l =>
    obtain ⟨hl, hpos⟩ := List.mem_filter.mp (List.mem_of_getLast? hlast)
    obtain ⟨k', _, rfl⟩ := mem_relabel.mp (mem_linesAt.mp hl).1
    rcases hnode k' with hk' | hk'
    · simp [hk']
    · simp [hk'] at hpos

/-- Without a node the answer is wrong for every route that names one. -/
theorem not_firstMatch_none (hone : ∀ k, node k = 1) {p : RouteRule} (hp : p ∈ keys.map rule)
    (happlies : p.applies keys.length a = true) : ¬ FirstMatch (relabel keys rule node) a none := by
  obtain ⟨k, hk, rfl⟩ := List.mem_map.mp hp
  rintro (⟨l, hl, _, _, hnone⟩ | ⟨hall, _⟩)
  · obtain ⟨k', _, rfl⟩ := mem_relabel.mp hl
    simp [RouteLine.answer, hone] at hnone
  · rw [length_relabel] at hall
    have hfalse := hall _ (mem_relabel.mpr ⟨k, hk, rfl⟩)
    exact Bool.false_ne_true (hfalse.symm.trans happlies)

/-- Node 1 is wrong when every route that has it is not the one that should decide. -/
theorem not_firstMatch_one
    (h : ∀ k ∈ keys, node k = 1 → (rule k).covers a = true →
      ∃ p ∈ keys.map rule, p.applies keys.length a = true ∧ p.index < (rule k).index)
    (hnode : ∀ k, node k = 1 ∨ node k = -1) :
    ¬ FirstMatch (relabel keys rule node) a (some 1) := by
  rintro (⟨l, hl, happlies, hleast, hanswer⟩ | ⟨_, hnone⟩)
  · rw [length_relabel] at hleast happlies
    obtain ⟨k, hk, rfl⟩ := mem_relabel.mp hl
    rcases hnode k with hone | hneg
    · obtain ⟨p, hp, hpapplies, hlt⟩ := h k hk hone (applies_iff.mp happlies).2.2
      obtain ⟨k', hk', rfl⟩ := List.mem_map.mp hp
      have hle := hleast _ (mem_relabel.mpr ⟨k', hk', rfl⟩) hpapplies
      exact absurd hlt (not_lt.mpr hle)
    · simp [RouteLine.answer, hneg] at hanswer
  · cases hnone

/-- Some nodes make the answer for `a` wrong. -/
def Exposed (keys : List Str) (rule : Str → RouteRule) (a : Nat) : Prop :=
  ∃ node : Str → Int, (∀ k, node k = 1 ∨ node k = -1) ∧
    ∀ cl : Client, cl.routes = routesOf (relabel keys rule node) →
      ¬ FirstMatch (relabel keys rule node) a (cl.getDstNodeId a)

/-- The first entry that covers `a` is filled by key `k`, and no marked key should
decide. -/
theorem exposed_of_caught (hcatch : FirstCatch (keys.map rule) a i) {k : Str} (hk : k ∈ keys)
    (hindex : (rule k).index = i) (marked : Str → Bool) (hmarked : marked k = true)
    (h : ∀ k' ∈ keys, marked k' = true → (rule k').covers a = true →
      ∃ p ∈ keys.map rule, p.applies keys.length a = true ∧ p.index < (rule k').index) :
    Exposed keys rule a := by
  have hnode : ∀ k', (bif marked k' then (1 : Int) else -1) = 1 ∨
      (bif marked k' then (1 : Int) else -1) = -1 := by
    intro k'
    cases marked k' with
    | true => exact .inl rfl
    | false => exact .inr rfl
  refine ⟨fun k' => bif marked k' then 1 else -1, hnode, ?_⟩
  intro cl hroutes
  rw [getDstNodeId_caught hroutes (by rw [map_relabel]; exact hcatch),
    nodeId_relabel hnode hk hindex (by rw [hmarked]; rfl)]
  apply not_firstMatch_one _ hnode
  intro k' hk' hone hcovers
  cases hs : marked k' with
  | true => exact h k' hk' hs hcovers
  | false =>
    rw [hs] at hone
    cases hone

/-- No filled entry covers `a` first, and a route applies. -/
theorem exposed_of_none
    (hempty : ∀ i, FirstCatch (keys.map rule) a i → rulesAt (keys.map rule) i = [])
    {p : RouteRule} (hp : p ∈ keys.map rule) (happlies : p.applies keys.length a = true) :
    Exposed keys rule a := by
  refine ⟨fun _ => 1, fun _ => .inl rfl, ?_⟩
  intro cl hroutes
  have hnone : cl.getDstNodeId a = none := by
    rcases firstCatch_or (keys.map rule) a with ⟨i, hcatch⟩ | hmissed
    · have hlines : linesAt (relabel keys rule fun _ => 1) i = [] := by
        rw [← rulesAt_eq_nil, map_relabel]
        exact hempty i hcatch
      rw [getDstNodeId_caught hroutes (by rw [map_relabel]; exact hcatch)]
      exact nodeId_entryAt_empty hlines
    · apply getDstNodeId_missed hroutes
      rw [map_relabel, length_relabel]
      rw [List.length_map] at hmissed
      exact hmissed
  rw [hnone]
  exact not_firstMatch_none (fun _ => rfl) hp happlies

theorem exposed_of_not_settled (h : ¬ Settled (keys.map rule) a) : Exposed keys rule a := by
  rw [Settled, not_or, List.length_map] at h
  obtain ⟨hnotFirst, hnotNone⟩ := h
  by_cases hfilled : ∃ i, FirstCatch (keys.map rule) a i ∧ rulesAt (keys.map rule) i ≠ []
  · obtain ⟨i, hcatch, hne⟩ := hfilled
    by_cases hall : ∀ p ∈ rulesAt (keys.map rule) i, p.covers a = true
    · -- a route with a smaller index should decide: the lines of entry `i` say 1
      obtain ⟨p, hp, happlies, hlt⟩ :
          ∃ p ∈ keys.map rule, p.applies keys.length a = true ∧ p.index < i := by
        by_contra hno
        apply hnotFirst
        refine ⟨i, hcatch, hne, hall, ?_⟩
        intro p hp happlies
        by_contra hlt
        exact hno ⟨p, hp, happlies, not_le.mp hlt⟩
      obtain ⟨q, hq⟩ := List.exists_mem_of_ne_nil _ hne
      obtain ⟨k, hk, rfl, hindex⟩ := mem_rulesAt.mp hq
      apply exposed_of_caught hcatch hk hindex (fun k' => (rule k').index = i)
        (decide_eq_true hindex)
      intro k' _ hmarked _
      exact ⟨p, hp, happlies, (of_decide_eq_true hmarked).symm ▸ hlt⟩
    · -- a line of entry `i` does not cover `a`: it alone says 1
      obtain ⟨q, hq⟩ := not_forall.mp hall
      obtain ⟨hmem, hcovers⟩ := not_forall.mp hq
      obtain ⟨k, hk, rfl, hindex⟩ := mem_rulesAt.mp hmem
      apply exposed_of_caught hcatch hk hindex (fun k' => k' = k) (decide_eq_true rfl)
      intro k' _ hmarked hcovers'
      obtain rfl := of_decide_eq_true hmarked
      exact absurd hcovers' hcovers
  · have hempty : ∀ i, FirstCatch (keys.map rule) a i → rulesAt (keys.map rule) i = [] := by
      intro i hcatch
      by_contra hne
      exact hfilled ⟨i, hcatch, hne⟩
    obtain ⟨p, hp, happlies⟩ : ∃ p ∈ keys.map rule, p.applies keys.length a = true := by
      by_contra hno
      apply hnotNone
      refine ⟨?_, hempty⟩
      intro p hp
      cases happlies : p.applies keys.length a with
      | false => rfl
      | true => exact absurd ⟨p, hp, happlies⟩ hno
    exact exposed_of_none hempty hp happlies

/-- `cfg'` has the same keys below `node.route` as `cfg`, with the same texts of addresses and
masks. The nodes may differ. -/
def SameRules (cfg cfg' : PTree) : Prop :=
  routeKeys cfg' = routeKeys cfg ∧
    ∀ key ∈ routeKeys cfg, ∀ field ∈ ["ip".toList, "mask".toList],
      getString cfg' (routeField key field) = getString cfg (routeField key field)

theorem SameRules.routeRule_eq {cfg cfg' : PTree} (h : SameRules cfg cfg') {key : Str}
    (hkey : key ∈ routeKeys cfg) : routeRule cfg' key = routeRule cfg key := by
  rw [routeRule, routeRule, h.2 key hkey _ (by decide), h.2 key hkey _ (by decide)]

theorem SameRules.map_rule {cfg cfg' : PTree} (h : SameRules cfg cfg') :
    (routeKeys cfg').map (routeRule cfg') = (routeKeys cfg).map (routeRule cfg) := by
  rw [h.1]
  apply List.map_congr_left
  intro key hkey
  exact h.routeRule_eq hkey

theorem routeField_eq (key field : Str) :
    routeField key field = "node".toList ++ '.' :: fieldKey "route".toList key field := by
  have hlit : "node.route.".toList = "node".toList ++ '.' :: ("route".toList ++ ['.']) := by decide
  show "node.route.".toList ++ key ++ '.' :: field = _
  rw [fieldKey, hlit, List.append_assoc, List.append_assoc, List.cons_append, List.append_assoc,
    List.singleton_append]

/-- Every choice of the nodes 1 and -1 is that of a configuration. -/
theorem exists_config (cfg : PTree) (hnode : ∀ k, node k = 1 ∨ node k = -1) :
    ∃ cfg', SameRules cfg cfg' ∧
      routeLines cfg' = relabel (routeKeys cfg) (routeRule cfg) node := by
  have hsub : SubKeys (routeKeys cfg) := getSubKeys_subKeys cfg (by decide)
  let value : Str → Str → Str := fun key field =>
    if field = "node".toList then (if node key = 1 then "1".toList else "-1".toList)
    else getString cfg (routeField key field)
  let cfg' := tabulate "node".toList "route".toList (routeKeys cfg)
    ["ip".toList, "mask".toList, "node".toList] value
  have hkeys : routeKeys cfg' = routeKeys cfg :=
    getSubKeys_tabulate (by decide) (by decide) (by decide) hsub (by decide)
  have hfind : ∀ key ∈ routeKeys cfg, ∀ field ∈ ["ip".toList, "mask".toList, "node".toList],
      findKey cfg' (routeField key field) = some (.node (value key field) []) := by
    intro key hkey field hfield
    rw [routeField_eq]
    exact findKey_tabulate (by decide) (by decide) hsub hkey hfield
  have hsame : SameRules cfg cfg' := by
    refine ⟨hkeys, ?_⟩
    intro key hkey field hfield
    have hne : field ≠ "node".toList := by
      rintro rfl
      exact absurd hfield (by decide)
    rw [getString, hfind key hkey field (List.mem_append_left ["node".toList] hfield)]
    exact if_neg hne
  refine ⟨cfg', hsame, ?_⟩
  have hnodes : ∀ key ∈ routeKeys cfg, routeNode cfg' key = node key := by
    intro key hkey
    apply getSInt32_eq (hfind key hkey _ (by decide))
    · show Text.readSInt32 (if node key = 1 then "1".toList else "-1".toList) = some (node key)
      rcases hnode key with hone | hneg
      · rw [hone]
        decide
      · rw [hneg]
        decide
    · rcases hnode key with hone | hneg <;> omega
    · rcases hnode key with hone | hneg <;> omega
  rw [routeLines, hkeys]
  apply List.map_congr_left
  intro key hkey
  rw [hnodes key hkey, hsame.routeRule_eq hkey]

/-- For a configuration and an address: `getDstNodeId` gives the answer of the first route
that parses and covers the address, whatever the nodes of the routes are, exactly when the
rules of the configuration settle the address. -/
theorem getDstNodeId_firstMatch_iff (cfg : PTree) (a : Nat) :
    (∀ cfg', SameRules cfg cfg' → ∀ cl : Client, cl.routes = routes cfg' →
      FirstMatch (routeLines cfg') a (cl.getDstNodeId a)) ↔
    Settled ((routeKeys cfg).map (routeRule cfg)) a := by
  constructor
  · intro hright
    by_contra hnot
    obtain ⟨node, hnode, hwrong⟩ := exposed_of_not_settled hnot
    obtain ⟨cfg', hsame, hlines⟩ := exists_config cfg hnode
    rw [← hlines] at hwrong
    let cl : Client := { nodeId := 0, routes := routes cfg', bestEffort := false }
    exact hwrong cl rfl (hright cfg' hsame cl rfl)
  · intro hsettled cfg' hsame cl hroutes
    apply Settled.firstMatch _ hroutes
    have hrules : (routeLines cfg').map RouteLine.toRouteRule =
        (routeKeys cfg').map (routeRule cfg') := map_relabel
    rw [hrules, hsame.map_rule]
    exact hsettled

/-- An ini file with one section. -/
def iniFile (name : String) (entries : List (String × String)) : PTree :=
  .node [] [(name.toList, .node [] (entries.map fun e => (e.1.toList, .node e.2.toList [])))]

/-- Two routes that are numbered from 1: nothing fills entry 0. -/
def numberedFromOne : PTree :=
  iniFile "node"
    [("route.1.ip", "10.0.0.0"), ("route.1.mask", "255.0.0.0"), ("route.1.node", "5"),
      ("route.2.ip", "192.168.0.0"), ("route.2.mask", "255.255.0.0"), ("route.2.node", "6")]

/-- The mask of the first route has a typing error. -/
def badMask : PTree :=
  iniFile "node"
    [("route.0.ip", "10.0.0.0"), ("route.0.mask", "255.0.0"), ("route.0.node", "5"),
      ("route.1.ip", "192.168.0.0"), ("route.1.mask", "255.255.0.0"), ("route.1.node", "6")]

/-- In the first configuration there is no route to 10.0.0.1, which route 1 covers. In the
second 192.168.0.1, which only the last route covers, goes to the node of the first. -/
theorem getDstNodeId_misroutes :
    (∃ cl : Client, cl.routes = routes numberedFromOne ∧ cl.getDstNodeId 0x0100000A = none ∧
      ¬ FirstMatch (routeLines numberedFromOne) 0x0100000A (cl.getDstNodeId 0x0100000A)) ∧
    ∃ cl : Client, cl.routes = routes badMask ∧ cl.getDstNodeId 0x0100A8C0 = some 5 ∧
      ¬ FirstMatch (routeLines badMask) 0x0100A8C0 (cl.getDstNodeId 0x0100A8C0) :=
  ⟨⟨{ nodeId := 1, routes := routes numberedFromOne, bestEffort := false }, rfl,
      by decide +kernel, by decide +kernel⟩,
    ⟨{ nodeId := 1, routes := routes badMask, bestEffort := false }, rfl,
      by decide +kernel, by decide +kernel⟩⟩

end DTun.Node.MasterClient
