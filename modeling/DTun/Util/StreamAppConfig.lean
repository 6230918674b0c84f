import Mathlib.Data.List.Nodup
import Mathlib.Data.List.TakeWhile
import DTun.Util.Text

/-!
# The configuration of a process

`StreamAppConfig` reads an ini file into a property tree and looks values up by dotted keys:
what stands before the first dot is the section, the rest is one key of it, dots and all.
`read_ini` refuses a section that has a key twice, so which of them `find` takes does not
matter.
-/

namespace DTun.Util

/-- `boost::property_tree::ptree`. -/
inductive PTree where
  | node (data : Str) (children : List (Str × PTree))

namespace PTree

def data : PTree → Str
  | node data _ => data

def children : PTree → List (Str × PTree)
  | node _ children => children

def empty (t : PTree) : Bool := t.children.isEmpty

def find (t : PTree) (key : Str) : Option PTree :=
  (t.children.find? fun e => e.1 = key).map Prod.snd

theorem find_eq_some {t : PTree} {key : Str} (t' : PTree) (hmem : (key, t') ∈ t.children)
    (hall : ∀ e ∈ t.children, e.1 = key → e.2 = t') : t.find key = some t' := by
  rw [find]
  cases hfind : t.children.find? fun e => e.1 = key with
  | none =>
    have hno := List.find?_eq_none.mp hfind _ hmem
    simp at hno
  | some e =>
    have hkey : e.1 = key := by simpa using List.find?_some hfind
    rw [Option.map_some, hall e (List.mem_of_find?_eq_some hfind) hkey]

end PTree

namespace StreamAppConfig

/-- The section and the path of a key, an empty path when there is no dot. -/
def splitKey (key : Str) : Str × Str :=
  (key.takeWhile (· ≠ '.'), (key.dropWhile (· ≠ '.')).tail)

/-- The tree that is searched: the top level when the section name is empty, and otherwise a
section with keys. -/
def sectionTree (tree : PTree) (sectionName : Str) : Option PTree :=
  if sectionName = [] then some tree else (tree.find sectionName).filter fun t => !t.empty

/-- One turn of the loop of `getSubKeys`; `keySet` holds what is in `res`. -/
def collect (path : Str) (res : List Str) (e : Str × PTree) : List Str :=
  if e.2.empty = false then res
  else if path.isPrefixOf e.1 = false then res
  else
    let tmp := (e.1.drop path.length).takeWhile (· ≠ '.')
    if tmp = [] then res else if tmp ∈ res then res else res ++ [tmp]

def getSubKeys (tree : PTree) (key : Str) : List Str :=
  if key = [] then
    -- the section names, but for those with a dot
    (tree.children.filter fun e => !e.2.empty && !e.1.contains '.').map Prod.fst
  else
    let (sectionName, path) := splitKey key
    match sectionTree tree sectionName with
    | none => []
    | some t => t.children.foldl (collect (if path = [] then [] else path ++ ['.'])) []

def findKey (tree : PTree) (key : Str) : Option PTree :=
  if key = [] then none
  else
    let (sectionName, path) := splitKey key
    match sectionTree tree sectionName with
    | none => none
    | some t => (t.find path).filter PTree.empty

def getString (tree : PTree) (key : Str) : Str :=
  match findKey tree key with
  | none => []
  | some t => t.data

def getSInt32 (tree : PTree) (key : Str) (lower upper : Int) : Int :=
  match findKey tree key with
  | none => 0
  | some t =>
    match Text.readSInt32 t.data with
    | none => 0
    | some val => if val < lower then lower else if upper < val then upper else val

theorem getSInt32_eq {tree t : PTree} {key : Str} {lower upper val : Int}
    (hfind : findKey tree key = some t) (hread : Text.readSInt32 t.data = some val)
    (hlower : lower ≤ val) (hupper : val ≤ upper) : getSInt32 tree key lower upper = val := by
  simp [getSInt32, hfind, hread, Int.not_lt.mpr hlower, Int.not_lt.mpr hupper]

/-- What `getSubKeys` returns below a section: different names, none empty or with a dot. -/
structure SubKeys (res : List Str) : Prop where
  nodup : res.Nodup
  plain : ∀ k ∈ res, k ≠ [] ∧ '.' ∉ k

theorem SubKeys.collect {path : Str} {res : List Str} (h : SubKeys res) (e : Str × PTree) :
    SubKeys (collect path res e) := by
  unfold StreamAppConfig.collect
  split
  · exact h
  · split
    · exact h
    · generalize htmp : (e.1.drop path.length).takeWhile (· ≠ '.') = tmp
      dsimp only
      split
      · exact h
      · rename_i hne
        split
        · exact h
        · rename_i hnew
          have hdot : '.' ∉ tmp := by
            rw [← htmp]
            intro hmem
            simpa using List.mem_takeWhile_imp hmem
          constructor
          · rw [List.nodup_append]
            refine ⟨h.nodup, List.nodup_singleton _, ?_⟩
            intro a ha b hb hab
            rw [List.mem_singleton.mp hb] at hab
            exact hnew (hab ▸ ha)
          · intro k hk
            rcases List.mem_append.mp hk with hk | hk
            · exact h.plain k hk
            · rw [List.mem_singleton.mp hk]
              exact ⟨hne, hdot⟩

theorem SubKeys.foldl {path : Str} {l : List (Str × PTree)} {res : List Str} (h : SubKeys res) :
    SubKeys (l.foldl (StreamAppConfig.collect path) res) := by
  induction l generalizing res with
  | nil => exact h
  | cons e l ih => exact ih (h.collect e)

theorem getSubKeys_subKeys (tree : PTree) {key : Str} (hkey : key ≠ []) :
    SubKeys (getSubKeys tree key) := by
  have hnil : SubKeys [] := ⟨List.nodup_nil, by simp⟩
  rw [getSubKeys, if_neg hkey]
  dsimp only
  split
  · exact hnil
  · exact hnil.foldl

/-- The name of a field of an entry below a path. -/
def fieldKey (path k f : Str) : Str := path ++ '.' :: (k ++ '.' :: f)

/-- A configuration of one section that has all of `fields` for every one of `keys`. -/
def tabulate (name path : Str) (keys fields : List Str) (value : Str → Str → Str) : PTree :=
  .node [] [(name, .node [] (keys.flatMap fun k =>
    fields.map fun f => (fieldKey path k f, .node (value k f) [])))]

variable {name path : Str} {keys fields : List Str} {value : Str → Str → Str}

theorem forall_ne_dot {s : Str} (h : '.' ∉ s) : ∀ c ∈ s, decide (c ≠ '.') = true := by
  intro c hc
  simpa using ne_of_mem_of_not_mem hc h

theorem takeWhile_dot {s t : Str} (h : '.' ∉ s) : (s ++ '.' :: t).takeWhile (· ≠ '.') = s := by
  rw [List.takeWhile_append_of_pos (forall_ne_dot h), List.takeWhile_cons_of_neg (by simp),
    List.append_nil]

theorem splitKey_append {t : Str} (h : '.' ∉ name) : splitKey (name ++ '.' :: t) = (name, t) := by
  rw [splitKey, takeWhile_dot h, List.dropWhile_append_of_pos (forall_ne_dot h),
    List.dropWhile_cons_of_neg (by simp), List.tail_cons]

/-- Different entries have different field names. -/
theorem fieldKey_inj {k k' f f' : Str} (hk : '.' ∉ k) (hk' : '.' ∉ k')
    (h : fieldKey path k f = fieldKey path k' f') : k = k' ∧ f = f' := by
  have hrest : k ++ '.' :: f = k' ++ '.' :: f' := (List.cons.inj (List.append_cancel_left h)).2
  have hkeys : k = k' := by
    rw [← takeWhile_dot (t := f) hk, hrest, takeWhile_dot hk']
  subst hkeys
  exact ⟨rfl, (List.cons.inj (List.append_cancel_left hrest)).2⟩

theorem sectionTree_tabulate (hname : name ≠ []) (hkeys : keys ≠ []) (hfields : fields ≠ []) :
    sectionTree (tabulate name path keys fields value) name =
      some (.node [] (keys.flatMap fun k =>
        fields.map fun f => (fieldKey path k f, .node (value k f) []))) := by
  obtain ⟨k, ks, rfl⟩ := List.exists_cons_of_ne_nil hkeys
  obtain ⟨f, fs, rfl⟩ := List.exists_cons_of_ne_nil hfields
  simp [sectionTree, hname, tabulate, PTree.find, PTree.children, PTree.empty]

/-- A field of an entry adds the name of the entry, unless it is there. -/
theorem collect_field {k : Str} (hk : k ≠ []) (hdot : '.' ∉ k) (f : Str) (res : List Str) :
    collect (path ++ ['.']) res (fieldKey path k f, .node (value k f) []) =
      if k ∈ res then res else res ++ [k] := by
  have hsplit : fieldKey path k f = (path ++ ['.']) ++ (k ++ '.' :: f) := List.append_cons ..
  have hbelow : (path ++ ['.']).isPrefixOf (fieldKey path k f) = true :=
    List.isPrefixOf_iff_prefix.mpr ⟨_, hsplit.symm⟩
  have hdrop : (fieldKey path k f).drop (path ++ ['.']).length = k ++ '.' :: f := by
    rw [hsplit, List.drop_left]
  simp only [collect, PTree.empty, PTree.children, List.isEmpty_nil, hbelow, hdrop,
    takeWhile_dot hdot, hk, Bool.true_eq_false, ↓reduceIte]

theorem foldl_collect_known {k : Str} {res : List Str} (hk : k ≠ []) (hdot : '.' ∉ k)
    (hmem : k ∈ res) (fs : List Str) :
    (fs.map fun f => (fieldKey path k f, PTree.node (value k f) [])).foldl
      (collect (path ++ ['.'])) res = res := by
  induction fs with
  | nil => rfl
  | cons f fs ih =>
    rw [List.map_cons, List.foldl_cons, collect_field hk hdot, if_pos hmem]
    exact ih

/-- The fields of one entry add its name, once. -/
theorem foldl_collect_fields {k : Str} {res : List Str} (hk : k ≠ []) (hdot : '.' ∉ k)
    (hfields : fields ≠ []) (hnew : k ∉ res) :
    (fields.map fun f => (fieldKey path k f, PTree.node (value k f) [])).foldl
      (collect (path ++ ['.'])) res = res ++ [k] := by
  obtain ⟨f, fs, rfl⟩ := List.exists_cons_of_ne_nil hfields
  rw [List.map_cons, List.foldl_cons, collect_field hk hdot, if_neg hnew]
  exact foldl_collect_known hk hdot (by simp) fs

theorem foldl_collect_entries {res : List Str} (hfields : fields ≠ [])
    (hkeys : SubKeys (res ++ keys)) :
    (keys.flatMap fun k => fields.map fun f =>
      (fieldKey path k f, PTree.node (value k f) [])).foldl (collect (path ++ ['.'])) res =
      res ++ keys := by
  induction keys generalizing res with
  | nil => simp
  | cons k ks ih =>
    obtain ⟨hk, hdot⟩ := hkeys.plain k (by simp)
    have hnew : k ∉ res := by
      intro hmem
      exact (List.nodup_append.mp hkeys.nodup).2.2 k hmem k List.mem_cons_self rfl
    have hrest : SubKeys (res ++ [k] ++ ks) := by rwa [List.append_assoc]
    rw [List.flatMap_cons, List.foldl_append, foldl_collect_fields hk hdot hfields hnew, ih hrest,
      List.append_assoc]
    rfl

/-- The names of the entries are read back in order. -/
theorem getSubKeys_tabulate (hname : name ≠ []) (hdot : '.' ∉ name) (hpath : path ≠ [])
    (hkeys : SubKeys keys) (hfields : fields ≠ []) :
    getSubKeys (tabulate name path keys fields value) (name ++ '.' :: path) = keys := by
  have hkey : name ++ '.' :: path ≠ [] := by simp
  rw [getSubKeys, if_neg hkey, splitKey_append hdot]
  dsimp only
  cases keys with
  | nil =>
    -- a section without keys is not there
    have hnone : sectionTree (tabulate name path [] fields value) name = none := by
      rw [sectionTree, if_neg hname, PTree.find_eq_some (.node [] [])]
      · rfl
      · exact List.mem_singleton_self _
      · intro e he _
        rw [List.mem_singleton.mp he]
        rfl
    rw [hnone]
  | cons k ks =>
    rw [sectionTree_tabulate hname (List.cons_ne_nil k ks) hfields]
    dsimp only
    rw [if_neg hpath]
    exact foldl_collect_entries hfields hkeys

/-- So is the value of every field. -/
theorem findKey_tabulate (hname : name ≠ []) (hdot : '.' ∉ name) (hkeys : SubKeys keys)
    {k f : Str} (hk : k ∈ keys) (hf : f ∈ fields) :
    findKey (tabulate name path keys fields value) (name ++ '.' :: fieldKey path k f) =
      some (.node (value k f) []) := by
  have hkey : name ++ '.' :: fieldKey path k f ≠ [] := by simp
  rw [findKey, if_neg hkey, splitKey_append hdot]
  dsimp only
  rw [sectionTree_tabulate hname (List.ne_nil_of_mem hk) (List.ne_nil_of_mem hf)]
  dsimp only
  rw [PTree.find_eq_some (.node (value k f) [])]
  · rfl
  · exact List.mem_flatMap.mpr ⟨k, hk, List.mem_map.mpr ⟨f, hf, rfl⟩⟩
  · intro e he heq
    obtain ⟨k', hk', he⟩ := List.mem_flatMap.mp he
    obtain ⟨f', _, rfl⟩ := List.mem_map.mp he
    obtain ⟨rfl, rfl⟩ := fieldKey_inj (hkeys.plain k' hk').2 (hkeys.plain k hk).2 heq
    rfl

end StreamAppConfig

end DTun.Util
