import Iec61850.Device.NameList
import Iec61850.Mms.Value
import Mathlib.Data.List.DropRight

/-! The cache of the values of a domain (`mms_value_cache.c`): a value is found under its own name
or as a part of the value of the nearest name above it. -/

namespace Iec61850

open Machine MmsVariableSpecification

namespace MmsValue

/-- `components[i]` -/
def component (value : MmsValue) (i : Nat) : Exec MmsValue :=
  match value with
  | .structured vs => (vs[i]?).elim (.error .outOfBounds) .ok
  | .array vs => (vs[i]?).elim (.error .outOfBounds) .ok
  | _ => .error .outOfBounds

end MmsValue

namespace MmsVariableSpecification

mutual

def getChildValue :
    MmsVariableSpecification → MmsValue → List UInt8 → Exec (Option MmsValue)
  | .structured _ elements, value, childId => getElementValue elements 0 value childId
  | _, _, _ => .ok none

/-- The loop over the elements, of which `i` are done. -/
def getElementValue :
    List MmsVariableSpecification → Nat → MmsValue → List UInt8 → Exec (Option MmsValue)
  | [], _, _, _ => .ok none
  | e :: es, i, value, childId =>
    if e.name = firstName childId then do
      let component ← value.component i
      match behindSeparator childId with
      | none => return some component
      | some rest => getChildValue e component rest
    else getElementValue es (i + 1) value childId

end

/-- The value that is at the end of the names, in a value of the type. -/
inductive HasComponent :
    MmsVariableSpecification → MmsValue → List (List UInt8) → MmsValue → Prop
  | here {v : MmsVariableSpecification} {value : MmsValue} : HasComponent v value [] value
  | component {name : List UInt8} {elements : List MmsVariableSpecification} {vs : List MmsValue}
    {i : Nat} {e : MmsVariableSpecification} {value w : MmsValue} {names : List (List UInt8)} :
    elements[i]? = some e → vs[i]? = some value → HasComponent e value names w →
    HasComponent (.structured name elements) (.structured vs) (e.name :: names) w

end MmsVariableSpecification

/-- The entries of the map are in the order in which they were added. -/
structure MmsValueCache where
  domain : MmsDomain
  map : List (List UInt8 × MmsValue)

/-- The name without its last part; a separator at its beginning does not count. -/
def getParentSubString : List UInt8 → Option (List UInt8)
  | [] => none
  | c :: cs =>
    if separator ∈ cs then some (c :: (cs.rdropWhile (· ≠ separator)).dropLast) else none

theorem length_getParentSubString {itemId parentId : List UInt8}
    (h : getParentSubString itemId = some parentId) : parentId.length < itemId.length := by
  cases itemId with
  | nil => cases h
  | cons c cs =>
    rw [getParentSubString] at h
    split at h
    case isFalse => cases h
    case isTrue hmem =>
      obtain rfl := Option.some.inj h
      have hpos := List.length_pos_of_mem hmem
      have hle := (List.rdropWhile_prefix (· ≠ separator) (l := cs)).length_le
      rw [List.length_cons, List.length_cons, List.length_dropLast]
      omega

namespace MmsValueCache

def create (domain : MmsDomain) : MmsValueCache := ⟨domain, []⟩

def insertValue (cache : MmsValueCache) (itemId : List UInt8) (value : MmsValue) :
    Exec MmsValueCache := do
  match ← cache.domain.getNamedVariable itemId with
  | some _ => return { cache with map := cache.map ++ [(itemId, value)] }
  | none => return cache

/-- `Map_getEntry` -/
def getEntry (cache : MmsValueCache) (key : List UInt8) : Option MmsValue :=
  (cache.map.find? (·.1 = key)).map (·.2)

def searchCacheForValue (cache : MmsValueCache) (itemId parentId : List UInt8) :
    Exec (Option MmsValue) :=
  match cache.getEntry parentId with
  | none =>
    match _h : getParentSubString parentId with
    | some parentItemId => cache.searchCacheForValue itemId parentItemId
    | none => .ok none
  | some value => do
    match ← cache.domain.getNamedVariable parentId with
    | some typeSpec => typeSpec.getChildValue value (itemId.drop (parentId.length + 1))
    | none => .error .nullPointer
termination_by parentId.length
decreasing_by exact length_getParentSubString _h

def lookupValue (cache : MmsValueCache) (itemId : List UInt8) : Exec (Option MmsValue) :=
  match cache.getEntry itemId with
  | some value => .ok (some value)
  | none =>
    match getParentSubString itemId with
    | some parentItemId => cache.searchCacheForValue itemId parentItemId
    | none => .ok none

end MmsValueCache

/-- The name with these parts. -/
def joinNames (names : List (List UInt8)) : List UInt8 := [separator].intercalate names

theorem joinNames_splitOn (nameId : List UInt8) : joinNames (nameId.splitOn separator) = nameId :=
  List.intercalate_splitOn separator

theorem joinNames_cons {names : List (List UInt8)} (h : names ≠ []) (first : List UInt8) :
    joinNames (first :: names) = first ++ separator :: joinNames names := by
  rw [joinNames, List.intercalate_cons_of_ne_nil h, List.append_assoc, List.singleton_append]
  rfl

theorem joinNames_append {upper lower : List (List UInt8)} (hu : upper ≠ []) (hl : lower ≠ []) :
    joinNames (upper ++ lower) = joinNames upper ++ separator :: joinNames lower := by
  induction upper with
  | nil => exact absurd rfl hu
  | cons first upper ih =>
    cases upper with
    | nil =>
      rw [List.singleton_append, joinNames_cons hl, joinNames, joinNames,
        List.intercalate_singleton]
    | cons second upper =>
      have hne := List.cons_ne_nil second upper
      rw [List.cons_append, joinNames_cons (List.append_ne_nil_of_left_ne_nil hne lower), ih hne,
        joinNames_cons hne, List.append_assoc, List.cons_append]

/-- There is no separator in a part of a name. -/
theorem separator_not_mem_of_mem_splitOn {nameId part : List UInt8}
    (h : part ∈ nameId.splitOn separator) : separator ∉ part := by
  induction nameId generalizing part with
  | nil =>
    obtain rfl := List.mem_singleton.mp h
    exact List.not_mem_nil
  | cons c cs ih =>
    rw [List.splitOn_cons_eq_if_modifyHead] at h
    split at h
    · rcases List.mem_cons.mp h with rfl | h
      · exact List.not_mem_nil
      · exact ih h
    case isFalse hc =>
      obtain ⟨first, rest, hsplit⟩ :=
        List.exists_cons_of_ne_nil (List.splitOn_ne_nil separator cs)
      rw [hsplit, List.modifyHead_cons] at h
      rcases List.mem_cons.mp h with rfl | h
      · intro hmem
        rcases List.mem_cons.mp hmem with rfl | hmem
        · exact hc (beq_self_eq_true _)
        · exact ih (hsplit ▸ List.mem_cons_self) hmem
      · exact ih (hsplit ▸ List.mem_cons_of_mem first h)

theorem getParentSubString_append {parentId last : List UInt8} (hp : parentId ≠ [])
    (hl : separator ∉ last) :
    getParentSubString (parentId ++ separator :: last) = some parentId := by
  obtain ⟨c, cs, rfl⟩ := List.exists_cons_of_ne_nil hp
  have hdrop : (cs ++ separator :: last).rdropWhile (· ≠ separator) = cs ++ [separator] := by
    rw [List.rdropWhile, List.reverse_append, List.reverse_cons, List.append_assoc,
      List.dropWhile_append_of_pos]
    · simp
    · intro c hc
      simpa using fun h : c = separator => hl (h ▸ List.mem_reverse.mp hc)
  rw [List.cons_append, getParentSubString, if_pos (by simp), hdrop, List.dropLast_concat]

namespace MmsVariableSpecification

variable {e v u : MmsVariableSpecification} {value w : MmsValue} {childId : List UInt8}
  {first : List UInt8} {names : List (List UInt8)} {elements : List MmsVariableSpecification}

/-- The loop comes to the only element with the name. -/
theorem getElementValue_of_getElem? {i j : Nat}
    (h : (elements.map MmsVariableSpecification.name).Nodup) (he : elements[j]? = some e)
    (hname : e.name = firstName childId) (hw : value.component (i + j) = .ok w) :
    (behindSeparator childId = none → getElementValue elements i value childId = .ok (some w)) ∧
    (∀ rest, behindSeparator childId = some rest →
      getElementValue elements i value childId = getChildValue e w rest) := by
  induction elements generalizing i j with
  | nil => simp at he
  | cons e' es ih =>
    rw [List.map_cons, List.nodup_cons] at h
    unfold getElementValue
    cases j with
    | zero =>
      obtain rfl := Option.some.inj he
      rw [Nat.add_zero] at hw
      rw [if_pos hname, hw]
      exact ⟨fun hsep => by rw [ok_bind, hsep]; rfl, fun rest hsep => by rw [ok_bind, hsep]⟩
    | succ j =>
      rw [List.getElem?_cons_succ] at he
      have hne : e'.name ≠ firstName childId := by
        intro heq
        rw [heq, ← hname] at h
        exact h.1 (List.mem_map_of_mem (List.mem_of_getElem? he))
      rw [if_neg hne]
      refine ih h.2 he ?_
      rwa [Nat.add_right_comm, Nat.add_assoc]

theorem firstName_of_splitOn (hn : childId.splitOn separator = first :: names) :
    firstName childId = first := by
  cases hsep : behindSeparator childId with
  | some rest =>
    rw [behindSeparator_some hsep] at hn
    exact (List.cons.inj hn).1
  | none =>
    have hplain : separator ∉ childId := by
      apply separator_not_mem_of_mem_splitOn
      rw [behindSeparator_none hsep]
      exact List.mem_cons_self
    rw [behindSeparator_none hsep] at hn
    rw [← (List.cons.inj hn).1, firstName, List.takeWhile_eq_self_iff]
    intro c hc
    simpa using fun h : c = separator => hplain (h ▸ hc)

theorem getChildValue_of_hasComponent (hu : u.WellNamed) (h : u.HasComponent value names w)
    (hn : childId.splitOn separator = names) : u.getChildValue value childId = .ok (some w) := by
  induction h generalizing childId with
  | here => exact absurd hn (List.splitOn_ne_nil _ _)
  | @component name elements vs i e value w names he hvalue hrest ih =>
    cases hu with
    | structured hnodup hplain hwell =>
      have hcomponent : (MmsValue.structured vs).component (0 + i) = .ok value := by
        rw [Nat.zero_add, MmsValue.component, hvalue]
        rfl
      obtain ⟨hlast, hinner⟩ := getElementValue_of_getElem? hnodup he
        (firstName_of_splitOn hn).symm hcomponent
      unfold getChildValue
      cases hsep : behindSeparator childId with
      | none =>
        rw [behindSeparator_none hsep] at hn
        obtain ⟨-, rfl⟩ := List.cons.inj hn
        cases hrest with
        | here => exact hlast hsep
      | some rest =>
        rw [behindSeparator_some hsep] at hn
        rw [hinner rest hsep]
        exact ih (hwell e (List.mem_of_getElem? he)) (List.cons.inj hn).2

end MmsVariableSpecification

namespace MmsValueCache

variable {cache : MmsValueCache} {nameId first : List UInt8} {u v : MmsVariableSpecification}
  {upper lower middle : List (List UInt8)} {value w : MmsValue}

/-- The upper part of the names is cached, and no longer part is. -/
structure Nearest (cache : MmsValueCache) (first : List UInt8) (upper lower : List (List UInt8))
    (value : MmsValue) : Prop where
  cached : cache.getEntry (joinNames (first :: upper)) = some value
  nearest : ∀ middle rest, lower = middle ++ rest → middle ≠ [] →
    cache.getEntry (joinNames (first :: (upper ++ middle))) = none

/-- A path through components is looked up in the nearest value that is cached, where it leads to
the component at the rest of the path. -/
def LooksUp (cache : MmsValueCache) (nameId : List UInt8) : Prop :=
  ∀ v ∈ cache.domain.namedVariables, ∀ upper lower u value w,
    nameId.splitOn separator = v.name :: (upper ++ lower) → v.Descends upper u →
    cache.Nearest v.name upper lower value → u.HasComponent value lower w →
    cache.lookupValue nameId = .ok (some w)

/-- A name is resolved as the path that it is, every name that is enumerated is resolved to what it
was made from, and a path is looked up as it is resolved. -/
structure Agrees (cache : MmsValueCache) (nameId : List UInt8) : Prop where
  resolves : cache.domain.Resolves nameId
  enumerates : ∀ p ∈ cache.domain.namedParts, cache.domain.getNamedVariable p.1 = .ok (some p.2)
  looksUp : cache.LooksUp nameId

theorem joinNames_ne_nil {names : List (List UInt8)} (h : first ≠ []) :
    joinNames (first :: names) ≠ [] := by
  cases names with
  | nil =>
    rw [joinNames, List.intercalate_singleton]
    exact h
  | cons second names =>
    rw [joinNames_cons (List.cons_ne_nil _ _)]
    exact List.append_ne_nil_of_left_ne_nil h _

/-- The parent of a name of at least two parts. -/
theorem getParentSubString_joinNames (names : List (List UInt8)) {last : List UInt8}
    (hf : first ≠ []) (hl : separator ∉ last) :
    getParentSubString (joinNames (first :: (names ++ [last]))) =
      some (joinNames (first :: names)) := by
  rw [← List.cons_append, joinNames_append (List.cons_ne_nil _ _) (List.cons_ne_nil _ _)]
  have hlast : joinNames [last] = last := by rw [joinNames, List.intercalate_singleton]
  rw [hlast]
  exact getParentSubString_append (joinNames_ne_nil hf) hl

theorem wellNamed_of_descends {names : List (List UInt8)} (hv : v.WellNamed)
    (h : v.Descends names u) : u.WellNamed := by
  induction h with
  | here => exact hv
  | component he _ ih =>
    cases hv with
    | structured hnodup hplain hwell => exact ih (hwell _ he)

/-- The search comes to the nearest name that is cached, and goes down from there. -/
theorem searchCacheForValue_of_nearest (hv : v ∈ cache.domain.namedVariables)
    (hplain : ∀ part ∈ v.name :: upper ++ lower, separator ∉ part) (hd : v.Descends upper u)
    (hlower : lower ≠ []) (hcached : cache.getEntry (joinNames (v.name :: upper)) = some value)
    (hcomponent : u.HasComponent value lower w) (hmiddle : ∀ part ∈ middle, separator ∉ part)
    (hnearest : ∀ m rest, middle = m ++ rest → m ≠ [] →
      cache.getEntry (joinNames (v.name :: (upper ++ m))) = none) :
    cache.searchCacheForValue (joinNames (v.name :: upper ++ lower))
      (joinNames (v.name :: (upper ++ middle))) = .ok (some w) := by
  induction middle using List.reverseRecOn with
  | nil =>
    have hupper : (joinNames (v.name :: upper)).splitOn separator = v.name :: upper := by
      refine List.splitOn_intercalate separator ?_ (List.cons_ne_nil _ _)
      exact fun part hpart => hplain part (List.mem_append_left _ hpart)
    have hsplit : (joinNames lower).splitOn separator = lower := by
      refine List.splitOn_intercalate separator ?_ hlower
      exact fun part hpart => hplain part (List.mem_append_right _ hpart)
    have hdrop : (joinNames (v.name :: upper ++ lower)).drop
        ((joinNames (v.name :: upper)).length + 1) = joinNames lower := by
      rw [joinNames_append (List.cons_ne_nil _ _) hlower, List.drop_append]
      simp
    rw [List.append_nil, searchCacheForValue, hcached]
    dsimp only
    rw [MmsDomain.getNamedVariable_of_descends hv hupper hd, ok_bind, hdrop]
    exact getChildValue_of_hasComponent
      (wellNamed_of_descends (cache.domain.wellNamed v hv) hd) hcomponent hsplit
  | append_singleton m last ih =>
    have hnone := hnearest (m ++ [last]) [] (List.append_nil _).symm
      (List.append_ne_nil_of_right_ne_nil _ (List.cons_ne_nil _ _))
    have hparent := getParentSubString_joinNames (upper ++ m)
      (cache.domain.plain v hv).2 (hmiddle last (List.mem_append_right _ List.mem_cons_self))
    rw [← List.append_assoc] at hnone ⊢
    rw [searchCacheForValue, hnone]
    dsimp only
    split
    case h_1 parentItemId hsome =>
      obtain rfl := Option.some.inj (hparent.symm.trans hsome)
      refine ih (fun part hpart => hmiddle part (List.mem_append_left _ hpart)) ?_
      intro m' rest hm hne
      exact hnearest m' (rest ++ [last]) (by rw [hm, List.append_assoc]) hne
    case h_2 hnothing =>
      rw [hparent] at hnothing
      cases hnothing

theorem lookupValue_of_nearest (hv : v ∈ cache.domain.namedVariables)
    (hn : nameId.splitOn separator = v.name :: (upper ++ lower)) (hd : v.Descends upper u)
    (hnearest : cache.Nearest v.name upper lower value)
    (hcomponent : u.HasComponent value lower w) :
    cache.lookupValue nameId = .ok (some w) := by
  have hname : nameId = joinNames (v.name :: upper ++ lower) := by
    rw [List.cons_append, ← hn, joinNames_splitOn]
  have hplain : ∀ part ∈ v.name :: upper ++ lower, separator ∉ part := by
    intro part hpart
    rw [List.cons_append, ← hn] at hpart
    exact separator_not_mem_of_mem_splitOn hpart
  obtain rfl | ⟨m, last, rfl⟩ := List.eq_nil_or_concat' lower
  · cases hcomponent with
    | here =>
      rw [List.append_nil] at hname
      rw [lookupValue, hname, hnearest.cached]
  · have hne : m ++ [last] ≠ [] :=
      List.append_ne_nil_of_right_ne_nil _ (List.cons_ne_nil _ _)
    have hnone := hnearest.nearest (m ++ [last]) [] (List.append_nil _).symm hne
    have hparent := getParentSubString_joinNames (upper ++ m)
      (cache.domain.plain v hv).2 (hplain last (List.mem_append_right _
        (List.mem_append_right _ List.mem_cons_self)))
    have hwhole : v.name :: upper ++ (m ++ [last]) = v.name :: (upper ++ m ++ [last]) := by
      rw [List.cons_append, List.append_assoc]
    rw [hwhole] at hname
    rw [← List.append_assoc] at hnone
    rw [lookupValue, hname, hnone]
    dsimp only
    rw [hparent]
    dsimp only
    rw [← hwhole]
    refine searchCacheForValue_of_nearest hv hplain hd hne hnearest.cached hcomponent ?_ ?_
    · intro part hpart
      exact hplain part (List.mem_append_right _ (List.mem_append_left _ hpart))
    · intro m' rest hm
      exact hnearest.nearest m' (rest ++ [last]) (by rw [hm, List.append_assoc])

/-- Resolution, enumeration and the cache agree on a name exactly when it does not go on where it
should not. -/
theorem agrees_iff (cache : MmsValueCache) (nameId : List UInt8) :
    cache.Agrees nameId ↔ ¬ cache.domain.Misled nameId := by
  constructor
  · intro h
    exact MmsDomain.resolves_iff.mp h.resolves
  · intro h
    refine ⟨MmsDomain.resolves_iff.mpr h, fun p hp => MmsDomain.getNamedVariable_of_mem hp, ?_⟩
    intro v hv upper lower u value w hn hd hnearest hcomponent
    exact lookupValue_of_nearest hv hn hd hnearest hcomponent

theorem nodup_sample : ([.structured [76] [.leaf [97] 32]].map name).Nodup := List.nodup_singleton _

theorem plain_sample : ∀ v ∈ [MmsVariableSpecification.structured [76] [.leaf [97] 32]],
    separator ∉ v.name ∧ v.name ≠ [] := by
  intro v hv
  obtain rfl := List.mem_singleton.mp hv
  exact ⟨by decide, by decide⟩

theorem wellNamed_sample :
    ∀ v ∈ [MmsVariableSpecification.structured [76] [.leaf [97] 32]], v.WellNamed := by
  intro v hv
  obtain rfl := List.mem_singleton.mp hv
  refine .structured (List.nodup_singleton _) ?_ ?_
  · intro e he
    obtain rfl := List.mem_singleton.mp he
    decide
  · intro e he
    obtain rfl := List.mem_singleton.mp he
    exact .leaf

/-- A variable `L` with the component `a`, which has none of its own. -/
def sampleDomain : MmsDomain :=
  ⟨[.structured [76] [.leaf [97] 32]], nodup_sample, plain_sample, wellNamed_sample⟩

/-- `L$a$x` is resolved to the component `a`. -/
theorem not_agrees_behind_leaf :
    ¬ ∀ (cache : MmsValueCache) (nameId : List UInt8), cache.Agrees nameId := by
  intro h
  apply MmsDomain.resolves_iff.mp (h (create sampleDomain) [76, 36, 97, 36, 120]).resolves
  exact ⟨_, List.mem_singleton_self _, [[97], [120]], by decide,
    .behindLeaf (List.mem_singleton_self _)⟩

end MmsValueCache

end Iec61850
