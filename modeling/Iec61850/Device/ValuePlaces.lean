import Iec61850.Device.ValueCache

/-! The places of values in a cache: a `MmsValue*` that a lookup returns leads into an entry, and a
value that is changed there is found at the same place afterwards. -/

namespace Iec61850

open Machine MmsVariableSpecification

namespace MmsValue

/-- The value that the components lead to. -/
def atPath : List Nat → MmsValue → Exec MmsValue
  | [], value => .ok value
  | i :: path, value => do atPath path (← value.component i)

def modifyComponent (i : Nat) (f : MmsValue → MmsValue) : MmsValue → MmsValue
  | .structured vs => .structured (vs.modify i f)
  | .array vs => .array (vs.modify i f)
  | value => value

/-- The value that the components lead to is changed, and no other part. -/
def modifyAt (f : MmsValue → MmsValue) : List Nat → MmsValue → MmsValue
  | [], value => f value
  | i :: path, value => value.modifyComponent i (modifyAt f path)

variable {f : MmsValue → MmsValue} {value w : MmsValue} {path : List Nat}

theorem getElem?_modify_self {vs : List MmsValue} {i : Nat} :
    (vs.modify i f)[i]? = vs[i]?.map f := by
  rw [List.getElem?_modify_eq]
  rfl

theorem component_modifyComponent {i : Nat} (h : value.component i = .ok w) :
    (value.modifyComponent i f).component i = .ok (f w) := by
  cases value with
  | structured vs =>
    rw [component] at h
    rw [modifyComponent, component, getElem?_modify_self]
    cases hw : vs[i]? with
    | none =>
      rw [hw] at h
      cases h
    | some u =>
      rw [hw] at h
      rw [← Except.ok.inj h]
      rfl
  | array vs =>
    rw [component] at h
    rw [modifyComponent, component, getElem?_modify_self]
    cases hw : vs[i]? with
    | none =>
      rw [hw] at h
      cases h
    | some u =>
      rw [hw] at h
      rw [← Except.ok.inj h]
      rfl
  | _ => cases h

theorem atPath_modifyAt (h : value.atPath path = .ok w) :
    (value.modifyAt f path).atPath path = .ok (f w) := by
  induction path generalizing value with
  | nil => rw [atPath, modifyAt, Except.ok.inj h]
  | cons i path ih =>
    obtain ⟨c, hc, h⟩ := bind_ok h
    rw [modifyAt, atPath, component_modifyComponent hc, ok_bind]
    exact ih h

end MmsValue

namespace MmsVariableSpecification

mutual

/-- The way to the component that `getChildValue` returns. -/
def getChildPath :
    MmsVariableSpecification → MmsValue → List UInt8 → Exec (Option (List Nat))
  | .structured _ elements, value, childId => getElementPath elements 0 value childId
  | _, _, _ => .ok none

def getElementPath :
    List MmsVariableSpecification → Nat → MmsValue → List UInt8 → Exec (Option (List Nat))
  | [], _, _, _ => .ok none
  | e :: es, i, value, childId =>
    if e.name = firstName childId then do
      let component ← value.component i
      match behindSeparator childId with
      | none => return some [i]
      | some rest => return (← getChildPath e component rest).map (i :: ·)
    else getElementPath es (i + 1) value childId

end

/-- The value at the end of the way. -/
def valueAtPath (value : MmsValue) : Option (List Nat) → Exec (Option MmsValue)
  | none => .ok none
  | some path => (value.atPath path).map some

variable {v : MmsVariableSpecification} {value w : MmsValue} {childId : List UInt8}
  {path : List Nat} {f : MmsValue → MmsValue}

theorem valueAtPath_cons {c : MmsValue} {i : Nat} (h : value.component i = .ok c)
    (found : Option (List Nat)) :
    valueAtPath value (found.map (i :: ·)) = valueAtPath c found := by
  cases found with
  | none => rfl
  | some path => rw [Option.map_some, valueAtPath, MmsValue.atPath, h, ok_bind, valueAtPath]

/-- The loop over the elements finds the way to the value that it finds. -/
theorem getElementValue_eq {elements : List MmsVariableSpecification}
    (ih : ∀ e ∈ elements, ∀ value childId,
      getChildValue e value childId = getChildPath e value childId >>= valueAtPath value)
    (i : Nat) (value : MmsValue) (childId : List UInt8) :
    getElementValue elements i value childId =
      getElementPath elements i value childId >>= valueAtPath value := by
  induction elements generalizing i with
  | nil => rfl
  | cons e es ihes =>
    rw [getElementValue, getElementPath]
    split
    case isFalse => exact ihes (fun e he => ih e (List.mem_cons_of_mem _ he)) (i + 1)
    case isTrue =>
      cases hc : value.component i with
      | error fault => rfl
      | ok c =>
        rw [ok_bind, ok_bind]
        cases behindSeparator childId with
        | none =>
          have hat : value.atPath [i] = .ok c := by
            rw [MmsValue.atPath, hc]
            rfl
          exact (congrArg (Except.map some) hat).symm
        | some rest =>
          dsimp only
          rw [ih e List.mem_cons_self c rest]
          cases getChildPath e c rest with
          | error fault => rfl
          | ok found => exact (valueAtPath_cons hc found).symm

theorem getChildValue_eq (v : MmsVariableSpecification) (value : MmsValue) (childId : List UInt8) :
    getChildValue v value childId = getChildPath v value childId >>= valueAtPath value := by
  induction v using specification_induction generalizing value childId with
  | array => rfl
  | leaf => rfl
  | structured name elements ih =>
    rw [getChildValue, getChildPath]
    exact getElementValue_eq ih 0 value childId

/-- The way is the same in a value that is changed at its end. -/
theorem getElementPath_modifyAt {elements : List MmsVariableSpecification}
    (ih : ∀ e ∈ elements, ∀ value childId path, getChildPath e value childId = .ok (some path) →
      getChildPath e (value.modifyAt f path) childId = .ok (some path))
    {i : Nat} (h : getElementPath elements i value childId = .ok (some path)) :
    getElementPath elements i (value.modifyAt f path) childId = .ok (some path) := by
  induction elements generalizing i with
  | nil => cases h
  | cons e es ihes =>
    rw [getElementPath] at h ⊢
    split at h
    case isFalse hne =>
      rw [if_neg hne]
      exact ihes (fun e he => ih e (List.mem_cons_of_mem _ he)) h
    case isTrue heq =>
      rw [if_pos heq]
      obtain ⟨c, hc, h⟩ := bind_ok h
      cases hsep : behindSeparator childId with
      | none =>
        rw [hsep] at h
        obtain rfl := Option.some.inj (Except.ok.inj h)
        rw [MmsValue.modifyAt, MmsValue.component_modifyComponent hc]
        rfl
      | some rest =>
        rw [hsep] at h
        obtain ⟨found, hfound, h⟩ := bind_ok h
        obtain ⟨path, rfl, rfl⟩ := Option.map_eq_some_iff.mp (Except.ok.inj h)
        rw [MmsValue.modifyAt, MmsValue.component_modifyComponent hc, ok_bind]
        dsimp only
        rw [ih e List.mem_cons_self c rest path hfound]
        rfl

theorem getChildPath_modifyAt (h : getChildPath v value childId = .ok (some path)) :
    getChildPath v (value.modifyAt f path) childId = .ok (some path) := by
  induction v using specification_induction generalizing value childId path with
  | array => cases h
  | leaf => cases h
  | structured name elements ih =>
    rw [getChildPath] at h ⊢
    exact getElementPath_modifyAt (fun e he value childId path h => ih e he h) h

end MmsVariableSpecification

/-- The entry that a value is in, and the way from there. -/
structure CachePlace where
  itemId : List UInt8
  path : List Nat
  deriving DecidableEq

namespace MmsValueCache

/-- `searchCacheForValue`, and where the value is that it returns. -/
def searchCacheForPlace (cache : MmsValueCache) (itemId parentId : List UInt8) :
    Exec (Option CachePlace) :=
  match cache.getEntry parentId with
  | none =>
    match _h : getParentSubString parentId with
    | some parentItemId => cache.searchCacheForPlace itemId parentItemId
    | none => .ok none
  | some value => do
    match ← cache.domain.getNamedVariable parentId with
    | some typeSpec =>
      return (← typeSpec.getChildPath value (itemId.drop (parentId.length + 1))).map
        (CachePlace.mk parentId)
    | none => .error .nullPointer
termination_by parentId.length
decreasing_by exact length_getParentSubString _h

/-- `MmsValueCache_lookupValue`, and where the value is that it returns. -/
def lookupPlace (cache : MmsValueCache) (itemId : List UInt8) : Exec (Option CachePlace) :=
  match cache.getEntry itemId with
  | some _ => .ok (some ⟨itemId, []⟩)
  | none =>
    match getParentSubString itemId with
    | some parentItemId => cache.searchCacheForPlace itemId parentItemId
    | none => .ok none

/-- The value at a place. -/
def valueAt (cache : MmsValueCache) (place : CachePlace) : Exec MmsValue :=
  match cache.getEntry place.itemId with
  | some value => value.atPath place.path
  | none => .error .notThere

def valueAtPlace (cache : MmsValueCache) : Option CachePlace → Exec (Option MmsValue)
  | none => .ok none
  | some place => (cache.valueAt place).map some

def modifyEntry (key : List UInt8) (f : MmsValue → MmsValue) :
    List (List UInt8 × MmsValue) → List (List UInt8 × MmsValue)
  | [] => []
  | entry :: entries =>
    if entry.1 = key then (entry.1, f entry.2) :: entries
    else entry :: modifyEntry key f entries

/-- The value at the place is changed, and nothing else. -/
def modifyAt (cache : MmsValueCache) (place : CachePlace) (f : MmsValue → MmsValue) :
    MmsValueCache :=
  { cache with map := modifyEntry place.itemId (MmsValue.modifyAt f place.path) cache.map }

variable {cache : MmsValueCache} {itemId parentId key : List UInt8} {place : CachePlace}
  {f : MmsValue → MmsValue} {value : MmsValue}

theorem find?_modifyEntry_self (entries : List (List UInt8 × MmsValue)) :
    ((modifyEntry key f entries).find? (·.1 = key)).map (·.2) =
      ((entries.find? (·.1 = key)).map (·.2)).map f := by
  induction entries with
  | nil => rfl
  | cons entry entries ih =>
    rw [modifyEntry]
    split
    case isTrue heq => rw [List.find?_cons_of_pos (by simpa), List.find?_cons_of_pos (by simpa)]; rfl
    case isFalse hne =>
      rw [List.find?_cons_of_neg (by simpa), List.find?_cons_of_neg (by simpa), ih]

theorem find?_modifyEntry_other {other : List UInt8} (h : other ≠ key)
    (entries : List (List UInt8 × MmsValue)) :
    ((modifyEntry key f entries).find? (·.1 = other)).map (·.2) =
      (entries.find? (·.1 = other)).map (·.2) := by
  induction entries with
  | nil => rfl
  | cons entry entries ih =>
    rw [modifyEntry]
    split
    case isTrue heq =>
      have hne : ¬ entry.1 = other := fun ho => h (ho.symm.trans heq)
      rw [List.find?_cons_of_neg (by simpa), List.find?_cons_of_neg (by simpa)]
    case isFalse =>
      by_cases ho : entry.1 = other
      · rw [List.find?_cons_of_pos (by simpa), List.find?_cons_of_pos (by simpa)]
      · rw [List.find?_cons_of_neg (by simpa), List.find?_cons_of_neg (by simpa), ih]

theorem getEntry_modifyAt_self (cache : MmsValueCache) (place : CachePlace)
    (f : MmsValue → MmsValue) :
    (cache.modifyAt place f).getEntry place.itemId =
      (cache.getEntry place.itemId).map (MmsValue.modifyAt f place.path) :=
  find?_modifyEntry_self cache.map

theorem getEntry_modifyAt_other {other : List UInt8} (h : other ≠ place.itemId) :
    (cache.modifyAt place f).getEntry other = cache.getEntry other :=
  find?_modifyEntry_other h cache.map

theorem valueAt_modifyAt (h : cache.valueAt place = .ok value) :
    (cache.modifyAt place f).valueAt place = .ok (f value) := by
  rw [valueAt] at h ⊢
  rw [getEntry_modifyAt_self]
  cases hentry : cache.getEntry place.itemId with
  | none =>
    rw [hentry] at h
    cases h
  | some entry =>
    rw [hentry] at h
    exact MmsValue.atPath_modifyAt h

/-- The value below an entry is the one at the place that is found. -/
theorem valueAtPlace_map (h : cache.getEntry key = some value) (found : Option (List Nat)) :
    cache.valueAtPlace (found.map (CachePlace.mk key)) = valueAtPath value found := by
  cases found with
  | none => rfl
  | some path =>
    rw [Option.map_some, valueAtPlace, valueAt]
    dsimp only
    rw [h]
    rfl

theorem searchCacheForValue_parent {parentItemId : List UInt8}
    (hentry : cache.getEntry parentId = none)
    (hparent : getParentSubString parentId = some parentItemId) :
    cache.searchCacheForValue itemId parentId =
      cache.searchCacheForValue itemId parentItemId := by
  rw [searchCacheForValue, hentry]
  dsimp only
  split
  case h_1 h => rw [Option.some.inj (hparent.symm.trans h)]
  case h_2 h => exact absurd (hparent.symm.trans h) (Option.some_ne_none _)

theorem searchCacheForValue_end (hentry : cache.getEntry parentId = none)
    (hparent : getParentSubString parentId = none) :
    cache.searchCacheForValue itemId parentId = .ok none := by
  rw [searchCacheForValue, hentry]
  dsimp only
  split
  case h_1 h => exact absurd (h.symm.trans hparent) (Option.some_ne_none _)
  case h_2 => rfl

theorem searchCacheForPlace_parent {parentItemId : List UInt8}
    (hentry : cache.getEntry parentId = none)
    (hparent : getParentSubString parentId = some parentItemId) :
    cache.searchCacheForPlace itemId parentId =
      cache.searchCacheForPlace itemId parentItemId := by
  rw [searchCacheForPlace, hentry]
  dsimp only
  split
  case h_1 h => rw [Option.some.inj (hparent.symm.trans h)]
  case h_2 h => exact absurd (hparent.symm.trans h) (Option.some_ne_none _)

theorem searchCacheForPlace_end (hentry : cache.getEntry parentId = none)
    (hparent : getParentSubString parentId = none) :
    cache.searchCacheForPlace itemId parentId = .ok none := by
  rw [searchCacheForPlace, hentry]
  dsimp only
  split
  case h_1 h => exact absurd (h.symm.trans hparent) (Option.some_ne_none _)
  case h_2 => rfl

theorem searchCacheForValue_eq (cache : MmsValueCache) (itemId parentId : List UInt8) :
    cache.searchCacheForValue itemId parentId =
      cache.searchCacheForPlace itemId parentId >>= cache.valueAtPlace := by
  induction hlen : parentId.length using Nat.strong_induction_on generalizing parentId with
  | _ n ih =>
    subst hlen
    cases hentry : cache.getEntry parentId with
    | none =>
      cases hparent : getParentSubString parentId with
      | none =>
        rw [searchCacheForValue_end hentry hparent, searchCacheForPlace_end hentry hparent]
        rfl
      | some parentItemId =>
        rw [searchCacheForValue_parent hentry hparent, searchCacheForPlace_parent hentry hparent]
        exact ih _ (length_getParentSubString hparent) parentItemId rfl
    | some value =>
      rw [searchCacheForValue, searchCacheForPlace, hentry]
      dsimp only
      cases cache.domain.getNamedVariable parentId with
      | error fault => rfl
      | ok typeSpec =>
        rw [ok_bind, ok_bind]
        cases typeSpec with
        | none => rfl
        | some typeSpec =>
          dsimp only
          rw [getChildValue_eq]
          cases typeSpec.getChildPath value (itemId.drop (parentId.length + 1)) with
          | error fault => rfl
          | ok found => exact (valueAtPlace_map hentry found).symm

/-- The lookup of a value is the lookup of its place. -/
theorem lookupValue_eq (cache : MmsValueCache) (itemId : List UInt8) :
    cache.lookupValue itemId = cache.lookupPlace itemId >>= cache.valueAtPlace := by
  rw [lookupValue, lookupPlace]
  cases hentry : cache.getEntry itemId with
  | some value => exact (valueAtPlace_map hentry (some [])).symm
  | none =>
    dsimp only
    cases getParentSubString itemId with
    | none => rfl
    | some parentItemId => exact cache.searchCacheForValue_eq itemId parentItemId

theorem getEntry_modifyAt_none (place : CachePlace) (f : MmsValue → MmsValue)
    (hentry : cache.getEntry key = none) :
    (cache.modifyAt place f).getEntry key = none := by
  by_cases hkey : key = place.itemId
  · subst hkey
    rw [getEntry_modifyAt_self, hentry]
    rfl
  · rw [getEntry_modifyAt_other hkey, hentry]

theorem searchCacheForPlace_modifyAt
    (h : cache.searchCacheForPlace itemId parentId = .ok (some place)) :
    (cache.modifyAt place f).searchCacheForPlace itemId parentId = .ok (some place) := by
  induction hlen : parentId.length using Nat.strong_induction_on generalizing parentId with
  | _ n ih =>
    subst hlen
    cases hentry : cache.getEntry parentId with
    | none =>
      have hentry' := getEntry_modifyAt_none place f hentry
      cases hparent : getParentSubString parentId with
      | none =>
        rw [searchCacheForPlace_end hentry hparent] at h
        cases h
      | some parentItemId =>
        rw [searchCacheForPlace_parent hentry hparent] at h
        rw [searchCacheForPlace_parent hentry' hparent]
        exact ih _ (length_getParentSubString hparent) h rfl
    | some value =>
      rw [searchCacheForPlace, hentry] at h
      rw [searchCacheForPlace]
      dsimp only at h
      obtain ⟨typeSpec, htype, h⟩ := bind_ok h
      cases typeSpec with
      | none => cases h
      | some typeSpec =>
        obtain ⟨found, hfound, h⟩ := bind_ok h
        obtain ⟨path, rfl, rfl⟩ := Option.map_eq_some_iff.mp (Except.ok.inj h)
        rw [getEntry_modifyAt_self cache ⟨parentId, path⟩ f, hentry]
        dsimp only [Option.map_some]
        rw [show (cache.modifyAt ⟨parentId, path⟩ f).domain = cache.domain from rfl, htype, ok_bind]
        dsimp only
        rw [getChildPath_modifyAt hfound]
        rfl

/-- A value that is changed is found at the same place. -/
theorem lookupPlace_modifyAt (h : cache.lookupPlace itemId = .ok (some place)) :
    (cache.modifyAt place f).lookupPlace itemId = .ok (some place) := by
  rw [lookupPlace] at h ⊢
  cases hentry : cache.getEntry itemId with
  | some value =>
    rw [hentry] at h
    obtain rfl := Option.some.inj (Except.ok.inj h)
    rw [getEntry_modifyAt_self cache ⟨itemId, []⟩ f, hentry]
    rfl
  | none =>
    rw [hentry] at h
    rw [getEntry_modifyAt_none place f hentry]
    dsimp only at h ⊢
    cases hparent : getParentSubString itemId with
    | none =>
      rw [hparent] at h
      cases h
    | some parentItemId =>
      rw [hparent] at h
      exact searchCacheForPlace_modifyAt h

end MmsValueCache

end Iec61850
