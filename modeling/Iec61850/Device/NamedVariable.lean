import Iec61850.Lib.Memory
import Mathlib.Data.List.Nodup
import Mathlib.Data.List.TakeWhile

/-! The named variables of a domain and how a name is resolved (`mms_domain.c`). -/

namespace Iec61850

open Machine

/-- `size` is what the type specification of a type without components says of it. -/
inductive MmsVariableSpecification
  | array (name : List UInt8) (elementCount : Int) (elementTypeSpec : MmsVariableSpecification)
  | structured (name : List UInt8) (elements : List MmsVariableSpecification)
  | leaf (name : List UInt8) (size : Int)

namespace MmsVariableSpecification

def name : MmsVariableSpecification → List UInt8
  | .array name _ _ => name
  | .structured name _ => name
  | .leaf name _ => name

def isStructure : MmsVariableSpecification → Bool
  | .structured _ _ => true
  | _ => false

/-- What stands where a structure has the number of its elements. -/
def count : MmsVariableSpecification → Int
  | .array _ elementCount _ => elementCount
  | .structured _ elements => elements.length
  | .leaf _ size => size

/-- The dollar sign -/
abbrev separator : UInt8 := 36

def firstName (nameId : List UInt8) : List UInt8 := nameId.takeWhile (· ≠ separator)

/-- What is behind the first separator. -/
def behindSeparator (nameId : List UInt8) : Option (List UInt8) :=
  match nameId.dropWhile (· ≠ separator) with
  | [] => none
  | _ :: rest => some rest

/-- A type that is no structure is searched like one as soon as there is a separator. Where its
number is not positive nothing is looked at, else it has no elements to look at. -/
def searchNoStructure (v : MmsVariableSpecification) (nameId : List UInt8) :
    Exec (Option MmsVariableSpecification) :=
  if (behindSeparator nameId).isSome && 0 < v.count then .error .outOfBounds else .ok none

mutual

def getNamedVariableRecursive :
    MmsVariableSpecification → List UInt8 → Exec (Option MmsVariableSpecification)
  | .structured _ elements, nameId =>
    match behindSeparator nameId with
    | none => .ok (elements.find? (·.name = nameId))
    | some rest => getNamedElement elements (firstName nameId) rest
  | v, nameId => v.searchNoStructure nameId

/-- The loop over the elements, and what is done with the one that has the first name. -/
def getNamedElement :
    List MmsVariableSpecification → List UInt8 → List UInt8 →
      Exec (Option MmsVariableSpecification)
  | [], _, _ => .ok none
  | .structured name elements :: vs, first, rest =>
    if name = first then getNamedVariableRecursive (.structured name elements) rest
    else getNamedElement vs first rest
  | .array name _ elementTypeSpec :: vs, first, rest =>
    if name = first then getNamedVariableRecursive elementTypeSpec rest
    else getNamedElement vs first rest
  | .leaf name size :: vs, first, rest =>
    if name = first then .ok (some (.leaf name size)) else getNamedElement vs first rest

end

/-- No two components of a structure have the same name, and there is no separator in a name. -/
inductive WellNamed : MmsVariableSpecification → Prop
  | array {name : List UInt8} {elementCount : Int} {v : MmsVariableSpecification} :
    WellNamed v → WellNamed (.array name elementCount v)
  | structured {name : List UInt8} {elements : List MmsVariableSpecification} :
    (elements.map MmsVariableSpecification.name).Nodup → (∀ e ∈ elements, separator ∉ e.name) →
    (∀ e ∈ elements, WellNamed e) → WellNamed (.structured name elements)
  | leaf {name : List UInt8} {size : Int} : WellNamed (.leaf name size)

/-- The names lead from a type to one of its parts, through component names and the types of
array elements. -/
inductive Reaches : MmsVariableSpecification → List (List UInt8) → MmsVariableSpecification → Prop
  | here {v : MmsVariableSpecification} : Reaches v [] v
  | component {name : List UInt8} {elements : List MmsVariableSpecification}
    {e v : MmsVariableSpecification} {names : List (List UInt8)} :
    e ∈ elements → Reaches e names v → Reaches (.structured name elements) (e.name :: names) v
  | element {name first : List UInt8} {elementCount : Int} {e v : MmsVariableSpecification}
    {names : List (List UInt8)} :
    Reaches e (first :: names) v → Reaches (.array name elementCount e) (first :: names) v

/-- The name goes on where it should not: behind a component without components of its own, or
into a type that is no structure but has the part all the same or is searched like one. -/
inductive Misled : MmsVariableSpecification → List (List UInt8) → Prop
  | behindLeaf {name leafName first : List UInt8} {size : Int}
    {elements : List MmsVariableSpecification} {names : List (List UInt8)} :
    .leaf leafName size ∈ elements →
    Misled (.structured name elements) (leafName :: first :: names)
  | component {name : List UInt8} {elements : List MmsVariableSpecification}
    {e : MmsVariableSpecification} {names : List (List UInt8)} :
    e ∈ elements → e.isStructure = true → Misled e names →
    Misled (.structured name elements) (e.name :: names)
  | element {name arrayName : List UInt8} {elementCount : Int} {v : MmsVariableSpecification}
    {elements : List MmsVariableSpecification} {names : List (List UInt8)} :
    .array arrayName elementCount v ∈ elements → Misled v names →
    Misled (.structured name elements) (arrayName :: names)
  | reaches {v w : MmsVariableSpecification} {first : List UInt8} {names : List (List UInt8)} :
    v.isStructure = false → Reaches v (first :: names) w → Misled v (first :: names)
  | searched {v : MmsVariableSpecification} {first second : List UInt8}
    {names : List (List UInt8)} :
    v.isStructure = false → 0 < v.count → Misled v (first :: second :: names)

/-- The answer is the part that the names lead to. -/
def Answers (v : MmsVariableSpecification) (names : List (List UInt8))
    (answer : Exec (Option MmsVariableSpecification)) : Prop :=
  ∃ r, answer = .ok r ∧ ∀ w, r = some w ↔ v.Reaches names w

theorem behindSeparator_none {nameId : List UInt8} (h : behindSeparator nameId = none) :
    nameId.splitOn separator = [nameId] := by
  apply List.splitOn_eq_singleton
  unfold behindSeparator at h
  split at h
  case h_1 hdrop =>
    intro hmem
    have hall := List.dropWhile_eq_nil_iff.mp hdrop separator hmem
    simp at hall
  case h_2 => cases h

theorem behindSeparator_some {nameId rest : List UInt8} (h : behindSeparator nameId = some rest) :
    nameId.splitOn separator = firstName nameId :: rest.splitOn separator := by
  unfold behindSeparator at h
  split at h
  case h_1 => cases h
  case h_2 c rest' hdrop =>
    obtain rfl := Option.some.inj h
    have hc : c = separator := by
      have hhead := List.head?_dropWhile_not (· ≠ separator) nameId
      rw [hdrop] at hhead
      simpa using hhead
    have hsplit := List.takeWhile_append_dropWhile (p := (· ≠ separator)) (l := nameId)
    rw [hdrop, hc] at hsplit
    have hnot : separator ∉ firstName nameId := by
      intro hmem
      have hpos := List.mem_takeWhile_imp hmem
      simp at hpos
    conv_lhs => rw [← hsplit]
    exact List.splitOn_append_cons_self_of_not_mem hnot rest'

/-- What is done with the element that has the first name. -/
def enter (e : MmsVariableSpecification) (rest : List UInt8) :
    Exec (Option MmsVariableSpecification) :=
  match e with
  | .structured _ _ => e.getNamedVariableRecursive rest
  | .array _ _ elementTypeSpec => elementTypeSpec.getNamedVariableRecursive rest
  | .leaf _ _ => .ok (some e)

theorem getNamedElement_cons (e : MmsVariableSpecification) (es : List MmsVariableSpecification)
    (first rest : List UInt8) :
    getNamedElement (e :: es) first rest =
      if e.name = first then e.enter rest else getNamedElement es first rest := by
  cases e <;> rfl

theorem getNamedElement_none {elements : List MmsVariableSpecification} {first : List UInt8}
    (h : ∀ e ∈ elements, e.name ≠ first) (rest : List UInt8) :
    getNamedElement elements first rest = .ok none := by
  induction elements with
  | nil => rfl
  | cons e es ih =>
    rw [getNamedElement_cons, if_neg (h e List.mem_cons_self)]
    exact ih fun e' he' => h e' (List.mem_cons_of_mem e he')

theorem getNamedElement_mem {elements : List MmsVariableSpecification}
    {e : MmsVariableSpecification} (h : (elements.map name).Nodup) (he : e ∈ elements)
    (rest : List UInt8) : getNamedElement elements e.name rest = e.enter rest := by
  induction elements with
  | nil => cases he
  | cons e' es ih =>
    rw [List.map_cons, List.nodup_cons] at h
    rw [getNamedElement_cons]
    rcases List.mem_cons.mp he with rfl | he
    · rw [if_pos rfl]
    · have hne : e'.name ≠ e.name := by
        intro heq
        rw [heq] at h
        exact h.1 (List.mem_map_of_mem he)
      rw [if_neg hne]
      exact ih h.2 he

section

variable {name : List UInt8} {elements : List MmsVariableSpecification}
  {e v w : MmsVariableSpecification} {first : List UInt8} {names : List (List UInt8)}

/-- A name is that of one component. -/
theorem eq_of_name (h : (elements.map MmsVariableSpecification.name).Nodup) (he : e ∈ elements)
    (hv : v ∈ elements) (hn : v.name = e.name) : v = e :=
  List.inj_on_of_nodup_map h hv he hn

theorem reaches_structured_iff (h : (elements.map MmsVariableSpecification.name).Nodup)
    (he : e ∈ elements) :
    Reaches (.structured name elements) (e.name :: names) w ↔ Reaches e names w := by
  constructor
  · intro hr
    generalize hfirst : e.name = first at hr
    cases hr with
    | component hv hr =>
      obtain rfl := eq_of_name h he hv hfirst.symm
      exact hr
  · exact .component he

theorem reaches_array_iff {elementCount : Int} :
    Reaches (.array name elementCount v) (first :: names) w ↔ Reaches v (first :: names) w := by
  constructor
  · intro hr
    cases hr with
    | element hr => exact hr
  · exact .element

theorem not_reaches_leaf {size : Int} : ¬ Reaches (.leaf name size) (first :: names) w := by
  rintro ⟨⟩

theorem misled_of_not_structure (hv : v.isStructure = false) :
    Misled v (first :: names) ↔
      (∃ w, Reaches v (first :: names) w) ∨ names ≠ [] ∧ 0 < v.count := by
  constructor
  · intro hm
    cases hm with
    | behindLeaf => cases hv
    | component => cases hv
    | element => cases hv
    | reaches _ hr => exact .inl ⟨_, hr⟩
    | searched _ hcount => exact .inr ⟨List.cons_ne_nil _ _, hcount⟩
  · rintro (⟨w, hr⟩ | ⟨hne, hcount⟩)
    · exact .reaches hv hr
    · cases names with
      | nil => exact absurd rfl hne
      | cons second names => exact .searched hv hcount

theorem not_misled_nil : ¬ Misled v [] := by
  rintro ⟨⟩

/-- What becomes of the names behind the element with the first one. -/
def MisledBehind (e : MmsVariableSpecification) (names : List (List UInt8)) : Prop :=
  match e with
  | .structured _ _ => e.Misled names
  | .array _ _ elementTypeSpec => elementTypeSpec.Misled names
  | .leaf _ _ => names ≠ []

theorem misled_structured_iff (h : (elements.map MmsVariableSpecification.name).Nodup)
    (he : e ∈ elements) :
    Misled (.structured name elements) (e.name :: names) ↔ e.MisledBehind names := by
  constructor
  · intro hm
    generalize hfirst : e.name = first at hm
    cases hm with
    | behindLeaf hv =>
      obtain rfl := eq_of_name h he hv hfirst.symm
      exact List.cons_ne_nil _ _
    | component hv hs hm =>
      rw [eq_of_name h he hv hfirst.symm] at hs hm
      cases e with
      | structured => exact hm
      | _ => cases hs
    | element hv hm =>
      obtain rfl := eq_of_name h he hv hfirst.symm
      exact hm
    | reaches hs => cases hs
    | searched hs => cases hs
  · intro hm
    cases e with
    | structured => exact .component he rfl hm
    | array => exact .element he hm
    | leaf =>
      cases names with
      | nil => exact absurd rfl hm
      | cons second names => exact .behindLeaf he

theorem answers_none_iff : Answers v names (.ok none) ↔ ¬ ∃ w, Reaches v names w := by
  constructor
  · rintro ⟨r, hr, hall⟩ ⟨w, hw⟩
    obtain rfl := Except.ok.inj hr
    cases (hall w).mpr hw
  · intro hnone
    exact ⟨none, rfl, fun w => ⟨fun h => (nomatch h), fun h => absurd ⟨w, h⟩ hnone⟩⟩

theorem not_answers_error {fault : Fault} : ¬ Answers v names (.error fault) := by
  rintro ⟨r, hr, -⟩
  cases hr

theorem getNamedVariableRecursive_not_structure (hv : v.isStructure = false)
    (nameId : List UInt8) : v.getNamedVariableRecursive nameId = v.searchNoStructure nameId := by
  cases v with
  | structured => cases hv
  | _ => rfl

theorem answers_searchNoStructure_iff (hv : v.isStructure = false) {nameId : List UInt8}
    (hn : nameId.splitOn separator = first :: names) :
    v.Answers (first :: names) (v.searchNoStructure nameId) ↔ ¬ v.Misled (first :: names) := by
  rw [misled_of_not_structure hv, searchNoStructure]
  cases hsep : behindSeparator nameId with
  | none =>
    rw [behindSeparator_none hsep] at hn
    obtain ⟨-, rfl⟩ := List.cons.inj hn
    simp [answers_none_iff]
  | some rest =>
    rw [behindSeparator_some hsep] at hn
    obtain ⟨-, rfl⟩ := List.cons.inj hn
    by_cases hcount : 0 < v.count
    · simp [hcount, not_answers_error]
    · simp [hcount, answers_none_iff]

theorem answers_structured_iff (h : (elements.map MmsVariableSpecification.name).Nodup)
    (he : e ∈ elements) (answer : Exec (Option MmsVariableSpecification)) :
    Answers (.structured name elements) (e.name :: names) answer ↔ Answers e names answer := by
  simp only [Answers, reaches_structured_iff h he]

theorem not_reaches_structured (h : ∀ e ∈ elements, e.name ≠ first) :
    ¬ ∃ w, Reaches (.structured name elements) (first :: names) w := by
  rintro ⟨w, hr⟩
  cases hr with
  | component he => exact h _ he rfl

theorem not_misled_structured (h : ∀ e ∈ elements, e.name ≠ first) :
    ¬ Misled (.structured name elements) (first :: names) := by
  intro hm
  cases hm with
  | behindLeaf he => exact h _ he rfl
  | component he => exact h _ he rfl
  | element he => exact h _ he rfl
  | reaches hs => cases hs
  | searched hs => cases hs

theorem answers_some_self : Answers v [] (.ok (some v)) := by
  refine ⟨some v, rfl, fun w => ⟨fun h => ?_, fun h => ?_⟩⟩
  · obtain rfl := Option.some.inj h
    exact .here
  · cases h with
    | here => rfl

theorem not_misledBehind_nil : ¬ e.MisledBehind [] := by
  cases e with
  | leaf => exact fun h => h rfl
  | _ => exact not_misled_nil

theorem find?_name (h : (elements.map MmsVariableSpecification.name).Nodup) (he : e ∈ elements) :
    elements.find? (·.name = e.name) = some e := by
  cases hfind : elements.find? (·.name = e.name) with
  | none =>
    have hnone := List.find?_eq_none.mp hfind e he
    simp at hnone
  | some v =>
    have hname : v.name = e.name := by simpa using List.find?_some hfind
    rw [eq_of_name h he (List.mem_of_find?_eq_some hfind) hname]

/-- The recursive search finds what the names lead to, and nothing else, unless it is misled. -/
theorem answers_iff (hv : v.WellNamed) {nameId : List UInt8}
    (hn : nameId.splitOn separator = first :: names) :
    v.Answers (first :: names) (v.getNamedVariableRecursive nameId) ↔
      ¬ v.Misled (first :: names) := by
  induction names generalizing v nameId first with
  | nil =>
    cases hv with
    | array | leaf =>
      rw [getNamedVariableRecursive_not_structure rfl]
      exact answers_searchNoStructure_iff rfl hn
    | @structured name elements hnodup hplain hwell =>
    cases hsep : behindSeparator nameId with
    | some rest =>
      rw [behindSeparator_some hsep] at hn
      exact absurd (List.cons.inj hn).2 (List.splitOn_ne_nil _ _)
    | none =>
      rw [behindSeparator_none hsep] at hn
      obtain ⟨rfl, -⟩ := List.cons.inj hn
      unfold getNamedVariableRecursive
      rw [hsep]
      dsimp only
      by_cases hex : ∃ e ∈ elements, e.name = nameId
      · obtain ⟨e, he, rfl⟩ := hex
        rw [find?_name hnodup he, answers_structured_iff hnodup he,
          misled_structured_iff hnodup he]
        exact iff_of_true answers_some_self not_misledBehind_nil
      · have hno : ∀ e ∈ elements, e.name ≠ nameId := fun e he heq => hex ⟨e, he, heq⟩
        rw [List.find?_eq_none.mpr (by simpa using hno), answers_none_iff]
        exact iff_of_true (not_reaches_structured hno) (not_misled_structured hno)
  | cons second names ih =>
    cases hv with
    | array | leaf =>
      rw [getNamedVariableRecursive_not_structure rfl]
      exact answers_searchNoStructure_iff rfl hn
    | @structured name elements hnodup hplain hwell =>
    cases hsep : behindSeparator nameId with
    | none =>
      rw [behindSeparator_none hsep] at hn
      cases (List.cons.inj hn).2
    | some rest =>
      rw [behindSeparator_some hsep] at hn
      obtain ⟨rfl, hrest⟩ := List.cons.inj hn
      unfold getNamedVariableRecursive
      rw [hsep]
      dsimp only
      by_cases hex : ∃ e ∈ elements, e.name = firstName nameId
      · obtain ⟨e, he, hfirst⟩ := hex
        rw [← hfirst, getNamedElement_mem hnodup he, answers_structured_iff hnodup he,
          misled_structured_iff hnodup he]
        cases hwell e he with
        | structured hnodup' hplain' hwell' => exact ih (.structured hnodup' hplain' hwell') hrest
        | array hwell' =>
          simp only [Answers, reaches_array_iff]
          exact ih hwell' hrest
        | leaf =>
          refine iff_of_false ?_ (not_not.mpr (List.cons_ne_nil _ _))
          rintro ⟨r, hr, hall⟩
          obtain rfl := Except.ok.inj hr
          exact not_reaches_leaf ((hall _).mp rfl)
      · have hno : ∀ e ∈ elements, e.name ≠ firstName nameId := fun e he heq => hex ⟨e, he, heq⟩
        rw [getNamedElement_none hno, answers_none_iff]
        exact iff_of_true (not_reaches_structured hno) (not_misled_structured hno)

end

end MmsVariableSpecification

/-- The variables of a domain, by names of their own. -/
structure MmsDomain where
  namedVariables : List MmsVariableSpecification
  nodup : (namedVariables.map MmsVariableSpecification.name).Nodup
  plain : ∀ v ∈ namedVariables, MmsVariableSpecification.separator ∉ v.name ∧ v.name ≠ []
  wellNamed : ∀ v ∈ namedVariables, v.WellNamed

namespace MmsDomain

open MmsVariableSpecification

def getNamedVariable (d : MmsDomain) (nameId : List UInt8) :
    Exec (Option MmsVariableSpecification) :=
  match behindSeparator nameId with
  | none => .ok (d.namedVariables.find? (·.name = nameId))
  | some rest =>
    match d.namedVariables.find? (·.name = firstName nameId) with
    | none => .ok none
    | some v => v.getNamedVariableRecursive rest

variable {d : MmsDomain} {nameId : List UInt8} {v w : MmsVariableSpecification}
  {names : List (List UInt8)}

/-- The name is a path from a variable of the domain to this part of it. -/
def HasPath (d : MmsDomain) (nameId : List UInt8) (w : MmsVariableSpecification) : Prop :=
  ∃ v ∈ d.namedVariables, ∃ names, nameId.splitOn separator = v.name :: names ∧ v.Reaches names w

/-- The name goes on where it should not. -/
def Misled (d : MmsDomain) (nameId : List UInt8) : Prop :=
  ∃ v ∈ d.namedVariables, ∃ names, nameId.splitOn separator = v.name :: names ∧ v.Misled names

/-- The name is resolved as the path that it is, or not at all. -/
def Resolves (d : MmsDomain) (nameId : List UInt8) : Prop :=
  ∃ r, d.getNamedVariable nameId = .ok r ∧ ∀ w, r = some w ↔ d.HasPath nameId w

theorem hasPath_iff (hv : v ∈ d.namedVariables)
    (hn : nameId.splitOn separator = v.name :: names) : d.HasPath nameId w ↔ v.Reaches names w := by
  constructor
  · rintro ⟨v', hv', names', hn', hr⟩
    obtain ⟨hname, rfl⟩ := List.cons.inj (hn.symm.trans hn')
    rwa [eq_of_name d.nodup hv hv' hname.symm] at hr
  · intro hr
    exact ⟨v, hv, names, hn, hr⟩

theorem misled_iff (hv : v ∈ d.namedVariables)
    (hn : nameId.splitOn separator = v.name :: names) : d.Misled nameId ↔ v.Misled names := by
  constructor
  · rintro ⟨v', hv', names', hn', hm⟩
    obtain ⟨hname, rfl⟩ := List.cons.inj (hn.symm.trans hn')
    rwa [eq_of_name d.nodup hv hv' hname.symm] at hm
  · intro hm
    exact ⟨v, hv, names, hn, hm⟩

theorem resolves_of_not_variable {first : List UInt8}
    (hn : nameId.splitOn separator = first :: names)
    (h : ∀ v ∈ d.namedVariables, v.name ≠ first) (hr : d.getNamedVariable nameId = .ok none) :
    d.Resolves nameId ↔ ¬ d.Misled nameId := by
  have hfirst {v : MmsVariableSpecification} {names' : List (List UInt8)}
      (hn' : nameId.splitOn separator = v.name :: names') : v.name = first :=
    (List.cons.inj (hn'.symm.trans hn)).1
  refine iff_of_true ⟨none, hr, fun w => iff_of_false (fun hw => (nomatch hw)) ?_⟩ ?_
  · rintro ⟨v, hv, names', hn', -⟩
    exact h v hv (hfirst hn')
  · rintro ⟨v, hv, names', hn', -⟩
    exact h v hv (hfirst hn')

/-- A name is resolved as the path that it is, exactly when it does not go on where it should
not. -/
theorem resolves_iff : d.Resolves nameId ↔ ¬ d.Misled nameId := by
  cases hsep : behindSeparator nameId with
  | none =>
    have hn := behindSeparator_none hsep
    have hget : d.getNamedVariable nameId = .ok (d.namedVariables.find? (·.name = nameId)) := by
      rw [getNamedVariable, hsep]
    by_cases hex : ∃ v ∈ d.namedVariables, v.name = nameId
    · obtain ⟨v, hv, rfl⟩ := hex
      rw [find?_name d.nodup hv] at hget
      rw [misled_iff hv hn, Resolves, hget]
      simp only [hasPath_iff hv hn]
      exact iff_of_true answers_some_self not_misled_nil
    · have hno : ∀ v ∈ d.namedVariables, v.name ≠ nameId := fun v hv heq => hex ⟨v, hv, heq⟩
      rw [List.find?_eq_none.mpr (by simpa using hno)] at hget
      exact resolves_of_not_variable hn hno hget
  | some rest =>
    have hn := behindSeparator_some hsep
    by_cases hex : ∃ v ∈ d.namedVariables, v.name = firstName nameId
    · obtain ⟨v, hv, hfirst⟩ := hex
      have hget : d.getNamedVariable nameId = v.getNamedVariableRecursive rest := by
        rw [getNamedVariable, hsep, ← hfirst, find?_name d.nodup hv]
      rw [← hfirst] at hn
      rw [misled_iff hv hn, Resolves, hget]
      simp only [hasPath_iff hv hn]
      obtain ⟨second, names, hrest⟩ :=
        List.exists_cons_of_ne_nil (List.splitOn_ne_nil separator rest)
      rw [hrest]
      exact answers_iff (d.wellNamed v hv) hrest
    · have hno : ∀ v ∈ d.namedVariables, v.name ≠ firstName nameId :=
        fun v hv heq => hex ⟨v, hv, heq⟩
      refine resolves_of_not_variable hn hno ?_
      rw [getNamedVariable, hsep]
      dsimp only
      rw [List.find?_eq_none.mpr (by simpa using hno)]

end MmsDomain

end Iec61850
