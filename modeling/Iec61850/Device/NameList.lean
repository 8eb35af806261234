import Iec61850.Device.NamedVariable

/-! The names of a domain's variables and their parts, as the service that enumerates them makes
them (`mms_get_namelist_service.c`). -/

namespace Iec61850

namespace MmsVariableSpecification

def appendMmsSubVariable (name child : List UInt8) : List UInt8 := name ++ separator :: child

mutual

/-- The names in the order of the list, each with the type it is made from. -/
def addSubNamedVariableNames (namePrefix : List UInt8) :
    MmsVariableSpecification → List (List UInt8 × MmsVariableSpecification)
  | .structured _ elements => addElementNames namePrefix elements
  | _ => []

def addElementNames (namePrefix : List UInt8) :
    List MmsVariableSpecification → List (List UInt8 × MmsVariableSpecification)
  | [] => []
  | e :: es =>
    let variableName := appendMmsSubVariable namePrefix e.name
    (variableName, e) :: (addSubNamedVariableNames variableName e ++ addElementNames namePrefix es)

end

/-- The names lead to the part through components only. -/
inductive Descends :
    MmsVariableSpecification → List (List UInt8) → MmsVariableSpecification → Prop
  | here {v : MmsVariableSpecification} : Descends v [] v
  | component {name : List UInt8} {elements : List MmsVariableSpecification}
    {e v : MmsVariableSpecification} {names : List (List UInt8)} :
    e ∈ elements → Descends e names v → Descends (.structured name elements) (e.name :: names) v

variable {v w : MmsVariableSpecification} {names : List (List UInt8)}

theorem Descends.reaches (h : v.Descends names w) : v.Reaches names w := by
  induction h with
  | here => exact .here
  | component he _ ih => exact .component he ih

theorem Descends.not_misled (hv : v.WellNamed) (h : v.Descends names w) : ¬ v.Misled names := by
  induction h with
  | here => exact not_misled_nil
  | component he hd ih =>
    cases hv with
    | structured hnodup hplain hwell =>
      rw [misled_structured_iff hnodup he]
      have hrest := ih (hwell _ he)
      cases hd with
      | here => exact not_misledBehind_nil
      | component => exact hrest

/-- Induction over types: the hypothesis is about the elements of an array or a structure. -/
@[elab_as_elim] theorem specification_induction {motive : MmsVariableSpecification → Prop}
    (array : ∀ name elementCount v, motive v → motive (.array name elementCount v))
    (structured : ∀ name elements, (∀ e ∈ elements, motive e) → motive (.structured name elements))
    (leaf : ∀ name size, motive (.leaf name size)) (v : MmsVariableSpecification) : motive v := by
  refine @MmsVariableSpecification.rec motive (fun vs => ∀ v ∈ vs, motive v) array structured leaf
    ?_ ?_ v
  case refine_1 => exact fun v hv => (nomatch hv)
  case refine_2 =>
    intro head tail hhead htail v hv
    rcases List.mem_cons.mp hv with rfl | h
    · exact hhead
    · exact htail v h

theorem splitOn_appendMmsSubVariable {child : List UInt8} (h : separator ∉ child)
    (name : List UInt8) : (appendMmsSubVariable name child).splitOn separator =
      name.splitOn separator ++ [child] := by
  rw [appendMmsSubVariable, List.splitOn_append_cons_self, List.splitOn_eq_singleton h]

variable {p : List UInt8 × MmsVariableSpecification} {namePrefix : List UInt8}

theorem mem_addElementNames {elements : List MmsVariableSpecification} :
    p ∈ addElementNames namePrefix elements ↔ ∃ e ∈ elements,
      p = (appendMmsSubVariable namePrefix e.name, e) ∨
      p ∈ addSubNamedVariableNames (appendMmsSubVariable namePrefix e.name) e := by
  induction elements with
  | nil => simp [addElementNames]
  | cons e es ih =>
    simp only [addElementNames, List.mem_cons, List.mem_append, ih, exists_eq_or_imp, or_assoc]

/-- A name that is made from a part of a variable is the path to this part. -/
theorem descends_of_mem (hv : v.WellNamed) (hp : p ∈ addSubNamedVariableNames namePrefix v) :
    ∃ names, p.1.splitOn separator = namePrefix.splitOn separator ++ names ∧
      v.Descends names p.2 := by
  induction v using specification_induction generalizing namePrefix with
  | array | leaf => cases hp
  | structured name elements ih =>
    cases hv with
    | structured hnodup hplain hwell =>
      obtain ⟨e, he, rfl | hp⟩ := mem_addElementNames.mp hp
      · exact ⟨[e.name], splitOn_appendMmsSubVariable (hplain e he) _, .component he .here⟩
      · obtain ⟨names, hsplit, hd⟩ := ih e he (hwell e he) hp
        rw [splitOn_appendMmsSubVariable (hplain e he), List.append_assoc] at hsplit
        exact ⟨e.name :: names, hsplit, .component he hd⟩

/-- The name of a variable or a part and those made from it. -/
def partNames (name : List UInt8) (v : MmsVariableSpecification) : List (List UInt8) :=
  name :: (addSubNamedVariableNames name v).map (·.1)

theorem map_addElementNames (elements : List MmsVariableSpecification) :
    (addElementNames namePrefix elements).map (·.1) =
      elements.flatMap fun e => partNames (appendMmsSubVariable namePrefix e.name) e := by
  induction elements with
  | nil => rfl
  | cons e es ih =>
    rw [addElementNames, List.map_cons, List.map_append, ih, List.flatMap_cons]
    rfl

theorem splitOn_of_mem_partNames {n name : List UInt8} (hv : v.WellNamed)
    (h : n ∈ partNames name v) :
    ∃ names, n.splitOn separator = name.splitOn separator ++ names := by
  rcases List.mem_cons.mp h with rfl | hmem
  · exact ⟨[], (List.append_nil _).symm⟩
  · obtain ⟨p, hp, rfl⟩ := List.mem_map.mp hmem
    obtain ⟨names, hsplit, _⟩ := descends_of_mem hv hp
    exact ⟨names, hsplit⟩

/-- The name of a variable is not made from one of its parts. -/
theorem not_mem_addSubNamedVariableNames (hv : v.WellNamed) (name : List UInt8) :
    name ∉ (addSubNamedVariableNames name v).map (·.1) := by
  intro hmem
  cases hv with
  | array | leaf => cases hmem
  | structured _ hplain hwell =>
    rw [addSubNamedVariableNames, map_addElementNames] at hmem
    obtain ⟨e, he, hname⟩ := List.mem_flatMap.mp hmem
    obtain ⟨names, hsplit⟩ := splitOn_of_mem_partNames (hwell e he) hname
    rw [splitOn_appendMmsSubVariable (hplain e he), List.append_assoc] at hsplit
    have hlength := congrArg List.length hsplit
    rw [List.length_append, List.length_append, List.length_singleton] at hlength
    omega

/-- The parts of variables or components with names of their own have names of their own. -/
theorem nodup_flatMap_partNames {elements : List MmsVariableSpecification}
    {name : MmsVariableSpecification → List UInt8} (names : List (List UInt8))
    (hnodup : (elements.map MmsVariableSpecification.name).Nodup)
    (hwell : ∀ e ∈ elements, e.WellNamed)
    (hname : ∀ e ∈ elements, (name e).splitOn separator = names ++ [e.name])
    (h : ∀ e ∈ elements, ((addSubNamedVariableNames (name e) e).map (·.1)).Nodup) :
    (elements.flatMap fun e => partNames (name e) e).Nodup := by
  rw [List.nodup_flatMap]
  constructor
  · intro e he
    exact List.nodup_cons.mpr ⟨not_mem_addSubNamedVariableNames (hwell e he) _, h e he⟩
  · apply (List.pairwise_map.mp hnodup).imp_of_mem
    intro a b ha hb hne n hna hnb
    obtain ⟨na, hsplita⟩ := splitOn_of_mem_partNames (hwell a ha) hna
    obtain ⟨nb, hsplitb⟩ := splitOn_of_mem_partNames (hwell b hb) hnb
    rw [hname a ha] at hsplita
    rw [hsplita, hname b hb, List.append_assoc, List.append_assoc] at hsplitb
    exact hne (List.cons.inj (List.append_cancel_left hsplitb)).1

theorem nodup_addSubNamedVariableNames (hv : v.WellNamed) (name : List UInt8) :
    ((addSubNamedVariableNames name v).map (·.1)).Nodup := by
  induction v using specification_induction generalizing name with
  | array | leaf => exact List.nodup_nil
  | structured _ elements ih =>
    cases hv with
    | structured hnodup hplain hwell =>
      rw [addSubNamedVariableNames, map_addElementNames]
      exact nodup_flatMap_partNames _ hnodup hwell
        (fun e he => splitOn_appendMmsSubVariable (hplain e he) name)
        (fun e he => ih e he (hwell e he) _)

end MmsVariableSpecification

namespace MmsDomain

open MmsVariableSpecification

/-- The variables of the domain and all their parts, by their names. -/
def namedParts (d : MmsDomain) : List (List UInt8 × MmsVariableSpecification) :=
  d.namedVariables.flatMap fun v => (v.name, v) :: addSubNamedVariableNames v.name v

def getNameListDomainSpecific (d : MmsDomain) : List (List UInt8) := d.namedParts.map (·.1)

variable {d : MmsDomain} {v w : MmsVariableSpecification} {nameId : List UInt8}
  {names : List (List UInt8)}

/-- A path through components is resolved. -/
theorem getNamedVariable_of_descends (hv : v ∈ d.namedVariables)
    (hn : nameId.splitOn separator = v.name :: names) (hd : v.Descends names w) :
    d.getNamedVariable nameId = .ok (some w) := by
  have hnot : ¬ d.Misled nameId := by
    rw [misled_iff hv hn]
    exact hd.not_misled (d.wellNamed v hv)
  obtain ⟨r, hr, hall⟩ := resolves_iff.mpr hnot
  rw [hr, (hall w).mpr ⟨v, hv, names, hn, hd.reaches⟩]

/-- Every name that is enumerated is resolved to what it was made from. -/
theorem getNamedVariable_of_mem {p : List UInt8 × MmsVariableSpecification}
    (hp : p ∈ d.namedParts) : d.getNamedVariable p.1 = .ok (some p.2) := by
  obtain ⟨v, hv, hp⟩ := List.mem_flatMap.mp hp
  have hplain := List.splitOn_eq_singleton (d.plain v hv).1
  rcases List.mem_cons.mp hp with rfl | hp
  · exact getNamedVariable_of_descends hv hplain .here
  · obtain ⟨names, hn, hd⟩ := descends_of_mem (d.wellNamed v hv) hp
    rw [hplain] at hn
    exact getNamedVariable_of_descends hv hn hd

/-- No name is enumerated twice. -/
theorem nodup_getNameListDomainSpecific (d : MmsDomain) : d.getNameListDomainSpecific.Nodup := by
  rw [getNameListDomainSpecific, namedParts, List.map_flatMap]
  exact nodup_flatMap_partNames [] d.nodup d.wellNamed
    (fun v hv => List.splitOn_eq_singleton (d.plain v hv).1)
    (fun v hv => nodup_addSubNamedVariableNames (d.wellNamed v hv) v.name)

end MmsDomain

end Iec61850
