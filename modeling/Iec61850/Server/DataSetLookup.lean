import Iec61850.Client.ObjectReferences
import Iec61850.Server.VariableLists

/-! How a reference finds a data set: among those of the model (`model.c`), and among the lists of
variables that are made of them (`mms_mapping.c`). -/

namespace Iec61850

open Machine

/-- A member of a data set. `index` is `-1` where there is none. -/
structure DataSetEntry where
  logicalDeviceName : List UInt8
  variableName : List UInt8
  index : Int
  componentName : Option (List UInt8)

structure DataSet where
  logicalDeviceName : List UInt8
  name : List UInt8
  fcdas : List DataSetEntry

/-- A model with its data sets. Each of them is in one of the logical devices. -/
structure DataSetModel extends IedModel where
  dataSets : List DataSet
  inDevice : ∀ dataSet ∈ dataSets,
    dataSet.logicalDeviceName ∈ logicalDevices.map LogicalDevice.name

/-- The lists of variables in each of the domains. -/
abbrev DomainLists := Nat → List MmsNamedVariableList

namespace DataSet

def reference (dataSet : DataSet) : List UInt8 := dataSet.logicalDeviceName ++ 47 :: dataSet.name

/-- What is in front of the slash is the name of the device, and what is behind it that of the data
set. -/
def IsNamed (dataSet : DataSet) (reference : List UInt8) : Prop :=
  47 ∉ dataSet.logicalDeviceName ∧ reference = dataSet.reference

instance (dataSet : DataSet) (reference : List UInt8) : Decidable (dataSet.IsNamed reference) :=
  inferInstanceAs (Decidable (_ ∧ _))

/-- The name of the device goes on behind what is in front of the slash. -/
def Extends (dataSet : DataSet) (reference : List UInt8) : Prop :=
  ∃ ldName more, 47 ∉ ldName ∧ reference = ldName ++ 47 :: dataSet.name ∧
    dataSet.logicalDeviceName = ldName ++ more ∧ more ≠ []

end DataSet

namespace DataSetModel

variable (model : DataSetModel)

/-- `IedModel_lookupDataSet` -/
def lookupDataSet (dataSetReference : List UInt8) : Option DataSet :=
  match strchr dataSetReference 47 with
  | none => none
  | some separator =>
    let ldNameLen := dataSetReference.length - separator.length
    model.dataSets.find? fun dataSet =>
      dataSet.logicalDeviceName.take ldNameLen = dataSetReference.take ldNameLen ∧
        dataSet.name = separator.tail

/-- `MmsDevice_getDomain`: every logical device has a domain. -/
def getDomain (domainId : List UInt8) : Option Nat :=
  model.logicalDevices.findIdx? (·.name = domainId)

/-- The list that is made of a data set. -/
def variableList (dataSet : DataSet) : MmsNamedVariableList :=
  ⟨dataSet.name, false, dataSet.fcdas.map fun entry =>
    ⟨model.getDomain entry.logicalDeviceName, entry.variableName, entry.index,
      entry.componentName⟩⟩

/-- One turn of the loop. The domain is not made sure of. -/
def createDataSet (lists : DomainLists) (dataSet : DataSet) : Exec DomainLists :=
  match model.getDomain dataSet.logicalDeviceName with
  | none => .error .nullPointer
  | some domain =>
    .ok (Function.update lists domain (lists domain ++ [model.variableList dataSet]))

def createDataSets : Exec DomainLists := model.dataSets.foldlM model.createDataSet fun _ => []

/-- `MmsMapping_getDomainSpecificVariableList`: the list, and the domain that it is in. The
reference is cut after 192 octets. -/
def getDomainSpecificVariableList (lists : DomainLists) (variableListReference : List UInt8) :
    Option (Nat × MmsNamedVariableList) :=
  let copy := variableListReference.take 192
  match strchr copy 47 with
  | none => none
  | some separator => do
    let domain ← model.getDomain (copy.take (copy.length - separator.length))
    let variableList ← NamedList.lookup MmsNamedVariableList.name (lists domain) separator.tail
    return (domain, variableList)

end DataSetModel

/-- What the clients make of the lists: they define lists with new names, and delete only those
that are deletable. -/
inductive ChangedLists (lists : DomainLists) : DomainLists → Prop
  | refl : ChangedLists lists lists
  | define {lists' : DomainLists} {domain : Nat} {l : MmsNamedVariableList} :
    ChangedLists lists lists' → l.deletable = true →
    ChangedLists lists (Function.update lists' domain (lists' domain ++ [l]))
  | delete {lists' : DomainLists} {domain : Nat} {l : MmsNamedVariableList} {n : List UInt8} :
    ChangedLists lists lists' →
    NamedList.lookup MmsNamedVariableList.name (lists' domain) n = some l → l.deletable = true →
    ChangedLists lists (Function.update lists' domain
      (NamedList.remove MmsNamedVariableList.name (lists' domain) n))

theorem ChangedLists.trans {lists lists' lists'' : DomainLists} (h : ChangedLists lists lists')
    (h' : ChangedLists lists' lists'') : ChangedLists lists lists'' := by
  induction h' with
  | refl => exact h
  | define _ hl ih => exact .define ih hl
  | delete _ hlookup hl ih => exact .delete ih hlookup hl

namespace DataSetModel

/-- The lists at some time: those of the data sets, and what the clients have made of them. -/
def HasLists (model : DataSetModel) (lists : DomainLists) : Prop :=
  ∃ created, model.createDataSets = .ok created ∧ ChangedLists created lists

/-- A data set is found if and only if there is one with the names of the reference. -/
structure Exact (model : DataSetModel) (reference : List UInt8) : Prop where
  named : ∀ dataSet, model.lookupDataSet reference = some dataSet →
    dataSet ∈ model.dataSets ∧ dataSet.IsNamed reference
  found : ∀ dataSet ∈ model.dataSets, dataSet.IsNamed reference →
    (model.lookupDataSet reference).isSome

/-- The list of a data set, in the domain of its device. -/
def listOf (model : DataSetModel) (dataSet : DataSet) : Option (Nat × MmsNamedVariableList) :=
  (model.getDomain dataSet.logicalDeviceName).map fun domain => (domain, model.variableList dataSet)

/-- The list that is found is that of the data set that is found. The lists of clients are left
out: they are those of no data set. -/
def Agrees (model : DataSetModel) (lists : DomainLists) (reference : List UInt8) : Prop :=
  (model.getDomainSpecificVariableList lists reference).filter (fun found => !found.2.deletable) =
    (model.lookupDataSet reference).bind model.listOf

structure LookupRight (model : DataSetModel) (reference : List UInt8) : Prop where
  exact : model.Exact reference
  agrees : ∀ dataSet ∈ model.dataSets, reference = dataSet.reference →
    ∀ lists, model.HasLists lists → model.Agrees lists reference

/-! ## The first entry -/

section First

variable {α : Type} {p q : α → Bool} {as : List α} {a : α}

theorem find?_of_imp (hq : ∀ a, q a = true → p a = true) (h : as.find? p = some a)
    (ha : q a = true) : as.find? q = some a := by
  obtain ⟨-, front, back, rfl, hfront⟩ := List.find?_eq_some_iff_append.mp h
  refine List.find?_eq_some_iff_append.mpr ⟨ha, front, back, rfl, ?_⟩
  intro b hb
  cases hqb : q b with
  | false => rfl
  | true =>
    have hp := hfront b hb
    rw [hq b hqb] at hp
    cases hp

/-- A weaker test finds the same where the entries that only pass it stand behind one that passes
the other. -/
theorem find?_eq_find?_iff (hq : ∀ a, q a = true → p a = true) :
    as.find? p = as.find? q ↔ ∀ front a back, as = front ++ a :: back →
      p a = true → q a = false → ∃ b ∈ front, q b = true := by
  constructor
  · rintro h front a back rfl hp hqa
    by_contra hnone
    have hfront : front.find? q = none := List.find?_eq_none.mpr fun b hb hqb => hnone ⟨b, hb, hqb⟩
    rw [List.find?_append, List.find?_append, hfront, List.find?_cons_of_pos hp] at h
    cases hb : front.find? p with
    | some b =>
      rw [hb] at h
      exact hnone ⟨b, List.mem_of_find?_eq_some hb, List.find?_some (p := q) h.symm⟩
    | none =>
      rw [hb] at h
      have hqa' : q a = true := List.find?_some (p := q) h.symm
      rw [hqa] at hqa'
      cases hqa'
  · intro h
    cases hp : as.find? p with
    | none =>
      refine (List.find?_eq_none.mpr fun a ha hqa => ?_).symm
      exact List.find?_eq_none.mp hp a ha (hq a hqa)
    | some a =>
      obtain ⟨hpa, front, back, heq, hfront⟩ := List.find?_eq_some_iff_append.mp hp
      cases hqa : q a with
      | true => exact (find?_of_imp hq hp hqa).symm
      | false =>
        obtain ⟨b, hb, hqb⟩ := h front a back heq hpa hqa
        have hnp := hfront b hb
        rw [hq b hqb] at hnp
        cases hnp

end First

/-! ## The data sets -/

section Lookup

variable {model : DataSetModel} {ldName name reference : List UInt8} {dataSet : DataSet}

theorem isNamed_iff (h : 47 ∉ ldName) : dataSet.IsNamed (ldName ++ 47 :: name) ↔
    dataSet.logicalDeviceName = ldName ∧ dataSet.name = name := by
  constructor
  · rintro ⟨hnot, heq⟩
    obtain ⟨rfl, rfl⟩ := append_cons_inj h hnot heq
    exact ⟨rfl, rfl⟩
  · rintro ⟨rfl, rfl⟩
    exact ⟨h, rfl⟩

theorem extends_iff (h : 47 ∉ ldName) : dataSet.Extends (ldName ++ 47 :: name) ↔
    (dataSet.logicalDeviceName.take ldName.length = ldName ∧ dataSet.name = name) ∧
      ¬ dataSet.IsNamed (ldName ++ 47 :: name) := by
  rw [isNamed_iff h]
  constructor
  · rintro ⟨ldName', more, hnot, heq, hdevice, hmore⟩
    obtain ⟨rfl, rfl⟩ := append_cons_inj h hnot heq
    refine ⟨⟨?_, rfl⟩, fun hnamed => hmore ?_⟩
    · rw [hdevice, List.take_left]
    · exact List.append_right_eq_self.mp (hdevice.symm.trans hnamed.1)
  · rintro ⟨⟨htake, rfl⟩, hnamed⟩
    have hwhole := List.take_append_drop ldName.length dataSet.logicalDeviceName
    rw [htake] at hwhole
    refine ⟨ldName, dataSet.logicalDeviceName.drop ldName.length, h, rfl, hwhole.symm, ?_⟩
    intro hdrop
    rw [hdrop, List.append_nil] at hwhole
    exact hnamed ⟨hwhole.symm, rfl⟩

/-- The device is only compared as far as the reference goes. -/
theorem lookupDataSet_append (h : 47 ∉ ldName) : model.lookupDataSet (ldName ++ 47 :: name) =
    model.dataSets.find? fun dataSet =>
      dataSet.logicalDeviceName.take ldName.length = ldName ∧ dataSet.name = name := by
  have hlength : (ldName ++ 47 :: name).length - (47 :: name).length = ldName.length := by
    rw [List.length_append, Nat.add_sub_cancel]
  rw [lookupDataSet, strchr_append h]
  simp only [hlength, List.take_left, List.tail_cons]

theorem lookupDataSet_of_notMem (h : 47 ∉ reference) : model.lookupDataSet reference = none := by
  rw [lookupDataSet, strchr_eq_none h]

theorem not_isNamed_of_notMem (h : 47 ∉ reference) : ¬ dataSet.IsNamed reference := by
  rintro ⟨-, rfl⟩
  exact h (List.mem_append_right _ List.mem_cons_self)

/-- The data set that is meant. -/
def namedDataSet (model : DataSetModel) (reference : List UInt8) : Option DataSet :=
  model.dataSets.find? (·.IsNamed reference)

theorem namedDataSet_eq_some (h : model.namedDataSet reference = some dataSet) :
    dataSet ∈ model.dataSets ∧ dataSet.IsNamed reference := by
  have hnamed := List.find?_some h
  exact ⟨List.mem_of_find?_eq_some h, of_decide_eq_true hnamed⟩

theorem namedDataSet_eq_none_iff :
    model.namedDataSet reference = none ↔ ∀ d ∈ model.dataSets, ¬ d.IsNamed reference := by
  simp [namedDataSet]

theorem exact_iff_namedDataSet :
    model.Exact reference ↔ model.lookupDataSet reference = model.namedDataSet reference := by
  constructor
  · intro h
    cases hl : model.lookupDataSet reference with
    | none =>
      refine (namedDataSet_eq_none_iff.mpr fun d hd hnamed => ?_).symm
      have hfound := h.found d hd hnamed
      rw [hl] at hfound
      cases hfound
    | some dataSet =>
      obtain ⟨-, hnamed⟩ := h.named dataSet hl
      obtain ⟨hnot, rfl⟩ := hnamed
      rw [DataSet.reference, lookupDataSet_append hnot] at hl
      refine (find?_of_imp (fun d hd => ?_) hl (decide_eq_true ⟨hnot, rfl⟩)).symm
      obtain ⟨hdevice, hname⟩ := (isNamed_iff hnot).mp (of_decide_eq_true hd)
      exact decide_eq_true ⟨by rw [hdevice, List.take_length], hname⟩
  · intro h
    refine ⟨fun dataSet hl => namedDataSet_eq_some (h ▸ hl), fun d hd hnamed => ?_⟩
    rw [h, Option.isSome_iff_ne_none]
    exact fun hnone => namedDataSet_eq_none_iff.mp hnone d hd hnamed

theorem exact_iff : model.Exact reference ↔
    ∀ front dataSet back, model.dataSets = front ++ dataSet :: back → dataSet.Extends reference →
      ∃ d ∈ front, d.IsNamed reference := by
  rw [exact_iff_namedDataSet]
  by_cases hmem : 47 ∈ reference
  · obtain ⟨ldName, name, rfl, hnot⟩ := List.eq_append_cons_of_mem hmem
    rw [lookupDataSet_append hnot, namedDataSet, find?_eq_find?_iff]
    · refine forall_congr' fun front => forall_congr' fun d => forall_congr' fun back => ?_
      simp only [extends_iff hnot, decide_eq_true_eq, decide_eq_false_iff_not, and_imp]
    · intro d hd
      obtain ⟨rfl, hname⟩ := (isNamed_iff hnot).mp (of_decide_eq_true hd)
      exact decide_eq_true ⟨List.take_length, hname⟩
  · rw [lookupDataSet_of_notMem hmem,
      namedDataSet_eq_none_iff.mpr fun d _ => not_isNamed_of_notMem hmem]
    refine iff_of_true rfl ?_
    rintro front d back - ⟨ldName, more, -, rfl, -⟩
    exact absurd (List.mem_append_right _ List.mem_cons_self) hmem

end Lookup

/-! ## The lists -/

section Lists

variable {model : DataSetModel} {lists lists' created : DomainLists} {reference : List UInt8}
  {dataSet : DataSet} {a b : List UInt8} {i : Nat} {l : MmsNamedVariableList}

theorem getDomain_inj (ha : model.getDomain a = some i) (hb : model.getDomain b = some i) :
    a = b := by
  obtain ⟨_, hname, -⟩ := List.findIdx?_eq_some_iff_getElem.mp ha
  obtain ⟨_, hname', -⟩ := List.findIdx?_eq_some_iff_getElem.mp hb
  exact (of_decide_eq_true hname).symm.trans (of_decide_eq_true hname')

theorem getDomain_of_mem (h : dataSet ∈ model.dataSets) :
    ∃ i, model.getDomain dataSet.logicalDeviceName = some i := by
  obtain ⟨ld, hld, hname⟩ := List.mem_map.mp (model.inDevice dataSet h)
  refine Option.isSome_iff_exists.mp ?_
  rw [getDomain, List.findIdx?_isSome, List.any_eq_true]
  exact ⟨ld, hld, decide_eq_true hname⟩

/-- The lists of a domain are those of the data sets of its device, in their order. -/
theorem createDataSets_eq : model.createDataSets = .ok fun i =>
    (model.dataSets.filter fun dataSet =>
      model.getDomain dataSet.logicalDeviceName = some i).map model.variableList := by
  have hloop : ∀ (dataSets : List DataSet) (lists : DomainLists),
      (∀ d ∈ dataSets, d ∈ model.dataSets) →
      dataSets.foldlM model.createDataSet lists = .ok fun i => lists i ++
        (dataSets.filter fun dataSet =>
          model.getDomain dataSet.logicalDeviceName = some i).map model.variableList := by
    intro dataSets
    induction dataSets with
    | nil =>
      intro lists _
      simp only [List.filter_nil, List.map_nil, List.append_nil]
      rfl
    | cons d ds ih =>
      intro lists hmem
      obtain ⟨domain, hdomain⟩ := getDomain_of_mem (hmem d List.mem_cons_self)
      have hstep : model.createDataSet lists d =
          .ok (Function.update lists domain (lists domain ++ [model.variableList d])) := by
        rw [createDataSet, hdomain]
      rw [List.foldlM_cons, hstep, ok_bind, ih _ fun d hd => hmem d (List.mem_cons_of_mem _ hd)]
      congr 1
      funext i
      rw [List.filter_cons, hdomain]
      by_cases hi : domain = i
      · subst hi
        rw [Function.update_self, if_pos (decide_eq_true rfl), List.map_cons, List.append_assoc,
          List.singleton_append]
      · rw [Function.update_of_ne fun heq => hi heq.symm,
          if_neg fun hd => hi (Option.some.inj (of_decide_eq_true hd))]
  exact hloop model.dataSets (fun _ => []) fun _ hd => hd

/-- The lists of the data sets stay where they are, in front of those of the clients. -/
theorem append_of_changed (h : ChangedLists created lists)
    (hstatic : ∀ i, ∀ l ∈ created i, l.deletable = false) (i : Nat) :
    ∃ later, lists i = created i ++ later ∧ ∀ l ∈ later, l.deletable = true := by
  induction h with
  | refl => exact ⟨[], (List.append_nil _).symm, fun l hl => nomatch hl⟩
  | @define lists' domain l _ hl ih =>
    obtain ⟨later, heq, hlater⟩ := ih
    by_cases hi : i = domain
    · subst hi
      rw [Function.update_self, heq, List.append_assoc]
      refine ⟨_, rfl, fun l' hl' => ?_⟩
      rcases List.mem_append.mp hl' with hl' | hl'
      · exact hlater l' hl'
      · rw [List.mem_singleton.mp hl', hl]
    · rw [Function.update_of_ne hi]
      exact ⟨later, heq, hlater⟩
  | @delete lists' domain l n _ hlookup hl ih =>
    obtain ⟨later, heq, hlater⟩ := ih
    by_cases hi : i = domain
    · subst hi
      have hnone : ∀ l' ∈ created i, ¬ decide (l'.name = n) = true := by
        refine List.find?_eq_none.mp (Option.eq_none_iff_forall_ne_some.mpr fun l' hl' => ?_)
        rw [NamedList.lookup, heq, List.find?_append, hl'] at hlookup
        cases hlookup
        rw [hstatic i l (List.mem_of_find?_eq_some hl')] at hl
        cases hl
      rw [Function.update_self, heq, NamedList.remove, List.eraseP_append_right _ hnone]
      exact ⟨_, rfl, fun l' hl' => hlater l' (List.mem_of_mem_eraseP hl')⟩
    · rw [Function.update_of_ne hi]
      exact ⟨later, heq, hlater⟩

theorem listOf_of_domain (h : model.getDomain dataSet.logicalDeviceName = some i) :
    model.listOf dataSet = some (i, model.variableList dataSet) := by
  rw [listOf, h, Option.map_some]

/-- The list of the data set that is meant is found, as far as the reference is looked at. -/
theorem filter_getDomainSpecificVariableList (h : model.HasLists lists) :
    (model.getDomainSpecificVariableList lists reference).filter
        (fun found => !found.2.deletable) =
      (model.namedDataSet (reference.take 192)).bind model.listOf := by
  obtain ⟨created, hcreated, hchanged⟩ := h
  cases createDataSets_eq.symm.trans hcreated
  rw [getDomainSpecificVariableList]
  generalize reference.take 192 = copy
  by_cases hmem : 47 ∈ copy
  case neg =>
    rw [strchr_eq_none hmem, namedDataSet_eq_none_iff.mpr fun d _ => not_isNamed_of_notMem hmem]
    rfl
  obtain ⟨ldName, name, rfl, hnot⟩ := List.eq_append_cons_of_mem hmem
  have hlength : (ldName ++ 47 :: name).length - (47 :: name).length = ldName.length := by
    rw [List.length_append, Nat.add_sub_cancel]
  rw [strchr_append hnot]
  simp only [hlength, List.take_left, List.tail_cons]
  cases hdomain : model.getDomain ldName with
  | none =>
    have hnone : model.namedDataSet (ldName ++ 47 :: name) = none := by
      refine namedDataSet_eq_none_iff.mpr fun d hd hnamed => ?_
      obtain ⟨i, hi⟩ := getDomain_of_mem hd
      rw [((isNamed_iff hnot).mp hnamed).1, hdomain] at hi
      cases hi
    rw [hnone]
    rfl
  | some i =>
    have hstatic : ∀ i, ∀ l ∈ (model.dataSets.filter fun d =>
        model.getDomain d.logicalDeviceName = some i).map model.variableList,
        l.deletable = false := by
      intro i l hl
      obtain ⟨d, -, rfl⟩ := List.mem_map.mp hl
      rfl
    obtain ⟨later, heq, hlater⟩ := append_of_changed hchanged hstatic i
    have hmeant : (model.dataSets.filter fun d =>
        model.getDomain d.logicalDeviceName = some i).find?
          (fun d => (model.variableList d).name = name) =
        model.namedDataSet (ldName ++ 47 :: name) := by
      rw [List.find?_filter, namedDataSet]
      congr 1
      funext d
      rw [decide_eq_decide, isNamed_iff hnot, decide_eq_true_eq, decide_eq_true_eq]
      refine and_congr_left fun _ => ⟨fun hd => getDomain_inj hd hdomain, fun hd => ?_⟩
      rw [hd, hdomain]
    have hlookup : NamedList.lookup MmsNamedVariableList.name (lists i) name =
        ((model.namedDataSet (ldName ++ 47 :: name)).map model.variableList).or
          (NamedList.lookup MmsNamedVariableList.name later name) := by
      rw [NamedList.lookup, heq, List.find?_append, List.find?_map, ← hmeant]
      rfl
    change ((NamedList.lookup MmsNamedVariableList.name (lists i) name).bind
      fun l => some (i, l)).filter _ = _
    rw [hlookup]
    cases hd : model.namedDataSet (ldName ++ 47 :: name) with
    | none =>
      cases hl : NamedList.lookup MmsNamedVariableList.name later name with
      | none => rfl
      | some l =>
        change Option.filter _ (some (i, l)) = none
        rw [Option.filter_some_neg]
        rw [hlater l (NamedList.mem_of_lookup hl).1]
        rfl
    | some d =>
      obtain ⟨-, hnamed⟩ := namedDataSet_eq_some hd
      have hi : model.getDomain d.logicalDeviceName = some i := by
        rw [((isNamed_iff hnot).mp hnamed).1, hdomain]
      exact (listOf_of_domain hi).symm

theorem bind_listOf_eq_iff : (model.namedDataSet (reference.take 192)).bind model.listOf =
      (model.namedDataSet reference).bind model.listOf ↔
    reference.length ≤ 192 ∨ ∀ d ∈ model.dataSets,
      ¬ d.IsNamed reference ∧ ¬ d.IsNamed (reference.take 192) := by
  constructor
  · intro h
    by_contra hlong
    rw [not_or, not_le] at hlong
    obtain ⟨hlong, hsome⟩ := hlong
    cases hd : model.namedDataSet reference with
    | none =>
      cases hd' : model.namedDataSet (reference.take 192) with
      | none =>
        exact hsome fun d hmem => ⟨namedDataSet_eq_none_iff.mp hd d hmem,
          namedDataSet_eq_none_iff.mp hd' d hmem⟩
      | some d' =>
        obtain ⟨i, hi⟩ := getDomain_of_mem (namedDataSet_eq_some hd').1
        rw [hd, hd', Option.bind_some, listOf_of_domain hi] at h
        cases h
    | some d =>
      obtain ⟨hmem, -, hreference⟩ := namedDataSet_eq_some hd
      obtain ⟨i, hi⟩ := getDomain_of_mem hmem
      rw [hd, Option.bind_some, listOf_of_domain hi] at h
      obtain ⟨d', hd', hlist⟩ := Option.bind_eq_some_iff.mp h
      obtain ⟨hmem', -, hreference'⟩ := namedDataSet_eq_some hd'
      obtain ⟨i', hi'⟩ := getDomain_of_mem hmem'
      rw [listOf_of_domain hi'] at hlist
      obtain ⟨rfl, hname⟩ := Prod.mk.inj (Option.some.inj hlist)
      have hdevice := getDomain_inj hi' hi
      have hname' : d'.name = d.name := congrArg MmsNamedVariableList.name hname
      have hcut : reference.take 192 = reference := by
        rw [hreference', hreference, DataSet.reference, hdevice, hname']
        rfl
      have hlength := congrArg List.length hcut
      rw [List.length_take] at hlength
      omega
  · rintro (hshort | hnone)
    · rw [List.take_of_length_le hshort]
    · rw [namedDataSet_eq_none_iff.mpr fun d hd => (hnone d hd).1,
        namedDataSet_eq_none_iff.mpr fun d hd => (hnone d hd).2]

theorem hasLists_created (model : DataSetModel) : ∃ lists, model.HasLists lists :=
  ⟨_, _, createDataSets_eq, .refl⟩

/-- The lookup is exact where a data set whose device only begins like that of the reference
stands behind one with its names; and it agrees with the list where the reference of the data set
is not cut. -/
theorem lookupRight_iff (model : DataSetModel) (reference : List UInt8) :
    model.LookupRight reference ↔
      (∀ front dataSet back, model.dataSets = front ++ dataSet :: back →
        dataSet.Extends reference → ∃ d ∈ front, d.IsNamed reference) ∧
      ((∃ dataSet ∈ model.dataSets, reference = dataSet.reference) →
        reference.length ≤ 192 ∨ ∀ d ∈ model.dataSets,
          ¬ d.IsNamed reference ∧ ¬ d.IsNamed (reference.take 192)) := by
  have hagrees : ∀ lists, model.HasLists lists → model.Exact reference →
      (model.Agrees lists reference ↔ reference.length ≤ 192 ∨ ∀ d ∈ model.dataSets,
        ¬ d.IsNamed reference ∧ ¬ d.IsNamed (reference.take 192)) := by
    intro lists h hexact
    rw [Agrees, filter_getDomainSpecificVariableList h, exact_iff_namedDataSet.mp hexact,
      bind_listOf_eq_iff]
  constructor
  · intro h
    refine ⟨exact_iff.mp h.exact, ?_⟩
    rintro ⟨d, hd, hreference⟩
    obtain ⟨lists, hlists⟩ := hasLists_created model
    exact (hagrees lists hlists h.exact).mp (h.agrees d hd hreference lists hlists)
  · rintro ⟨hfirst, hshort⟩
    have hexact := exact_iff.mpr hfirst
    exact ⟨hexact, fun d hd hreference lists hlists =>
      (hagrees lists hlists hexact).mpr (hshort ⟨d, hd, hreference⟩)⟩

/-- The first data set whose device only begins like that of the reference is taken. -/
theorem not_lookupRight_prefix : ∃ (model : DataSetModel) (reference : List UInt8),
    ¬ model.LookupRight reference := by
  refine ⟨⟨⟨ascii "IED", [⟨ascii "LD1", []⟩, ⟨ascii "LD10", []⟩], [], []⟩,
    [⟨ascii "LD10", ascii "LLN0$Events", []⟩, ⟨ascii "LD1", ascii "LLN0$Events", []⟩], by decide⟩,
    ascii "LD1/LLN0$Events", fun h => ?_⟩
  obtain ⟨-, -, hreference⟩ := h.exact.named ⟨ascii "LD10", ascii "LLN0$Events", []⟩ rfl
  exact absurd hreference (by decide)

end Lists

end DataSetModel

/-! ## The requests of clients -/

namespace ListServer

variable {κ : Type} [DecidableEq κ] {s t : ListServer κ} {scope : ListScope κ} {connection : κ}

def domainLists (s : ListServer κ) : DomainLists := fun domain => s.lists (.domain domain)

theorem domainLists_update_domain (s : ListServer κ) (i : Nat) (ls : List MmsNamedVariableList) :
    domainLists ⟨s.domains, Function.update s.lists (.domain i) ls⟩ =
      Function.update s.domainLists i ls :=
  Function.update_comp_eq_of_injective s.lists (fun _ _ h => ListScope.domain.inj h) i ls

theorem domainLists_update_association (s : ListServer κ) (connection : κ)
    (ls : List MmsNamedVariableList) :
    domainLists ⟨s.domains, Function.update s.lists (.association connection) ls⟩ =
      s.domainLists := by
  have hne : ∀ i, ListScope.domain i ≠ ListScope.association connection := by
    intro i h
    cases h
  exact funext fun i => Function.update_of_ne (hne i) ls s.lists

theorem changedLists_add {l : MmsNamedVariableList} (hl : l.deletable = true) :
    ChangedLists s.domainLists (s.addNamedVariableList scope l).domainLists := by
  cases scope with
  | domain i =>
    rw [addNamedVariableList, domainLists_update_domain]
    exact .define .refl hl
  | association connection =>
    rw [addNamedVariableList, domainLists_update_association]
    exact .refl

theorem changedLists_defineIn {listName : List UInt8} {members : List ListMember}
    {answer : ListAnswer} (h : s.defineIn scope listName members = .ok (answer, t)) :
    ChangedLists s.domainLists t.domainLists := by
  rw [defineIn] at h
  split at h
  · cases h
    exact .refl
  · obtain ⟨entries, -, h⟩ := bind_ok h
    split at h
    · cases h
      exact .refl
    · cases h
      exact changedLists_add rfl

theorem changedLists_handleDefine {request : DefineRequest} {answer : ListAnswer}
    (h : s.handleDefine connection request = .ok (answer, t)) :
    ChangedLists s.domainLists t.domainLists := by
  rw [handleDefine] at h
  split at h
  · split at h
    · cases h
      exact .refl
    · exact changedLists_defineIn h
  · exact changedLists_defineIn h
  · cases h
    exact .refl

theorem changedLists_deleteName {name : ObjectName} {count count' : DeleteCount}
    (h : deleteName connection name s count = .ok (t, count')) :
    ChangedLists s.domainLists t.domainLists := by
  unfold deleteName at h
  split at h
  · split at h
    · cases h
    · split at h
      · cases h
        exact .refl
      · rename_i hlookup
        split at h
        · cases h
          rw [deleteVariableList, domainLists_update_domain]
          exact .delete .refl hlookup ‹_›
        · cases h
          exact .refl
  · split at h
    · cases h
      exact .refl
    · cases h
      rw [deleteVariableList, domainLists_update_association]
      exact .refl
  · cases h
    exact .refl

theorem changedLists_deleteNames {names : List ObjectName} {count count' : DeleteCount}
    (h : deleteNames connection names s count = .ok (t, count')) :
    ChangedLists s.domainLists t.domainLists := by
  induction names generalizing s count with
  | nil =>
    cases h
    exact .refl
  | cons name names ih =>
    obtain ⟨⟨s', count''⟩, hname, h⟩ := bind_ok h
    exact (changedLists_deleteName hname).trans (ih h)

theorem changedLists_handleDelete {uninitialised : Int64} {request : DeleteRequest}
    {answer : ListAnswer} (h : handleDelete uninitialised s connection request = .ok (answer, t)) :
    ChangedLists s.domainLists t.domainLists := by
  rw [handleDelete] at h
  split at h
  · split at h
    · cases h
    · obtain ⟨⟨s', count⟩, hnames, h⟩ := bind_ok h
      cases h
      exact changedLists_deleteNames hnames
  · cases h
    exact .refl

/-- No request does more to the lists of the domains than to define some and to delete those that
are deletable. -/
theorem changedLists_of_step {uninitialised : Int64} {e : ListEvent κ}
    (h : Step uninitialised s e t) : ChangedLists s.domainLists t.domainLists := by
  obtain ⟨answer, h⟩ := h
  rw [handle] at h
  split at h
  · exact changedLists_handleDefine h
  · obtain ⟨⟨answer', s'⟩, hdefine, h⟩ := bind_ok h
    cases h
    exact changedLists_handleDefine hdefine
  · exact changedLists_handleDelete h
  · obtain ⟨⟨answer', s'⟩, hdelete, h⟩ := bind_ok h
    cases h
    exact changedLists_handleDelete hdelete
  · cases h
  · cases h
  · obtain ⟨answer', -, h⟩ := bind_ok h
    cases h
    exact .refl
  · cases h
    exact .refl
  · obtain ⟨answer', -, h⟩ := bind_ok h
    cases h
    exact .refl
  · cases h
    exact .refl

/-- The data sets of the model are found in every run of the server. -/
theorem hasLists_of_run {model : DataSetModel} {uninitialised : Int64}
    {events : List (ListEvent κ)} (hs : model.createDataSets = .ok s.domainLists)
    (hr : Transition.Run (Step uninitialised) (fun _ _ => True) s events t) :
    model.HasLists t.domainLists := by
  refine ⟨_, hs, ?_⟩
  clear hs
  induction hr with
  | nil => exact .refl
  | snoc _ _ hstep ih => exact ih.trans (changedLists_of_step hstep)

end ListServer

end Iec61850
