import Iec61850.Client.ObjectReferences
import Iec61850.Lib.Decimal

/-! References with an index and a component (`mms_mapping.c`): which strings are read inside their
buffers, and that a specification that is printed is read back. -/

namespace Iec61850

open Machine StringUtils

namespace MmsMapping

/-- A string is written to a buffer with a zero behind it. -/
def inBuffer (size : Nat) (text : List UInt8) : Exec (List UInt8) :=
  if size < text.length + 1 then .error .outOfBounds else .ok text

/-- The name of the data, which starts behind a slash if there is one. -/
def nameOf (objectReference : List UInt8) : List UInt8 :=
  ((strchr objectReference 47).map List.tail).getD objectReference

/-- `MmsMapping_createMmsVariableNameFromObjectReference` with what it allocates. -/
def createMmsVariableNameInBuffer (objectReference : List UInt8) (fc : FunctionalConstraint) :
    Exec (Option (List UInt8)) := do
  match ← createMmsVariableNameFromObjectReference objectReference fc with
  | none => return none
  | some mmsVariableName =>
    return some (← inBuffer ((nameOf objectReference).length + 4) mmsVariableName)

/-- `MmsMapping_ObjectReferenceToVariableAccessSpec` with its buffers. -/
def readAccessSpec (objectReference : List UInt8) :
    Exec (Option MmsVariableAccessSpecification) :=
  match strchr objectReference 47, constraintOf objectReference with
  | some domainIdEnd, some fc => do
    let domainId := objectReference.takeWhile (· ≠ 47)
    let indexBrace := strchr domainIdEnd 40
    match indexBrace.or (strchr domainIdEnd 91) with
    | none => return some ⟨domainId, none, -1, none⟩
    | some itemIdEnd =>
      let itemIdStr ← inBuffer 129
        (domainIdEnd.tail.take (domainIdEnd.length - itemIdEnd.length - 1))
      let itemId ← createMmsVariableNameInBuffer itemIdStr fc
      let (arrayIndex, componentName) ← (indexBrace.map arrayAccessOf).getD (.ok (-1, none))
      return some ⟨domainId, itemId, arrayIndex, componentName⟩
  | _, _ => .ok none

/-- `getNumberOfDigits` -/
def getNumberOfDigits (value : Nat) : Nat :=
  if 9 < value then getNumberOfDigits (value / 10) + 1 else 1

/-- What is allocated for a specification that is printed. -/
def newStringLen (varAccessSpec : MmsVariableAccessSpecification) : Nat :=
  let itemIdLen := (varAccessSpec.itemId.getD []).length
  let arrayIndexLen :=
    if -1 < varAccessSpec.arrayIndex then 2 + getNumberOfDigits varAccessSpec.arrayIndex.toNat
    else 0
  let componentPartLen := (varAccessSpec.componentName.getD []).length
  (varAccessSpec.domainId.length + 1 + itemIdLen - 2) + arrayIndexLen + 4 + componentPartLen + 1

/-- `MmsMapping_varAccessSpecToObjectReference` with what it allocates. -/
def printAccessSpec (varAccessSpec : MmsVariableAccessSpecification) : Exec (List UInt8) := do
  inBuffer (newStringLen varAccessSpec) (← varAccessSpecToObjectReference varAccessSpec)

/-- The item ends at an index, or at the constraint where there is none. -/
def EndsItem (item tail : List UInt8) : Prop :=
  (∃ bs, tail = 40 :: bs ∧ 40 ∉ item) ∨ ∃ bs, tail = 91 :: bs ∧ 91 ∉ item ∧ 40 ∉ item ∧ 40 ∉ bs

/-- The string has no domain or no constraint, or its item is not too long, has a dot where the
constraint has a name, and an index is closed. -/
def Readable (objectReference : List UInt8) : Prop :=
  ∀ domainId item tail fc, objectReference = domainId ++ 47 :: (item ++ tail) → 47 ∉ domainId →
    constraintOf objectReference = some fc → EndsItem item tail →
      item.length ≤ 128 ∧ (fc.toString.isSome → 46 ∈ nameOf item) ∧
        ∀ bs, tail = 40 :: bs → 41 ∈ bs

/-- Names without the characters that a reference is cut at. The path may have dollar signs. -/
structure PlainNames (domainId lnName path : List UInt8) : Prop where
  domainId_plain : ∀ c ∈ ([47, 91] : List UInt8), c ∉ domainId
  lnName_plain : ∀ c ∈ ([36, 40, 46, 47, 91] : List UInt8), c ∉ lnName
  path_plain : ∀ c ∈ ([40, 46, 47, 91] : List UInt8), c ∉ path
  length_lt : lnName.length + path.length < 128

/-- An item of a logical node with a constraint, and where it lies in an array the index. A
component stands behind an index only. -/
structure WellFormed (varAccessSpec : MmsVariableAccessSpecification) : Prop where
  itemId : ∃ lnName fc fcString path,
    varAccessSpec.itemId = some (lnName ++ 36 :: (fcString ++ 36 :: path)) ∧
    FunctionalConstraint.toString fc = some fcString ∧
    PlainNames varAccessSpec.domainId lnName path
  arrayIndex : -1 ≤ varAccessSpec.arrayIndex ∧ varAccessSpec.arrayIndex < 2 ^ 31
  componentName : ∀ name, varAccessSpec.componentName = some name →
    varAccessSpec.arrayIndex ≠ -1 ∧ name ≠ [] ∧ 46 ∉ name ∧ 91 ∉ name

def ReadsInside (objectReference : List UInt8) : Prop :=
  ∃ result, readAccessSpec objectReference = .ok result

def ReadsBack (varAccessSpec : MmsVariableAccessSpecification) : Prop :=
  ∃ objectReference, printAccessSpec varAccessSpec = .ok objectReference ∧
    readAccessSpec objectReference = .ok (some varAccessSpec)

/-! ## Buffers -/

section Buffers

variable {size : Nat} {text objectReference itemIdStr mmsVariableName : List UInt8}
  {fc : FunctionalConstraint}

theorem inBuffer_ok (h : text.length < size) : inBuffer size text = .ok text :=
  if_neg (Nat.not_lt.mpr h)

theorem inBuffer_error (h : size ≤ text.length) : inBuffer size text = .error .outOfBounds :=
  if_pos (Nat.lt_succ_of_le h)

theorem createMmsVariableName_eq (itemIdStr : List UInt8) (fc : FunctionalConstraint) :
    createMmsVariableNameFromObjectReference itemIdStr fc =
      match fc.toString with
      | none => .ok none
      | some fcString =>
        match strchr (nameOf itemIdStr) 46 with
        | none => .error .outOfBounds
        | some path => .ok (some ((nameOf itemIdStr).takeWhile (· ≠ 46) ++
            36 :: (fcString ++ 36 :: replace 46 36 path.tail))) := rfl

/-- What is written has room. -/
theorem length_createMmsVariableName
    (h : createMmsVariableNameFromObjectReference itemIdStr fc = .ok (some mmsVariableName)) :
    mmsVariableName.length < (nameOf itemIdStr).length + 4 := by
  rw [createMmsVariableName_eq] at h
  cases hfc : fc.toString with
  | none =>
    rw [hfc] at h
    cases h
  | some fcString =>
    obtain ⟨c, d, rfl, -, -⟩ := FunctionalConstraint.letters_of_toString hfc
    rw [hfc] at h
    dsimp only at h
    cases hdot : strchr (nameOf itemIdStr) 46 with
    | none =>
      rw [hdot] at h
      cases h
    | some t =>
      obtain ⟨lnName, path, hname, hlnName, rfl⟩ := of_strchr hdot
      rw [hdot, hname, takeWhile_append_cons hlnName] at h
      cases h
      rw [hname]
      simp only [List.length_append, List.length_cons, List.length_nil, List.tail_cons,
        length_replace]
      omega

theorem createMmsVariableNameInBuffer_eq (itemIdStr : List UInt8) (fc : FunctionalConstraint) :
    createMmsVariableNameInBuffer itemIdStr fc =
      createMmsVariableNameFromObjectReference itemIdStr fc := by
  rw [createMmsVariableNameInBuffer]
  cases h : createMmsVariableNameFromObjectReference itemIdStr fc with
  | error => rfl
  | ok mmsVariableName =>
    cases mmsVariableName with
    | none => rfl
    | some mmsVariableName =>
      rw [ok_bind]
      dsimp only
      rw [inBuffer_ok (length_createMmsVariableName h)]
      rfl

/-- A name is made where the constraint has none or there is a dot. -/
theorem createMmsVariableName_isOk_iff :
    (∃ itemId, createMmsVariableNameFromObjectReference itemIdStr fc = .ok itemId) ↔
      (fc.toString.isSome → 46 ∈ nameOf itemIdStr) := by
  rw [createMmsVariableName_eq]
  cases hfc : fc.toString with
  | none => simp
  | some fcString =>
    by_cases hdot : 46 ∈ nameOf itemIdStr
    · obtain ⟨lnName, path, hname, hlnName⟩ := List.eq_append_cons_of_mem hdot
      rw [hname, strchr_append hlnName]
      simp
    · rw [strchr_eq_none hdot]
      simp [hdot]

theorem arrayAccessOf_isOk_iff (bs : List UInt8) :
    (∃ access, arrayAccessOf (40 :: bs) = .ok access) ↔ 41 ∈ bs := by
  rw [arrayAccessOf, List.tail_cons]
  by_cases hclose : 41 ∈ bs
  · obtain ⟨index, rest, rfl, hindex⟩ := List.eq_append_cons_of_mem hclose
    rw [strchr_append hindex]
    simp
  · rw [strchr_eq_none hclose]
    simp [hclose]

end Buffers

/-! ## Reading -/

section Reading

variable {objectReference domainId item bs : List UInt8} {fc : FunctionalConstraint}

theorem item_of_tail (item bs : List UInt8) (c : UInt8) :
    (47 :: (item ++ c :: bs)).tail.take
      ((47 :: (item ++ c :: bs)).length - (c :: bs).length - 1) = item := by
  rw [List.length_cons, List.length_append, Nat.add_right_comm, Nat.add_sub_cancel,
    Nat.add_sub_cancel, List.tail_cons, List.take_left]

/-- What is read of an item and of the access to an array behind it. -/
def readItem (domainId item : List UInt8) (fc : FunctionalConstraint)
    (access : Exec (Int × Option (List UInt8))) : Exec (Option MmsVariableAccessSpecification) := do
  let itemIdStr ← inBuffer 129 item
  let itemId ← createMmsVariableNameFromObjectReference itemIdStr fc
  let (arrayIndex, componentName) ← access
  return some ⟨domainId, itemId, arrayIndex, componentName⟩

theorem readAccessSpec_index (hdomain : 47 ∉ domainId) (hitem : 40 ∉ item)
    (hfc : constraintOf (domainId ++ 47 :: (item ++ 40 :: bs)) = some fc) :
    readAccessSpec (domainId ++ 47 :: (item ++ 40 :: bs)) =
      readItem domainId item fc (arrayAccessOf (40 :: bs)) := by
  have hnot : (40 : UInt8) ∉ 47 :: item := by simpa using hitem
  have hend : strchr (47 :: (item ++ 40 :: bs)) 40 = some (40 :: bs) := strchr_append hnot bs
  simp only [readAccessSpec, hfc, strchr_append hdomain, takeWhile_append_cons hdomain, hend,
    Option.some_or, item_of_tail, createMmsVariableNameInBuffer_eq, Option.map_some,
    Option.getD_some]
  rfl

theorem readAccessSpec_plain (hdomain : 47 ∉ domainId) (hitem : 91 ∉ item) (hindex : 40 ∉ item)
    (hindex' : 40 ∉ bs) (hfc : constraintOf (domainId ++ 47 :: (item ++ 91 :: bs)) = some fc) :
    readAccessSpec (domainId ++ 47 :: (item ++ 91 :: bs)) =
      readItem domainId item fc (.ok (-1, none)) := by
  have hnone : strchr (47 :: (item ++ 91 :: bs)) 40 = none := by
    refine strchr_eq_none ?_
    simp [hindex, hindex']
  have hnot : (91 : UInt8) ∉ 47 :: item := by simpa using hitem
  have hend : strchr (47 :: (item ++ 91 :: bs)) 91 = some (91 :: bs) := strchr_append hnot bs
  simp only [readAccessSpec, hfc, strchr_append hdomain, takeWhile_append_cons hdomain, hend,
    hnone, Option.none_or, item_of_tail, createMmsVariableNameInBuffer_eq, Option.map_none,
    Option.getD_none]
  rfl

theorem readItem_isOk_iff (domainId item : List UInt8) (fc : FunctionalConstraint)
    (access : Exec (Int × Option (List UInt8))) :
    (∃ result, readItem domainId item fc access = .ok result) ↔
      item.length ≤ 128 ∧ (fc.toString.isSome → 46 ∈ nameOf item) ∧ ∃ a, access = .ok a := by
  rw [← createMmsVariableName_isOk_iff, readItem]
  by_cases hlength : item.length ≤ 128
  · rw [inBuffer_ok (Nat.lt_succ_of_le hlength), ok_bind]
    cases createMmsVariableNameFromObjectReference item fc with
    | error => simp [error_bind]
    | ok itemId =>
      cases access with
      | error => simp [ok_bind]
      | ok a => simp [ok_bind, hlength]
  · rw [inBuffer_error (Nat.not_le.mp hlength), error_bind]
    simp [hlength]

/-- An item without an end is not looked at. -/
theorem readAccessSpec_noItem {rest : List UInt8} (hdomain : 47 ∉ domainId) (hindex : 40 ∉ rest)
    (hbracket : 91 ∉ rest) (hfc : constraintOf (domainId ++ 47 :: rest) = some fc) :
    readAccessSpec (domainId ++ 47 :: rest) = .ok (some ⟨domainId, none, -1, none⟩) := by
  have hnone : ∀ c ∈ ([40, 91] : List UInt8), strchr (47 :: rest) c = none := by
    intro c hc
    refine strchr_eq_none ?_
    simp only [List.mem_cons, List.not_mem_nil, or_false] at hc
    rcases hc with rfl | rfl
    · simpa using hindex
    · simpa using hbracket
  simp only [readAccessSpec, hfc, strchr_append hdomain, takeWhile_append_cons hdomain,
    hnone 40 (by decide), hnone 91 (by decide), Option.none_or]
  rfl

theorem readsInside_iff (objectReference : List UInt8) :
    ReadsInside objectReference ↔ Readable objectReference := by
  constructor
  · rintro h domainId item tail fc rfl hdomain hfc hends
    obtain ⟨bs, rfl, hitem⟩ | ⟨bs, rfl, hitem, hindex, hindex'⟩ := hends
    · rw [ReadsInside, readAccessSpec_index hdomain hitem hfc, readItem_isOk_iff,
        arrayAccessOf_isOk_iff] at h
      obtain ⟨hlength, hdot, hclose⟩ := h
      refine ⟨hlength, hdot, fun bs' hbs => ?_⟩
      cases hbs
      exact hclose
    · rw [ReadsInside, readAccessSpec_plain hdomain hitem hindex hindex' hfc,
        readItem_isOk_iff] at h
      obtain ⟨hlength, hdot, -⟩ := h
      refine ⟨hlength, hdot, fun bs' hbs => ?_⟩
      cases hbs
  · intro h
    by_cases hslash : 47 ∈ objectReference
    · obtain ⟨domainId, rest, rfl, hdomain⟩ := List.eq_append_cons_of_mem hslash
      cases hfc : constraintOf (domainId ++ 47 :: rest) with
      | none =>
        refine ⟨none, ?_⟩
        rw [readAccessSpec, strchr_append hdomain, hfc]
      | some fc =>
        by_cases hindex : 40 ∈ rest
        · obtain ⟨item, bs, rfl, hitem⟩ := List.eq_append_cons_of_mem hindex
          obtain ⟨hlength, hdot, hclose⟩ :=
            h domainId item _ fc rfl hdomain hfc (.inl ⟨bs, rfl, hitem⟩)
          rw [ReadsInside, readAccessSpec_index hdomain hitem hfc, readItem_isOk_iff,
            arrayAccessOf_isOk_iff]
          exact ⟨hlength, hdot, hclose bs rfl⟩
        · by_cases hbracket : 91 ∈ rest
          · obtain ⟨item, bs, rfl, hitem⟩ := List.eq_append_cons_of_mem hbracket
            have hnot : 40 ∉ item ∧ 40 ∉ bs := by simpa using hindex
            obtain ⟨hlength, hdot, -⟩ := h domainId item _ fc rfl hdomain hfc
              (.inr ⟨bs, rfl, hitem, hnot.1, hnot.2⟩)
            rw [ReadsInside, readAccessSpec_plain hdomain hitem hnot.1 hnot.2 hfc,
              readItem_isOk_iff]
            exact ⟨hlength, hdot, _, rfl⟩
          · exact ⟨_, readAccessSpec_noItem hdomain hindex hbracket hfc⟩
    · refine ⟨none, ?_⟩
      rw [readAccessSpec, strchr_eq_none hslash]

end Reading

/-! ## Digits -/

section Digits

theorem isDigit_octet {d : UInt8} (h : 48 ≤ d.toNat ∧ d.toNat ≤ 57) : isDigit d = true := by
  rw [isDigit, Bool.and_eq_true, decide_eq_true_eq, decide_eq_true_eq, UInt8.lt_iff_toNat_lt,
    UInt8.lt_iff_toNat_lt]
  exact ⟨h.1, Nat.lt_succ_of_le h.2⟩

/-- The value only grows. -/
theorem le_foldl_digits {digits : List UInt8}
    (h : ∀ d ∈ digits, 48 ≤ d.toNat ∧ d.toNat ≤ 57) {value : Int} (hvalue : 0 ≤ value) :
    value ≤ digits.foldl (fun n d => n * 10 + ((d.toNat : Int) - 48)) value := by
  induction digits generalizing value with
  | nil => exact le_rfl
  | cons d digits ih =>
    obtain ⟨hd, hdigits⟩ := List.forall_mem_cons.mp h
    have hnext : 0 ≤ value * 10 + ((d.toNat : Int) - 48) := by omega
    have hle := ih hdigits hnext
    rw [List.foldl_cons]
    omega

theorem digitsToInt_eq {digits : List UInt8}
    (h : ∀ d ∈ digits, 48 ≤ d.toNat ∧ d.toNat ≤ 57) {value : Int} (hvalue : 0 ≤ value)
    (hlt : digits.foldl (fun n d => n * 10 + ((d.toNat : Int) - 48)) value < 2 ^ 31) :
    digitsToInt digits value = digits.foldl (fun n d => n * 10 + ((d.toNat : Int) - 48)) value := by
  induction digits generalizing value with
  | nil => rfl
  | cons d digits ih =>
    obtain ⟨hd, hdigits⟩ := List.forall_mem_cons.mp h
    have hnext : 0 ≤ value * 10 + ((d.toNat : Int) - 48) := by omega
    rw [List.foldl_cons] at hlt ⊢
    have hle := (le_foldl_digits hdigits hnext).trans_lt hlt
    have htimes : i32 (value * 10) = value * 10 := i32_of_range (by omega) (by omega)
    rw [digitsToInt, if_pos (isDigit_octet hd), htimes, i32_of_range (by omega) (by omega),
      ih hdigits hnext hlt]

theorem digitsToInt_octets {n : Nat} (h : n < 2 ^ 31) :
    digitsToInt (Decimal.octets n) 0 = n := by
  have hvalue := Decimal.value_octets n
  rw [Decimal.value] at hvalue
  rw [digitsToInt_eq (fun d hd => Decimal.octet_bounds hd) le_rfl (by omega), hvalue]

theorem length_octets (n : Nat) : (Decimal.octets n).length = getNumberOfDigits n := by
  induction n using Nat.strong_induction_on with
  | h n ih =>
    rw [Decimal.octets, List.length_map, getNumberOfDigits]
    split
    case isTrue h =>
      have hsmaller : n / 10 < n := by omega
      rw [Nat.toDigits_of_base_le (by decide) h, List.length_append, ← ih _ hsmaller,
        Decimal.octets, List.length_map]
      rfl
    case isFalse h =>
      rw [Nat.toDigits_of_lt_base (by omega)]
      rfl

theorem ascii_toString (n : Nat) : ascii (toString (n : Int)) = Decimal.octets n := by
  rw [ascii, Decimal.octets]
  exact congrArg _ Nat.toList_repr

end Digits

/-! ## Printing -/

section Printing

variable {domainId lnName path fcString : List UInt8} {fc : FunctionalConstraint}
  {arrayIndex : Int} {componentName : Option (List UInt8)}

/-- The index as it is printed. -/
def indexPart (arrayIndex : Int) : List UInt8 :=
  if -1 < arrayIndex then 40 :: (Decimal.octets arrayIndex.toNat ++ [41]) else []

/-- The component as it is printed. -/
def componentPart (componentName : Option (List UInt8)) : List UInt8 :=
  (componentName.map fun name => 46 :: replace 36 46 name).getD []

theorem ascii_index (h : -1 < arrayIndex) :
    ascii (toString arrayIndex) = Decimal.octets arrayIndex.toNat := by
  obtain ⟨n, rfl⟩ := Int.eq_ofNat_of_zero_le (Int.add_one_le_of_lt h)
  exact ascii_toString n

theorem varAccessSpecToObjectReference_eq (hlnName : 36 ∉ lnName)
    (hfc : FunctionalConstraint.toString fc = some fcString) :
    varAccessSpecToObjectReference ⟨domainId, some (lnName ++ 36 :: (fcString ++ 36 :: path)),
        arrayIndex, componentName⟩ =
      .ok (domainId ++ 47 :: ((lnName ++ 46 :: replace 36 46 path) ++
        (indexPart arrayIndex ++ (componentPart componentName ++ 91 :: (fcString ++ [93]))))) := by
  obtain ⟨c, d, rfl, -, -⟩ := FunctionalConstraint.letters_of_toString hfc
  have hindex : (if -1 < arrayIndex then 40 :: (ascii (toString arrayIndex) ++ [41]) else []) =
      indexPart arrayIndex := by
    rw [indexPart]
    split
    case isTrue h => rw [ascii_index h]
    case isFalse => rfl
  simp only [varAccessSpecToObjectReference, strchr_append hlnName, takeWhile_append_cons hlnName,
    hindex]
  simp [componentPart]

/-- A printed specification has room. -/
theorem printAccessSpec_eq (hlnName : 36 ∉ lnName)
    (hfc : FunctionalConstraint.toString fc = some fcString) :
    printAccessSpec ⟨domainId, some (lnName ++ 36 :: (fcString ++ 36 :: path)), arrayIndex,
        componentName⟩ =
      .ok (domainId ++ 47 :: ((lnName ++ 46 :: replace 36 46 path) ++
        (indexPart arrayIndex ++ (componentPart componentName ++ 91 :: (fcString ++ [93]))))) := by
  rw [printAccessSpec, varAccessSpecToObjectReference_eq hlnName hfc, ok_bind]
  obtain ⟨c, d, rfl, -, -⟩ := FunctionalConstraint.letters_of_toString hfc
  have hindex : (indexPart arrayIndex).length =
      if -1 < arrayIndex then 2 + getNumberOfDigits arrayIndex.toNat else 0 := by
    rw [indexPart]
    split
    · rw [List.length_cons, List.length_append, length_octets, List.length_singleton]
      omega
    · rfl
  have hcomponent : (componentPart componentName).length ≤
      (componentName.getD []).length + 1 := by
    cases componentName with
    | none => exact Nat.zero_le _
    | some name => simp [componentPart]
  apply inBuffer_ok
  simp only [newStringLen, Option.getD_some, List.length_append, List.length_cons,
    List.length_nil, length_replace, ← hindex]
  omega

/-- The constraint stands in the first brackets. -/
theorem constraintOf_append {front : List UInt8} (hfront : 91 ∉ front)
    (hfc : FunctionalConstraint.toString fc = some fcString) :
    constraintOf (front ++ 91 :: (fcString ++ [93])) = some fc := by
  obtain ⟨c, d, rfl, hfromString, hletters⟩ := FunctionalConstraint.letters_of_toString hfc
  have hclose : (93 : UInt8) ∉ [91, c, d] := by
    intro hmem
    have hne : ∀ x ∈ [c, d], (93 : UInt8) ≠ x := by
      rintro x hx rfl
      exact absurd (hletters 93 hx).2 (by decide)
    simp only [List.mem_cons, List.not_mem_nil, or_false] at hmem
    rcases hmem with hmem | rfl | rfl
    · exact absurd hmem (by decide)
    · exact hne 93 (by simp) rfl
    · exact hne 93 (by simp) rfl
  have hend : strchr (91 :: ([c, d] ++ [93])) 93 = some [93] := strchr_append hclose []
  simp only [constraintOf, strchr_append hfront, hend, Option.bind_eq_bind, Option.bind_some]
  simpa using hfromString

theorem notMem_letters (hfc : FunctionalConstraint.toString fc = some fcString) {x : UInt8}
    (hx : x.toNat < 65 ∨ 90 < x.toNat) : x ∉ fcString := by
  obtain ⟨c, d, -, -, hletters⟩ := FunctionalConstraint.letters_of_toString hfc
  intro hmem
  obtain ⟨hle, hge⟩ := hletters x hmem
  omega

theorem notMem_octets {x : UInt8} (n : Nat) (hx : x.toNat < 48 ∨ 57 < x.toNat) :
    x ∉ Decimal.octets n := by
  intro hmem
  obtain ⟨hle, hge⟩ := Decimal.octet_bounds hmem
  omega

theorem notMem_replaced {s : List UInt8} {x : UInt8} (hne : x ≠ 46) (h : x ∉ s) :
    x ∉ replace 36 46 s := by
  intro hmem
  rcases mem_of_mem_replace hmem with hmem | hmem
  · exact hne hmem
  · exact h hmem

theorem notMem_componentPart {x : UInt8} (hne : x ≠ 46)
    (h : ∀ name, componentName = some name → x ∉ name) : x ∉ componentPart componentName := by
  cases componentName with
  | none => exact List.not_mem_nil
  | some name =>
    change x ∉ 46 :: replace 36 46 name
    rw [List.mem_cons, not_or]
    exact ⟨hne, notMem_replaced hne (h name rfl)⟩

/-- An index and the component behind it are read as they were printed. -/
theorem arrayAccessOf_printed {n : Nat} (hn : n < 2 ^ 31)
    (hcomponent : ∀ name, componentName = some name → name ≠ [] ∧ 46 ∉ name)
    (hfc : FunctionalConstraint.toString fc = some fcString) :
    arrayAccessOf (40 :: (Decimal.octets n ++
        41 :: (componentPart componentName ++ 91 :: (fcString ++ [93])))) =
      .ok (n, componentName) := by
  obtain ⟨c, d, rfl, -, -⟩ := FunctionalConstraint.letters_of_toString hfc
  have hclose : 41 ∉ Decimal.octets n := notMem_octets n (by decide)
  have hindex : (Decimal.octets n ++ 41 :: (componentPart componentName ++
      91 :: ([c, d] ++ [93]))).take ((Decimal.octets n ++ 41 :: (componentPart componentName ++
        91 :: ([c, d] ++ [93]))).length - (41 :: (componentPart componentName ++
          91 :: ([c, d] ++ [93]))).length) = Decimal.octets n := by
    rw [List.length_append, Nat.add_sub_cancel, List.take_left]
  simp only [arrayAccessOf, List.tail_cons, strchr_append hclose, hindex, digitsToInt_octets hn]
  cases componentName with
  | none => rfl
  | some name =>
    obtain ⟨hne, hdot⟩ := hcomponent name rfl
    have hpos := List.length_pos_of_ne_nil hne
    have hlength : ((41 :: (componentPart (some name) ++ 91 :: ([c, d] ++ [93]))).length : Int) -
        6 = name.length := by
      simp [componentPart]
      omega
    have hname : ((41 :: (componentPart (some name) ++ 91 :: ([c, d] ++ [93]))).drop 2).take
        name.length = replace 36 46 name := by
      simp [componentPart]
    rw [hlength, if_pos (Int.natCast_pos.mpr hpos), Int.toNat_natCast, hname,
      replace_replace hdot]

namespace PlainNames

variable (h : PlainNames domainId lnName path)

include h

theorem notMem_item : ∀ c ∈ ([40, 47, 91] : List UInt8),
    c ∉ lnName ++ 46 :: replace 36 46 path := by
  intro c hc
  have hnames : ∀ c ∈ ([40, 47, 91] : List UInt8), c ≠ 46 ∧
      c ∈ ([36, 40, 46, 47, 91] : List UInt8) ∧ c ∈ ([40, 46, 47, 91] : List UInt8) := by simp
  obtain ⟨hne, hlnName, hpath⟩ := hnames c hc
  rw [List.mem_append, List.mem_cons, not_or, not_or]
  exact ⟨h.lnName_plain c hlnName, hne, notMem_replaced hne (h.path_plain c hpath)⟩

/-- The item of a printed specification becomes the name of the variable again. -/
theorem readItem_eq (hfc : FunctionalConstraint.toString fc = some fcString) :
    readItem domainId (lnName ++ 46 :: replace 36 46 path) fc (.ok (arrayIndex, componentName)) =
      .ok (some ⟨domainId, some (lnName ++ 36 :: (fcString ++ 36 :: path)), arrayIndex,
        componentName⟩) := by
  have hdot := h.lnName_plain 46 (by decide)
  have hlength : (lnName ++ 46 :: replace 36 46 path).length < 129 := by
    have hle := h.length_lt
    rw [List.length_append, List.length_cons, length_replace]
    omega
  rw [readItem, inBuffer_ok hlength, ok_bind, createMmsVariableName_eq, nameOf,
    strchr_eq_none (h.notMem_item 47 (by decide)), Option.map_none, Option.getD_none, hfc]
  dsimp only
  rw [strchr_append hdot, takeWhile_append_cons hdot]
  dsimp only [List.tail_cons]
  rw [replace_replace (h.path_plain 46 (by decide))]
  rfl

theorem constraintOf_eq {tail : List UInt8} (htail : 91 ∉ tail)
    (hfc : FunctionalConstraint.toString fc = some fcString) :
    constraintOf (domainId ++ 47 :: ((lnName ++ 46 :: replace 36 46 path) ++
      (tail ++ 91 :: (fcString ++ [93])))) = some fc := by
  have hfront : 91 ∉ domainId ++ 47 :: ((lnName ++ 46 :: replace 36 46 path) ++ tail) := by
    rw [List.mem_append, List.mem_cons, List.mem_append, not_or, not_or, not_or]
    exact ⟨h.domainId_plain 91 (by decide), by decide, h.notMem_item 91 (by decide), htail⟩
  simpa only [List.append_assoc, List.cons_append] using constraintOf_append hfront hfc

/-- A specification without an index. -/
theorem readAccessSpec_item (hfc : FunctionalConstraint.toString fc = some fcString) :
    readAccessSpec (domainId ++ 47 :: ((lnName ++ 46 :: replace 36 46 path) ++
        91 :: (fcString ++ [93]))) =
      .ok (some ⟨domainId, some (lnName ++ 36 :: (fcString ++ 36 :: path)), -1, none⟩) := by
  have hletters : (40 : UInt8) ∉ fcString ++ [93] := by
    rw [List.mem_append, not_or]
    exact ⟨notMem_letters hfc (by decide), by decide⟩
  rw [readAccessSpec_plain (h.domainId_plain 47 (by decide)) (h.notMem_item 91 (by decide))
    (h.notMem_item 40 (by decide)) hletters (h.constraintOf_eq List.not_mem_nil hfc),
    h.readItem_eq hfc]

/-- A specification with an index. -/
theorem readAccessSpec_element {n : Nat} (hn : n < 2 ^ 31)
    (hcomponent : ∀ name, componentName = some name → name ≠ [] ∧ 46 ∉ name ∧ 91 ∉ name)
    (hfc : FunctionalConstraint.toString fc = some fcString) :
    readAccessSpec (domainId ++ 47 :: ((lnName ++ 46 :: replace 36 46 path) ++
        40 :: (Decimal.octets n ++
          41 :: (componentPart componentName ++ 91 :: (fcString ++ [93]))))) =
      .ok (some ⟨domainId, some (lnName ++ 36 :: (fcString ++ 36 :: path)), n,
        componentName⟩) := by
  have hbracket : 91 ∉ 40 :: (Decimal.octets n ++ 41 :: componentPart componentName) := by
    rw [List.mem_cons, List.mem_append, List.mem_cons, not_or, not_or, not_or]
    exact ⟨by decide, notMem_octets n (by decide), by decide,
      notMem_componentPart (by decide) fun name hname => (hcomponent name hname).2.2⟩
  have hconstraint : constraintOf (domainId ++ 47 :: ((lnName ++ 46 :: replace 36 46 path) ++
      40 :: (Decimal.octets n ++
        41 :: (componentPart componentName ++ 91 :: (fcString ++ [93]))))) = some fc := by
    simpa only [List.append_assoc, List.cons_append] using h.constraintOf_eq hbracket hfc
  have hnames : ∀ name, componentName = some name → name ≠ [] ∧ 46 ∉ name := by
    intro name hname
    obtain ⟨hne, hdot, -⟩ := hcomponent name hname
    exact ⟨hne, hdot⟩
  rw [readAccessSpec_index (h.domainId_plain 47 (by decide)) (h.notMem_item 40 (by decide))
    hconstraint, arrayAccessOf_printed hn hnames hfc, h.readItem_eq hfc]

end PlainNames

end Printing

theorem readsBack {varAccessSpec : MmsVariableAccessSpecification}
    (h : WellFormed varAccessSpec) : ReadsBack varAccessSpec := by
  obtain ⟨lnName, fc, fcString, path, hitem, hfc, hnames⟩ := h.itemId
  obtain ⟨hlow, hhigh⟩ := h.arrayIndex
  have hcomponent := h.componentName
  obtain ⟨domainId, itemId, arrayIndex, componentName⟩ := varAccessSpec
  obtain rfl : itemId = some _ := hitem
  refine ⟨_, printAccessSpec_eq (hnames.lnName_plain 36 (by decide)) hfc, ?_⟩
  dsimp only at hlow hhigh hcomponent
  by_cases hindex : -1 < arrayIndex
  · obtain ⟨n, rfl⟩ := Int.eq_ofNat_of_zero_le (Int.add_one_le_of_lt hindex)
    have hpart : indexPart (n : Int) = 40 :: (Decimal.octets n ++ [41]) := if_pos hindex
    have hn : n < 2 ^ 31 := by omega
    have hread := hnames.readAccessSpec_element hn
      (fun name hname => (hcomponent name hname).2) hfc
    rw [hpart]
    simpa only [List.append_assoc, List.cons_append, List.nil_append] using hread
  · obtain rfl : arrayIndex = -1 := le_antisymm (Int.not_lt.mp hindex) hlow
    obtain rfl : componentName = none := by
      cases componentName with
      | none => rfl
      | some name => exact absurd rfl (hcomponent name rfl).1
    exact hnames.readAccessSpec_item hfc

theorem accessSpecStrings_iff (objectReference : List UInt8)
    (varAccessSpec : MmsVariableAccessSpecification) :
    (ReadsInside objectReference ∧ (WellFormed varAccessSpec → ReadsBack varAccessSpec)) ↔
      Readable objectReference := by
  rw [readsInside_iff]
  exact and_iff_left readsBack

/-- `a/b[ST]` is read on behind its end, since there is no dot. -/
theorem not_readsInside_noDot : ¬ ReadsInside [97, 47, 98, 91, 83, 84, 93] := by
  rintro ⟨result, hresult⟩
  cases hresult

end MmsMapping

end Iec61850
