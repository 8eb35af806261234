import Iec61850.Lib.TlvSizes
import Iec61850.Mms.AccessResult

/-! `mms_information_report.c`: the unconfirmed PDUs with values that the server sends, and how they
keep to the size of a PDU that has been negotiated. -/

namespace Iec61850

open BerEncoder

namespace MmsServer

/-- A PDU keeps to what has been negotiated: it stays inside the buffer it is written into, its
headers state the sizes of what is behind them, and it is not too long. -/
structure Respects (maxPduSize : Int) (maxSize : Nat) (pdu : List UInt8) : Prop where
  inside : pdu.length ≤ maxSize
  sized : Tlv.Sized pdu
  limit : (pdu.length : Int) ≤ maxPduSize

/-- `MmsVariableAccessSpecification`, without array index and component. -/
structure VariableAccessSpecification where
  domainId : Option (List UInt8)
  itemId : List UInt8

/-- The octets of an element with a tag of one octet. -/
def elementSize (length : Nat) : Nat := 1 + determineLengthSize length + length

/-- What the three functions do behind the access specification: `variableSpecSize` octets are
counted for it, and `variableSpec` is what is written. -/
def informationReport (variableSpecSize : Nat) (variableSpec : List UInt8) (accessResultSize : Nat)
    (accessResults : List UInt8) : List UInt8 :=
  let listOfAccessResultSize := elementSize accessResultSize
  let informationReportContentSize := variableSpecSize + listOfAccessResultSize
  let informationReportSize := elementSize informationReportContentSize
  encodeTL 0xa3 informationReportSize ++ (encodeTL 0xa0 informationReportContentSize ++
    (variableSpec ++ (encodeTL 0xa0 accessResultSize ++ accessResults)))

/-- `MmsServerConnection_sendInformationReportSingleVariableVMDSpecific` -/
def informationReportSingleVariable (itemId : List UInt8) (value : MmsValue) : List UInt8 :=
  let varSpecSize := elementSize itemId.length
  let sequenceSize := elementSize varSpecSize
  let listOfVariableSize := elementSize sequenceSize
  let variableSpecSize := elementSize listOfVariableSize
  informationReport variableSpecSize
    (encodeTL 0xa0 listOfVariableSize ++ (encodeTL 0x30 sequenceSize ++ (encodeTL 0xa0 varSpecSize ++
      encodeStringWithTag 0x80 (some itemId))))
    (encodeAccessResultSize value) (encodeAccessResult value)

namespace VariableAccessSpecification

/-- The names without the header of their own. -/
def namesSize (spec : VariableAccessSpecification) : Nat :=
  determineEncodedStringSize (some spec.itemId) +
    match spec.domainId with
    | some domainId => determineEncodedStringSize (some domainId)
    | none => 0

/-- What the first loop counts for a variable. -/
def varSpecSize (spec : VariableAccessSpecification) : Nat :=
  match spec.domainId with
  | some _ => spec.namesSize + determineLengthSize spec.namesSize + 1
  | none => spec.namesSize

/-- What the second loop writes for it. -/
def encode (spec : VariableAccessSpecification) : List UInt8 :=
  match spec.domainId with
  | some domainId =>
    let varSpecSizeComplete := spec.namesSize + determineLengthSize spec.namesSize + 1
    encodeTL 0xa0 varSpecSizeComplete ++ (encodeTL 0xa1 spec.namesSize ++
      (encodeStringWithTag 0x1a (some domainId) ++ encodeStringWithTag 0x1a (some spec.itemId)))
  | none => encodeTL 0xa0 spec.namesSize ++ encodeStringWithTag 0x80 (some spec.itemId)

end VariableAccessSpecification

/-- `MmsServerConnection_sendInformationReportListOfVariables` -/
def informationReportListOfVariables (declarations : List VariableAccessSpecification)
    (values : List MmsValue) : List UInt8 :=
  let listOfVarSpecSize := (declarations.map (·.varSpecSize)).sum
  let sequenceSize := elementSize listOfVarSpecSize
  let listOfVariableSize := elementSize sequenceSize
  let variableSpecSize := elementSize listOfVariableSize
  informationReport variableSpecSize
    (encodeTL 0xa0 listOfVariableSize ++ (encodeTL 0x30 sequenceSize ++
      declarations.flatMap (·.encode)))
    (elementsSize values) (encodeElements values)

/-- `MmsServerConnection_sendInformationReportVMDSpecific` -/
def informationReportVMDSpecific (itemId : List UInt8) (values : List MmsValue) : List UInt8 :=
  let objectNameSize := determineEncodedStringSize (some itemId)
  informationReport (objectNameSize + determineLengthSize objectNameSize + 1)
    (encodeTL 0xa1 objectNameSize ++ encodeStringWithTag 0x80 (some itemId))
    (elementsSize values) (encodeElements values)

/-! ## Sizes -/

variable {maxPduSize : Int} {maxSize n : Nat} {tag : UInt8} {content octets : List UInt8}

theorem elementSize_eq_string (string : List UInt8) :
    determineEncodedStringSize (some string) = elementSize string.length := rfl

theorem elementSize_comm (n : Nat) : n + determineLengthSize n + 1 = elementSize n := by
  rw [elementSize]
  omega

theorem length_encodeTL (tag : UInt8) (n : Nat) :
    (encodeTL tag n).length = 1 + determineLengthSize n := by
  rw [encodeTL, List.length_cons, length_encodeLength, Nat.add_comm]

theorem length_element (tag : UInt8) (content : List UInt8) :
    (encodeTL tag content.length ++ content).length = elementSize content.length := by
  rw [List.length_append, length_encodeTL, elementSize]

theorem lt_elementSize (n : Nat) : n < elementSize n := by
  have := determineLengthSize_pos n
  rw [elementSize]
  omega

/-- Elements of which `n` octets are counted, and as many are written. -/
structure Counted (n : Nat) (octets : List UInt8) : Prop where
  length_eq : octets.length = n
  sized : octets.length < 65536 → Tlv.AreSized octets

theorem Counted.append {m : Nat} {octets' : List UInt8} (h : Counted m octets)
    (h' : Counted n octets') : Counted (m + n) (octets ++ octets') where
  length_eq := by rw [List.length_append, h.length_eq, h'.length_eq]
  sized := by
    intro hlt
    rw [List.length_append] at hlt
    exact (h.sized (by omega)).append (h'.sized (by omega))

theorem Counted.sized_element (h : Counted n octets) (tag : UInt8) (ht : Tlv.IsShortTag tag)
    (hc : Tlv.IsConstructed tag) (hlt : elementSize n < 65536) :
    Tlv.Sized (encodeTL tag n ++ octets) := by
  have hn : octets.length < 65536 := by
    rw [h.length_eq]
    exact (lt_elementSize n).trans hlt
  have hl : Tlv.LengthOctets octets.length (encodeLength n) := by
    rw [← h.length_eq]
    exact lengthOctets_encodeLength hn
  exact (h.sized hn).constructed (Tlv.identifier_constructed ht hc) hl

theorem Counted.length_element (h : Counted n octets) (tag : UInt8) :
    (encodeTL tag n ++ octets).length = elementSize n := by
  rw [← h.length_eq]
  exact MmsServer.length_element tag octets

theorem Counted.element (h : Counted n octets) (tag : UInt8) (ht : Tlv.IsShortTag tag)
    (hc : Tlv.IsConstructed tag) : Counted (elementSize n) (encodeTL tag n ++ octets) :=
  ⟨h.length_element tag, fun hlt =>
    (h.sized_element tag ht hc (h.length_element tag ▸ hlt)).areSized⟩

/-- A primitive element. -/
theorem counted_primitive (tag : UInt8) (ht : Tlv.IsShortTag tag) (hp : ¬ Tlv.IsConstructed tag)
    (content : List UInt8) :
    Counted (elementSize content.length) (encodeTL tag content.length ++ content) := by
  refine ⟨length_element tag content, fun hlt => ?_⟩
  rw [length_element] at hlt
  have hl := lengthOctets_encodeLength ((lt_elementSize content.length).trans hlt)
  exact (Tlv.Sized.primitive (Tlv.identifier_primitive ht hp) hl).areSized

theorem counted_string (tag : UInt8) (ht : Tlv.IsShortTag tag) (hp : ¬ Tlv.IsConstructed tag)
    (string : List UInt8) :
    Counted (elementSize string.length) (encodeStringWithTag tag (some string)) :=
  counted_primitive tag ht hp string

/-- Values that are sized as they are written. -/
theorem areSized_elements {values : List MmsValue}
    (hexact : ∀ l ∈ MmsValue.leavesOf values, SizedExactly l)
    (h : (encodeElements values).length < 65536) : Tlv.AreSized (encodeElements values) := by
  induction values with
  | nil => exact .nil
  | cons v vs ih =>
    rw [MmsValue.leavesOf, List.forall_mem_append] at hexact
    rw [encodeElements, List.length_append] at h
    have hv := (tree_wellFormed v (lt_of_le_of_lt (Nat.le_add_right _ _) h) hexact.1).sized
    exact hv.areSized.append (ih hexact.2 (lt_of_le_of_lt (Nat.le_add_left _ _) h))

/-! ## Reports -/

section Report

variable {variableSpecSize accessResultSize : Nat} {variableSpec accessResults : List UInt8}

theorem length_informationReport (variableSpecSize : Nat) (variableSpec : List UInt8)
    (accessResultSize : Nat) (accessResults : List UInt8) :
    (informationReport variableSpecSize variableSpec accessResultSize accessResults).length +
        (variableSpecSize + accessResultSize) =
      elementSize (elementSize (variableSpecSize + elementSize accessResultSize)) +
        (variableSpec.length + accessResults.length) := by
  simp only [informationReport, List.length_append, length_encodeTL]
  simp only [elementSize]
  omega

/-- A report whose first header is right has as much in it as was counted. -/
theorem counted_of_sized
    (h : Tlv.Sized (informationReport variableSpecSize variableSpec accessResultSize accessResults))
    (hlt : elementSize (variableSpecSize + elementSize accessResultSize) < 65536) :
    variableSpecSize + accessResultSize = variableSpec.length + accessResults.length ∧
      Tlv.AreSized (encodeTL 0xa0 (variableSpecSize + elementSize accessResultSize) ++
        (variableSpec ++ (encodeTL 0xa0 accessResultSize ++ accessResults))) := by
  obtain ⟨hn, hc⟩ := h.stated (by decide) (lengthOctets_encodeLength hlt)
  refine ⟨?_, hc (by decide)⟩
  simp only [List.length_append, length_encodeTL] at hn
  simp only [elementSize] at hn
  omega

/-- What is counted and what is written are the same. -/
theorem sized_informationReport (hspec : Counted variableSpecSize variableSpec)
    (hresults : Counted accessResultSize accessResults)
    (hlt : (informationReport variableSpecSize variableSpec accessResultSize
      accessResults).length < 65536) :
    Tlv.Sized (informationReport variableSpecSize variableSpec accessResultSize
      accessResults) := by
  have hcontent := (hspec.append (hresults.element 0xa0 (by decide) (by decide))).element 0xa0
    (by decide) (by decide)
  unfold informationReport at hlt ⊢
  dsimp only at hlt ⊢
  rw [hcontent.length_element] at hlt
  exact hcontent.sized_element 0xa3 (by decide) (by decide) hlt

/-- A report with a right access specification keeps to the size if and only if its values are
counted as they are written, and it is short enough. -/
theorem informationReport_respects_iff (hmax : maxPduSize ≤ 16000)
    (hspec : Counted variableSpecSize variableSpec) (hle : accessResultSize ≤ accessResults.length)
    (hresults : accessResults.length = accessResultSize →
      Counted accessResultSize accessResults) :
    Respects maxPduSize maxPduSize.toNat
        (informationReport variableSpecSize variableSpec accessResultSize accessResults) ↔
      accessResults.length = accessResultSize ∧
        (elementSize (elementSize (variableSpecSize + elementSize accessResultSize)) : Int) ≤
          maxPduSize := by
  have hlength := length_informationReport variableSpecSize variableSpec accessResultSize
    accessResults
  have hsize := hspec.length_eq
  have hinner := lt_elementSize (elementSize (variableSpecSize + elementSize accessResultSize))
  constructor
  · intro h
    have hlimit := h.limit
    have hcounted := (counted_of_sized h.sized (by omega)).1
    exact ⟨by omega, by omega⟩
  · rintro ⟨heq, hlimit⟩
    have hpdu : ((informationReport variableSpecSize variableSpec accessResultSize
        accessResults).length : Int) ≤ maxPduSize := by omega
    exact ⟨by omega, sized_informationReport hspec (hresults heq) (by omega), hpdu⟩

end Report

section Values

variable (values : List MmsValue)

theorem elements_counted_iff :
    elementsSize values ≤ (encodeElements values).length ∧
      ((encodeElements values).length = elementsSize values ↔
        ∀ l ∈ MmsValue.leavesOf values, SizedExactly l) :=
  elements_size fun v _ => tree_size v

theorem counted_elements (h : (encodeElements values).length = elementsSize values) :
    Counted (elementsSize values) (encodeElements values) :=
  ⟨h, areSized_elements ((elements_counted_iff values).2.mp h)⟩

/-- A report of a named variable list. -/
theorem informationReportVMDSpecific_respects_iff (hmax : maxPduSize ≤ 16000)
    (itemId : List UInt8) :
    Respects maxPduSize maxPduSize.toNat (informationReportVMDSpecific itemId values) ↔
      (∀ l ∈ MmsValue.leavesOf values, SizedExactly l) ∧
        (elementSize (elementSize (elementSize (elementSize itemId.length) +
          elementSize (elementsSize values))) : Int) ≤ maxPduSize := by
  have hspec := (counted_string 0x80 (by decide) (by decide) itemId).element 0xa1 (by decide) (by decide)
  unfold informationReportVMDSpecific
  dsimp only
  rw [elementSize_eq_string, elementSize_comm, ← (elements_counted_iff values).2]
  exact informationReport_respects_iff hmax hspec (elements_counted_iff values).1
    (counted_elements values)

end Values

/-- A report of one variable. -/
theorem informationReportSingleVariable_respects_iff (hmax : maxPduSize ≤ 16000)
    (itemId : List UInt8) (value : MmsValue) :
    Respects maxPduSize maxPduSize.toNat (informationReportSingleVariable itemId value) ↔
      (∀ l ∈ value.leaves, SizedExactly l) ∧
        (elementSize (elementSize (elementSize (elementSize (elementSize (elementSize
          itemId.length))) + elementSize (encodeAccessResultSize value))) : Int) ≤ maxPduSize := by
  have hspec := (((counted_string 0x80 (by decide) (by decide) itemId).element 0xa0 (by decide) (by decide)).element 0x30 (by decide) (by decide)).element 0xa0 (by decide) (by decide)
  obtain ⟨hle, hiff⟩ := tree_size value
  unfold informationReportSingleVariable
  dsimp only
  rw [← hiff]
  refine informationReport_respects_iff hmax hspec hle fun heq => ⟨heq, fun hlt => ?_⟩
  exact (tree_wellFormed value hlt (hiff.mp heq)).sized.areSized

/-! ## Several variables -/

theorem VariableAccessSpecification.counted_encode (spec : VariableAccessSpecification) :
    Counted (elementSize spec.varSpecSize) spec.encode := by
  obtain ⟨domainId, itemId⟩ := spec
  cases domainId with
  | none =>
    rw [encode, varSpecSize, namesSize]
    exact (counted_string 0x80 (by decide) (by decide) itemId).element 0xa0 (by decide) (by decide)
  | some domainId =>
    have hnames := (counted_string 0x1a (by decide) (by decide) domainId).append
      (counted_string 0x1a (by decide) (by decide) itemId)
    rw [Nat.add_comm] at hnames
    rw [encode, varSpecSize, namesSize]
    dsimp only
    rw [elementSize_comm]
    exact (hnames.element 0xa1 (by decide) (by decide)).element 0xa0 (by decide) (by decide)

section Declarations

variable (declarations : List VariableAccessSpecification)

def listOfVarSpecSize : Nat := (declarations.map (·.varSpecSize)).sum

/-- What is written for the variables: each of them has a header of its own. -/
def writtenVarSpecSize : Nat := (declarations.map fun spec => elementSize spec.varSpecSize).sum

theorem counted_declarations :
    Counted (writtenVarSpecSize declarations) (declarations.flatMap (·.encode)) := by
  induction declarations with
  | nil => exact ⟨rfl, fun _ => .nil⟩
  | cons spec specs ih =>
    rw [List.flatMap_cons]
    exact spec.counted_encode.append ih

theorem add_lt_elementSize (m n : Nat) : elementSize (m + n) < elementSize m + elementSize n := by
  simp only [elementSize, determineLengthSize]
  split_ifs <;> omega

/-- One header is counted: that is right for one variable, and too little for more. -/
theorem elementSize_listOfVarSpecSize_le (h : declarations ≠ []) :
    elementSize (listOfVarSpecSize declarations) ≤ writtenVarSpecSize declarations ∧
      (1 < declarations.length →
        elementSize (listOfVarSpecSize declarations) < writtenVarSpecSize declarations) := by
  induction declarations with
  | nil => exact absurd rfl h
  | cons spec specs ih =>
    cases specs with
    | nil => simp [listOfVarSpecSize, writtenVarSpecSize]
    | cons spec' specs =>
      have hrest := (ih (List.cons_ne_nil _ _)).1
      have hlt := add_lt_elementSize spec.varSpecSize (listOfVarSpecSize (spec' :: specs))
      have hsum : listOfVarSpecSize (spec :: spec' :: specs) =
          spec.varSpecSize + listOfVarSpecSize (spec' :: specs) := List.sum_cons
      have hwritten : writtenVarSpecSize (spec :: spec' :: specs) =
          elementSize spec.varSpecSize + writtenVarSpecSize (spec' :: specs) := List.sum_cons
      rw [hsum, hwritten]
      exact ⟨by omega, fun _ => by omega⟩

end Declarations

theorem encodeAccessResultSize_pos (v : MmsValue) : 0 < encodeAccessResultSize v := by
  cases v with
  | visibleString s | mmsString s =>
    cases s <;> simp [encodeAccessResultSize, determineEncodedStringSize]
  | bitString b => simp [encodeAccessResultSize, determineEncodedBitStringSize]
  | _ => simp [encodeAccessResultSize]

theorem elementsSize_eq_zero {values : List MmsValue} (h : elementsSize values = 0) :
    values = [] := by
  cases values with
  | nil => rfl
  | cons v vs =>
    have := encodeAccessResultSize_pos v
    rw [elementsSize] at h
    omega

section ListOfVariables

variable {declarations : List VariableAccessSpecification} {values : List MmsValue}

/-- The access specification that is counted for the variables, and the one that is written. -/
def listOfVariablesSize (declarations : List VariableAccessSpecification) : Nat :=
  elementSize (elementSize (elementSize (listOfVarSpecSize declarations)))

def listOfVariables (declarations : List VariableAccessSpecification) : List UInt8 :=
  encodeTL 0xa0 (elementSize (elementSize (listOfVarSpecSize declarations))) ++
    (encodeTL 0x30 (elementSize (listOfVarSpecSize declarations)) ++
      declarations.flatMap (·.encode))

theorem informationReportListOfVariables_eq (declarations : List VariableAccessSpecification)
    (values : List MmsValue) : informationReportListOfVariables declarations values =
      informationReport (listOfVariablesSize declarations) (listOfVariables declarations)
        (elementsSize values) (encodeElements values) := rfl

theorem length_listOfVariables (declarations : List VariableAccessSpecification) :
    (listOfVariables declarations).length + elementSize (listOfVarSpecSize declarations) =
      listOfVariablesSize declarations + writtenVarSpecSize declarations := by
  simp only [listOfVariables, listOfVariablesSize, List.length_append, length_encodeTL,
    (counted_declarations declarations).length_eq]
  rw [elementSize.eq_1 (elementSize (elementSize _)), elementSize.eq_1 (elementSize _)]
  omega

theorem counted_listOfVariables (h : declarations.length = 1) :
    Counted (listOfVariablesSize declarations) (listOfVariables declarations) := by
  obtain ⟨spec, rfl⟩ := List.length_eq_one_iff.mp h
  have hspec := counted_declarations [spec]
  rw [writtenVarSpecSize, List.map_singleton, List.sum_singleton] at hspec
  exact (hspec.element 0x30 (by decide) (by decide)).element 0xa0 (by decide) (by decide)

theorem eq_zero_of_encodeLength {n : Nat} {rest : List UInt8} (h : encodeLength n = 0 :: rest) :
    n = 0 := by
  unfold encodeLength at h
  split at h
  case isTrue hlt =>
    have hn := congrArg UInt8.toNat (List.cons.inj h).1
    rwa [UInt8.toNat_ofNat_of_lt' (hlt.trans (by decide))] at hn
  case isFalse =>
    split at h
    · exact absurd (List.cons.inj h).1 (by decide)
    · exact absurd (List.cons.inj h).1 (by decide)

/-- Four octets of content that are a header of two and one that is cut off behind its length. -/
theorem eq_zero_of_cut {first : UInt8} {length octets : List UInt8}
    (h : Tlv.AreSized (0xa0 :: [4] ++ (0x30 :: [2] ++ (0xa0 :: first :: length ++ octets)))) :
    first = 0 := by
  have hshort : ∀ {n : UInt8}, n.toNat < 128 → Tlv.LengthOctets n.toNat [n] := .short
  obtain ⟨content, rest, heq, hlength, hcontent, -⟩ := h.head (by decide) (hshort (by decide))
  have hcut : content = [0x30, 2, 0xa0, first] := by
    have htake := congrArg (List.take (UInt8.toNat 4)) heq
    rw [List.take_left' hlength] at htake
    exact htake.symm
  have hinner := hcontent (by decide)
  rw [hcut] at hinner
  change Tlv.AreSized (0x30 :: [2] ++ [0xa0, first]) at hinner
  obtain ⟨content', rest', heq', hlength', hcontent', -⟩ :=
    hinner.head (by decide) (hshort (by decide))
  have hcut' : content' = [0xa0, first] := by
    have htake := congrArg (List.take (UInt8.toNat 2)) heq'
    rw [List.take_left' hlength'] at htake
    exact htake.symm
  rw [hcut'] at hcontent'
  exact (hcontent' (by decide)).eq_zero (by decide)

/-- Without a variable the header of the list takes the one behind it for its content. -/
theorem not_sized_of_no_variables
    (hlt : elementSize (listOfVariablesSize [] + elementSize (elementsSize values)) < 65536) :
    ¬ Tlv.Sized (informationReportListOfVariables [] values) := by
  intro h
  have hspec : listOfVariables [] = [0xa0, 4, 0x30, 2] := rfl
  have hcounted : listOfVariablesSize [] = 6 := rfl
  rw [informationReportListOfVariables_eq] at h
  obtain ⟨hn, hcontent⟩ := counted_of_sized h hlt
  rw [hspec, hcounted] at hcontent hn
  rw [hcounted] at hlt
  have hinner := lt_elementSize (6 + elementSize (elementsSize values))
  obtain ⟨first, rest, heq, hfirst, hin, -⟩ := hcontent.head (by decide)
    (lengthOctets_encodeLength (hinner.trans hlt))
  have hrest : rest = [] := by
    have hlength := congrArg List.length heq
    simp only [List.length_append, length_encodeTL, hfirst, elementSize, List.length_cons,
      List.length_nil] at hlength hn
    exact List.eq_nil_of_length_eq_zero (by omega)
  rw [hrest, List.append_nil] at heq
  have hall := hin (by decide)
  rw [← heq] at hall
  cases hl : encodeLength (elementsSize values) with
  | nil =>
    have hzero := congrArg List.length hl
    rw [length_encodeLength] at hzero
    exact absurd hzero (Nat.ne_of_gt (determineLengthSize_pos _))
  | cons octet length =>
    rw [encodeTL, hl] at hall
    obtain rfl := eq_zero_of_cut hall
    have hzero := eq_zero_of_encodeLength hl
    rw [elementsSize_eq_zero hzero] at hn
    cases hn

/-- A report of several variables keeps to the size if and only if there is exactly one of them,
the values are counted as they are written, and it is short enough. -/
theorem informationReportListOfVariables_respects_iff (hmax : maxPduSize ≤ 16000)
    (declarations : List VariableAccessSpecification) (values : List MmsValue) :
    Respects maxPduSize maxPduSize.toNat
        (informationReportListOfVariables declarations values) ↔
      declarations.length = 1 ∧ (∀ l ∈ MmsValue.leavesOf values, SizedExactly l) ∧
        (elementSize (elementSize (listOfVariablesSize declarations +
          elementSize (elementsSize values))) : Int) ≤ maxPduSize := by
  by_cases hone : declarations.length = 1
  · rw [informationReportListOfVariables_eq, ← (elements_counted_iff values).2, and_iff_right hone]
    exact informationReport_respects_iff hmax (counted_listOfVariables hone)
      (elements_counted_iff values).1 (counted_elements values)
  · refine iff_of_false (fun h => ?_) fun h => hone h.1
    have hlimit := h.limit
    have hsized := h.sized
    rw [informationReportListOfVariables_eq] at hlimit hsized
    have hlength := length_informationReport (listOfVariablesSize declarations)
      (listOfVariables declarations) (elementsSize values) (encodeElements values)
    have hle := (elements_counted_iff values).1
    have hspec := length_listOfVariables declarations
    have hinner := lt_elementSize
      (elementSize (listOfVariablesSize declarations + elementSize (elementsSize values)))
    cases declarations with
    | nil =>
      have hzero : writtenVarSpecSize [] = 0 := rfl
      have htwo : elementSize (listOfVarSpecSize []) = 2 := rfl
      refine not_sized_of_no_variables ?_ hsized
      omega
    | cons spec specs =>
      have hmore := (elementSize_listOfVarSpecSize_le (spec :: specs) (List.cons_ne_nil _ _)).2
        (by
          rw [List.length_cons] at hone ⊢
          omega)
      have hcounted := (counted_of_sized hsized (by omega)).1
      omega

end ListOfVariables

end MmsServer

end Iec61850
