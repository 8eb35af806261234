import Iec61850.Asn1.BerInteger
import Iec61850.Mms.Value
import Iec61850.Server.AlternateAccess
import Mathlib.Data.List.TakeWhile

/-! `mms_get_var_access_service.c` and `mms_client_get_var_access.c`: the description of a type that
the server makes, and the type that the client makes of it. -/

namespace Iec61850

open MmsValue (CString)

namespace TypeDescription

/-- `int binaryTime` -/
structure BinaryTimeSize where
  octets : Int32
  valid : octets = 4 ∨ octets = 6

def BinaryTimeSize.withoutDate : BinaryTimeSize := ⟨4, .inl rfl⟩

def BinaryTimeSize.withDate : BinaryTimeSize := ⟨6, .inr rfl⟩

/-- The types without components, with what the union has for each. -/
inductive LeafType
  | boolean
  | bitString (size : Int32)
  | integer (size : Int32)
  | unsigned (size : Int32)
  | float (exponentWidth formatWidth : UInt8)
  | octetString (size : Int32)
  | visibleString (size : Int32)
  | generalizedTime
  | binaryTime (size : BinaryTimeSize)
  | bcd
  | objId
  | mmsString (size : Int32)
  | utcTime
  | dataAccessError

/-- `MmsVariableSpecification*`, which may be null. A structure counts the elements it has. -/
inductive TypeTree
  | null
  | array (name : Option CString) (elementCount : Int32) (elementTypeSpec : TypeTree)
  | structured (name : Option CString) (elements : List TypeTree)
  | leaf (name : Option CString) (type : LeafType)

/-- `TypeSpecification_t`; an `Unsigned32_t` is an `INTEGER_t` with octets of its own. -/
inductive TypeSpecification
  | nothing
  | typeName
  | array (numberOfElements : List UInt8) (elementType : TypeSpecification)
  | structured (components : List (List UInt8 × TypeSpecification))
  | boolean
  | bitstring (size : Int64)
  | integer (size : Int64)
  | unsigned (size : Int64)
  | floatingpoint (formatwidth exponentwidth : Int64)
  | octetstring (size : Int64)
  | visiblestring (size : Int64)
  | generalizedtime
  | binarytime (includesDate : Int32)
  | bcd (size : Int64)
  | objId
  | mMSString (size : Int64)
  | utctime

/-! ## INTEGER_t -/

/-- `asn_long2INTEGER` -/
def long2INTEGER (value : Int64) : List UInt8 :=
  BerEncoder.compressInteger (Octets.ofNat 8 (value.toInt % 2 ^ 64).toNat)

/-- `asn_INTEGER2long`, which does not touch the result where it fails. -/
def iNTEGER2long (buf : List UInt8) : Option Int64 :=
  let b := if buf.length ≤ 8 then buf else BerEncoder.compressInteger buf
  if 8 < b.length then none else some (.ofInt (Octets.signed b))

theorem iNTEGER2long_long2INTEGER (value : Int64) :
    iNTEGER2long (long2INTEGER value) = some value := by
  have hlength : (long2INTEGER value).length ≤ 8 := by
    have hle := BerEncoder.length_compressInteger_le (Octets.ofNat 8 (value.toInt % 2 ^ 64).toNat)
    rwa [Octets.length_ofNat] at hle
  have hsigned : Octets.signed (long2INTEGER value) = value.toInt := by
    have hlt : (value.toInt % 2 ^ 64).toNat < 256 ^ (7 + 1) := by omega
    have hlo := value.le_toInt
    have hhi := value.toInt_lt
    rw [long2INTEGER, BerEncoder.signed_compressInteger, Octets.signed_ofNat_bmod hlt, Int.bmod_def]
    omega
  rw [iNTEGER2long, if_pos hlength, if_neg (by omega), hsigned, Int64.ofInt_toInt]

/-! ## The server -/

/-- The switch of `createTypeSpecification` over the types without components. The types that are
not supported leave `present` as it was allocated. -/
def LeafType.describe : LeafType → TypeSpecification
  | .boolean => .boolean
  | .bitString size => .bitstring size.toInt64
  | .integer size => .integer size.toInt64
  | .unsigned size => .unsigned size.toInt64
  | .float exponentWidth formatWidth =>
    .floatingpoint formatWidth.toUInt64.toInt64 exponentWidth.toUInt64.toInt64
  | .octetString size => .octetstring size.toInt64
  | .visibleString size => .visiblestring size.toInt64
  | .mmsString size => .mMSString size.toInt64
  | .utcTime => .utctime
  | .binaryTime size => .binarytime (if size.octets = 6 then 1 else 0)
  | .generalizedTime | .bcd | .objId | .dataAccessError => .nothing

namespace TypeTree

def name : TypeTree → Option CString
  | .null => none
  | .array name _ _ => name
  | .structured name _ => name
  | .leaf name _ => name

mutual

/-- `createTypeSpecification` of the server, which reads through null pointers. -/
def describe : TypeTree → Option TypeSpecification
  | .null => none
  | .array _ elementCount elementTypeSpec =>
    elementTypeSpec.describe.map (.array (long2INTEGER elementCount.toInt64))
  | .structured _ elements => (describeComponents elements).map .structured
  | .leaf _ type => some type.describe

/-- Its loop over the elements of a structure. -/
def describeComponents : List TypeTree → Option (List (List UInt8 × TypeSpecification))
  | [] => some []
  | element :: elements => do
    let componentName ← element.name
    let componentType ← element.describe
    let components ← describeComponents elements
    some ((componentName.octets, componentType) :: components)

end

/-- `typeSpec->name = name` -/
def setName (name : Option CString) : TypeTree → TypeTree
  | .null => .null
  | .array _ elementCount elementTypeSpec => .array name elementCount elementTypeSpec
  | .structured _ elements => .structured name elements
  | .leaf _ type => .leaf name type

end TypeTree

/-! ## The client -/

/-- `createStringFromBuffer`, as far as the string goes. -/
def stringFromBuffer (buf : List UInt8) : CString where
  octets := createStringFromBuffer buf
  noZero := by
    intro h
    rw [createStringFromBuffer] at h
    have hne := List.mem_takeWhile_imp h
    simp at hne

namespace TypeSpecification

/-- A record as `calloc` makes it, which is what the client has for the types that it does not
know. -/
def zeroed : TypeTree := .array none 0 .null

mutual

/-- `createTypeSpecification` of the client; `elementCount` is what happens to be in the local
variable for the elements of an array. -/
def parse (elementCount : Int64) : TypeSpecification → TypeTree
  | .structured components => .structured none (parseComponents elementCount components)
  | .array numberOfElements elementType =>
    .array none ((iNTEGER2long numberOfElements).getD elementCount).toInt32
      (elementType.parse elementCount)
  | .boolean => .leaf none .boolean
  | .bitstring size => .leaf none (.bitString size.toInt32)
  | .integer size => .leaf none (.integer size.toInt32)
  | .unsigned size => .leaf none (.unsigned size.toInt32)
  | .floatingpoint formatwidth exponentwidth =>
    .leaf none (.float exponentwidth.toUInt64.toUInt8 formatwidth.toUInt64.toUInt8)
  | .octetstring size => .leaf none (.octetString size.toInt32)
  | .visiblestring size => .leaf none (.visibleString size.toInt32)
  | .mMSString size => .leaf none (.mmsString size.toInt32)
  | .utctime => .leaf none .utcTime
  | .binarytime includesDate =>
    .leaf none (.binaryTime (if includesDate = 0 then .withoutDate else .withDate))
  | .nothing | .typeName | .generalizedtime | .bcd _ | .objId => zeroed

/-- Its loop over the components of a structure. -/
def parseComponents (elementCount : Int64) : List (List UInt8 × TypeSpecification) → List TypeTree
  | [] => []
  | (componentName, componentType) :: components =>
    (componentType.parse elementCount).setName (some (stringFromBuffer componentName)) ::
      parseComponents elementCount components

end

end TypeSpecification

/-! ## Round trip -/

namespace TypeTree

mutual

/-- The same tree, where nothing but the components of structures has names. -/
def unnamed : TypeTree → TypeTree
  | .null => .null
  | .array _ elementCount elementTypeSpec => .array none elementCount elementTypeSpec.unnamed
  | .structured _ elements => .structured none (unnamedComponents elements)
  | .leaf _ type => .leaf none type

def unnamedComponents : List TypeTree → List TypeTree
  | [] => []
  | element :: elements => element.unnamed.setName element.name :: unnamedComponents elements

end

/-- There is no null pointer in the tree, and the components have names. -/
inductive Complete : TypeTree → Prop
  | array {name : Option CString} {elementCount : Int32} {elementTypeSpec : TypeTree} :
    Complete elementTypeSpec → Complete (.array name elementCount elementTypeSpec)
  | structured {name : Option CString} {elements : List TypeTree} :
    (∀ e ∈ elements, Complete e) → (∀ e ∈ elements, e.name ≠ none) →
    Complete (.structured name elements)
  | leaf {name : Option CString} {type : LeafType} : Complete (.leaf name type)

end TypeTree

/-- The types that GetVariableAccessAttributes is implemented for. -/
def LeafType.Supported : LeafType → Prop
  | .generalizedTime | .bcd | .objId | .dataAccessError => False
  | _ => True

variable {elementCount : Int64}

theorem parse_describe_of_supported {type : LeafType} (h : type.Supported) :
    type.describe.parse elementCount = .leaf none type := by
  cases type with
  | boolean | utcTime => rfl
  | generalizedTime | bcd | objId | dataAccessError => exact h.elim
  | float exponentWidth formatWidth =>
    simp [LeafType.describe, TypeSpecification.parse]
  | binaryTime size =>
    obtain ⟨octets, rfl | rfl⟩ := size
    · rfl
    · rfl
  | _ => simp [LeafType.describe, TypeSpecification.parse]

theorem parse_describe_of_not_supported {type : LeafType} (h : ¬ type.Supported) :
    type.describe.parse elementCount = TypeSpecification.zeroed := by
  cases type with
  | generalizedTime | bcd | objId | dataAccessError => rfl
  | _ => exact (h trivial).elim

namespace TypeTree

@[simp] theorem setName_unnamed (name : Option CString) (v : TypeTree) :
    (v.unnamed.setName name).setName none = v.unnamed := by
  cases v <;> rfl

@[simp] theorem name_setName {name : Option CString} {v : TypeTree} (h : v ≠ .null) :
    (v.setName name).name = name := by
  cases v with
  | null => exact absurd rfl h
  | _ => rfl

theorem stringFromBuffer_octets (s : CString) : stringFromBuffer s.octets = s := by
  obtain ⟨octets, noZero⟩ := s
  have : createStringFromBuffer octets = octets := by
    rw [createStringFromBuffer, List.takeWhile_eq_self_iff]
    intro octet hmem
    exact decide_eq_true fun h => noZero (h ▸ hmem)
  simp only [stringFromBuffer, this]

/-- A tree is proved something about through the elements of its structures. -/
@[induction_eliminator]
theorem induction {motive : TypeTree → Prop} (null : motive .null)
    (array : ∀ name elementCount elementTypeSpec, motive elementTypeSpec →
      motive (.array name elementCount elementTypeSpec))
    (structured : ∀ name elements, (∀ e ∈ elements, motive e) → motive (.structured name elements))
    (leaf : ∀ name type, motive (.leaf name type)) (v : TypeTree) : motive v :=
  @TypeTree.rec motive (fun elements => ∀ e ∈ elements, motive e) null array
    structured leaf (fun _ h => absurd h List.not_mem_nil)
    (fun _ _ he hes => List.forall_mem_cons.mpr ⟨he, hes⟩) v

/-- Every component has a name, and every leaf is of a type that is supported. -/
inductive Supported : TypeTree → Prop
  | array {name : Option CString} {elementCount : Int32} {elementTypeSpec : TypeTree} :
    Supported elementTypeSpec → Supported (.array name elementCount elementTypeSpec)
  | structured {name : Option CString} {elements : List TypeTree} :
    (∀ e ∈ elements, e.name ≠ none) → (∀ e ∈ elements, Supported e) →
    Supported (.structured name elements)
  | leaf {name : Option CString} {type : LeafType} : type.Supported → Supported (.leaf name type)

theorem setName_name (name : Option CString) (v : TypeTree) :
    (v.setName name).setName v.name = v := by
  cases v <;> rfl

theorem setName_inj {name : Option CString} {v w : TypeTree} (h : v.name = w.name) :
    v.setName name = w.setName name ↔ v = w := by
  constructor
  · intro heq
    calc
      v = (v.setName name).setName v.name := (setName_name name v).symm
      _ = (w.setName name).setName w.name := by rw [heq, h]
      _ = w := setName_name name w
  · rintro rfl
    rfl

theorem name_unnamed (v : TypeTree) : v.unnamed.name = none := by
  cases v <;> rfl

theorem name_parse (t : TypeSpecification) : (t.parse elementCount).name = none := by
  cases t <;> rfl

/-- One element after the other. -/
theorem parse_describeComponents_iff {elements : List TypeTree}
    (ih : ∀ e ∈ elements, e.describe.map (·.parse elementCount) = some e.unnamed ↔ Supported e) :
    (describeComponents elements).map (TypeSpecification.parseComponents elementCount) =
        some (unnamedComponents elements) ↔
      ∀ e ∈ elements, e.name ≠ none ∧ Supported e := by
  induction elements with
  | nil => exact iff_of_true rfl fun _ h => absurd h List.not_mem_nil
  | cons e elements iht =>
    obtain ⟨ihe, ihes⟩ := List.forall_mem_cons.mp ih
    have iht := iht ihes
    rw [List.forall_mem_cons, ← iht, ← ihe, describeComponents, unnamedComponents]
    cases e.name with
    | none => simp
    | some name =>
      cases e.describe with
      | none => simp
      | some t =>
        cases describeComponents elements with
        | none => simp
        | some components =>
          have hname : (t.parse elementCount).name = e.unnamed.name := by
            rw [name_parse, name_unnamed]
          simp [TypeSpecification.parseComponents, stringFromBuffer_octets, setName_inj hname]

end TypeTree

open TypeTree

/-- The client makes the type that the server has if and only if all of its leaves are of types that
are supported. -/
theorem parse_describe_iff (v : TypeTree) :
    v.describe.map (·.parse elementCount) = some v.unnamed ↔ v.Supported := by
  induction v with
  | null =>
    refine iff_of_false (fun h => ?_) fun h => ?_
    · cases h
    · cases h
  | array name count elementTypeSpec ih =>
    have hinv : Supported (.array name count elementTypeSpec) ↔ elementTypeSpec.Supported :=
      ⟨fun h => by cases h; assumption, .array⟩
    rw [hinv, ← ih, describe, unnamed]
    cases elementTypeSpec.describe with
    | none => simp
    | some t => simp [TypeSpecification.parse, iNTEGER2long_long2INTEGER]
  | structured name elements ih =>
    have hinv : Supported (.structured name elements) ↔
        ∀ e ∈ elements, e.name ≠ none ∧ Supported e :=
      ⟨fun h => by cases h with | structured hn hs => exact fun e he => ⟨hn e he, hs e he⟩,
        fun h => .structured (fun e he => (h e he).1) fun e he => (h e he).2⟩
    rw [hinv, ← parse_describeComponents_iff ih, describe, unnamed]
    cases describeComponents elements with
    | none => simp
    | some components => simp [TypeSpecification.parse]
  | leaf name type =>
    have hinv : Supported (.leaf name type) ↔ type.Supported :=
      ⟨fun h => by cases h; assumption, .leaf⟩
    rw [hinv, describe, unnamed, Option.map_some]
    by_cases h : type.Supported
    · rw [parse_describe_of_supported h]
      exact iff_of_true rfl h
    · rw [parse_describe_of_not_supported h]
      exact iff_of_false (fun heq => TypeTree.noConfusion (Option.some.inj heq)) h

/-- A `bcd` variable is described as nothing. -/
theorem bcd_not_described :
    ¬ ∀ v : TypeTree, v.Complete → v.describe.map (·.parse 0) = some v.unnamed := by
  intro h
  have heq := h (.leaf none .bcd) .leaf
  exact TypeTree.noConfusion (Option.some.inj heq)

end TypeDescription

end Iec61850
