import Iec61850.Asn1.BerEncoder

/-! `mms_value.c`: the value trees of the MMS layer. -/

namespace Iec61850

inductive MmsDataAccessError
  | noResponse | success | objectInvalidated | hardwareFault | temporarilyUnavailable
  | objectAccessDenied | objectUndefined | invalidAddress | typeUnsupported | typeInconsistent
  | objectAttributeInconsistent | objectAccessUnsupported | objectNoneExistent
  | objectValueInvalid | unknown
  deriving DecidableEq

def MmsDataAccessError.code : MmsDataAccessError → Int
  | .noResponse => -2
  | .success => -1
  | .objectInvalidated => 0
  | .hardwareFault => 1
  | .temporarilyUnavailable => 2
  | .objectAccessDenied => 3
  | .objectUndefined => 4
  | .invalidAddress => 5
  | .typeUnsupported => 6
  | .typeInconsistent => 7
  | .objectAttributeInconsistent => 8
  | .objectAccessUnsupported => 9
  | .objectNoneExistent => 10
  | .objectValueInvalid => 11
  | .unknown => 12

namespace MmsValue

/-- A string without its terminating zero. -/
structure CString where
  octets : List UInt8
  noZero : 0 ∉ octets

structure BitString where
  size : Nat
  buf : List UInt8
  buf_length : buf.length = BerEncoder.bitStringByteSize size

structure FloatingPoint where
  exponentWidth : UInt8
  formatWidth : Nat
  buf : List UInt8
  formatWidth_eq : formatWidth = 32 ∨ formatWidth = 64
  buf_length : buf.length = formatWidth / 8

structure OctetString where
  size : Nat
  maxSize : Nat
  buf : List UInt8
  size_le : size ≤ maxSize
  maxSize_lt : maxSize < 65536
  buf_length : buf.length = maxSize

structure BinaryTime where
  size : Nat
  buf : List UInt8
  size_eq : size = 4 ∨ size = 6
  buf_length : buf.length = 6

structure UtcTime where
  octets : List UInt8
  octets_length : octets.length = 8

end MmsValue

/-- The types the value union has a member for. -/
inductive MmsValue
  | array (elements : List MmsValue)
  | structured (components : List MmsValue)
  | boolean (b : Bool)
  | bitString (b : MmsValue.BitString)
  | integer (v : Asn1PrimitiveValue)
  | unsigned (v : Asn1PrimitiveValue)
  | float (f : MmsValue.FloatingPoint)
  | octetString (o : MmsValue.OctetString)
  | visibleString (s : Option MmsValue.CString)
  | binaryTime (t : MmsValue.BinaryTime)
  | mmsString (s : Option MmsValue.CString)
  | utcTime (t : MmsValue.UtcTime)
  | dataAccessError (e : MmsDataAccessError)

namespace MmsValue

def OctetString.content (o : OctetString) : List UInt8 := o.buf.take o.size

@[simp] theorem OctetString.length_content (o : OctetString) : o.content.length = o.size := by
  rw [OctetString.content, List.length_take, o.buf_length]
  exact min_eq_left o.size_le

def BinaryTime.content (t : BinaryTime) : List UInt8 := t.buf.take t.size

@[simp] theorem BinaryTime.length_content (t : BinaryTime) : t.content.length = t.size := by
  rw [BinaryTime.content, List.length_take, t.buf_length]
  rcases t.size_eq with h | h <;> omega

/-- The values without members of their own. -/
def IsLeaf : MmsValue → Prop
  | .array _ => False
  | .structured _ => False
  | _ => True

/-- Induction over value trees: the hypothesis is about the members of an array or a structure. -/
@[elab_as_elim] theorem tree_induction {motive : MmsValue → Prop}
    (array : ∀ vs, (∀ v ∈ vs, motive v) → motive (.array vs))
    (structured : ∀ vs, (∀ v ∈ vs, motive v) → motive (.structured vs))
    (leaf : ∀ v, v.IsLeaf → motive v) (v : MmsValue) : motive v := by
  refine @MmsValue.rec motive (fun vs => ∀ v ∈ vs, motive v) array structured ?_ ?_ ?_ ?_ ?_ ?_ ?_ ?_ ?_ ?_ ?_ ?_ ?_ v
  case refine_12 => simp
  case refine_13 =>
    intro head tail hhead htail v hv
    rcases List.mem_cons.mp hv with rfl | h
    · exact hhead
    · exact htail v h
  all_goals intros; exact leaf _ trivial

mutual

/-- The values of a tree that are neither arrays nor structures. -/
def leaves : MmsValue → List MmsValue
  | .structured components => leavesOf components
  | .array elements => leavesOf elements
  | v => [v]

def leavesOf : List MmsValue → List MmsValue
  | [] => []
  | v :: vs => leaves v ++ leavesOf vs

end

theorem mem_leavesOf {vs : List MmsValue} {l : MmsValue} :
    l ∈ leavesOf vs ↔ ∃ v ∈ vs, l ∈ leaves v := by
  induction vs with
  | nil => simp [leavesOf]
  | cons v vs ih => simp [leavesOf, ih]

theorem leaves_of_isLeaf {v : MmsValue} (h : v.IsLeaf) : leaves v = [v] := by
  cases v with
  | array | structured => exact h.elim
  | _ => simp [leaves]

end MmsValue

end Iec61850
