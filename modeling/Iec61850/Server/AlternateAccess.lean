import Iec61850.Mms.Value
import Iec61850.Lib.Memory

/-! What a request addresses: a variable, and the part of it that an alternate access selects
(`mms_server_common.c`). -/

namespace Iec61850

open Machine

inductive AccessSelection
  | component (name : List UInt8)
  | index (index : UInt32)
  | indexRange (lowIndex numberOfElements : UInt32)
  | allElements

/-- An alternate access by its first member, which is all that is looked at: none, a named one, or
one that selects a part, or a part of a part. -/
inductive AlternateAccess
  | empty
  | named
  | selectAccess (selection : AccessSelection)
  | selectAlternateAccess (selection : AccessSelection) (alternateAccess : AlternateAccess)

/-- `ListOfVariableSeq`: `name` is the domain and the item of a domain specific name, and nothing
where the variable has another name. -/
structure VariableAccess where
  name : Option (List UInt8 × List UInt8)
  alternateAccess : Option AlternateAccess

/-- `createStringFromBuffer` -/
def createStringFromBuffer (buf : List UInt8) : List UInt8 := buf.takeWhile (· ≠ 0)

namespace AlternateAccess

/-- What the first member selects first, wherever it stands in the member. -/
def selection : AlternateAccess → Exec (Option AccessSelection)
  | .empty => .error .nullPointer
  | .named => .ok none
  | .selectAccess selection => .ok (some selection)
  | .selectAlternateAccess selection _ => .ok (some selection)

def isIndexAccess (alternateAccess : AlternateAccess) : Exec Bool := do
  match ← alternateAccess.selection with
  | some (.index _) => return true
  | some (.indexRange _ _) => return true
  | _ => return false

def getLowIndex (alternateAccess : AlternateAccess) : Exec Int := do
  match ← alternateAccess.selection with
  | some (.index index) => return i32 index.toNat
  | some (.indexRange lowIndex _) => return i32 lowIndex.toNat
  | _ => return -1

def getNumberOfElements (alternateAccess : AlternateAccess) : Exec Int := do
  match ← alternateAccess.selection with
  | some (.indexRange _ numberOfElements) => return i32 numberOfElements.toNat
  | _ => return 0

end AlternateAccess

/-- `MmsValue_getElement` -/
def MmsValue.getElement (index : Int) : MmsValue → Option MmsValue
  | .array vs => if index < 0 then none else vs[index.toNat]?
  | .structured vs => if index < 0 then none else vs[index.toNat]?
  | _ => none

end Iec61850
