import Iec61850.ConfigFile.Scanning

/-! What a configuration file says: each statement is in the list of the one that is open before it,
and is an object with its place in the model. -/

namespace Iec61850.ConfigFile

open Machine

namespace ObjectType

/-- The statements that can be in the list of another one. -/
def parts : ObjectType → List ObjectType
  | iedModel => [logicalDevice]
  | logicalDevice => [logicalNode]
  | logicalNode => [dataObject, dataSet, reportControlBlock, gseControlBlock]
  | dataObject => [dataObject, dataAttribute]
  | dataAttribute => [dataAttribute]
  | dataSet => [dataSetEntry]
  | gseControlBlock => [phyComAddress]
  | _ => []

/-- A block needs no address, and most attributes have no parts. -/
def takesBrace (brace : Bool) : ObjectType → Bool
  | dataAttribute | gseControlBlock => true
  | reportControlBlock | dataSetEntry | phyComAddress => !brace
  | _ => brace

/-- The objects that have a reference to what they are part of. -/
def refersUp : ObjectType → Bool
  | logicalDevice | logicalNode | dataObject | dataAttribute | reportControlBlock
  | gseControlBlock => true
  | _ => false

/-- The list that an object is in. Those for data sets and control blocks are lists of the model. -/
def slotIn (parent model : Nat) : ObjectType → Slot
  | logicalDevice => .devices parent
  | dataSet => .dataSets model
  | reportControlBlock => .rcbs model
  | gseControlBlock => .gseCBs model
  | _ => .children parent

end ObjectType

structure Placement where
  type : ObjectType
  slot : Option Slot
  parent : Option Nat

/-- The statements that are open, the innermost one first, and the places of all so far. -/
structure Nesting where
  opened : List (ObjectType × Nat)
  placed : List Placement

/-- A statement has all its values, and a brace if it needs one. -/
def WellFormed (lib : CLibrary) (type : ObjectType) (line : List UInt8) : Prop :=
  (type = .iedModel ∧ line = ascii "MODEL\x7b" ∨ Complete lib type line ∧ 41 ∈ line) ∧ 0 ∉ line ∧
    type.takesBrace (endsWithBrace line) = true

instance (lib : CLibrary) (type : ObjectType) (line : List UInt8) :
    Decidable (WellFormed lib type line) := inferInstanceAs (Decidable (_ ∧ _))

namespace Nesting

def start : Nesting := ⟨[], []⟩

/-- The model is the first object, and a block has one address at most. -/
def add (n : Nesting) (type : ObjectType) (brace : Bool) : Option Nesting :=
  match n.opened with
  | [] =>
    if type = .iedModel ∧ n.placed.isEmpty then
      some ⟨[(.iedModel, 0)], [⟨.iedModel, none, none⟩]⟩
    else none
  | (holder, k) :: opened =>
    let slot := type.slotIn k 0
    if type ∈ holder.parts ∧
        (type ≠ .phyComAddress ∨ n.placed.all fun p => p.slot ≠ some slot) then
      some ⟨if brace then (type, n.placed.length) :: (holder, k) :: opened
          else (holder, k) :: opened,
        n.placed ++ [⟨type, some slot, if type.refersUp then some k else none⟩]⟩
    else none

def place (lib : CLibrary) (n : Nesting) (line : List UInt8) : Option Nesting :=
  if line = ascii "\x7d" then
    match n.opened with
    | [] => none
    | _ :: opened => some { n with opened }
  else do
    let type ← typeOfLine line
    if WellFormed lib type line then n.add type (endsWithBrace line) else none

/-- The objects in a list, in the order of their statements. -/
def list (n : Nesting) (s : Slot) : List Nat :=
  (List.range n.placed.length).filter fun i => n.placed[i]?.bind (·.slot) = some s

end Nesting

def placeAll (lib : CLibrary) : Nesting → List (List UInt8) → Option Nesting
  | n, [] => if n.opened.isEmpty then some n else none
  | n, line :: lines => do placeAll lib (← n.place lib line) lines

/-- There is no nesting where a statement is malformed or in the wrong place, or a brace is not
matched. -/
def nestingOf (lib : CLibrary) (lines : List (List UInt8)) : Option Nesting :=
  placeAll lib .start lines

/-- The links of the objects are those of the statements. -/
structure Matches (h : Heap) (m : Nat) (n : Nesting) : Prop where
  model : m = 0
  count : h.count = n.placed.length
  parent : ∀ (i : Nat) (p : Placement), n.placed[i]? = some p →
    ∃ o, h.objects[i]? = some o ∧ o.type = p.type ∧ o.parent = p.parent
  list : ∀ s, h.list s = .ok (n.list s)

end Iec61850.ConfigFile
