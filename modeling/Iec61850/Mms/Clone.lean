import Iec61850.Mms.Value
import Iec61850.Lib.Memory

/-! Copies of values in one piece of memory: `MmsValue_getSizeInMemory` and
`MmsValue_cloneToBuffer`. The sizes are those of a 64 bit machine. -/

namespace Iec61850.MmsValue

open Machine

def sizeofMmsValue : Nat := 18

def sizeofPointer : Nat := 8

def sizeofAsn1PrimitiveValue : Nat := 10

/-- `strlen(string) + 1` -/
def stringSizeInMemory : Option CString → Exec Nat
  | some string => return string.octets.length + 1
  | none => .error .nullPointer

mutual

def getSizeInMemory : MmsValue → Exec Nat
  | .array elements => do
    return sizeofMmsValue + sizeofPointer * elements.length + (← componentsSizeInMemory elements)
  | .structured components => do
    return sizeofMmsValue + sizeofPointer * components.length +
      (← componentsSizeInMemory components)
  | .bitString b => return sizeofMmsValue + BerEncoder.bitStringByteSize b.size
  | .integer v => return sizeofMmsValue + sizeofAsn1PrimitiveValue + v.maxSize
  | .unsigned v => return sizeofMmsValue + sizeofAsn1PrimitiveValue + v.maxSize
  | .float f => return sizeofMmsValue + f.formatWidth / 8
  | .octetString o => return sizeofMmsValue + o.maxSize
  | .mmsString s => return sizeofMmsValue + (← stringSizeInMemory s)
  | .visibleString s => return sizeofMmsValue + (← stringSizeInMemory s)
  | .boolean _ => return sizeofMmsValue
  | .binaryTime _ => return sizeofMmsValue
  | .utcTime _ => return sizeofMmsValue
  | .dataAccessError _ => return sizeofMmsValue

def componentsSizeInMemory : List MmsValue → Exec Nat
  | [] => return 0
  | v :: vs => return (← getSizeInMemory v) + (← componentsSizeInMemory vs)

end

mutual

/-- Where the copy of a value ends that begins at `destinationAddress`. -/
def cloneToBuffer : MmsValue → Nat → Exec Nat
  | .array elements, destinationAddress =>
    cloneComponents elements
      (destinationAddress + sizeofMmsValue + sizeofPointer * elements.length)
  | .structured components, destinationAddress =>
    cloneComponents components
      (destinationAddress + sizeofMmsValue + sizeofPointer * components.length)
  | .bitString b, destinationAddress =>
    return destinationAddress + sizeofMmsValue + BerEncoder.bitStringByteSize b.size
  | .integer v, destinationAddress =>
    return destinationAddress + sizeofMmsValue + sizeofAsn1PrimitiveValue + v.maxSize
  | .unsigned v, destinationAddress =>
    return destinationAddress + sizeofMmsValue + sizeofAsn1PrimitiveValue + v.maxSize
  | .float f, destinationAddress =>
    return destinationAddress + sizeofMmsValue + f.formatWidth / 8
  | .octetString o, destinationAddress => return destinationAddress + sizeofMmsValue + o.maxSize
  | .mmsString s, destinationAddress =>
    return destinationAddress + sizeofMmsValue + (← stringSizeInMemory s)
  | .visibleString s, destinationAddress =>
    return destinationAddress + sizeofMmsValue + (← stringSizeInMemory s)
  | .boolean _, destinationAddress => return destinationAddress + sizeofMmsValue
  | .binaryTime _, destinationAddress => return destinationAddress + sizeofMmsValue
  | .utcTime _, destinationAddress => return destinationAddress + sizeofMmsValue
  | .dataAccessError _, destinationAddress => return destinationAddress + sizeofMmsValue

def cloneComponents : List MmsValue → Nat → Exec Nat
  | [], destinationAddress => return destinationAddress
  | v :: vs, destinationAddress => do
    cloneComponents vs (← cloneToBuffer v destinationAddress)

end

def IsNullString : MmsValue → Prop
  | .visibleString none => True
  | .mmsString none => True
  | _ => False

/-- No string of the tree is the null pointer. -/
def HasStrings (v : MmsValue) : Prop := ∀ l ∈ v.leaves, ¬ l.IsNullString

/-- The room a copy takes. -/
def sizeInMemory (v : MmsValue) : Nat :=
  match getSizeInMemory v with
  | .ok n => n
  | .error _ => sizeofMmsValue

theorem cloneComponents_eq {vs : List MmsValue}
    (h : ∀ v ∈ vs, ∀ dest, cloneToBuffer v dest = (getSizeInMemory v).map (dest + ·)) (dest : Nat) :
    cloneComponents vs dest = (componentsSizeInMemory vs).map (dest + ·) := by
  induction vs generalizing dest with
  | nil => rfl
  | cons v vs ih =>
    rw [cloneComponents, componentsSizeInMemory, h v (by simp)]
    cases getSizeInMemory v with
    | error f => rfl
    | ok n =>
      simp only [Except.map, bind, Except.bind]
      rw [ih (fun w hw => h w (List.mem_cons_of_mem v hw))]
      cases componentsSizeInMemory vs with
      | error f => rfl
      | ok m => simp only [Except.map, pure, Except.pure, Nat.add_assoc]

/-- The copy takes the room that has been counted for it. -/
theorem cloneToBuffer_eq (v : MmsValue) (dest : Nat) :
    cloneToBuffer v dest = (getSizeInMemory v).map (dest + ·) := by
  induction v using tree_induction generalizing dest with
  | array vs ih | structured vs ih =>
    rw [cloneToBuffer, getSizeInMemory, cloneComponents_eq fun v hv => ih v hv]
    cases componentsSizeInMemory vs with
    | error f => rfl
    | ok n => simp only [Except.map, bind, Except.bind, pure, Except.pure, Nat.add_assoc]
  | leaf v hv =>
    cases v with
    | array | structured => exact hv.elim
    | visibleString s | mmsString s =>
      cases s <;> simp [cloneToBuffer, getSizeInMemory, stringSizeInMemory, Except.map, bind,
        Except.bind, pure, Except.pure, Nat.add_assoc]
    | _ => simp [cloneToBuffer, getSizeInMemory, Except.map, pure, Except.pure, Nat.add_assoc]

theorem componentsSizeInMemory_cases {vs : List MmsValue}
    (h : ∀ v ∈ vs, (∃ n, getSizeInMemory v = .ok n ∧ HasStrings v) ∨
      getSizeInMemory v = .error .nullPointer ∧ ¬ HasStrings v) :
    (∃ n, componentsSizeInMemory vs = .ok n ∧ ∀ v ∈ vs, HasStrings v) ∨
      componentsSizeInMemory vs = .error .nullPointer ∧ ¬ ∀ v ∈ vs, HasStrings v := by
  induction vs with
  | nil => exact .inl ⟨0, rfl, by simp⟩
  | cons v vs ih =>
    rw [componentsSizeInMemory]
    rcases h v (by simp) with ⟨n, hn, hv⟩ | ⟨he, hv⟩
    · rcases ih fun w hw => h w (List.mem_cons_of_mem v hw) with ⟨m, hm, hvs⟩ | ⟨he, hvs⟩
      · exact .inl ⟨n + m, by rw [hn, hm]; rfl, by simpa using ⟨hv, hvs⟩⟩
      · exact .inr ⟨by rw [hn, he]; rfl, fun hall => hvs fun w hw => hall w (by simp [hw])⟩
    · exact .inr ⟨by rw [he]; rfl, fun hall => hv (hall v (by simp))⟩

theorem hasStrings_array (vs : List MmsValue) :
    HasStrings (.array vs) ↔ ∀ v ∈ vs, HasStrings v := by
  simp only [HasStrings, leaves, mem_leavesOf]
  constructor
  · intro h v hv l hl
    exact h l ⟨v, hv, hl⟩
  · rintro h l ⟨v, hv, hl⟩
    exact h v hv l hl

theorem hasStrings_structured (vs : List MmsValue) :
    HasStrings (.structured vs) ↔ ∀ v ∈ vs, HasStrings v := by
  simp only [HasStrings, leaves, mem_leavesOf]
  constructor
  · intro h v hv l hl
    exact h l ⟨v, hv, hl⟩
  · rintro h l ⟨v, hv, hl⟩
    exact h v hv l hl

theorem hasStrings_leaf {v : MmsValue} (h : v.IsLeaf) : HasStrings v ↔ ¬ v.IsNullString := by
  rw [HasStrings, leaves_of_isLeaf h, List.forall_mem_singleton]

/-- `strlen` of the null pointer is the only fault. -/
theorem getSizeInMemory_cases (v : MmsValue) :
    (∃ n, getSizeInMemory v = .ok n ∧ HasStrings v) ∨
      getSizeInMemory v = .error .nullPointer ∧ ¬ HasStrings v := by
  induction v using tree_induction with
  | array vs ih =>
    rw [getSizeInMemory, hasStrings_array]
    rcases componentsSizeInMemory_cases ih with ⟨n, hn, hvs⟩ | ⟨he, hvs⟩
    · exact .inl ⟨_, by rw [hn]; rfl, hvs⟩
    · exact .inr ⟨by rw [he]; rfl, hvs⟩
  | structured vs ih =>
    rw [getSizeInMemory, hasStrings_structured]
    rcases componentsSizeInMemory_cases ih with ⟨n, hn, hvs⟩ | ⟨he, hvs⟩
    · exact .inl ⟨_, by rw [hn]; rfl, hvs⟩
    · exact .inr ⟨by rw [he]; rfl, hvs⟩
  | leaf v hv =>
    rw [hasStrings_leaf hv]
    cases v with
    | array | structured => exact hv.elim
    | visibleString s | mmsString s =>
      cases s with
      | none => exact .inr ⟨rfl, not_not.mpr trivial⟩
      | some s => exact .inl ⟨_, rfl, id⟩
    | _ => exact .inl ⟨_, rfl, id⟩

theorem getSizeInMemory_eq {v : MmsValue} (h : HasStrings v) :
    getSizeInMemory v = .ok (sizeInMemory v) := by
  rcases getSizeInMemory_cases v with ⟨n, hn, -⟩ | ⟨-, hv⟩
  · rw [sizeInMemory, hn]
  · exact absurd h hv

theorem getSizeInMemory_pos {v : MmsValue} {n : Nat} (h : getSizeInMemory v = .ok n) : 0 < n := by
  cases v with
  | array vs | structured vs =>
    rw [getSizeInMemory] at h
    cases hc : componentsSizeInMemory vs with
    | error f =>
      rw [hc] at h
      cases h
    | ok m =>
      rw [hc] at h
      obtain rfl := Except.ok.inj h
      simp only [sizeofMmsValue]
      omega
  | visibleString s | mmsString s =>
    cases s with
    | none => cases h
    | some s =>
      obtain rfl := Except.ok.inj h
      exact Nat.succ_pos _
  | _ =>
    obtain rfl := Except.ok.inj h
    simp only [sizeofMmsValue]
    omega

theorem sizeInMemory_pos (v : MmsValue) : 0 < sizeInMemory v := by
  rw [sizeInMemory]
  cases h : getSizeInMemory v with
  | error f => simp [sizeofMmsValue]
  | ok n => exact getSizeInMemory_pos h

end Iec61850.MmsValue
