import Iec61850.Lib.Octets

/-! Tag-length-value elements with a tag of one octet and a definite length, in
the short or the long form. -/

namespace Tlv

/-- Octets that state a length. -/
inductive LengthOctets : Nat → List UInt8 → Prop
  | short {n : UInt8} (h : n.toNat < 128) : LengthOctets n.toNat [n]
  | long {n : UInt8} {octets : List UInt8} (hne : octets ≠ []) (hlt : octets.length < 127)
      (h : n.toNat = 128 + octets.length) : LengthOctets (Octets.value octets) (n :: octets)

def IsConstructed (tag : UInt8) : Prop := tag &&& 0x20 ≠ 0

instance : DecidablePred IsConstructed := fun tag => inferInstanceAs (Decidable (tag &&& 0x20 ≠ 0))

def IsShortTag (tag : UInt8) : Prop := tag &&& 0x1f ≠ 0x1f

instance : DecidablePred IsShortTag := fun tag =>
  inferInstanceAs (Decidable (tag &&& 0x1f ≠ 0x1f))

/-- One element: every length it states, at any depth, is the number of octets that follow. -/
inductive WellFormed : List UInt8 → Prop
  | primitive {tag : UInt8} {length content : List UInt8} (ht : IsShortTag tag)
      (hp : ¬ IsConstructed tag) (hl : LengthOctets content.length length) :
      WellFormed (tag :: length ++ content)
  | constructed {tag : UInt8} {length : List UInt8} {elements : List (List UInt8)}
      (ht : IsShortTag tag) (hc : IsConstructed tag)
      (he : ∀ element ∈ elements, WellFormed element)
      (hl : LengthOctets elements.flatten.length length) :
      WellFormed (tag :: length ++ elements.flatten)

/-- The form BER encoders choose below 65536. -/
theorem LengthOctets.one {n : Nat} (h : n < 128) : LengthOctets n [UInt8.ofNat n] := by
  have hn : (UInt8.ofNat n).toNat = n := UInt8.toNat_ofNat_of_lt' (by
    change n < 256
    omega)
  have := LengthOctets.short (n := UInt8.ofNat n) (by omega)
  rwa [hn] at this

theorem LengthOctets.two {n : Nat} (h : n < 256) : LengthOctets n [0x81, UInt8.ofNat n] := by
  have hn : (UInt8.ofNat n).toNat = n := UInt8.toNat_ofNat_of_lt' h
  have : LengthOctets (Octets.value [UInt8.ofNat n]) [0x81, UInt8.ofNat n] :=
    .long (by simp) (by simp) (by simp)
  rwa [Octets.value_singleton, hn] at this

theorem LengthOctets.three {n : Nat} (h : n < 65536) :
    LengthOctets n [0x82, UInt8.ofNat (n / 256), UInt8.ofNat (n % 256)] := by
  have hhigh : (UInt8.ofNat (n / 256)).toNat = n / 256 := UInt8.toNat_ofNat_of_lt' (by
    change n / 256 < 256
    omega)
  have hlow : (UInt8.ofNat (n % 256)).toNat = n % 256 := UInt8.toNat_ofNat_of_lt' (by
    change n % 256 < 256
    omega)
  have hvalue : Octets.value [UInt8.ofNat (n / 256), UInt8.ofNat (n % 256)] = n := by
    rw [Octets.value_cons, Octets.value_singleton, hhigh, hlow, List.length_singleton]
    omega
  have : LengthOctets (Octets.value [UInt8.ofNat (n / 256), UInt8.ofNat (n % 256)])
      [0x82, UInt8.ofNat (n / 256), UInt8.ofNat (n % 256)] :=
    .long (by simp) (by simp) (by simp)
  rwa [hvalue] at this

/-- What a sequence of elements says. -/
inductive Tree
  | primitive (tag : UInt8) (content : List UInt8)
  | constructed (tag : UInt8) (elements : List Tree)

/-- The octets are the elements one after the other. -/
inductive Encodes : List Tree → List UInt8 → Prop
  | nil : Encodes [] []
  | primitive {tag : UInt8} {length content octets : List UInt8} {trees : List Tree}
      (hp : ¬ IsConstructed tag) (hl : LengthOctets content.length length)
      (h : Encodes trees octets) :
      Encodes (.primitive tag content :: trees) (tag :: length ++ (content ++ octets))
  | constructed {tag : UInt8} {length content octets : List UInt8} {elements trees : List Tree}
      (hc : IsConstructed tag) (he : Encodes elements content)
      (hl : LengthOctets content.length length) (h : Encodes trees octets) :
      Encodes (.constructed tag elements :: trees) (tag :: length ++ (content ++ octets))

def readLength : List UInt8 → Option (Nat × List UInt8)
  | [] => none
  | n :: octets =>
    if n.toNat < 128 then some (n.toNat, octets)
    else
      let count := n.toNat - 128
      if count = 0 ∨ count = 127 ∨ octets.length < count then none
      else some (Octets.value (octets.take count), octets.drop count)

/-- The elements, as long as there is fuel. -/
def readTrees : Nat → List UInt8 → Option (List Tree)
  | 0, _ => none
  | _ + 1, [] => some []
  | fuel + 1, tag :: octets => do
    let (length, octets) ← readLength octets
    if octets.length < length then none
    else
      let tree ← if IsConstructed tag then
          (readTrees fuel (octets.take length)).map (.constructed tag)
        else some (.primitive tag (octets.take length))
      return tree :: (← readTrees fuel (octets.drop length))

def readAll (octets : List UInt8) : Option (List Tree) := readTrees (octets.length + 1) octets

theorem readLength_append {n : Nat} {length : List UInt8} (h : LengthOctets n length)
    (octets : List UInt8) : readLength (length ++ octets) = some (n, octets) := by
  cases h with
  | short h => exact if_pos h
  | @long m content hne hlt h =>
    have hpos : 0 < content.length := List.length_pos_of_ne_nil hne
    have hcount : m.toNat - 128 = content.length := by omega
    have hnot : ¬ (content.length = 0 ∨ content.length = 127 ∨
        (content ++ octets).length < content.length) := by
      rw [List.length_append]
      omega
    rw [List.cons_append, readLength, if_neg (by omega)]
    simp only [hcount]
    rw [if_neg hnot, List.take_left', List.drop_left']
    · rfl
    · rfl

/-- Reading gives back what was written. -/
theorem Encodes.readTrees {trees : List Tree} {octets : List UInt8} (h : Encodes trees octets)
    {fuel : Nat} (hf : octets.length < fuel) : Tlv.readTrees fuel octets = some trees := by
  induction h generalizing fuel with
  | nil =>
    cases fuel with
    | zero => cases hf
    | succ fuel => rfl
  | @primitive tag length content octets trees hp hl h ih =>
    cases fuel with
    | zero => cases hf
    | succ fuel =>
      simp only [List.cons_append, List.length_cons, List.length_append] at hf
      rw [List.cons_append, Tlv.readTrees, readLength_append hl]
      simp only [Option.bind_eq_bind, Option.bind_some, hp, if_false]
      rw [if_neg (by rw [List.length_append]; omega), List.take_left', List.drop_left',
        ih (by omega)]
      · rfl
      · rfl
      · rfl
  | @constructed tag length content octets elements trees hc he hl h ihe ih =>
    cases fuel with
    | zero => cases hf
    | succ fuel =>
      simp only [List.cons_append, List.length_cons, List.length_append] at hf
      rw [List.cons_append, Tlv.readTrees, readLength_append hl]
      simp only [Option.bind_eq_bind, Option.bind_some, hc, if_true]
      rw [if_neg (by rw [List.length_append]; omega), List.take_left', List.drop_left',
        ihe (by omega), ih (by omega)]
      · rfl
      · rfl
      · rfl

theorem Encodes.readAll {trees : List Tree} {octets : List UInt8} (h : Encodes trees octets) :
    Tlv.readAll octets = some trees :=
  h.readTrees (Nat.lt_succ_self _)

end Tlv
