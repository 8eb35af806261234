import Iec61850.Lib.Tlv

/-! Elements whose tags have one or two octets, and what the first header of a sequence of
elements says about the octets behind it. -/

namespace Tlv

/-- The octets of a tag, of a constructed element or of a primitive one. -/
inductive Identifier : Bool → List UInt8 → Prop
  | short {tag : UInt8} (ht : IsShortTag tag) : Identifier (IsConstructed tag) [tag]
  | long {tag number : UInt8} (ht : ¬ IsShortTag tag) (hn : number.toNat < 128) :
    Identifier (IsConstructed tag) [tag, number]

/-- One element: every length it states, at any depth, is the number of octets that follow. -/
inductive Sized : List UInt8 → Prop
  | primitive {identifier length content : List UInt8} (hi : Identifier false identifier)
      (hl : LengthOctets content.length length) : Sized (identifier ++ (length ++ content))
  | constructed {identifier length : List UInt8} {elements : List (List UInt8)}
      (hi : Identifier true identifier) (he : ∀ element ∈ elements, Sized element)
      (hl : LengthOctets elements.flatten.length length) :
      Sized (identifier ++ (length ++ elements.flatten))

/-- The octets are elements one after the other. -/
def AreSized (octets : List UInt8) : Prop :=
  ∃ elements : List (List UInt8), (∀ element ∈ elements, Sized element) ∧
    octets = elements.flatten

variable {tag : UInt8} {n : Nat} {length content octets octets' : List UInt8}

theorem AreSized.nil : AreSized [] := ⟨[], fun _ h => absurd h List.not_mem_nil, rfl⟩

theorem Sized.areSized (h : Sized octets) : AreSized octets :=
  ⟨[octets], fun _ he => List.mem_singleton.mp he ▸ h, (List.append_nil octets).symm⟩

theorem AreSized.append (h : AreSized octets) (h' : AreSized octets') :
    AreSized (octets ++ octets') := by
  obtain ⟨elements, he, rfl⟩ := h
  obtain ⟨elements', he', rfl⟩ := h'
  exact ⟨elements ++ elements', List.forall_mem_append.mpr ⟨he, he'⟩, List.flatten_append.symm⟩

theorem AreSized.constructed {identifier : List UInt8} (h : AreSized content)
    (hi : Identifier true identifier) (hl : LengthOctets content.length length) :
    Sized (identifier ++ (length ++ content)) := by
  obtain ⟨elements, he, rfl⟩ := h
  exact .constructed hi he hl

theorem identifier_constructed (ht : IsShortTag tag) (hc : IsConstructed tag) :
    Identifier true [tag] := by
  rw [← decide_eq_true hc]
  exact .short ht

theorem identifier_primitive (ht : IsShortTag tag) (hp : ¬ IsConstructed tag) :
    Identifier false [tag] := by
  rw [← decide_eq_false hp]
  exact .short ht

theorem WellFormed.sized (h : WellFormed octets) : Sized octets := by
  induction h with
  | primitive ht hp hl => exact .primitive (identifier_primitive ht hp) hl
  | constructed ht hc _ hl ih => exact .constructed (identifier_constructed ht hc) ih hl

/-- The length that octets begin with is the only one they can be read with. -/
theorem lengthOctets_unique {m : Nat} {length' content' : List UInt8} (hl : LengthOctets n length)
    (hl' : LengthOctets m length') (h : length ++ content = length' ++ content') :
    n = m ∧ length = length' ∧ content = content' := by
  have hread := readLength_append hl content
  rw [h, readLength_append hl' content'] at hread
  cases hread
  exact ⟨rfl, List.append_cancel_right h, rfl⟩

theorem identifier_unique {isConstructed : Bool} {identifier rest rest' : List UInt8}
    (hi : Identifier isConstructed identifier) (ht : IsShortTag tag)
    (h : tag :: rest = identifier ++ rest') :
    identifier = [tag] ∧ rest = rest' ∧ isConstructed = decide (IsConstructed tag) := by
  cases hi with
  | short =>
    obtain ⟨rfl, rfl⟩ := List.cons.inj h
    exact ⟨rfl, rfl, rfl⟩
  | long ht' =>
    obtain ⟨rfl, -⟩ := List.cons.inj h
    exact absurd ht ht'

theorem Identifier.ne_nil {isConstructed : Bool} {identifier : List UInt8}
    (hi : Identifier isConstructed identifier) : identifier ≠ [] := by
  cases hi with
  | short => exact List.cons_ne_nil _ _
  | long => exact List.cons_ne_nil _ _

theorem Sized.ne_nil (h : Sized octets) : octets ≠ [] := by
  cases h with
  | primitive hi => exact List.append_ne_nil_of_left_ne_nil hi.ne_nil _
  | constructed hi => exact List.append_ne_nil_of_left_ne_nil hi.ne_nil _

/-- An element in front of anything has the length that its header states, and what is in a
constructed element are elements. -/
theorem Sized.header {element rest rest' : List UInt8} (h : Sized element) (ht : IsShortTag tag)
    (hl : LengthOctets n length) (heq : tag :: length ++ rest = element ++ rest') :
    ∃ content, element = tag :: length ++ content ∧ content.length = n ∧
      (IsConstructed tag → AreSized content) := by
  cases h with
  | @primitive identifier length' content hi hl' =>
    rw [List.append_assoc, List.append_assoc, List.cons_append] at heq
    obtain ⟨rfl, hrest, hc⟩ := identifier_unique hi ht heq
    obtain ⟨rfl, rfl, -⟩ := lengthOctets_unique hl hl' hrest
    exact ⟨content, rfl, rfl, fun hconstructed => absurd hconstructed (of_decide_eq_false hc.symm)⟩
  | @constructed identifier length' elements hi he hl' =>
    rw [List.append_assoc, List.append_assoc, List.cons_append] at heq
    obtain ⟨rfl, hrest, -⟩ := identifier_unique hi ht heq
    obtain ⟨rfl, rfl, -⟩ := lengthOctets_unique hl hl' hrest
    exact ⟨elements.flatten, rfl, rfl, fun _ => ⟨elements, he, rfl⟩⟩

theorem Sized.stated (h : Sized (tag :: length ++ octets)) (ht : IsShortTag tag)
    (hl : LengthOctets n length) : n = octets.length ∧ (IsConstructed tag → AreSized octets) := by
  obtain ⟨content, heq, hn, hc⟩ := h.header ht hl (List.append_nil _).symm
  obtain rfl := List.append_cancel_left heq
  exact ⟨hn.symm, hc⟩

/-- The first of the elements and those behind it. -/
theorem AreSized.head (h : AreSized (tag :: length ++ octets)) (ht : IsShortTag tag)
    (hl : LengthOctets n length) :
    ∃ content rest, octets = content ++ rest ∧ content.length = n ∧
      (IsConstructed tag → AreSized content) ∧ AreSized rest := by
  obtain ⟨elements, he, heq⟩ := h
  cases elements with
  | nil => cases heq
  | cons element elements =>
    obtain ⟨hel, hels⟩ := List.forall_mem_cons.mp he
    obtain ⟨content, rfl, hn, hc⟩ := hel.header ht hl heq
    rw [List.flatten_cons, List.append_assoc] at heq
    exact ⟨content, elements.flatten, List.append_cancel_left heq, hn, hc, elements, hels, rfl⟩

/-- Behind the tag of an element stands a length that there are octets for. -/
theorem AreSized.readLength (h : AreSized (tag :: octets)) (ht : IsShortTag tag) :
    ∃ n rest, Tlv.readLength octets = some (n, rest) ∧ n ≤ rest.length := by
  have hread : ∀ {isConstructed : Bool} {identifier length content rest : List UInt8},
      Identifier isConstructed identifier → LengthOctets content.length length →
      tag :: octets = identifier ++ (length ++ content) ++ rest →
      ∃ n rest, Tlv.readLength octets = some (n, rest) ∧ n ≤ rest.length := by
    intro isConstructed identifier length content rest hi hl heq
    rw [List.append_assoc, List.append_assoc] at heq
    obtain ⟨-, rfl, -⟩ := identifier_unique hi ht heq
    refine ⟨_, _, readLength_append hl _, ?_⟩
    rw [List.length_append]
    exact Nat.le_add_right _ _
  obtain ⟨elements, he, heq⟩ := h
  cases elements with
  | nil => exact absurd heq (List.cons_ne_nil _ _)
  | cons element elements =>
    rw [List.flatten_cons] at heq
    cases (List.forall_mem_cons.mp he).1 with
    | primitive hi hl => exact hread hi hl heq
    | constructed hi _ hl => exact hread hi hl heq

theorem AreSized.eq_zero {n : UInt8} (h : AreSized [tag, n]) (ht : IsShortTag tag) : n = 0 := by
  obtain ⟨m, rest, hread, hle⟩ := h.readLength ht
  by_cases hn : n.toNat < 128
  · rw [Tlv.readLength, if_pos hn] at hread
    cases hread
    exact UInt8.toNat_inj.mp (Nat.le_zero.mp hle)
  · have hnone : n.toNat - 128 = 0 ∨ n.toNat - 128 = 127 ∨ ([] : List UInt8).length < n.toNat - 128 := by
      rw [List.length_nil]
      omega
    rw [Tlv.readLength, if_neg hn] at hread
    dsimp only at hread
    rw [if_pos hnone] at hread
    cases hread

/-! ## Elements around a payload that is not looked at -/

/-- One element: every length it states, at any depth, is the number of octets that follow. An
element may have the payload in it as it is. -/
inductive SizedAround (payload : List UInt8) : List UInt8 → Prop
  | payload {identifier length : List UInt8} (hi : Identifier true identifier)
      (hl : LengthOctets payload.length length) :
      SizedAround payload (identifier ++ (length ++ payload))
  | primitive {identifier length content : List UInt8} (hi : Identifier false identifier)
      (hl : LengthOctets content.length length) :
      SizedAround payload (identifier ++ (length ++ content))
  | constructed {identifier length : List UInt8} {elements : List (List UInt8)}
      (hi : Identifier true identifier) (he : ∀ element ∈ elements, SizedAround payload element)
      (hl : LengthOctets elements.flatten.length length) :
      SizedAround payload (identifier ++ (length ++ elements.flatten))

def AreSizedAround (payload octets : List UInt8) : Prop :=
  ∃ elements : List (List UInt8), (∀ element ∈ elements, SizedAround payload element) ∧
    octets = elements.flatten

variable {payload : List UInt8}

theorem SizedAround.areSized (h : SizedAround payload octets) : AreSizedAround payload octets :=
  ⟨[octets], fun _ he => List.mem_singleton.mp he ▸ h, (List.append_nil octets).symm⟩

theorem AreSizedAround.append (h : AreSizedAround payload octets)
    (h' : AreSizedAround payload octets') : AreSizedAround payload (octets ++ octets') := by
  obtain ⟨elements, he, rfl⟩ := h
  obtain ⟨elements', he', rfl⟩ := h'
  exact ⟨elements ++ elements', List.forall_mem_append.mpr ⟨he, he'⟩, List.flatten_append.symm⟩

theorem AreSizedAround.constructed {identifier : List UInt8} (h : AreSizedAround payload content)
    (hi : Identifier true identifier) (hl : LengthOctets content.length length) :
    SizedAround payload (identifier ++ (length ++ content)) := by
  obtain ⟨elements, he, rfl⟩ := h
  exact .constructed hi he hl

/-- The header of an element states how many octets there are behind it. -/
theorem SizedAround.stated (h : SizedAround payload (tag :: length ++ octets))
    (ht : IsShortTag tag) (hl : LengthOctets n length) : n = octets.length := by
  have hcase : ∀ {isConstructed : Bool} {identifier length' content : List UInt8},
      Identifier isConstructed identifier → LengthOctets content.length length' →
      tag :: length ++ octets = identifier ++ (length' ++ content) → n = octets.length := by
    intro isConstructed identifier length' content hi hl' heq
    obtain ⟨-, hrest, -⟩ := identifier_unique hi ht heq
    obtain ⟨hn, -, rfl⟩ := lengthOctets_unique hl hl' hrest
    exact hn
  generalize hwhole : tag :: length ++ octets = whole at h
  cases h with
  | payload hi hl' => exact hcase hi hl' hwhole
  | primitive hi hl' => exact hcase hi hl' hwhole
  | constructed hi _ hl' => exact hcase hi hl' hwhole

end Tlv
