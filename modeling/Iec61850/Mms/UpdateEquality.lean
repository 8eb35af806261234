import Iec61850.Server.WriteAccess

/-! `MmsValue_update` and `MmsValue_equals` with the accesses they make, and what they do to each
other. -/

namespace Iec61850.MmsValue

open Machine

/-- `memcmp` of `n` octets -/
def sameOctets (n : Nat) (p q : List UInt8) : Exec Bool :=
  if p.length < n ∨ q.length < n then .error .outOfBounds else .ok (p.take n == q.take n)

mutual

def equalsInMemory : MmsValue → MmsValue → Exec Bool
  | .array vs, .array ws =>
    if vs.length = ws.length then elementsEqualInMemory vs ws else .ok false
  | .structured vs, .structured ws =>
    if vs.length = ws.length then elementsEqualInMemory vs ws else .ok false
  | .float f, .float g => sameOctets (f.formatWidth / 8) f.buf g.buf
  | v, w => .ok (v.equals w)

/-- The loop over the components. -/
def elementsEqualInMemory : List MmsValue → List MmsValue → Exec Bool
  | v :: vs, w :: ws => do
    if ← equalsInMemory v w then elementsEqualInMemory vs ws else return false
  | _, _ => .ok true

end

mutual

/-- The value as it is afterwards, and what the function returns. -/
def updateInMemory : MmsValue → MmsValue → Exec (MmsValue × Bool)
  | .array vs, .array ws => do return (.array (← updateStructuredComponent vs ws), true)
  | .structured vs, .structured ws => do
    return (.structured (← updateStructuredComponent vs ws), true)
  | v, w => .ok (v.updated w, (v.update w).isSome)

/-- The loop goes over the components of the value that is changed, and does not look at what the
updates return. -/
def updateStructuredComponent : List MmsValue → List MmsValue → Exec (List MmsValue)
  | [], _ => .ok []
  | _ :: _, [] => .error .outOfBounds
  | v :: vs, w :: ws => do
    let (v, _) ← updateInMemory v w
    return v :: (← updateStructuredComponent vs ws)

end

/-- What a value holds, apart from the room it has and the exponent width of its numbers. -/
inductive Datum
  | array (elements : List Datum)
  | structured (components : List Datum)
  | boolean (b : Bool)
  | bitString (size : Nat) (octets : List UInt8)
  | integer (octets : List UInt8)
  | unsigned (octets : List UInt8)
  | float (octets : List UInt8)
  | octetString (octets : List UInt8)
  | visibleString (octets : Option (List UInt8))
  | binaryTime (octets : List UInt8)
  | mmsString (octets : Option (List UInt8))
  | utcTime (octets : List UInt8)
  | dataAccessError (e : MmsDataAccessError)

mutual

def datum : MmsValue → Datum
  | .array vs => .array (dataOf vs)
  | .structured vs => .structured (dataOf vs)
  | .boolean b => .boolean b
  | .bitString b => .bitString b.size b.buf
  | .integer v => .integer v.content
  | .unsigned v => .unsigned v.content
  | .float f => .float f.buf
  | .octetString o => .octetString o.content
  | .visibleString s => .visibleString (s.map (·.octets))
  | .binaryTime t => .binaryTime t.content
  | .mmsString s => .mmsString (s.map (·.octets))
  | .utcTime t => .utcTime t.octets
  | .dataAccessError e => .dataAccessError e

def dataOf : List MmsValue → List Datum
  | [] => []
  | v :: vs => datum v :: dataOf vs

end

mutual

/-- Floating point numbers are met by numbers of the same width, as far as the comparison gets. -/
def Comparable : MmsValue → MmsValue → Prop
  | .array vs, .array ws => vs.length = ws.length → ComparableElements vs ws
  | .structured vs, .structured ws => vs.length = ws.length → ComparableElements vs ws
  | .float f, .float g => f.formatWidth = g.formatWidth
  | _, _ => True

def ComparableElements : List MmsValue → List MmsValue → Prop
  | v :: vs, w :: ws => Comparable v w ∧ (datum v = datum w → ComparableElements vs ws)
  | _, _ => True

end

mutual

/-- All the parts have room for those of the other value, or hold the same already. -/
def Accepts : MmsValue → MmsValue → Prop
  | .array vs, .array ws => AcceptsElements vs ws
  | .structured vs, .structured ws => AcceptsElements vs ws
  | .boolean _, .boolean _ => True
  | .bitString b, .bitString c => b.size = c.size
  | .integer v, .integer w => w.size ≤ v.maxSize
  | .unsigned v, .unsigned w => w.size ≤ v.maxSize
  | .float f, .float g =>
    f.formatWidth = g.formatWidth ∨ f.buf = g.buf.take (f.formatWidth / 8)
  | .octetString o, .octetString p => o.maxSize = p.maxSize ∨ o.content = p.content
  | .visibleString _, .visibleString _ => True
  | .binaryTime _, .binaryTime _ => True
  | .mmsString _, .mmsString _ => True
  | .utcTime _, .utcTime _ => True
  | .dataAccessError e, .dataAccessError f => e = f
  | _, _ => False

def AcceptsElements : List MmsValue → List MmsValue → Prop
  | [], [] => True
  | v :: vs, w :: ws => Accepts v w ∧ AcceptsElements vs ws
  | _, _ => False

end

/-- The two values are both arrays, or both structures. -/
def Composites : MmsValue → MmsValue → Prop
  | .array _, .array _ => True
  | .structured _, .structured _ => True
  | _, _ => False

/-- An update that reports success makes the values equal, one that fails changes nothing. -/
def UpdateLaw (a b : MmsValue) : Prop :=
  ∃ a' result, a.updateInMemory b = .ok (a', result) ∧
    (result = true → a'.equalsInMemory b = .ok true) ∧ (result = false → a' = a)

/-- Integers are equal when their numbers are. -/
def NumericLaw (a b : MmsValue) : Prop :=
  (∀ v w, a = .integer v → b = .integer w →
    (a.equalsInMemory b = .ok true ↔ Octets.signed v.content = Octets.signed w.content)) ∧
  ∀ v w, a = .unsigned v → b = .unsigned w →
    (a.equalsInMemory b = .ok true ↔ Octets.value v.content = Octets.value w.content)

/-- The same number has the same number of octets in both. -/
def SameLengths (a b : MmsValue) : Prop :=
  (∀ v w, a = .integer v → b = .integer w →
    Octets.signed v.content = Octets.signed w.content → v.size = w.size) ∧
  ∀ v w, a = .unsigned v → b = .unsigned w →
    Octets.value v.content = Octets.value w.content → v.size = w.size

section

variable {a b : MmsValue}

theorem length_dataOf (vs : List MmsValue) : (dataOf vs).length = vs.length := by
  induction vs with
  | nil => rfl
  | cons v vs ih => rw [dataOf, List.length_cons, ih, List.length_cons]

theorem sameOctets_ok_true {n : Nat} {p q : List UInt8} (hp : p.length = n) :
    sameOctets n p q = .ok true ↔ p = q.take n := by
  rw [sameOctets]
  split
  case isTrue h =>
    refine iff_of_false (by simp) ?_
    intro heq
    have hlen := congrArg List.length heq
    rw [List.length_take] at hlen
    omega
  case isFalse h => simp [List.take_of_length_le hp.le]

theorem elementsEqualInMemory_ok_true {vs ws : List MmsValue} (hlen : vs.length = ws.length)
    (ih : ∀ v ∈ vs, ∀ w, v.equalsInMemory w = .ok true ↔ v.equals w = true) :
    elementsEqualInMemory vs ws = .ok true ↔ equalComponents vs ws = true := by
  induction vs generalizing ws with
  | nil =>
    cases ws with
    | nil => simp [elementsEqualInMemory, equalComponents]
    | cons w ws => cases hlen
  | cons v vs ihvs =>
    cases ws with
    | nil => cases hlen
    | cons w ws =>
      have htail := ihvs (Nat.succ.inj hlen) fun x hx => ih x (List.mem_cons_of_mem v hx)
      rw [elementsEqualInMemory, equalComponents, Bool.and_eq_true, ← htail,
        ← ih v List.mem_cons_self w]
      cases v.equalsInMemory w with
      | error f => simp [error_bind]
      | ok same =>
        cases same with
        | true => simp [ok_bind]
        | false => simp [ok_bind, pure, Except.pure]

theorem equalComponents_length {vs ws : List MmsValue} (h : equalComponents vs ws = true) :
    vs.length = ws.length := by
  induction vs generalizing ws with
  | nil =>
    cases ws with
    | nil => rfl
    | cons w ws => cases h
  | cons v vs ih =>
    cases ws with
    | nil => cases h
    | cons w ws =>
      rw [equalComponents, Bool.and_eq_true] at h
      exact congrArg (· + 1) (ih h.2)

theorem compositesEqual {vs ws : List MmsValue}
    (ih : ∀ v ∈ vs, ∀ w, v.equalsInMemory w = .ok true ↔ v.equals w = true) :
    (if vs.length = ws.length then elementsEqualInMemory vs ws else .ok false) =
      (.ok true : Exec Bool) ↔ equalComponents vs ws = true := by
  split
  case isTrue h => exact elementsEqualInMemory_ok_true h ih
  case isFalse h => exact iff_of_false (by simp) fun heq => h (equalComponents_length heq)

/-- The comparison succeeds without reading too far exactly when the values are equal. -/
theorem equalsInMemory_ok_true : a.equalsInMemory b = .ok true ↔ a.equals b = true := by
  induction a using tree_induction generalizing b with
  | array vs ih =>
    cases b with
    | array ws => exact compositesEqual fun v hv w => ih v hv
    | _ => simp [equalsInMemory]
  | structured vs ih =>
    cases b with
    | structured ws => exact compositesEqual fun v hv w => ih v hv
    | _ => simp [equalsInMemory]
  | leaf a ha =>
    cases a with
    | array | structured => exact ha.elim
    | float f =>
      cases b with
      | float g =>
        rw [equalsInMemory, sameOctets_ok_true f.buf_length, equals, beq_iff_eq]
      | _ => simp [equalsInMemory]
    | _ => simp [equalsInMemory]

theorem updateStructuredComponent_ok {vs ws us : List MmsValue}
    (ih : ∀ v ∈ vs, ∀ w v' result, v.updateInMemory w = .ok (v', result) → v' = v.updated w)
    (h : updateStructuredComponent vs ws = .ok us) : us = updateComponents vs ws := by
  induction vs generalizing ws us with
  | nil =>
    cases h
    cases ws with
    | nil => rfl
    | cons => rfl
  | cons v vs ihvs =>
    cases ws with
    | nil => cases h
    | cons w ws =>
      obtain ⟨⟨v', result⟩, hv, h⟩ := bind_ok h
      obtain ⟨us', hvs, h⟩ := bind_ok h
      cases h
      rw [ih v List.mem_cons_self w v' result hv,
        ihvs (fun x hx => ih x (List.mem_cons_of_mem v hx)) hvs, updateComponents, updated]

/-- Where there is something to read, the function does what `update` says. -/
theorem updateInMemory_ok {a' : MmsValue} {result : Bool}
    (h : a.updateInMemory b = .ok (a', result)) :
    a' = a.updated b ∧ result = (a.update b).isSome := by
  induction a using tree_induction generalizing b a' result with
  | array vs ih =>
    cases b with
    | array ws =>
      obtain ⟨us, hus, h⟩ := bind_ok h
      cases h
      rw [updateStructuredComponent_ok (fun v hv w v' result hw => (ih v hv hw).1) hus]
      exact ⟨rfl, rfl⟩
    | _ =>
      cases h
      exact ⟨rfl, rfl⟩
  | structured vs ih =>
    cases b with
    | structured ws =>
      obtain ⟨us, hus, h⟩ := bind_ok h
      cases h
      rw [updateStructuredComponent_ok (fun v hv w v' result hw => (ih v hv hw).1) hus]
      exact ⟨rfl, rfl⟩
    | _ =>
      cases h
      exact ⟨rfl, rfl⟩
  | leaf a ha =>
    cases a with
    | array | structured => exact ha.elim
    | _ =>
      cases h
      exact ⟨rfl, rfl⟩

theorem updateStructuredComponent_total {vs ws : List MmsValue}
    (ih : ∀ v ∈ vs, ∀ w, v.equalTypes w = true → ∃ r, v.updateInMemory w = .ok r)
    (h : equalComponentTypes vs ws = true) : ∃ us, updateStructuredComponent vs ws = .ok us := by
  induction vs generalizing ws with
  | nil => exact ⟨[], rfl⟩
  | cons v vs ihvs =>
    cases ws with
    | nil => cases h
    | cons w ws =>
      rw [equalComponentTypes, Bool.and_eq_true] at h
      obtain ⟨⟨v', result⟩, hv⟩ := ih v List.mem_cons_self w h.1
      obtain ⟨us, hus⟩ := ihvs (fun x hx => ih x (List.mem_cons_of_mem v hx)) h.2
      exact ⟨v' :: us, by rw [updateStructuredComponent, hv, ok_bind, hus]; rfl⟩

/-- A value of the same types has all the components that are read. -/
theorem updateInMemory_total (h : a.equalTypes b = true) : ∃ r, a.updateInMemory b = .ok r := by
  induction a using tree_induction generalizing b with
  | array vs ih =>
    cases b with
    | array ws =>
      obtain ⟨us, hus⟩ := updateStructuredComponent_total (fun v hv w => ih v hv) h
      exact ⟨_, by rw [updateInMemory, hus]; rfl⟩
    | _ => cases h
  | structured vs ih =>
    cases b with
    | structured ws =>
      obtain ⟨us, hus⟩ := updateStructuredComponent_total (fun v hv w => ih v hv) h
      exact ⟨_, by rw [updateInMemory, hus]; rfl⟩
    | _ => cases h
  | leaf a ha =>
    cases a with
    | array | structured => exact ha.elim
    | _ => exact ⟨_, rfl⟩

theorem equalComponentTypes_of_equal {vs ws : List MmsValue}
    (ih : ∀ v ∈ vs, ∀ w, v.equals w = true → v.equalTypes w = true)
    (h : equalComponents vs ws = true) : equalComponentTypes vs ws = true := by
  induction vs generalizing ws with
  | nil =>
    cases ws with
    | nil => rfl
    | cons w ws => cases h
  | cons v vs ihvs =>
    cases ws with
    | nil => cases h
    | cons w ws =>
      rw [equalComponents, Bool.and_eq_true] at h
      rw [equalComponentTypes, ih v List.mem_cons_self w h.1,
        ihvs (fun x hx => ih x (List.mem_cons_of_mem v hx)) h.2, Bool.and_self]

/-- Equal values are of the same types. -/
theorem equalTypes_of_equals (h : a.equals b = true) : a.equalTypes b = true := by
  induction a using tree_induction generalizing b with
  | array vs ih =>
    cases b with
    | array ws => exact equalComponentTypes_of_equal (fun v hv w => ih v hv) h
    | _ => cases h
  | structured vs ih =>
    cases b with
    | structured ws => exact equalComponentTypes_of_equal (fun v hv w => ih v hv) h
    | _ => cases h
  | leaf a ha =>
    cases a with
    | array | structured => exact ha.elim
    | _ => cases b <;> first | rfl | cases h

theorem equalComponentTypes_updated {vs ws us : List MmsValue}
    (ih : ∀ v ∈ vs, ∀ w u, (v.updated w).equalTypes u = v.equalTypes u) :
    equalComponentTypes (updateComponents vs ws) us = equalComponentTypes vs us := by
  induction vs generalizing ws us with
  | nil =>
    cases ws with
    | nil => rfl
    | cons => rfl
  | cons v vs ihvs =>
    cases ws with
    | nil => rfl
    | cons w ws =>
      cases us with
      | nil => rfl
      | cons u us =>
        have hv : ((v.update w).getD v).equalTypes u = v.equalTypes u :=
          ih v List.mem_cons_self w u
        rw [updateComponents, equalComponentTypes, equalComponentTypes, hv,
          ihvs fun x hx => ih x (List.mem_cons_of_mem v hx)]

/-- A leaf that is updated stays a leaf of its type. -/
theorem sameType_update {a' : MmsValue} (h : a.update b = some a') : a.sameType a' = true := by
  cases a <;> cases b <;> simp only [update, Option.map_eq_some_iff, reduceCtorEq] at h
  all_goals first
    | (cases h; rfl)
    | (obtain ⟨_, -, rfl⟩ := h; rfl)

theorem equalTypes_of_sameType {a' c : MmsValue} (ha : a.IsLeaf) (h : a.sameType a' = true) :
    a'.equalTypes c = a.equalTypes c := by
  cases a with
  | array | structured => exact ha.elim
  | _ => cases a' <;> first | exact absurd h Bool.false_ne_true | (cases c <;> rfl)

/-- An update keeps the types. -/
theorem equalTypes_updated {c : MmsValue} : (a.updated b).equalTypes c = a.equalTypes c := by
  induction a using tree_induction generalizing b c with
  | array vs ih =>
    cases b with
    | array ws =>
      cases c with
      | array us => exact equalComponentTypes_updated fun v hv w u => ih v hv
      | _ => rfl
    | _ => rfl
  | structured vs ih =>
    cases b with
    | structured ws =>
      cases c with
      | structured us => exact equalComponentTypes_updated fun v hv w u => ih v hv
      | _ => rfl
    | _ => rfl
  | leaf a ha =>
    cases hu : a.update b with
    | none => rw [updated, hu, Option.getD_none]
    | some a' =>
      rw [updated, hu, Option.getD_some, equalTypes_of_sameType ha (sameType_update hu)]

/-- A leaf that could be updated had room for the other value. -/
theorem takes_of_update {a' : MmsValue} (ha : a.IsLeaf) (h : a.update b = some a') :
    a.equalTypes b = true ∧ a.takes b = true := by
  cases a with
  | array | structured => exact ha.elim
  | float f =>
    cases b with
    | float g =>
      obtain ⟨k, hk, -⟩ := Option.map_eq_some_iff.mp h
      obtain ⟨hwidth, -⟩ := Option.dite_none_right_eq_some.mp hk
      exact ⟨rfl, by simp [takes, hwidth]⟩
    | _ => cases h
  | integer v =>
    cases b with
    | integer w =>
      obtain ⟨k, hk, -⟩ := Option.map_eq_some_iff.mp h
      obtain ⟨hsize, -⟩ := Option.dite_none_right_eq_some.mp hk
      exact ⟨rfl, by simpa [takes] using hsize⟩
    | _ => cases h
  | unsigned v =>
    cases b with
    | unsigned w =>
      obtain ⟨k, hk, -⟩ := Option.map_eq_some_iff.mp h
      obtain ⟨hsize, -⟩ := Option.dite_none_right_eq_some.mp hk
      exact ⟨rfl, by simpa [takes] using hsize⟩
    | _ => cases h
  | bitString s =>
    cases b with
    | bitString t =>
      obtain ⟨k, hk, -⟩ := Option.map_eq_some_iff.mp h
      obtain ⟨hsize, -⟩ := Option.dite_none_right_eq_some.mp hk
      exact ⟨rfl, by simp [takes, hsize]⟩
    | _ => cases h
  | octetString o =>
    cases b with
    | octetString p =>
      obtain ⟨k, hk, -⟩ := Option.map_eq_some_iff.mp h
      obtain ⟨hsize, -⟩ := Option.dite_none_right_eq_some.mp hk
      exact ⟨rfl, by simp [takes, hsize]⟩
    | _ => cases h
  | _ => cases b <;> first | exact ⟨rfl, rfl⟩ | cases h

theorem acceptsElements_iff {vs ws : List MmsValue}
    (ih : ∀ v ∈ vs, ∀ w, v.Accepts w ↔ v.equalTypes w = true ∧ v.takes w = true) :
    AcceptsElements vs ws ↔ equalComponentTypes vs ws = true ∧ takesComponents vs ws = true := by
  induction vs generalizing ws with
  | nil => cases ws <;> simp [AcceptsElements, equalComponentTypes, takesComponents]
  | cons v vs ihvs =>
    cases ws with
    | nil => simp [AcceptsElements, equalComponentTypes]
    | cons w ws =>
      rw [AcceptsElements, ih v List.mem_cons_self w,
        ihvs fun x hx => ih x (List.mem_cons_of_mem v hx), equalComponentTypes, takesComponents,
        Bool.and_eq_true, Bool.and_eq_true]
      exact and_and_and_comm

theorem accepts_iff : a.Accepts b ↔ a.equalTypes b = true ∧ a.takes b = true := by
  induction a using tree_induction generalizing b with
  | array vs ih =>
    cases b with
    | array ws => exact acceptsElements_iff fun v hv w => ih v hv
    | _ => simp [Accepts, equalTypes]
  | structured vs ih =>
    cases b with
    | structured ws => exact acceptsElements_iff fun v hv w => ih v hv
    | _ => simp [Accepts, equalTypes]
  | leaf a ha =>
    cases a with
    | array | structured => exact ha.elim
    | float f => cases b <;> simp [Accepts, equalTypes, takes, equals]
    | octetString o =>
      cases b <;> simp [Accepts, equalTypes, takes, equals]
      refine or_congr_right (and_iff_right_of_imp fun heq => ?_).symm
      rw [← o.length_content, heq, OctetString.length_content]
    | _ => cases b <;> simp [Accepts, equalTypes, takes]

theorem updateInMemory_apart (h : ¬ a.Composites b) :
    a.updateInMemory b = .ok (a.updated b, (a.update b).isSome) := by
  cases a <;> cases b <;> first | rfl | exact absurd trivial h

/-- Composite values of one type are all that is updated in parts. -/
theorem isLeaf_of_update {a' : MmsValue} (hc : ¬ a.Composites b) (h : a.update b = some a') :
    a.IsLeaf := by
  cases a with
  | array | structured => cases b <;> first | exact absurd trivial hc | cases h
  | _ => trivial

/-- At the top an update of a leaf tells whether it was done. -/
theorem updateLaw_leaf (h : ¬ a.Composites b) : UpdateLaw a b := by
  refine ⟨_, _, updateInMemory_apart h, fun hsome => ?_, fun hnone => ?_⟩
  · obtain ⟨a', hu⟩ := Option.isSome_iff_exists.mp hsome
    obtain ⟨htypes, htakes⟩ := takes_of_update (isLeaf_of_update h hu) hu
    exact equalsInMemory_ok_true.mpr ((equals_updated htypes).trans htakes)
  · rw [updated, Option.isSome_eq_false_iff.mp hnone |> Option.isNone_iff_eq_none.mp,
      Option.getD_none]

/-- The law for arrays and structures. -/
theorem updateLaw_composites (h : a.Composites b) : UpdateLaw a b ↔ a.Accepts b := by
  rw [accepts_iff]
  have hsome : (a.update b).isSome = true := by
    cases a <;> cases b <;> first | exact h.elim | rfl
  constructor
  · rintro ⟨a', result, hok, htrue, -⟩
    obtain ⟨rfl, hresult⟩ := updateInMemory_ok hok
    have heq := equalsInMemory_ok_true.mp (htrue (hresult.trans hsome))
    have htypes : a.equalTypes b = true := equalTypes_updated.symm.trans (equalTypes_of_equals heq)
    exact ⟨htypes, (equals_updated htypes).symm.trans heq⟩
  · rintro ⟨htypes, htakes⟩
    obtain ⟨⟨a', result⟩, hok⟩ := updateInMemory_total htypes
    obtain ⟨rfl, rfl⟩ := updateInMemory_ok hok
    refine ⟨_, _, hok, fun _ => ?_, fun hf => ?_⟩
    · exact equalsInMemory_ok_true.mpr ((equals_updated htypes).trans htakes)
    · rw [hsome] at hf
      cases hf

theorem comparableElements_symm {vs ws : List MmsValue}
    (ih : ∀ v ∈ vs, ∀ w, v.Comparable w → w.Comparable v) (h : ComparableElements vs ws) :
    ComparableElements ws vs := by
  induction vs generalizing ws with
  | nil => cases ws <;> trivial
  | cons v vs ihvs =>
    cases ws with
    | nil => trivial
    | cons w ws =>
      refine ⟨ih v List.mem_cons_self w h.1, fun hd => ?_⟩
      exact ihvs (fun x hx => ih x (List.mem_cons_of_mem v hx)) (h.2 hd.symm)

theorem Comparable.symm (h : a.Comparable b) : b.Comparable a := by
  induction a using tree_induction generalizing b with
  | array vs ih =>
    cases b with
    | array ws =>
      exact fun hlen => comparableElements_symm (fun v hv w => ih v hv) (h hlen.symm)
    | _ => trivial
  | structured vs ih =>
    cases b with
    | structured ws =>
      exact fun hlen => comparableElements_symm (fun v hv w => ih v hv) (h hlen.symm)
    | _ => trivial
  | leaf a ha =>
    cases a with
    | array | structured => exact ha.elim
    | float f =>
      cases b with
      | float g => exact Eq.symm h
      | _ => trivial
    | _ => cases b <;> trivial

theorem equalComponents_iff_dataOf {vs ws : List MmsValue} (hlen : vs.length = ws.length)
    (ih : ∀ v ∈ vs, ∀ w, v.Comparable w → (v.equals w = true ↔ v.datum = w.datum))
    (h : ComparableElements vs ws) : equalComponents vs ws = true ↔ dataOf vs = dataOf ws := by
  induction vs generalizing ws with
  | nil =>
    cases ws with
    | nil => simp [equalComponents]
    | cons w ws => cases hlen
  | cons v vs ihvs =>
    cases ws with
    | nil => cases hlen
    | cons w ws =>
      have hrest := ihvs (Nat.succ.inj hlen) fun x hx => ih x (List.mem_cons_of_mem v hx)
      rw [equalComponents, Bool.and_eq_true, ih v List.mem_cons_self w h.1, dataOf, dataOf,
        List.cons.injEq]
      exact and_congr_right fun hd => hrest (h.2 hd)

theorem equalComponents_iff {vs ws : List MmsValue}
    (ih : ∀ v ∈ vs, ∀ w, v.Comparable w → (v.equals w = true ↔ v.datum = w.datum))
    (h : vs.length = ws.length → ComparableElements vs ws) :
    equalComponents vs ws = true ↔ dataOf vs = dataOf ws := by
  by_cases hlen : vs.length = ws.length
  · exact equalComponents_iff_dataOf hlen ih (h hlen)
  · refine iff_of_false (fun heq => hlen (equalComponents_length heq)) fun heq => hlen ?_
    rw [← length_dataOf vs, heq, length_dataOf]

/-- Values that can be compared are equal when they hold the same. -/
theorem equals_iff_datum (h : a.Comparable b) : a.equals b = true ↔ a.datum = b.datum := by
  induction a using tree_induction generalizing b with
  | array vs ih =>
    cases b with
    | array ws =>
      rw [equals, datum, datum, Datum.array.injEq]
      exact equalComponents_iff (fun v hv w => ih v hv) h
    | _ => simp [equals, datum]
  | structured vs ih =>
    cases b with
    | structured ws =>
      rw [equals, datum, datum, Datum.structured.injEq]
      exact equalComponents_iff (fun v hv w => ih v hv) h
    | _ => simp [equals, datum]
  | leaf a ha =>
    cases a with
    | array | structured => exact ha.elim
    | float f =>
      cases b with
      | float g =>
        have hlen : g.buf.length ≤ f.formatWidth / 8 := by
          rw [g.buf_length, show f.formatWidth = g.formatWidth from h]
        simp [equals, datum, List.take_of_length_le hlen]
      | _ => simp [equals, datum]
    | integer v | unsigned v =>
      cases b <;> simp [equals, datum, Asn1PrimitiveValue.compare]
      intro heq
      rw [← v.length_content, heq, Asn1PrimitiveValue.length_content]
    | octetString o =>
      cases b <;> simp [equals, datum]
      intro heq
      rw [← o.length_content, heq, OctetString.length_content]
    | binaryTime t =>
      cases b <;> simp [equals, datum]
      intro heq
      rw [← t.length_content, heq, BinaryTime.length_content]
    | _ => cases b <;> simp [equals, datum]

/-- The comparison stays within both values. -/
def Reads (a b : MmsValue) : Prop := ∃ same, a.equalsInMemory b = .ok same

theorem elementsEqualInMemory_cons {v w : MmsValue} {vs ws : List MmsValue} (hc : v.Comparable w)
    (hr : v.Reads w) : (∃ same, elementsEqualInMemory (v :: vs) (w :: ws) = .ok same) ↔
      (v.datum = w.datum → ∃ same, elementsEqualInMemory vs ws = .ok same) := by
  obtain ⟨same, hsame⟩ := hr
  have hiff : same = true ↔ v.datum = w.datum := by
    rw [← equals_iff_datum hc, ← equalsInMemory_ok_true, hsame, Except.ok.injEq]
  rw [elementsEqualInMemory, hsame, ok_bind, ← hiff]
  cases same with
  | true => simp
  | false => simp [pure, Except.pure]

theorem reads_of_elements {v w : MmsValue} {vs ws : List MmsValue}
    (h : ∃ same, elementsEqualInMemory (v :: vs) (w :: ws) = .ok same) : v.Reads w := by
  obtain ⟨same, h⟩ := h
  obtain ⟨first, hfirst, -⟩ := bind_ok h
  exact ⟨first, hfirst⟩

theorem comparableElements_iff {vs ws : List MmsValue} (hlen : vs.length = ws.length)
    (ih : ∀ v ∈ vs, ∀ w, v.Comparable w ↔ v.Reads w ∧ w.Reads v) :
    ComparableElements vs ws ↔ (∃ same, elementsEqualInMemory vs ws = .ok same) ∧
      ∃ same, elementsEqualInMemory ws vs = .ok same := by
  induction vs generalizing ws with
  | nil =>
    cases ws with
    | nil => exact iff_of_true trivial ⟨⟨true, rfl⟩, true, rfl⟩
    | cons w ws => cases hlen
  | cons v vs ihvs =>
    cases ws with
    | nil => cases hlen
    | cons w ws =>
      have hhead := ih v List.mem_cons_self w
      have hrest := ihvs (Nat.succ.inj hlen) fun x hx => ih x (List.mem_cons_of_mem v hx)
      by_cases hc : v.Comparable w
      · obtain ⟨hvw, hwv⟩ := hhead.mp hc
        rw [elementsEqualInMemory_cons hc hvw, elementsEqualInMemory_cons hc.symm hwv,
          ComparableElements, hrest]
        simp only [hc, true_and, eq_comm (a := w.datum)]
        exact forall_and
      · refine iff_of_false (fun h => hc h.1) fun h => hc (hhead.mpr ?_)
        exact ⟨reads_of_elements h.1, reads_of_elements h.2⟩

theorem comparableComposites_iff {vs ws : List MmsValue}
    (ih : ∀ v ∈ vs, ∀ w, v.Comparable w ↔ v.Reads w ∧ w.Reads v) :
    (vs.length = ws.length → ComparableElements vs ws) ↔
      (∃ same, (if vs.length = ws.length then elementsEqualInMemory vs ws else .ok false) =
        (.ok same : Exec Bool)) ∧
      ∃ same, (if ws.length = vs.length then elementsEqualInMemory ws vs else .ok false) =
        (.ok same : Exec Bool) := by
  by_cases hlen : vs.length = ws.length
  · rw [if_pos hlen, if_pos hlen.symm, ← comparableElements_iff hlen ih]
    exact ⟨fun h => h hlen, fun h _ => h⟩
  · rw [if_neg hlen, if_neg (Ne.symm hlen)]
    exact iff_of_true (fun h => absurd h hlen) ⟨⟨false, rfl⟩, false, rfl⟩

theorem sameOctets_ok {n : Nat} {p q : List UInt8} (hp : p.length = n) :
    (∃ same, sameOctets n p q = .ok same) ↔ n ≤ q.length := by
  rw [sameOctets]
  split
  case isTrue h => exact iff_of_false (by simp) (by omega)
  case isFalse h => exact iff_of_true ⟨_, rfl⟩ (by omega)

/-- The comparison of two values in both directions stays within them exactly when they are
comparable. -/
theorem comparable_iff : a.Comparable b ↔ a.Reads b ∧ b.Reads a := by
  induction a using tree_induction generalizing b with
  | array vs ih =>
    cases b with
    | array ws => exact comparableComposites_iff fun v hv w => ih v hv
    | _ => exact iff_of_true trivial ⟨⟨_, rfl⟩, _, rfl⟩
  | structured vs ih =>
    cases b with
    | structured ws => exact comparableComposites_iff fun v hv w => ih v hv
    | _ => exact iff_of_true trivial ⟨⟨_, rfl⟩, _, rfl⟩
  | leaf a ha =>
    cases a with
    | array | structured => exact ha.elim
    | float f =>
      cases b with
      | float g =>
        rw [Reads, Reads, equalsInMemory, equalsInMemory, sameOctets_ok f.buf_length,
          sameOctets_ok g.buf_length, f.buf_length, g.buf_length, Comparable]
        rcases f.formatWidth_eq with hf | hf <;> rcases g.formatWidth_eq with hg | hg <;>
          simp [hf, hg]
      | _ => exact iff_of_true trivial ⟨⟨_, rfl⟩, _, rfl⟩
    | _ => cases b <;> exact iff_of_true trivial ⟨⟨_, rfl⟩, _, rfl⟩

/-- Both directions give the same answer. -/
def SymmetricLaw (a b : MmsValue) : Prop :=
  ∃ same, a.equalsInMemory b = .ok same ∧ b.equalsInMemory a = .ok same

theorem symmetricLaw_iff : a.SymmetricLaw b ↔ a.Comparable b := by
  constructor
  · rintro ⟨same, h, h'⟩
    exact comparable_iff.mpr ⟨⟨same, h⟩, same, h'⟩
  · intro hc
    obtain ⟨⟨same, h⟩, same', h'⟩ := comparable_iff.mp hc
    have hiff : same = true ↔ same' = true := by
      rw [← Except.ok.injEq (ε := Fault), ← h, equalsInMemory_ok_true, equals_iff_datum hc,
        ← Except.ok.injEq (ε := Fault) same', ← h', equalsInMemory_ok_true,
        equals_iff_datum hc.symm, eq_comm]
    exact ⟨same, h, h'.trans (congrArg _ (Bool.eq_iff_iff.mpr hiff).symm)⟩

theorem compare_iff_content {v w : Asn1PrimitiveValue} :
    v.compare w = true ↔ v.content = w.content := by
  simp only [Asn1PrimitiveValue.compare, Bool.and_eq_true, beq_iff_eq, and_iff_right_iff_imp]
  intro heq
  rw [← v.length_content, heq, Asn1PrimitiveValue.length_content]

theorem signed_injective {bs cs : List UInt8} (hlen : bs.length = cs.length)
    (h : Octets.signed bs = Octets.signed cs) : bs = cs := by
  apply Octets.value_injective hlen
  have hmod := Octets.signed_emod cs
  rw [← h, ← hlen, Octets.signed_emod bs] at hmod
  exact Int.ofNat.inj hmod

theorem numericLaw_iff : NumericLaw a b ↔ SameLengths a b := by
  constructor
  · rintro ⟨hs, hu⟩
    refine ⟨?_, ?_⟩
    · rintro v w rfl rfl heq
      have hcontent := compare_iff_content.mp (equalsInMemory_ok_true.mp ((hs v w rfl rfl).mpr heq))
      rw [← v.length_content, hcontent, Asn1PrimitiveValue.length_content]
    · rintro v w rfl rfl heq
      have hcontent := compare_iff_content.mp (equalsInMemory_ok_true.mp ((hu v w rfl rfl).mpr heq))
      rw [← v.length_content, hcontent, Asn1PrimitiveValue.length_content]
  · rintro ⟨hs, hu⟩
    refine ⟨?_, ?_⟩
    · rintro v w rfl rfl
      rw [equalsInMemory_ok_true, equals, compare_iff_content]
      exact ⟨congrArg _, fun h => signed_injective (by simpa using hs v w rfl rfl h) h⟩
    · rintro v w rfl rfl
      rw [equalsInMemory_ok_true, equals, compare_iff_content]
      exact ⟨congrArg _, fun h => Octets.value_injective (by simpa using hu v w rfl rfl h) h⟩

end

/-- What an update and the equality of values promise. -/
structure Lawful (a b : MmsValue) : Prop where
  update : a.UpdateLaw b
  refl : a.equalsInMemory a = .ok true
  symm : a.SymmetricLaw b
  trans : ∀ c, a.equalsInMemory b = .ok true → b.equalsInMemory c = .ok true →
    a.equalsInMemory c = .ok true
  numeric : a.NumericLaw b

/-- The promises are kept exactly when no part of an array or structure is left out of the update,
floating point numbers meet numbers of their width, and the same number always has the same
length. -/
theorem update_equals_iff (a b : MmsValue) :
    Lawful a b ↔ (a.Composites b → a.Accepts b) ∧ a.Comparable b ∧ a.SameLengths b := by
  constructor
  · intro h
    exact ⟨fun hc => (updateLaw_composites hc).mp h.update, symmetricLaw_iff.mp h.symm,
      numericLaw_iff.mp h.numeric⟩
  · rintro ⟨haccepts, hcomparable, hlengths⟩
    refine ⟨?_, equalsInMemory_ok_true.mpr (equals_refl a), symmetricLaw_iff.mpr hcomparable, ?_,
      numericLaw_iff.mpr hlengths⟩
    · by_cases hc : a.Composites b
      · exact (updateLaw_composites hc).mpr (haccepts hc)
      · exact updateLaw_leaf hc
    · intro c hab hbc
      rw [equalsInMemory_ok_true] at hab hbc ⊢
      exact equals_trans hab hbc

/-- A structure says that it has been updated, and its component has not: a boolean cannot take
the time. -/
theorem not_lawful_structured :
    ¬ Lawful (.structured [.boolean false]) (.structured [.utcTime ⟨List.replicate 8 0, rfl⟩]) := by
  intro h
  obtain ⟨a', result, hok, htrue, -⟩ := h.update
  obtain ⟨rfl, rfl⟩ := Prod.mk.inj (Except.ok.inj hok)
  exact absurd (Except.ok.inj (htrue rfl)) Bool.false_ne_true

end Iec61850.MmsValue
