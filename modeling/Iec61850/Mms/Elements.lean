import Iec61850.Mms.Update

/-! The parts of an MMS value, and equality of values as a relation. -/

namespace Iec61850

namespace MmsValue

/-- `MmsValue_getElement` of a structure with `n` components, or of one that has one less. -/
def getElementOf (n long short : Nat) : MmsValue → Option MmsValue
  | .structured vs =>
    if vs.length = n then vs[long]? else if vs.length + 1 = n then vs[short]? else none
  | _ => none

def getUtcTimeInMs : MmsValue → Option UInt64
  | .utcTime t =>
    let timeval := Octets.value (t.octets.take 4)
    let fractionOfSecond := Octets.value ((t.octets.drop 4).take 3)
    some (UInt64.ofNat (timeval * 1000 + fractionOfSecond / 16777))
  | _ => none

theorem length_setUtcTime {t : UtcTime} (timeval : UInt32) :
    (Octets.ofNat 4 timeval.toNat ++ t.octets.drop 4).length = 8 := by
  rw [List.length_append, Octets.length_ofNat, List.length_drop, t.octets_length]

def setUtcTime (timeval : UInt32) : MmsValue → MmsValue
  | .utcTime t =>
    .utcTime ⟨Octets.ofNat 4 timeval.toNat ++ t.octets.drop 4, length_setUtcTime timeval⟩
  | value => value

theorem equalComponents_trans {us vs ws : List MmsValue}
    (ih : ∀ u ∈ us, ∀ v w : MmsValue, u.equals v = true → v.equals w = true → u.equals w = true)
    (h : equalComponents us vs = true) (h' : equalComponents vs ws = true) :
    equalComponents us ws = true := by
  induction us generalizing vs ws with
  | nil =>
    cases vs with
    | nil => exact h'
    | cons v vs => simp [equalComponents] at h
  | cons u us ihus =>
    cases vs with
    | nil => simp [equalComponents] at h
    | cons v vs =>
      cases ws with
      | nil => simp [equalComponents] at h'
      | cons w ws =>
        simp only [equalComponents, Bool.and_eq_true] at h h' ⊢
        refine ⟨ih u List.mem_cons_self v w h.1 h'.1, ihus ?_ h.2 h'.2⟩
        intro x hx
        exact ih x (List.mem_cons_of_mem u hx)

/-- The first floating point number is not wider than the second. -/
theorem equals_float_trans {f g k : FloatingPoint}
    (h : (MmsValue.float f).equals (.float g) = true)
    (h' : (MmsValue.float g).equals (.float k) = true) :
    (MmsValue.float f).equals (.float k) = true := by
  simp only [equals, beq_iff_eq] at h h' ⊢
  have hlen := congrArg List.length h
  rw [List.length_take, f.buf_length, g.buf_length] at hlen
  have hle : f.formatWidth / 8 ≤ g.formatWidth / 8 := by
    rw [hlen]
    exact min_le_right _ _
  rw [h, h', List.take_take, min_eq_left hle]

theorem equalComponents_refl {vs : List MmsValue} (ih : ∀ v ∈ vs, v.equals v = true) :
    equalComponents vs vs = true := by
  induction vs with
  | nil => rfl
  | cons v vs ihvs =>
    rw [equalComponents, Bool.and_eq_true]
    exact ⟨ih v List.mem_cons_self, ihvs fun w hw => ih w (List.mem_cons_of_mem v hw)⟩

theorem equals_refl (v : MmsValue) : v.equals v = true := by
  induction v using tree_induction with
  | array vs ih => exact equalComponents_refl ih
  | structured vs ih => exact equalComponents_refl ih
  | leaf v hv =>
    cases v with
    | array | structured => exact hv.elim
    | float f =>
      rw [equals, List.take_of_length_le f.buf_length.le]
      exact beq_self_eq_true _
    | _ => simp [equals, Asn1PrimitiveValue.compare]

theorem equals_trans {u v w : MmsValue} (h : u.equals v = true) (h' : v.equals w = true) :
    u.equals w = true := by
  induction u using tree_induction generalizing v w with
  | array us ih =>
    cases v with
    | array vs =>
      cases w with
      | array ws => exact equalComponents_trans (fun u hu v w => ih u hu) h h'
      | _ => simp [equals] at h'
    | _ => simp [equals] at h
  | structured us ih =>
    cases v with
    | structured vs =>
      cases w with
      | structured ws => exact equalComponents_trans (fun u hu v w => ih u hu) h h'
      | _ => simp [equals] at h'
    | _ => simp [equals] at h
  | leaf u hu =>
    cases u with
    | array | structured => exact hu.elim
    | float f =>
      cases v with
      | float g =>
        cases w with
        | float k => exact equals_float_trans h h'
        | _ => simp [equals] at h'
      | _ => simp [equals] at h
    | _ =>
      cases v <;> simp only [equals, Bool.false_eq_true] at h
      all_goals
        cases w <;> simp only [equals, Bool.false_eq_true] at h'
        simp_all [equals, Asn1PrimitiveValue.compare]

end MmsValue

end Iec61850
