import Iec61850.Transport.Cotp
import Mathlib.Tactic.Linarith

/-! The options of a connection request or confirm: which octets `parseOptions` takes for them, and
when these are the options that the peer has sent. -/

namespace Iec61850.Transport

open Machine

/-- An option on the wire; `length` is the length it states. -/
structure CotpOption where
  type : UInt8
  length : UInt8
  value : List UInt8

namespace CotpOption

def wire (o : CotpOption) : List UInt8 := o.type :: o.length :: o.value

/-- How long the value of an option of a known type is: TPDU size, selectors, additional options. -/
def valueLength (type : UInt8) : Option Nat :=
  if type = 0xc0 ∨ type = 0xc6 then some 1
  else if type = 0xc1 ∨ type = 0xc2 then some 2
  else none

/-- The option is as long as it states, and as long as its type demands if this is known. -/
structure Exact (o : CotpOption) : Prop where
  length : o.value.length = o.length.toNat
  known : ∀ n, valueLength o.type = some n → o.value.length = n

/-- An option of a known type as the parser takes it. For the TPDU size the stated length is not
looked at. -/
structure Taken (o : CotpOption) : Prop where
  known : valueLength o.type = some o.value.length
  length : o.type ≠ 0xc0 → o.length.toNat = o.value.length

end CotpOption

/-- A list of options on the wire. -/
def wireOf (options : List CotpOption) : List UInt8 := options.flatMap CotpOption.wire

namespace CotpConnection

/-- What an option does; options of unknown types do nothing. -/
def applyOption (wideShift : UInt8 → Int) (self : CotpConnection) (o : CotpOption) :
    CotpConnection :=
  match o.value with
  | [value] =>
    if o.type = 0xc0 then self.setTpduSize (requestedTpduSize wideShift value) else self
  | [high, low] =>
    if o.type = 0xc1 then { self with tsapIdSrc := Octets.value [high, low] }
    else if o.type = 0xc2 then { self with tsapIdDst := Octets.value [high, low] }
    else self
  | _ => self

/-- Parsing succeeds only if the announced octets are a list of options, which have been taken in
order and nothing else. -/
def OptionsRead (wideShift : UInt8 → Int) (optLen : Int) (self : CotpConnection) (s : Stream) :
    Prop :=
  ∀ self' rest, parseOptions wideShift optLen (s.length + 1) 0 self s = (true, self', rest) →
    ∃ options, (∀ o ∈ options, o.Exact) ∧ s = wireOf options ++ rest ∧
      (wireOf options).length = optLen.toNat ∧
      self' = options.foldl (applyOption wideShift) self

/-- No option of an unknown type is reached that has as many octets behind it as the list has, the
last option ends where the list ends, TPDU sizes state the length one, and no value is missing. -/
structure Regular (optLen : Nat) (s : Stream) : Prop where
  complete : ∀ options last rest, (∀ o ∈ options ++ [last], o.Taken) →
    s = wireOf (options ++ [last]) ++ rest → (wireOf options).length < optLen →
    optLen ≤ (wireOf (options ++ [last])).length →
    (wireOf (options ++ [last])).length = optLen ∧
      ∀ o ∈ options ++ [last], o.length.toNat = o.value.length
  unknown : ∀ options type length rest, (∀ o ∈ options, CotpOption.Taken o) →
    s = wireOf options ++ type :: length :: rest → (wireOf options).length < optLen →
    CotpOption.valueLength type = none → rest.length < optLen
  valueMissing : ∀ options, (∀ o ∈ options, CotpOption.Taken o) →
    s = wireOf options ++ [0xc6, 1] → (wireOf options).length + 3 < optLen ∨
      optLen ≤ (wireOf options).length

variable {wideShift : UInt8 → Int} {n r fuel : Nat} {self self' : CotpConnection} {s rest : Stream}
  {o : CotpOption} {options : List CotpOption}

theorem wireOf_append (options options' : List CotpOption) :
    wireOf (options ++ options') = wireOf options ++ wireOf options' := List.flatMap_append

theorem wireOf_cons (o : CotpOption) (options : List CotpOption) :
    wireOf (o :: options) = o.wire ++ wireOf options := rfl

/-- The options that are taken, by their octets. -/
theorem taken_cases (h : o.Taken) :
    (∃ length value, o = ⟨0xc0, length, [value]⟩) ∨
      (∃ high low, o = ⟨0xc1, 2, [high, low]⟩) ∨ (∃ high low, o = ⟨0xc2, 2, [high, low]⟩) ∨
      ∃ value, o = ⟨0xc6, 1, [value]⟩ := by
  obtain ⟨type, length, value⟩ := o
  obtain ⟨hknown, hlength⟩ := h
  dsimp only at hknown hlength
  unfold CotpOption.valueLength at hknown
  split at hknown
  case isTrue hone =>
    obtain ⟨v, rfl⟩ := List.length_eq_one_iff.mp (Option.some.inj hknown).symm
    rcases hone with rfl | rfl
    · exact .inl ⟨length, v, rfl⟩
    · obtain rfl : length = 1 := UInt8.toNat.inj (hlength (by decide))
      exact .inr (.inr (.inr ⟨v, rfl⟩))
  case isFalse =>
    split at hknown
    case isFalse => cases hknown
    case isTrue htwo =>
      obtain ⟨high, low, rfl⟩ := List.length_eq_two.mp (Option.some.inj hknown).symm
      rcases htwo with rfl | rfl
      · obtain rfl : length = 2 := UInt8.toNat.inj (hlength (by decide))
        exact .inr (.inl ⟨high, low, rfl⟩)
      · obtain rfl : length = 2 := UInt8.toNat.inj (hlength (by decide))
        exact .inr (.inr (.inl ⟨high, low, rfl⟩))

/-- An option that is taken is a step of the loop. -/
theorem parseOptions_taken (h : o.Taken) (hr : r < n) :
    parseOptions wideShift n (fuel + 1) r self (o.wire ++ s) =
      parseOptions wideShift n fuel (r + o.wire.length : Nat) (applyOption wideShift self o) s := by
  have hlt : (r : Int) < n := by exact_mod_cast hr
  rcases taken_cases h with ⟨length, value, rfl⟩ | ⟨high, low, rfl⟩ | ⟨high, low, rfl⟩ |
    ⟨value, rfl⟩
  · change parseOptions wideShift n (fuel + 1) r self (0xc0 :: length :: value :: s) = _
    rw [parseOptions, if_pos hlt]
    rfl
  · change parseOptions wideShift n (fuel + 1) r self (0xc1 :: 2 :: high :: low :: s) = _
    rw [parseOptions, if_pos hlt]
    rfl
  · change parseOptions wideShift n (fuel + 1) r self (0xc2 :: 2 :: high :: low :: s) = _
    rw [parseOptions, if_pos hlt]
    rfl
  · change parseOptions wideShift n (fuel + 1) r self (0xc6 :: 1 :: value :: s) = _
    rw [parseOptions, if_pos hlt]
    rfl

theorem parseOptions_done (hr : n ≤ r) :
    parseOptions wideShift n (fuel + 1) r self s = (true, self, s) := by
  have hge : ¬ (r : Int) < n := by exact_mod_cast Nat.not_lt.mpr hr
  unfold parseOptions
  rw [if_neg hge]

/-- An option of an unknown type ends the loop, with as many octets as the list has. -/
theorem parseOptions_unknown {type length : UInt8} (hr : r < n)
    (htype : CotpOption.valueLength type = none) (hs : n ≤ s.length) (hfuel : 0 < fuel) :
    parseOptions wideShift n (fuel + 1) r self (type :: length :: s) =
      (true, self, s.drop n) := by
  have hlt : (r : Int) < n := by exact_mod_cast hr
  obtain ⟨fuel, rfl⟩ := Nat.exists_eq_succ_of_ne_zero hfuel.ne'
  have hend : ¬ (r : Int) + 2 + n < n := by omega
  have hne : type ≠ 0xc0 ∧ type ≠ 0xc1 ∧ type ≠ 0xc2 ∧ type ≠ 0xc6 := by
    refine ⟨?_, ?_, ?_, ?_⟩
    all_goals
      rintro rfl
      exact absurd htype (by decide)
  have hn : ¬ s.length < (n : Int).toNat := by rw [Int.toNat_natCast]; exact Nat.not_lt.mpr hs
  unfold parseOptions
  rw [if_pos hlt]
  split
  case h_9 heq =>
    cases heq
    rw [if_neg hn]
    unfold parseOptions
    rw [if_neg hend, Int.toNat_natCast]
  all_goals simp_all

/-- How the loop ends when it succeeds: what it has taken from the `r`th octet of the list on, and
what is left. -/
inductive Ending (n r : Nat) (options : List CotpOption) : Stream → Stream → Prop
  | complete (rest : Stream) : (options = [] ∨ ∃ before last, options = before ++ [last] ∧
      r + (wireOf before).length < n) → n ≤ r + (wireOf options).length →
    Ending n r options (wireOf options ++ rest) rest
  | unknown (type length : UInt8) (tail rest : Stream) : CotpOption.valueLength type = none →
    r + (wireOf options).length < n → n ≤ tail.length →
    Ending n r options (wireOf options ++ type :: length :: tail) rest
  | valueMissing (rest : Stream) : r + (wireOf options).length < n →
    n ≤ r + (wireOf options).length + 3 → Ending n r options (wireOf options ++ [0xc6, 1]) rest

theorem Ending.cons (hr : r < n) (h : Ending n (r + o.wire.length) options s rest) :
    Ending n r (o :: options) (o.wire ++ s) rest := by
  have hlength : r + (wireOf (o :: options)).length =
      r + o.wire.length + (wireOf options).length := by
    rw [wireOf_cons, List.length_append, Nat.add_assoc]
  cases h with
  | complete rest hreached hle =>
    rw [← List.append_assoc, ← wireOf_cons]
    refine .complete rest (.inr ?_) (by rwa [hlength])
    rcases hreached with rfl | ⟨before, last, rfl, hlt⟩
    · exact ⟨[], o, rfl, hr⟩
    · refine ⟨o :: before, last, rfl, ?_⟩
      rwa [wireOf_cons, List.length_append, ← Nat.add_assoc]
  | unknown type length tail rest htype hlt hle =>
    rw [← List.append_assoc, ← wireOf_cons]
    exact .unknown type length tail rest htype (by rwa [hlength]) hle
  | valueMissing rest hlt hle =>
    rw [← List.append_assoc, ← wireOf_cons]
    exact .valueMissing rest (by rwa [hlength]) (by rwa [hlength])

/-- What has been parsed from a state on. -/
def Parsed (wideShift : UInt8 → Int) (n r : Nat) (self : CotpConnection) (s : Stream)
    (self' : CotpConnection) (rest : Stream) : Prop :=
  ∃ options, (∀ o ∈ options, o.Taken) ∧ self' = options.foldl (applyOption wideShift) self ∧
    Ending n r options s rest

theorem Parsed.cons (ho : o.Taken) (hr : r < n)
    (h : Parsed wideShift n (r + o.wire.length) (applyOption wideShift self o) s self' rest) :
    Parsed wideShift n r self (o.wire ++ s) self' rest := by
  obtain ⟨options, htaken, hself, hending⟩ := h
  refine ⟨o :: options, ?_, hself, hending.cons hr⟩
  intro o' ho'
  rcases List.mem_cons.mp ho' with rfl | ho'
  · exact ho
  · exact htaken o' ho'

/-- A turn of the loop. -/
theorem parseOptions_cases (hr : r < n)
    (h : parseOptions wideShift n (fuel + 1) r self s = (true, self', rest)) :
    (∃ o s', o.Taken ∧ s = o.wire ++ s' ∧
      parseOptions wideShift n fuel (r + o.wire.length : Nat) (applyOption wideShift self o) s' =
        (true, self', rest)) ∨
    (∃ type length tail, s = type :: length :: tail ∧ CotpOption.valueLength type = none ∧
      n ≤ tail.length ∧ self' = self) ∨
    s = [0xc6, 1] ∧ parseOptions wideShift n fuel (r + 3 : Nat) self [] = (true, self', rest) := by
  have hlt : (r : Int) < n := by exact_mod_cast hr
  unfold parseOptions at h
  rw [if_pos hlt] at h
  split at h
  case h_1 length value s' =>
    exact .inl ⟨⟨0xc0, length, [value]⟩, s', ⟨rfl, fun hne => absurd rfl hne⟩, rfl, h⟩
  case h_2 high low s' => exact .inl ⟨⟨0xc1, 2, [high, low]⟩, s', ⟨rfl, fun _ => rfl⟩, rfl, h⟩
  case h_3 high low s' => exact .inl ⟨⟨0xc2, 2, [high, low]⟩, s', ⟨rfl, fun _ => rfl⟩, rfl, h⟩
  case h_4 s' =>
    cases s' with
    | nil => exact .inr (.inr ⟨rfl, h⟩)
    | cons value s' => exact .inl ⟨⟨0xc6, 1, [value]⟩, s', ⟨rfl, fun _ => rfl⟩, rfl, h⟩
  case h_9 type length tail _ _ _ _ hc0 hc1 hc2 hc6 =>
    have htype : CotpOption.valueLength type = none := by
      rw [CotpOption.valueLength, if_neg, if_neg]
      · rintro (heq | heq)
        · exact hc1 heq
        · exact hc2 heq
      · rintro (heq | heq)
        · exact hc0 heq
        · exact hc6 heq
    split at h
    case isTrue => cases h
    case isFalse hn =>
      rw [Int.toNat_natCast] at hn
      refine .inr (.inl ⟨type, length, tail, rfl, htype, Nat.le_of_not_lt hn, ?_⟩)
      cases fuel with
      | zero => cases h
      | succ fuel =>
        have hend : ¬ (r : Int) + 2 + n < n := by omega
        unfold parseOptions at h
        rw [if_neg hend] at h
        cases h
        rfl
  all_goals cases h

/-- Nothing is left to be read. -/
theorem parseOptions_nil
    (h : parseOptions wideShift n fuel r self [] = (true, self', rest)) : n ≤ r ∧ self' = self := by
  cases fuel with
  | zero => cases h
  | succ fuel =>
    by_cases hr : r < n
    · have hlt : (r : Int) < n := by exact_mod_cast hr
      rw [parseOptions, if_pos hlt] at h
      cases h
      all_goals nofun
    · rw [parseOptions_done (Nat.le_of_not_lt hr)] at h
      cases h
      exact ⟨Nat.le_of_not_lt hr, rfl⟩

theorem parseOptions_parsed
    (h : parseOptions wideShift n fuel r self s = (true, self', rest)) :
    Parsed wideShift n r self s self' rest := by
  induction fuel generalizing r self s with
  | zero => cases h
  | succ fuel ih =>
    by_cases hr : r < n
    · rcases parseOptions_cases hr h with ⟨o, s', ho, rfl, hnext⟩ |
        ⟨type, length, tail, rfl, htype, hle, rfl⟩ | ⟨rfl, hnext⟩
      · exact .cons ho hr (ih hnext)
      · exact ⟨[], fun o ho => absurd ho List.not_mem_nil, rfl,
          .unknown type length tail rest htype hr hle⟩
      · obtain ⟨hle, rfl⟩ := parseOptions_nil hnext
        exact ⟨[], fun o ho => absurd ho List.not_mem_nil, rfl, .valueMissing rest hr hle⟩
    · rw [parseOptions_done (Nat.le_of_not_lt hr)] at h
      cases h
      exact ⟨[], fun o ho => absurd ho List.not_mem_nil, rfl,
        .complete rest (.inl rfl) (Nat.le_of_not_lt hr)⟩

/-- The options are taken one after the other as long as the list goes on. -/
theorem parseOptions_options (htaken : ∀ o ∈ options, o.Taken)
    (hreached : ∀ before last, options = before ++ [last] → r + (wireOf before).length < n)
    (fuel : Nat) :
    parseOptions wideShift n (options.length + fuel) r self (wireOf options ++ s) =
      parseOptions wideShift n fuel (r + (wireOf options).length : Nat)
        (options.foldl (applyOption wideShift) self) s := by
  induction options generalizing r self with
  | nil =>
    rw [List.length_nil, Nat.zero_add]
    rfl
  | cons o options ih =>
    have hr : r < n := by
      refine (Nat.le_add_right r _).trans_lt
        (hreached (o :: options).dropLast ((o :: options).getLast (List.cons_ne_nil _ _)) ?_)
      exact (List.dropLast_append_getLast _).symm
    rw [List.length_cons, Nat.add_right_comm, wireOf_cons, List.append_assoc,
      parseOptions_taken (htaken o List.mem_cons_self) hr, ih, List.length_append, Nat.add_assoc]
    · rfl
    · exact fun o' ho' => htaken o' (List.mem_cons_of_mem _ ho')
    · rintro before last rfl
      have hlt := hreached (o :: before) last rfl
      rwa [wireOf_cons, List.length_append, ← Nat.add_assoc] at hlt

/-- A list of options has one way only to be read. -/
theorem wireOf_align {options options' : List CotpOption} {a b : Stream}
    (htaken : ∀ o ∈ options, o.Taken) (hexact : ∀ o ∈ options', o.Exact)
    (h : wireOf options ++ a = wireOf options' ++ b)
    (hle : (wireOf options).length ≤ (wireOf options').length) :
    ∃ more, options' = options ++ more ∧ wireOf more ++ b = a := by
  induction options generalizing options' with
  | nil => exact ⟨options', rfl, h.symm⟩
  | cons o options ih =>
    cases options' with
    | nil =>
      rw [wireOf_cons, List.length_append] at hle
      exact absurd hle (by simp [wireOf, CotpOption.wire])
    | cons o' options' =>
      rw [wireOf_cons, wireOf_cons, List.append_assoc, List.append_assoc] at h
      obtain ⟨type, length, value⟩ := o
      obtain ⟨type', length', value'⟩ := o'
      obtain ⟨rfl, h⟩ := List.cons_eq_cons.mp h
      obtain ⟨rfl, h⟩ := List.cons_eq_cons.mp h
      have hknown := (htaken _ List.mem_cons_self).known
      have hvalues : value.length = value'.length :=
        ((hexact _ List.mem_cons_self).known _ hknown).symm
      obtain ⟨rfl, hrest⟩ := List.append_inj h hvalues
      obtain ⟨more, rfl, hmore⟩ := ih (fun o ho => htaken o (List.mem_cons_of_mem _ ho))
        (fun o ho => hexact o (List.mem_cons_of_mem _ ho)) hrest (by
          rw [wireOf_cons, wireOf_cons, List.length_append, List.length_append] at hle
          exact Nat.le_of_add_le_add_left hle)
      exact ⟨more, rfl, hmore⟩

theorem length_le_wireOf (options : List CotpOption) :
    options.length ≤ (wireOf options).length := by
  induction options with
  | nil => exact le_rfl
  | cons o options ih =>
    rw [wireOf_cons, List.length_append, List.length_cons, CotpOption.wire, List.length_cons]
    omega

theorem exact_of_taken (ho : o.Taken) (hlength : o.length.toNat = o.value.length) : o.Exact where
  length := hlength.symm
  known := fun _ hn => Option.some.inj (ho.known.symm.trans hn)

/-- The loop after options that do not fill the list. -/
theorem parseOptions_start (htaken : ∀ o ∈ options, o.Taken)
    (hreached : ∀ before last, options = before ++ [last] → (wireOf before).length < n) :
    ∃ fuel, parseOptions wideShift n ((wireOf options ++ s).length + 1) 0 self
        (wireOf options ++ s) =
      parseOptions wideShift n (s.length + fuel + 1) ((wireOf options).length : Nat)
        (options.foldl (applyOption wideShift) self) s := by
  have hle := length_le_wireOf options
  refine ⟨(wireOf options).length - options.length, ?_⟩
  have hfuel : (wireOf options ++ s).length + 1 =
      options.length + (s.length + ((wireOf options).length - options.length) + 1) := by
    rw [List.length_append]
    omega
  have hrun (fuel : Nat) : parseOptions wideShift n (options.length + fuel) (0 : Nat) self
      (wireOf options ++ s) =
      parseOptions wideShift n fuel (0 + (wireOf options).length : Nat)
        (options.foldl (applyOption wideShift) self) s :=
    parseOptions_options htaken (by simpa using hreached) fuel
  specialize hrun (s.length + ((wireOf options).length - options.length) + 1)
  rw [Nat.zero_add] at hrun
  rw [hfuel]
  exact hrun

theorem reached_of_lt (h : (wireOf options).length < n) :
    ∀ before last, options = before ++ [last] → (wireOf before).length < n := by
  rintro before last rfl
  rw [wireOf_append, List.length_append] at h
  omega

/-- Only whether something is announced matters. -/
theorem parseOptions_toNat (optLen : Int) (fuel : Nat) :
    parseOptions wideShift optLen (fuel + 1) 0 self s =
      parseOptions wideShift (optLen.toNat : Nat) (fuel + 1) 0 self s := by
  by_cases h : 0 ≤ optLen
  · rw [Int.toNat_of_nonneg h]
  · have hzero : optLen.toNat = 0 := Int.toNat_of_nonpos (le_of_not_ge h)
    have hneg : ¬ (0 : Int) < optLen := not_lt.mpr (le_of_not_ge h)
    rw [hzero]
    unfold parseOptions
    rw [if_neg hneg, if_neg (by decide)]

/-- `OptionsRead` for a number of octets. -/
def Reads (wideShift : UInt8 → Int) (n : Nat) (self : CotpConnection) (s : Stream) : Prop :=
  ∀ self' rest, parseOptions wideShift n (s.length + 1) (0 : Nat) self s = (true, self', rest) →
    ∃ options, (∀ o ∈ options, o.Exact) ∧ s = wireOf options ++ rest ∧
      (wireOf options).length = n ∧ self' = options.foldl (applyOption wideShift) self

theorem optionsRead_iff_reads (optLen : Int) :
    OptionsRead wideShift optLen self s ↔ Reads wideShift optLen.toNat self s := by
  rw [OptionsRead, Reads]
  simp only [parseOptions_toNat optLen]
  rfl

theorem Regular.reads (h : Regular n s) : Reads wideShift n self s := by
  intro self' rest hparse
  obtain ⟨options, htaken, hself, hending⟩ := parseOptions_parsed hparse
  cases hending with
  | complete rest hreached hle =>
    rw [Nat.zero_add] at hle
    rcases hreached with rfl | ⟨before, last, rfl, hlt⟩
    · refine ⟨[], fun o ho => absurd ho List.not_mem_nil, rfl, ?_, hself⟩
      exact (Nat.le_zero.mp hle).symm
    · rw [Nat.zero_add] at hlt
      obtain ⟨htotal, hlengths⟩ := h.complete before last rest htaken rfl hlt hle
      exact ⟨before ++ [last], fun o ho => exact_of_taken (htaken o ho) (hlengths o ho), rfl,
        htotal, hself⟩
  | unknown type length tail rest htype hlt hle =>
    rw [Nat.zero_add] at hlt
    exact absurd hle (Nat.not_le.mpr (h.unknown options type length tail htaken rfl hlt htype))
  | valueMissing rest hlt hle =>
    rw [Nat.zero_add] at hlt hle
    rcases h.valueMissing options htaken rfl with hshort | hlong
    · exact absurd hle (Nat.not_le.mpr hshort)
    · exact absurd hlt (Nat.not_lt.mpr hlong)

/-- A list that the parser has taken to its end has been read as what it is. -/
theorem Reads.complete {last : CotpOption} (h : Reads wideShift n self s)
    (htaken : ∀ o ∈ options ++ [last], o.Taken) (hs : s = wireOf (options ++ [last]) ++ rest)
    (hlt : (wireOf options).length < n) (hle : n ≤ (wireOf (options ++ [last])).length) :
    (wireOf (options ++ [last])).length = n ∧
      ∀ o ∈ options ++ [last], o.length.toNat = o.value.length := by
  have hreached : ∀ before last', options ++ [last] = before ++ [last'] →
      (wireOf before).length < n := by
    intro before last' heq
    obtain ⟨rfl, -⟩ := List.append_inj' heq rfl
    exact hlt
  obtain ⟨fuel, hrun⟩ := parseOptions_start (s := rest) htaken hreached
  rw [parseOptions_done hle, ← hs] at hrun
  obtain ⟨options', hexact, hs', hn, -⟩ := h _ _ hrun
  have hwire : wireOf (options ++ [last]) = wireOf options' :=
    List.append_cancel_right (hs.symm.trans hs')
  obtain ⟨more, rfl, -⟩ := wireOf_align (a := []) (b := []) htaken hexact (by rw [hwire])
    (by rw [hwire])
  rw [hwire]
  refine ⟨hn, fun o ho => ?_⟩
  exact (hexact o (List.mem_append_left _ ho)).length.symm

/-- Behind an option of an unknown type too much is read. -/
theorem Reads.unknown {type length : UInt8} (h : Reads wideShift n self s)
    (htaken : ∀ o ∈ options, o.Taken) (hs : s = wireOf options ++ type :: length :: rest)
    (hlt : (wireOf options).length < n) (htype : CotpOption.valueLength type = none) :
    rest.length < n := by
  by_contra hnot
  obtain ⟨fuel, hrun⟩ := parseOptions_start (s := type :: length :: rest) htaken
    (reached_of_lt hlt)
  have hfuel : 0 < (type :: length :: rest).length + fuel := by
    rw [List.length_cons]
    omega
  rw [parseOptions_unknown hlt htype (Nat.le_of_not_lt hnot) hfuel, ← hs] at hrun
  obtain ⟨options', -, hs', hn, -⟩ := h _ _ hrun
  have hlength := congrArg List.length (hs.symm.trans hs')
  simp only [List.length_append, List.length_cons, List.length_drop, hn] at hlength
  omega

/-- The value that is missing is not missed. -/
theorem Reads.valueMissing (h : Reads wideShift n self s) (htaken : ∀ o ∈ options, o.Taken)
    (hs : s = wireOf options ++ [0xc6, 1]) :
    (wireOf options).length + 3 < n ∨ n ≤ (wireOf options).length := by
  by_contra hnot
  obtain ⟨hle, hlt⟩ := not_or.mp hnot
  obtain ⟨fuel, hrun⟩ := parseOptions_start (s := [0xc6, 1]) htaken
    (reached_of_lt (Nat.lt_of_not_le hlt))
  have hlast : parseOptions wideShift n (([0xc6, 1] : Stream).length + fuel + 1)
      ((wireOf options).length : Nat) (options.foldl (applyOption wideShift) self) [0xc6, 1] =
      (true, options.foldl (applyOption wideShift) self, []) := by
    have hint : ((wireOf options).length : Int) < n := by exact_mod_cast Nat.lt_of_not_le hlt
    have hturns : ([0xc6, 1] : Stream).length + fuel + 1 = fuel + 1 + 1 + 1 := by
      rw [List.length_cons, List.length_singleton]
      omega
    rw [hturns, parseOptions, if_pos hint]
    exact parseOptions_done (r := (wireOf options).length + 3) (Nat.le_of_not_lt hle)
  rw [hlast, ← hs] at hrun
  obtain ⟨options', hexact, hs', hn, -⟩ := h _ _ hrun
  obtain ⟨more, rfl, hmore⟩ := wireOf_align htaken hexact (hs.symm.trans hs')
    (by rw [hn]; exact (Nat.lt_of_not_le hlt).le)
  cases more with
  | nil => cases hmore
  | cons o more =>
    rw [List.append_nil, wireOf_cons, CotpOption.wire] at hmore
    obtain ⟨htype, hmore⟩ := List.cons_eq_cons.mp hmore
    obtain ⟨-, hvalue⟩ := List.cons_eq_cons.mp hmore
    have hempty : o.value = [] := (List.append_eq_nil_iff.mp hvalue).1
    have hone := (hexact o (List.mem_append_right _ List.mem_cons_self)).known 1 (by
      rw [htype]
      rfl)
    rw [hempty] at hone
    cases hone

/-- What is read is the list that was announced exactly for the regular lists. -/
theorem optionsRead_iff (wideShift : UInt8 → Int) (optLen : Int) (self : CotpConnection)
    (s : Stream) : OptionsRead wideShift optLen self s ↔ Regular optLen.toNat s := by
  rw [optionsRead_iff_reads]
  constructor
  · intro h
    exact
      { complete := fun options last rest htaken hs hlt hle => h.complete htaken hs hlt hle
        unknown := fun options type length rest htaken hs hlt htype =>
          h.unknown htaken hs hlt htype
        valueMissing := fun options htaken hs => h.valueMissing htaken hs }
  · intro h
    exact h.reads

/-- A selector behind an option of an unknown type: the parser goes on in the next message. -/
theorem not_optionsRead_unknownOption :
    ¬ OptionsRead (fun _ => 0) 7 (init ⟨[], 0, le_rfl⟩)
      [0xc7, 1, 0, 0xc2, 2, 0, 1, 0x03, 0x00, 0x00, 0x16] := by
  intro h
  obtain ⟨options, -, hs, hlength, -⟩ := h (init ⟨[], 0, le_rfl⟩) [0x00, 0x16] rfl
  have htotal := congrArg List.length hs
  rw [List.length_append, hlength] at htotal
  revert htotal
  decide

end CotpConnection

end Iec61850.Transport
