import Iec61850.Lib.Memory
import Iec61850.Model.IedModel
import Mathlib.Data.List.TakeWhile

/-! References to objects, and the variables of MMS that they stand for (`mms_mapping.c`). -/

namespace Iec61850

open Machine

/-- What stands from the first such character on. -/
def strchr (s : List UInt8) (c : UInt8) : Option (List UInt8) :=
  match s.dropWhile (· ≠ c) with
  | [] => none
  | found => some found

namespace StringUtils

def replace (oldChar newChar : UInt8) (string : List UInt8) : List UInt8 :=
  string.map fun c => if c = oldChar then newChar else c

def isDigit (character : UInt8) : Bool := 47 < character && character < 58

/-- The digits are added to the value of those in front of them. -/
def digitsToInt : List UInt8 → Int → Int
  | [], value => value
  | digit :: digits, value =>
    if isDigit digit then digitsToInt digits (i32 (i32 (value * 10) + (digit.toNat - 48))) else -1

end StringUtils

/-- `FunctionalConstraint_fromString` -/
def FunctionalConstraint.fromString : UInt8 → UInt8 → FunctionalConstraint
  | 83, 84 => .st
  | 83, 80 => .sp
  | 83, 86 => .sv
  | 83, 71 => .sg
  | 83, 69 => .se
  | 83, 82 => .sr
  | 77, 88 => .mx
  | 67, 70 => .cf
  | 67, 79 => .co
  | 68, 67 => .dc
  | 79, 82 => .or
  | 66, 76 => .bl
  | 69, 88 => .ex
  | _, _ => .none

/-- `arrayIndex` is `-1` where there is no index. -/
structure MmsVariableAccessSpecification where
  domainId : List UInt8
  itemId : Option (List UInt8)
  arrayIndex : Int
  componentName : Option (List UInt8)

namespace MmsMapping

open StringUtils

/-- What stands in front of a slash is left out. The name is read on behind its end if it has no
dot. -/
def createMmsVariableNameFromObjectReference (objectReference : List UInt8)
    (fc : FunctionalConstraint) : Exec (Option (List UInt8)) :=
  let name := ((strchr objectReference 47).map List.tail).getD objectReference
  match fc.toString with
  | none => .ok none
  | some fcString =>
    match strchr name 46 with
    | none => .error .outOfBounds
    | some path =>
      .ok (some (name.takeWhile (· ≠ 46) ++ 36 :: (fcString ++ 36 :: replace 46 36 path.tail)))

/-- The functional constraint stands between the first brackets. -/
def constraintOf (objectReference : List UInt8) : Option FunctionalConstraint := do
  let fcStart ← strchr objectReference 91
  let fcEnd ← strchr fcStart 93
  if fcStart.length - fcEnd.length = 3 then
    return .fromString (fcStart.getD 1 0) (fcStart.getD 2 0)
  else none

/-- The index, and the component behind it, in front of the last four characters. -/
def arrayAccessOf (indexBrace : List UInt8) : Exec (Int × Option (List UInt8)) :=
  let indexStart := indexBrace.tail
  match strchr indexStart 41 with
  | none => .error .nullPointer
  | some indexEnd =>
    let index := digitsToInt (indexStart.take (indexStart.length - indexEnd.length)) 0
    let componentNameLen : Int := indexEnd.length - 6
    .ok (index, if 0 < componentNameLen then
      some (replace 46 36 ((indexEnd.drop 2).take componentNameLen.toNat)) else none)

/-- There is none for a reference without a domain or a functional constraint. -/
def objectReferenceToVariableAccessSpec (objectReference : List UInt8) :
    Exec (Option MmsVariableAccessSpecification) :=
  match strchr objectReference 47, constraintOf objectReference with
  | some domainIdEnd, some fc => do
    let domainId := objectReference.takeWhile (· ≠ 47)
    let indexBrace := strchr domainIdEnd 40
    match indexBrace.or (strchr domainIdEnd 91) with
    | none => return some ⟨domainId, none, -1, none⟩
    | some itemIdEnd =>
      let itemIdStr := domainIdEnd.tail.take (domainIdEnd.length - itemIdEnd.length - 1)
      if 128 < itemIdStr.length then .error .outOfBounds
      else
        let itemId ← createMmsVariableNameFromObjectReference itemIdStr fc
        let (arrayIndex, componentName) ← (indexBrace.map arrayAccessOf).getD (.ok (-1, none))
        return some ⟨domainId, itemId, arrayIndex, componentName⟩
  | _, _ => .ok none

/-- The functional constraint is what stands behind the first dollar sign. -/
def varAccessSpecToObjectReference (varAccessSpec : MmsVariableAccessSpecification) :
    Exec (List UInt8) :=
  match varAccessSpec.itemId with
  | none => .error .nullPointer
  | some itemId =>
    match strchr itemId 36 with
    | none => .error .nullPointer
    | some separator =>
      let lnName := itemId.takeWhile (· ≠ 36)
      let path := replace 36 46 (separator.drop 4)
      let index := if -1 < varAccessSpec.arrayIndex then
        40 :: (ascii (toString varAccessSpec.arrayIndex) ++ [41]) else []
      let component := (varAccessSpec.componentName.map fun name =>
        46 :: replace 36 46 name).getD []
      let reference := varAccessSpec.domainId ++ 47 :: (lnName ++ 46 :: (path ++ index ++ component))
      match separator.tail with
      | [] => .error .outOfBounds
      | [c] => .ok (reference ++ [91, c])
      | c :: d :: _ => .ok (reference ++ [91, c, d, 93])

end MmsMapping

section Strings

variable {s t as bs : List UInt8} {c : UInt8}

theorem decide_ne_of_notMem (h : c ∉ as) : ∀ a ∈ as, decide (a ≠ c) = true := by
  intro a ha
  refine decide_eq_true ?_
  rintro rfl
  exact h ha

theorem takeWhile_append_cons (h : c ∉ as) (bs : List UInt8) :
    (as ++ c :: bs).takeWhile (· ≠ c) = as := by
  rw [List.takeWhile_append_of_pos (decide_ne_of_notMem h), List.takeWhile_cons_of_neg (by simp),
    List.append_nil]

theorem strchr_append (h : c ∉ as) (bs : List UInt8) : strchr (as ++ c :: bs) c = some (c :: bs) := by
  rw [strchr, List.dropWhile_append_of_pos (decide_ne_of_notMem h),
    List.dropWhile_cons_of_neg (by simp)]

theorem strchr_eq_none (h : c ∉ s) : strchr s c = none := by
  rw [strchr, List.dropWhile_eq_nil_iff.mpr (decide_ne_of_notMem h)]

/-- The string is cut in front of the first such character. -/
theorem of_strchr (h : strchr s c = some t) :
    ∃ as bs, s = as ++ c :: bs ∧ c ∉ as ∧ t = c :: bs := by
  by_cases hmem : c ∈ s
  · obtain ⟨as, bs, rfl, hnot⟩ := List.eq_append_cons_of_mem hmem
    rw [strchr_append hnot] at h
    exact ⟨as, bs, rfl, hnot, (Option.some.inj h).symm⟩
  · rw [strchr_eq_none hmem] at h
    cases h

/-- A string is cut at the first such character in one way. -/
theorem append_cons_inj {as' bs' : List UInt8} (h : c ∉ as) (h' : c ∉ as')
    (heq : as ++ c :: bs = as' ++ c :: bs') : as = as' ∧ bs = bs' := by
  have has := congrArg (List.takeWhile (· ≠ c)) heq
  rw [takeWhile_append_cons h, takeWhile_append_cons h'] at has
  refine ⟨has, ?_⟩
  rw [has] at heq
  exact (List.cons.inj (List.append_cancel_left heq)).2

theorem length_le_of_notMem {as' bs' : List UInt8} (h : c ∉ as)
    (heq : as ++ c :: bs = as' ++ c :: bs') : as.length ≤ as'.length := by
  rcases List.append_eq_append_iff.mp heq with ⟨cs, rfl, -⟩ | ⟨cs, rfl, hcs⟩
  · exact (List.prefix_append _ _).length_le
  · cases cs with
    | nil => rw [List.append_nil]
    | cons d cs =>
      obtain ⟨rfl, -⟩ := List.cons.inj hcs
      exact absurd (List.mem_append_right _ List.mem_cons_self) h

namespace StringUtils

variable {oldChar newChar : UInt8}

@[simp] theorem length_replace (oldChar newChar : UInt8) (s : List UInt8) :
    (replace oldChar newChar s).length = s.length := List.length_map _

theorem mem_of_mem_replace (h : c ∈ replace oldChar newChar s) : c = newChar ∨ c ∈ s := by
  obtain ⟨d, hd, hc⟩ := List.mem_map.mp h
  split at hc
  · exact Or.inl hc.symm
  · exact Or.inr (hc ▸ hd)

theorem notMem_replace (h : newChar ≠ oldChar) (s : List UInt8) :
    oldChar ∉ replace oldChar newChar s := by
  intro hmem
  obtain ⟨d, -, hd⟩ := List.mem_map.mp hmem
  split at hd
  · exact h hd
  · contradiction

/-- Where the new character did not stand before it is replaced by the old one. -/
theorem replace_replace (h : newChar ∉ s) :
    replace newChar oldChar (replace oldChar newChar s) = s := by
  rw [replace, replace, List.map_map]
  refine (List.map_congr_left fun d hd => ?_).trans (List.map_id s)
  have hne : d ≠ newChar := fun hdn => h (hdn ▸ hd)
  by_cases hold : d = oldChar
  · simp [hold]
  · simp [hold, hne]

end StringUtils

end Strings

namespace FunctionalConstraint

variable {fc : FunctionalConstraint} {fcString : List UInt8}

/-- A name is two letters, that are read as the constraint. -/
theorem letters_of_toString (h : fc.toString = some fcString) : ∃ c d, fcString = [c, d] ∧
    fromString c d = fc ∧ ∀ x ∈ fcString, 65 ≤ x.toNat ∧ x.toNat ≤ 90 := by
  cases fc <;> cases h <;> exact ⟨_, _, rfl, rfl, by decide +kernel⟩

end FunctionalConstraint

namespace MmsMapping

open StringUtils

variable {objectReference itemIdStr itemId domainId : List UInt8} {fc : FunctionalConstraint}

/-- A reference to data: a domain, an item with a dot, and a constraint in brackets. -/
def IsPlain (objectReference : List UInt8) : Prop :=
  ∃ domainId item fc fcString, FunctionalConstraint.toString fc = some fcString ∧
    objectReference = domainId ++ 47 :: (item ++ 91 :: (fcString ++ [93])) ∧
    constraintOf objectReference = some fc ∧ 47 ∉ domainId ∧ (∀ c ∈ [47, 40, 91, 36], c ∉ item) ∧
    46 ∈ item ∧ item.length ≤ 128

/-- The name behind the slashes is cut at its first dot, and the constraint comes between. -/
theorem createMmsVariableName_ok
    (h : createMmsVariableNameFromObjectReference itemIdStr fc = .ok (some itemId)) :
    ∃ first lnName path fcString, itemIdStr = first ++ (lnName ++ 46 :: path) ∧
      (47 ∈ itemIdStr → first ≠ []) ∧ 46 ∉ lnName ∧ fc.toString = some fcString ∧
      itemId = lnName ++ 36 :: (fcString ++ 36 :: replace 46 36 path) := by
  rw [createMmsVariableNameFromObjectReference] at h
  have hname : ∃ first, itemIdStr = first ++ ((strchr itemIdStr 47).map List.tail).getD itemIdStr ∧
      (47 ∈ itemIdStr → first ≠ []) := by
    by_cases hmem : 47 ∈ itemIdStr
    · obtain ⟨as, bs, rfl, hnot⟩ := List.eq_append_cons_of_mem hmem
      rw [strchr_append hnot]
      refine ⟨as ++ [47], ?_, fun _ => List.append_ne_nil_of_right_ne_nil _ (List.cons_ne_nil _ _)⟩
      rw [List.append_assoc]
      rfl
    · rw [strchr_eq_none hmem]
      exact ⟨[], rfl, fun h => absurd h hmem⟩
  obtain ⟨first, hfirst, hne⟩ := hname
  generalize ((strchr itemIdStr 47).map List.tail).getD itemIdStr = name at h hfirst
  cases hfc : fc.toString with
  | none =>
    rw [hfc] at h
    cases h
  | some fcString =>
    rw [hfc] at h
    dsimp only at h
    cases hdot : strchr name 46 with
    | none =>
      rw [hdot] at h
      cases h
    | some t =>
      obtain ⟨lnName, path, rfl, hnot, rfl⟩ := of_strchr hdot
      rw [hdot, takeWhile_append_cons hnot] at h
      refine ⟨first, lnName, path, fcString, hfirst, hne, hnot, rfl, ?_⟩
      exact (Option.some.inj (Except.ok.inj h)).symm

/-- An item becomes a reference by its first dollar sign. -/
theorem reference_of_itemId
    (h : varAccessSpecToObjectReference ⟨domainId, some itemId, -1, none⟩ = .ok objectReference) :
    ∃ lnName rest fcEnd, itemId = lnName ++ 36 :: rest ∧ 36 ∉ lnName ∧
      objectReference =
        domainId ++ 47 :: (lnName ++ 46 :: (replace 36 46 (rest.drop 3) ++ 91 :: fcEnd)) ∧
      (2 ≤ rest.length → ∃ c d, rest.take 2 = [c, d] ∧ fcEnd = [c, d, 93]) := by
  rw [varAccessSpecToObjectReference] at h
  dsimp only at h
  cases hseparator : strchr itemId 36 with
  | none =>
    rw [hseparator] at h
    cases h
  | some separator =>
    obtain ⟨lnName, rest, rfl, hnot, rfl⟩ := of_strchr hseparator
    rw [hseparator, takeWhile_append_cons hnot] at h
    refine ⟨lnName, rest, ?_⟩
    match rest with
    | [] => cases h
    | [c] =>
      refine ⟨[c], rfl, hnot, ?_, fun hlen => absurd hlen (by simp)⟩
      rw [← Except.ok.inj h]
      simp
    | c :: d :: rest =>
      refine ⟨[c, d, 93], rfl, hnot, ?_, fun _ => ⟨c, d, rfl, rfl⟩⟩
      rw [← Except.ok.inj h]
      simp

/-- What is made of a reference with a domain, an item and a constraint. -/
theorem accessSpec_ok {varAccessSpec : MmsVariableAccessSpecification}
    (h : objectReferenceToVariableAccessSpec objectReference = .ok (some varAccessSpec))
    (hitem : varAccessSpec.itemId = some itemId) :
    ∃ item tail fc, objectReference = varAccessSpec.domainId ++ 47 :: (item ++ tail) ∧
      47 ∉ varAccessSpec.domainId ∧ constraintOf objectReference = some fc ∧
      item.length ≤ 128 ∧ createMmsVariableNameFromObjectReference item fc = .ok (some itemId) ∧
      ((∃ bs, tail = 40 :: bs ∧ 40 ∉ item) ∨ ∃ bs, tail = 91 :: bs ∧ 91 ∉ item ∧ 40 ∉ item) := by
  rw [objectReferenceToVariableAccessSpec] at h
  cases hdomain : strchr objectReference 47 with
  | none =>
    rw [hdomain] at h
    cases h
  | some domainIdEnd =>
    cases hfc : constraintOf objectReference with
    | none =>
      rw [hdomain, hfc] at h
      cases h
    | some fc =>
      rw [hdomain, hfc] at h
      dsimp only at h
      obtain ⟨domainId, rest, rfl, hnot, rfl⟩ := of_strchr hdomain
      rw [takeWhile_append_cons hnot] at h
      have hcut : ∀ {c : UInt8} {item bs : List UInt8}, 47 :: rest = item ++ c :: bs →
          c ≠ 47 → ∃ first, item = 47 :: first ∧ rest = first ++ c :: bs ∧
            (47 :: rest).tail.take ((47 :: rest).length - (c :: bs).length - 1) = first := by
        intro c item bs heq hc
        obtain ⟨rfl, hbs⟩ | ⟨first, rfl, rfl⟩ := List.cons_eq_append_iff.mp heq
        · exact absurd (List.cons.inj hbs).1 hc
        · refine ⟨first, rfl, rfl, ?_⟩
          have hlen : (47 :: (first ++ c :: bs)).length - (c :: bs).length - 1 = first.length := by
            simp only [List.length_cons, List.length_append]
            omega
          rw [hlen, List.tail_cons, List.take_left]
      cases hindex : strchr (47 :: rest) 40 with
      | some itemIdEnd =>
        obtain ⟨item, bs, heq, hnotItem, rfl⟩ := of_strchr hindex
        obtain ⟨first, rfl, rfl, htake⟩ := hcut heq (by decide)
        rw [hindex, Option.some_or] at h
        dsimp only at h
        rw [htake] at h
        split at h
        · cases h
        · rename_i hlen
          obtain ⟨itemId', hname, h⟩ := bind_ok h
          obtain ⟨⟨arrayIndex, componentName⟩, -, h⟩ := bind_ok h
          cases h
          obtain rfl : itemId' = some itemId := hitem
          exact ⟨first, 40 :: bs, fc, rfl, hnot, rfl, Nat.le_of_not_lt hlen, hname,
            Or.inl ⟨bs, rfl, fun hmem => hnotItem (List.mem_cons_of_mem _ hmem)⟩⟩
      | none =>
        cases hend : strchr (47 :: rest) 91 with
        | none =>
          rw [hindex, hend] at h
          cases h
          cases hitem
        | some itemIdEnd =>
          obtain ⟨item, bs, heq, hnotItem, rfl⟩ := of_strchr hend
          obtain ⟨first, rfl, rfl, htake⟩ := hcut heq (by decide)
          have hnoIndex : 40 ∉ first := by
            intro hmem
            obtain ⟨as, cs, has, hnotAs⟩ := List.eq_append_cons_of_mem
              (List.mem_cons_of_mem 47 (List.mem_append_left (91 :: bs) hmem))
            rw [has, strchr_append hnotAs] at hindex
            cases hindex
          rw [hindex, hend, Option.none_or] at h
          dsimp only at h
          rw [htake] at h
          split at h
          · cases h
          · rename_i hlen
            obtain ⟨itemId', hname, h⟩ := bind_ok h
            cases h
            obtain rfl : itemId' = some itemId := hitem
            exact ⟨first, 91 :: bs, fc, rfl, hnot, rfl, Nat.le_of_not_lt hlen, hname,
              Or.inr ⟨bs, rfl, fun hmem => hnotItem (List.mem_cons_of_mem _ hmem), hnoIndex⟩⟩

/-- The name has the characters of the reference, letters and dollar signs. -/
theorem notMem_of_createMmsVariableName {x : UInt8}
    (h : createMmsVariableNameFromObjectReference itemIdStr fc = .ok (some itemId))
    (hx : x ∈ [(0 : UInt8), 40, 91]) (hnot : x ∉ itemIdStr) : x ∉ itemId := by
  obtain ⟨first, lnName, path, fcString, rfl, -, -, hfcString, rfl⟩ := createMmsVariableName_ok h
  obtain ⟨c, d, -, -, hletters⟩ := FunctionalConstraint.letters_of_toString hfcString
  have hne : x ≠ 36 ∧ x ∉ fcString := by
    refine ⟨?_, fun hmem => ?_⟩
    · rintro rfl
      revert hx
      decide
    · have hletter := hletters x hmem
      simp only [List.mem_cons, List.not_mem_nil, or_false] at hx
      rcases hx with rfl | rfl | rfl <;> revert hletter <;> decide
  simp only [List.mem_append, List.mem_cons, not_or] at hnot ⊢
  refine ⟨hnot.2.1, hne.1, hne.2, hne.1, fun hmem => ?_⟩
  rcases mem_of_mem_replace hmem with hmem | hmem
  · exact hne.1 hmem
  · exact hnot.2.2.2 hmem

/-- What comes back as it was is a reference to data. -/
theorem isPlain_of_roundTrip {varAccessSpec : MmsVariableAccessSpecification}
    (h : objectReferenceToVariableAccessSpec objectReference = .ok (some varAccessSpec))
    (hitem : varAccessSpec.itemId = some itemId)
    (hback : varAccessSpecToObjectReference ⟨varAccessSpec.domainId, some itemId, -1, none⟩ =
      .ok objectReference) : IsPlain objectReference := by
  obtain ⟨item, tail, fc, hreference, hdomain, hfc, hlen, hname, htail⟩ := accessSpec_ok h hitem
  have hnotItemId := fun {x : UInt8} => notMem_of_createMmsVariableName (x := x) hname
  obtain ⟨first, lnName, path, fcString, hitemStr, hfirst, hdot, hfcString, hitemId⟩ :=
    createMmsVariableName_ok hname
  obtain ⟨lnName', rest, fcEnd, hitemId', hdollar, hreference', hrest⟩ := reference_of_itemId hback
  obtain ⟨c, d, hcd, -, -⟩ := FunctionalConstraint.letters_of_toString hfcString
  have hlength := congrArg List.length (hitemId'.symm.trans hitemId)
  simp only [List.length_append, List.length_cons, hcd, List.length_nil, length_replace] at hlength
  have hrestLength : 3 ≤ rest.length := by
    have hle := length_le_of_notMem hdollar (hitemId'.symm.trans hitemId)
    omega
  obtain ⟨c', d', hcd', rfl⟩ := hrest (Nat.le_of_succ_le hrestLength)
  have hrestSplit : rest = [c', d'] ++ rest.drop 2 := by
    rw [← hcd', List.take_append_drop]
  have hmemShown : ∀ x ∈ lnName' ++ 46 :: replace 36 46 (rest.drop 3), x = 46 ∨ x ∈ itemId := by
    intro x hmem
    rw [hitemId']
    simp only [List.mem_append, List.mem_cons] at hmem ⊢
    rcases hmem with hmem | hmem | hmem
    · exact Or.inr (Or.inl hmem)
    · exact Or.inl hmem
    · rcases mem_of_mem_replace hmem with hmem | hmem
      · exact Or.inl hmem
      · exact Or.inr (Or.inr (Or.inr (List.mem_of_mem_drop hmem)))
  have hmemPair : ∀ x ∈ [c', d'], x ∈ itemId := by
    intro x hx
    rw [hitemId', hrestSplit]
    exact List.mem_append_right _ (List.mem_cons_of_mem _ (List.mem_append_left _ hx))
  have hshown : item ++ tail =
      (lnName' ++ 46 :: replace 36 46 (rest.drop 3)) ++ 91 :: [c', d', 93] := by
    rw [hreference] at hreference'
    rw [List.append_assoc, List.cons_append]
    exact (List.cons.inj (List.append_cancel_left hreference')).2
  rcases htail with ⟨bs, rfl, hnot⟩ | ⟨bs, rfl, hbracket, hindex⟩
  · -- what is behind an index does not come back
    have hmem : (40 : UInt8) ∈ item ++ 40 :: bs := List.mem_append_right _ List.mem_cons_self
    have hno := hnotItemId (by decide) hnot
    rw [hshown] at hmem
    exfalso
    rcases List.mem_append.mp hmem with hmem | hmem
    · exact (hmemShown 40 hmem).elim (by decide) hno
    · simp only [List.mem_cons, List.not_mem_nil, or_false] at hmem
      rcases hmem with hmem | hmem | hmem | hmem
      · exact absurd hmem (by decide)
      · exact hno (hmemPair 40 (hmem ▸ List.mem_cons_self))
      · exact hno (hmemPair 40 (hmem ▸ List.mem_cons_of_mem _ List.mem_cons_self))
      · exact absurd hmem (by decide)
  · have hbracket' : (91 : UInt8) ∉ lnName' ++ 46 :: replace 36 46 (rest.drop 3) := fun hmem =>
      (hmemShown 91 hmem).elim (by decide) (hnotItemId (by decide) hbracket)
    obtain ⟨hitemShown, rfl⟩ := append_cons_inj hbracket hbracket' hshown
    have hdollarItem : 36 ∉ item := by
      rw [hitemShown, List.mem_append, List.mem_cons, not_or, not_or]
      exact ⟨hdollar, by decide, notMem_replace (by decide) _⟩
    have hfirstNil : first = [] := by
      have hitemLength := congrArg List.length hitemShown
      rw [hitemStr] at hitemLength
      simp only [List.length_append, List.length_cons, length_replace, List.length_drop]
        at hitemLength
      exact List.eq_nil_of_length_eq_zero (by omega)
    rw [hfirstNil, List.nil_append] at hitemStr
    have hdollarName : 36 ∉ lnName := fun hmem =>
      hdollarItem (hitemStr ▸ List.mem_append_left _ hmem)
    obtain ⟨-, hrestEq⟩ := append_cons_inj hdollar hdollarName (hitemId'.symm.trans hitemId)
    have hpair : [c', d'] = fcString := by
      rw [← hcd', hrestEq, hcd]
      rfl
    refine ⟨varAccessSpec.domainId, item, fc, fcString, hfcString, ?_, hfc, hdomain, ?_, ?_, hlen⟩
    · rw [← hpair]
      exact hreference
    · intro x hx
      simp only [List.mem_cons, List.not_mem_nil, or_false] at hx
      rcases hx with rfl | rfl | rfl | rfl
      · exact fun hmem => hfirst hmem hfirstNil
      · exact hindex
      · exact hbracket
      · exact hdollarItem
    · rw [hitemStr]
      exact List.mem_append_right _ List.mem_cons_self

/-- A reference to data comes back as it was. -/
theorem IsPlain.roundTrip (h : IsPlain objectReference) : ∃ domainId itemId,
    objectReferenceToVariableAccessSpec objectReference =
      .ok (some ⟨domainId, some itemId, -1, none⟩) ∧
    domainId = objectReference.takeWhile (· ≠ 47) ∧
    objectReference.length = domainId.length + itemId.length + 2 ∧
    (∀ x ∈ itemId, x = 36 ∨ x ∈ objectReference) ∧
    varAccessSpecToObjectReference ⟨domainId, some itemId, -1, none⟩ = .ok objectReference := by
  obtain ⟨domainId, item, fc, fcString, hfcString, hreference, hfc, hdomain, hitem, hdot, hlen⟩ := h
  obtain ⟨lnName, path, rfl, hlnName⟩ := List.eq_append_cons_of_mem hdot
  obtain ⟨c, d, rfl, -, -⟩ := FunctionalConstraint.letters_of_toString hfcString
  have hslash := hitem 47 (by decide)
  have hindex := hitem 40 (by decide)
  have hbracket := hitem 91 (by decide)
  have hdollar := hitem 36 (by decide)
  rw [List.mem_append, List.mem_cons, not_or, not_or] at hdollar
  have hname : createMmsVariableNameFromObjectReference (lnName ++ 46 :: path) fc =
      .ok (some (lnName ++ 36 :: ([c, d] ++ 36 :: replace 46 36 path))) := by
    rw [createMmsVariableNameFromObjectReference, strchr_eq_none hslash, hfcString]
    dsimp only [Option.map_none, Option.getD_none]
    rw [strchr_append hlnName, takeWhile_append_cons hlnName]
    rfl
  have hnoIndex : (40 : UInt8) ∉ 47 :: ((lnName ++ 46 :: path) ++ 91 :: ([c, d] ++ [93])) := by
    obtain ⟨-, -, -, -, hletters⟩ := FunctionalConstraint.letters_of_toString hfcString
    have hne : ∀ x ∈ [c, d], (40 : UInt8) ≠ x := by
      intro x hx
      have hletter := hletters x hx
      rintro rfl
      revert hletter
      decide
    intro hmem
    rcases List.mem_cons.mp hmem with hmem | hmem
    · exact absurd hmem (by decide)
    rcases List.mem_append.mp hmem with hmem | hmem
    · exact hindex hmem
    rcases List.mem_cons.mp hmem with hmem | hmem
    · exact absurd hmem (by decide)
    rcases List.mem_append.mp hmem with hmem | hmem
    · exact hne 40 hmem rfl
    · exact absurd hmem (by decide)
  have hend : strchr (47 :: ((lnName ++ 46 :: path) ++ 91 :: ([c, d] ++ [93]))) 91 =
      some (91 :: ([c, d] ++ [93])) := by
    have hnot : (91 : UInt8) ∉ 47 :: (lnName ++ 46 :: path) := by
      rw [List.mem_cons, not_or]
      exact ⟨by decide, hbracket⟩
    exact strchr_append hnot _
  refine ⟨domainId, lnName ++ 36 :: ([c, d] ++ 36 :: replace 46 36 path), ?_, ?_, ?_, ?_, ?_⟩
  · have hitemStr : (47 :: ((lnName ++ 46 :: path) ++ 91 :: ([c, d] ++ [93]))).tail.take
        ((47 :: ((lnName ++ 46 :: path) ++ 91 :: ([c, d] ++ [93]))).length -
          (91 :: ([c, d] ++ [93])).length - 1) = lnName ++ 46 :: path := by
      rw [List.length_cons, List.length_append, Nat.add_right_comm, Nat.add_sub_cancel,
        Nat.add_sub_cancel, List.tail_cons, List.take_left]
    rw [objectReferenceToVariableAccessSpec, hfc, hreference, strchr_append hdomain,
      takeWhile_append_cons hdomain]
    dsimp only
    rw [strchr_eq_none hnoIndex, hend, Option.none_or]
    dsimp only
    rw [hitemStr, if_neg (Nat.not_lt_of_le hlen), hname]
    rfl
  · rw [hreference, takeWhile_append_cons hdomain]
  · rw [hreference]
    simp only [List.length_append, List.length_cons, length_replace, List.length_nil]
    omega
  · intro x hx
    rw [hreference]
    simp only [List.mem_append, List.mem_cons] at hx ⊢
    rcases hx with hx | hx | (hx | hx | hx) | hx | hx
    · simp [hx]
    · exact Or.inl hx
    · simp [hx]
    · simp [hx]
    · exact absurd hx List.not_mem_nil
    · exact Or.inl hx
    · rcases mem_of_mem_replace hx with hx | hx
      · exact Or.inl hx
      · simp [hx]
  · rw [varAccessSpecToObjectReference]
    dsimp only
    rw [strchr_append hdollar.1, takeWhile_append_cons hdollar.1, hreference]
    simp [replace_replace hdollar.2.2]

end MmsMapping

end Iec61850
