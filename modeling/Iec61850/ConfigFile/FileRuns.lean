import Iec61850.ConfigFile.ParserSteps

/-! The lines of a configuration file one after the other: when the file is read without a fault, and
when everything that was made is let go. -/

namespace Iec61850.ConfigFile

open Machine SiblingLists

namespace Parser

/-- What a line comes to: the list of an object is left, a model is made, or it is a statement. -/
inductive LineComes (lib : CLibrary) (s : Parser) (owner : Nat → Option Slot)
    (line : List UInt8) : Exec Outcome → Verdict → Prop
  | closed : s.stateInModel = true → startsWith line (ascii "\x7d") = true →
    LineComes lib s owner line (.ok (.next s.leave)) .goesOn
  | model {s' : Parser} (name : List UInt8) : s.stateInModel = false →
    startsWith line (ascii "MODEL\x7b") = true ∨ startsWith line (ascii "MODEL(") = true →
    s' = { s with stateInModel := true, indendation := 1, model := some s.heap.count,
                  heap := s.heap.make (.iedModel name), nameString := s'.nameString } →
    LineComes lib s owner line (.ok (.next s')) .goesOn
  | statement {type : ObjectType} {x : Exec Outcome} : s.stateInModel = true →
    startsWith line (ascii "\x7d") = false → typeOfLine line = some type →
    type.onLevel s.indendation = true →
    s.Comes lib owner line type x (Verdict.statement lib s line type) →
    LineComes lib s owner line x (Verdict.statement lib s line type)
  | refused : s.stateInModel = true ∧ startsWith line (ascii "\x7d") = false ∧
      (∀ type, typeOfLine line = some type → type.onLevel s.indendation = false) ∨
      s.stateInModel = false ∧ ¬ (startsWith line (ascii "MODEL\x7b") = true ∨
        startsWith line (ascii "MODEL(") = true) →
    LineComes lib s owner line (.ok (.exitError s)) .refused
  | faulty {e : Fault} : LineComes lib s owner line (.error e) .faulty

/-- Over the line something is lost: an object that is made is not linked, or it takes the place of
another one. -/
def LosesOf (lib : CLibrary) (s : Parser) (line : List UInt8) : Prop :=
  if s.stateInModel then
    startsWith line (ascii "\x7d") = false ∧ ∃ type, typeOfLine line = some type ∧
      type.onLevel s.indendation = true ∧
      (type = .dataAttribute ∨ Verdict.statement lib s line type = .goesOn) ∧
      s.heap.Loses (s.holder type) type
  else
    (startsWith line (ascii "MODEL\x7b") = true ∨ startsWith line (ascii "MODEL(") = true) ∧
      s.model ≠ none

def Loses (lib : CLibrary) (s : Parser) (line : List UInt8) : Prop :=
  (s.store line).LosesOf lib (cString line)

/-- The model is lost, or an object is. -/
def Lost (s : Parser) (owner : Nat → Option Slot) : Prop := s.heap.Lost owner s.model

section

variable {lib : CLibrary} {s s' t : Parser} {owner owner' : Nat → Option Slot}
  {line : List UInt8} {type : ObjectType} {v : Verdict} {o : Object} {h' : Heap} {n : Nat}

theorem closeBrace_comes (hinv : s.Inv owner) (hin : s.stateInModel = true)
    (hclose : startsWith line (ascii "\x7d") = true) : s.LineComes lib owner line s.closeBrace
      (if 4 < s.indendation then .pointer s.currentModelNode .goesOn else .goesOn) := by
  have hclosed : s.LineComes lib owner line (.ok (.next s.leave)) .goesOn := .closed hin hclose
  rw [leave] at hclosed
  rw [closeBrace]
  by_cases h1 : s.indendation = 1
  · rw [if_pos h1] at hclosed ⊢
    rw [if_neg (by omega)]
    exact hclosed
  · rw [if_neg h1] at hclosed ⊢
    by_cases h4 : s.indendation ≤ 4
    · rw [if_pos h4] at hclosed ⊢
      rw [if_neg (Nat.not_lt_of_le h4)]
      exact hclosed
    · rw [if_neg h4] at hclosed ⊢
      rw [if_pos (Nat.lt_of_not_le h4), Verdict.pointer]
      cases hnode : s.currentModelNode with
      | none => exact .faulty
      | some n =>
        obtain ⟨type, htype⟩ := hinv.node n hnode
        obtain ⟨o, ho, -, hobject⟩ := Heap.exists_object htype
        rw [hnode, Option.bind_some, Heap.parentOf_eq ho] at hclosed
        rw [if_neg (Option.some_ne_none n)]
        simp only [Heap.deref, ok_bind, hobject]
        exact hclosed

theorem parseModel_comes (hin : s.stateInModel = false) :
    s.LineComes lib owner line (s.parseModel lib line)
      (if startsWith line (ascii "MODEL\x7b") then .goesOn
      else if startsWith line (ascii "MODEL(") then
        .scanned lib .iedModel line (.named s (sscanf lib .iedModel line) .goesOn)
      else .refused) := by
  rw [parseModel]
  split
  · next hbrace => exact .model [] hin (Or.inl hbrace) rfl
  · next hbrace =>
    split
    · next hname =>
      rw [Verdict.scanned]
      split
      · next hfits =>
        rw [scanStatement_ok hfits, ok_bind, Verdict.named, name]
        cases (nameOf (sscanf lib .iedModel line)).or s.nameString with
        | none => exact .faulty
        | some name => exact .model (terminateString name 41) hin (Or.inr hname) rfl
      · next hfits =>
        rw [scanStatement_error hfits]
        exact .faulty
    · next hname => exact .refused (Or.inr ⟨hin, not_or.mpr ⟨hbrace, hname⟩⟩)

theorem parseLine_comes (hinv : s.Inv owner) (hline : 0 ∉ line)
    (hbuffer : ∃ rest, s.lineBuffer = line ++ 0 :: rest) :
    s.LineComes lib owner line (s.parseLine lib line) (s.verdictOf lib line) := by
  rw [verdictOf]
  cases hin : s.stateInModel with
  | false =>
    rw [parseLine, hin, if_neg Bool.false_ne_true, if_neg Bool.false_ne_true]
    exact parseModel_comes hin
  | true =>
    rw [if_pos rfl]
    cases hclose : startsWith line (ascii "\x7d") with
    | true =>
      rw [parseLine, if_pos hin, if_pos hclose, if_pos rfl]
      exact closeBrace_comes hinv hin hclose
    | false =>
      rw [if_neg Bool.false_ne_true, parseLine_eq hin hclose (hinv.inModel hin).2]
      cases htype : typeOfLine line with
      | none => exact .refused (Or.inl ⟨hin, hclose, by rw [htype]; exact fun _ h => by cases h⟩)
      | some type =>
        simp only
        cases hlevel : type.onLevel s.indendation with
        | true =>
          rw [if_pos rfl, if_pos rfl]
          exact .statement hin hclose htype hlevel
            (comes_parseStatement hinv hin hlevel hline hbuffer)
        | false =>
          rw [if_neg Bool.false_ne_true, if_neg Bool.false_ne_true]
          refine .refused (Or.inl ⟨hin, hclose, fun type' htype' => ?_⟩)
          cases htype.symm.trans htype'
          exact hlevel

/-! ## The invariant over a line -/

theorem Inv.leave (hinv : s.Inv owner) (hin : s.stateInModel = true) : s.leave.Inv owner := by
  obtain ⟨hmodel, hone⟩ := hinv.inModel hin
  rw [Parser.leave]
  by_cases h1 : s.indendation = 1
  · rw [if_pos h1]
    exact { hinv with
      inModel := fun h => by cases h
      outside := fun _ => rfl
      logicalDevice := fun h => by cases h
      logicalNode := fun h => by cases h }
  · rw [if_neg h1]
    have hle : 1 ≤ s.indendation - 1 := Nat.le_sub_one_of_lt (Nat.lt_of_le_of_ne hone (Ne.symm h1))
    split
    · exact { hinv with
        inModel := fun _ => ⟨hmodel, hle⟩
        outside := fun h => absurd (hin.symm.trans h) (by decide)
        logicalDevice := fun h => hinv.logicalDevice (h.trans (Nat.sub_le _ _))
        logicalNode := fun h => hinv.logicalNode (h.trans (Nat.sub_le _ _)) }
    · refine { hinv with
        inModel := fun _ => ⟨hmodel, hle⟩
        outside := fun h => absurd (hin.symm.trans h) (by decide)
        logicalDevice := fun h => hinv.logicalDevice (h.trans (Nat.sub_le _ _))
        logicalNode := fun h => hinv.logicalNode (h.trans (Nat.sub_le _ _))
        node := fun n hn => ?_ }
      obtain ⟨k, hk, hparent⟩ := Option.bind_eq_some_iff.mp hn
      obtain ⟨o, ho, hparent⟩ := Option.bind_eq_some_iff.mp hparent
      exact (hinv.heap.hasParent k o ho).exists_type n hparent

/-- All the references are still what they were when objects are made. -/
theorem Inv.grow (hinv : s.Inv owner) (hmodel : s.model ≠ none) (he : h'.Extends s.heap o)
    (hheap : h'.Inv owner') : Inv { s with heap := h' } owner' where
  heap := hheap
  inModel := hinv.inModel
  outside := hinv.outside
  model m hm := he.typeOf (hinv.model m hm)
  logicalDevice hle := he.refers (hinv.logicalDevice hle)
  logicalNode hle := he.refers (hinv.logicalNode hle)
  node n hn := (hinv.node n hn).imp fun _ htype => he.typeOf htype
  dataSet n hn := he.typeOf (hinv.dataSet n hn)
  gseControlBlock n hn := he.typeOf (hinv.gseControlBlock n hn)
  empty hnone := absurd hnone hmodel

theorem Inv.enter (hinv : s.Inv owner) (hin : s.stateInModel = true)
    (hlevel : type.onLevel s.indendation = true) (htype : s.heap.typeOf n = some type) :
    (s.enter n type).Inv owner := by
  have hmodel := (hinv.inModel hin).1
  have hout : ∀ {p : Prop}, s.stateInModel = false → p :=
    fun h => absurd (hin.symm.trans h) (by decide)
  cases type with
  | iedModel => cases hlevel
  | logicalDevice =>
    have hone : s.indendation = 1 := of_decide_eq_true hlevel
    exact { hinv with
      inModel := fun _ => ⟨hmodel, Nat.le_add_left _ _⟩
      outside := hout
      logicalDevice := fun _ => ⟨n, rfl, htype⟩
      logicalNode := fun h => absurd (show 3 ≤ s.indendation + 1 from h) (by rw [hone]; decide) }
  | logicalNode =>
    have htwo : s.indendation = 2 := of_decide_eq_true hlevel
    exact { hinv with
      inModel := fun _ => ⟨hmodel, Nat.le_add_left _ _⟩
      outside := hout
      logicalDevice := fun _ => hinv.logicalDevice htwo.ge
      logicalNode := fun _ => ⟨n, rfl, htype⟩ }
  | dataObject =>
    have hthree : 3 ≤ s.indendation := of_decide_eq_true hlevel
    exact { hinv with
      inModel := fun _ => ⟨hmodel, Nat.le_add_left _ _⟩
      outside := hout
      logicalDevice := fun _ => hinv.logicalDevice (Nat.le_of_succ_le hthree)
      logicalNode := fun _ => hinv.logicalNode hthree
      node := fun k hk => ⟨_, Option.some.inj hk ▸ htype⟩ }
  | dataAttribute =>
    have hthree : 3 ≤ s.indendation := Nat.le_of_lt (of_decide_eq_true hlevel)
    exact { hinv with
      inModel := fun _ => ⟨hmodel, Nat.le_add_left _ _⟩
      outside := hout
      logicalDevice := fun _ => hinv.logicalDevice (Nat.le_of_succ_le hthree)
      logicalNode := fun _ => hinv.logicalNode hthree
      node := fun k hk => ⟨_, Option.some.inj hk ▸ htype⟩ }
  | dataSet =>
    have hthree : 3 ≤ s.indendation := (of_decide_eq_true hlevel : s.indendation = 3).ge
    exact { hinv with
      inModel := fun _ => ⟨hmodel, Nat.le_add_left _ _⟩
      outside := hout
      logicalDevice := fun _ => hinv.logicalDevice (Nat.le_of_succ_le hthree)
      logicalNode := fun _ => hinv.logicalNode hthree
      dataSet := fun k hk => Option.some.inj hk ▸ htype }
  | gseControlBlock =>
    have hthree : 3 ≤ s.indendation := (of_decide_eq_true hlevel : s.indendation = 3).ge
    exact { hinv with
      inModel := fun _ => ⟨hmodel, Nat.le_add_left _ _⟩
      outside := hout
      logicalDevice := fun _ => hinv.logicalDevice (Nat.le_of_succ_le hthree)
      logicalNode := fun _ => hinv.logicalNode hthree
      gseControlBlock := fun k hk => Option.some.inj hk ▸ htype }
  | dataSetEntry | reportControlBlock | phyComAddress => exact hinv

theorem Same.inv (hsame : t.Same s') (hinv : Inv { t with heap := s'.heap } owner) :
    s'.Inv owner := by
  rw [hsame]
  exact { hinv with }

theorem Inv.made (hinv : s.Inv owner) (hin : s.stateInModel = true)
    (hlevel : type.onLevel s.indendation = true)
    (hmade : s.heap.Made owner type (s.holder type) s'.heap owner')
    (hsame : (if entersList lib line type then s.enter s.heap.count type else s).Same s') :
    s'.Inv owner' := by
  obtain ⟨o, he, htype, -⟩ := hmade.object
  have hgrow := hinv.grow (hinv.inModel hin).1 he hmade.heap
  refine hsame.inv ?_
  split
  · have henter := hgrow.enter hin hlevel (htype ▸ he.typeOf_new)
    cases type <;> exact henter
  · exact hgrow

theorem Inv.start (hinv : s.Inv owner) {name : List UInt8}
    {nameString : Option (List UInt8)} :
    Inv { s with stateInModel := true, indendation := 1, model := some s.heap.count,
                 heap := s.heap.make (.iedModel name), nameString } owner := by
  have he := Heap.extends_make s.heap (.iedModel name)
  have hparent : s.heap.HasParent (.iedModel name) :=
    ⟨ObjectType.noConfusion, ObjectType.noConfusion, fun p hp => by cases hp⟩
  exact {
    heap := hinv.heap.make hparent
    inModel := fun _ => ⟨Option.some_ne_none _, le_rfl⟩
    outside := fun h => by cases h
    model := fun m hm => Option.some.inj hm ▸ he.typeOf_new
    logicalDevice := fun h => absurd (show 2 ≤ 1 from h) (by decide)
    logicalNode := fun h => absurd (show 3 ≤ 1 from h) (by decide)
    node := fun n hn => (hinv.node n hn).imp fun _ htype => he.typeOf htype
    dataSet := fun n hn => he.typeOf (hinv.dataSet n hn)
    gseControlBlock := fun n hn => he.typeOf (hinv.gseControlBlock n hn)
    empty := fun h => absurd h (Option.some_ne_none _) }

/-! ## Objects that are lost over a line -/

theorem lost_iff_of_made (hinv : s.Inv owner) (hin : s.stateInModel = true)
    (hmade : s.heap.Made owner type (s.holder type) h' owner') :
    h'.Lost owner' s.model ↔ s.Lost owner ∨ s.heap.Loses (s.holder type) type := by
  obtain ⟨o, he, -⟩ := hmade.object
  obtain ⟨m, hm⟩ := Option.ne_none_iff_exists'.mp (hinv.inModel hin).1
  rcases hmade.owner with ⟨hloses, p, m', -, -, rfl⟩ | ⟨hloses, hlost⟩
  · rw [or_iff_left hloses]
    exact he.lost_iff_of_created
  · rw [hm]
    exact iff_of_true (hlost m (hinv.model m hm)) (Or.inr hloses)

theorem lost_iff_of_model (hinv : s.Inv owner) {name : List UInt8} :
    (s.heap.make (.iedModel name)).Lost owner (some s.heap.count) ↔
      s.Lost owner ∨ s.model ≠ none := by
  have he := Heap.extends_make s.heap (.iedModel name)
  constructor
  · rintro ⟨n, hn, hne, howner⟩
    cases hmodel : s.model with
    | none =>
      rw [he.count, hinv.empty hmodel] at hn
      rw [hinv.empty hmodel] at hne
      exact absurd (congrArg some (Nat.lt_one_iff.mp hn).symm) hne
    | some m => exact Or.inr (Option.some_ne_none m)
  · have hlost : ∀ n < s.heap.count, owner n = none →
        (s.heap.make (.iedModel name)).Lost owner (some s.heap.count) := fun n hn howner =>
      ⟨n, he.count ▸ hn.trans (Nat.lt_succ_self _), fun h => hn.ne (Option.some.inj h).symm, howner⟩
    rintro (⟨n, hn, -, howner⟩ | hmodel)
    · exact hlost n hn howner
    · obtain ⟨m, hm⟩ := Option.ne_none_iff_exists'.mp hmodel
      have htype := hinv.model m hm
      exact hlost m (Heap.lt_of_typeOf htype) (hinv.heap.owner_iedModel htype)

theorem losesOf_statement (hin : s.stateInModel = true)
    (hclose : startsWith line (ascii "\x7d") = false) (htype : typeOfLine line = some type)
    (hlevel : type.onLevel s.indendation = true) : s.LosesOf lib line ↔
      (type = .dataAttribute ∨ Verdict.statement lib s line type = .goesOn) ∧
        s.heap.Loses (s.holder type) type := by
  rw [LosesOf, if_pos hin]
  constructor
  · rintro ⟨-, type', htype', -, h⟩
    cases htype.symm.trans htype'
    exact h
  · exact fun h => ⟨hclose, type, htype, hlevel, h⟩

theorem Comes.next (h : s.Comes lib owner line type (.ok (.next s')) v) : v = .goesOn ∧
    ∃ owner', s.heap.Made owner type (s.holder type) s'.heap owner' ∧
      (if entersList lib line type then s.enter s.heap.count type else s).Same s' := by
  cases h with
  | goesOn hmade hsame => exact ⟨rfl, _, hmade, hsame⟩

theorem Comes.exitError (h : s.Comes lib owner line type (.ok (.exitError s')) v) :
    v = .refused ∧ s'.model = s.model ∧
      (type ≠ .dataAttribute ∧ s'.heap = s.heap ∨ type = .dataAttribute ∧
        ∃ owner', s.heap.Made owner type (s.holder type) s'.heap owner') := by
  cases h with
  | refused htype hheap hmodel => exact ⟨rfl, hmodel, Or.inl ⟨htype, hheap⟩⟩
  | refusedValue htype hmade hmodel => exact ⟨rfl, hmodel, Or.inr ⟨htype, _, hmade⟩⟩

theorem Comes.error {e : Fault} (h : s.Comes lib owner line type (.error e) v) : v = .faulty := by
  cases h
  rfl

theorem LineComes.error {e : Fault} (h : s.LineComes lib owner line (.error e) v) :
    v = .faulty := by
  cases h with
  | statement hin hclose htype hlevel hcomes => exact hcomes.error
  | faulty => rfl

theorem enter_model : (s.enter n type).model = s.model := by cases type <;> rfl

theorem leave_model : s.leave.model = s.model := by
  rw [leave]
  split
  · rfl
  · split <;> rfl

theorem leave_heap : s.leave.heap = s.heap := by
  rw [leave]
  split
  · rfl
  · split <;> rfl

/-- A line that is taken keeps the invariant, and something is lost if it was, or over the line. -/
theorem LineComes.next (hinv : s.Inv owner)
    (h : s.LineComes lib owner line (.ok (.next s')) v) :
    v = .goesOn ∧ ∃ owner', s'.Inv owner' ∧
      (s'.Lost owner' ↔ s.Lost owner ∨ s.LosesOf lib line) := by
  cases h with
  | closed hin hclose =>
    refine ⟨rfl, owner, hinv.leave hin, ?_⟩
    have hloses : ¬ s.LosesOf lib line := by
      rw [LosesOf, if_pos hin, hclose]
      exact fun h => absurd h.1 (by decide)
    rw [Lost, leave_heap, leave_model, or_iff_left hloses]
    rfl
  | model name hin hmodel heq =>
    refine ⟨rfl, owner, ?_, ?_⟩
    · rw [heq]
      exact hinv.start
    · have hloses : s.LosesOf lib line ↔ s.model ≠ none := by
        rw [LosesOf, hin, if_neg Bool.false_ne_true, and_iff_right hmodel]
      rw [Lost, heq, hloses]
      exact lost_iff_of_model hinv
  | statement hin hclose htype hlevel hcomes =>
    obtain ⟨hv, owner', hmade, hsame⟩ := hcomes.next
    refine ⟨hv, owner', hinv.made hin hlevel hmade hsame, ?_⟩
    have hmodel : s'.model = s.model := by
      rw [hsame]
      split
      · exact enter_model
      · rfl
    rw [Lost, hmodel, lost_iff_of_made hinv hin hmade,
      losesOf_statement hin hclose htype hlevel, and_iff_right (Or.inr hv)]

/-- What is made over a line that is refused is let go as what was there. -/
theorem LineComes.exitError (hinv : s.Inv owner)
    (h : s.LineComes lib owner line (.ok (.exitError s')) v) :
    v = .refused ∧ s'.model = s.model ∧ ∃ owner', s'.heap.Inv owner' ∧
      (∀ m, s.model = some m → s'.heap.typeOf m = some .iedModel) ∧
      (s'.heap.Lost owner' s.model ↔ s.Lost owner ∨ s.LosesOf lib line) := by
  cases h with
  | statement hin hclose htype hlevel hcomes =>
    obtain ⟨hv, hmodel, ⟨htype', hheap⟩ | ⟨rfl, owner', hmade⟩⟩ := hcomes.exitError
    · refine ⟨hv, hmodel, owner, hheap ▸ hinv.heap, hheap ▸ hinv.model, ?_⟩
      have hloses : ¬ s.LosesOf lib line := by
        rw [losesOf_statement hin hclose htype hlevel, hv]
        rintro ⟨h | h, -⟩
        · exact htype' h
        · cases h
      rw [hheap, or_iff_left hloses]
      rfl
    · obtain ⟨o, he, -⟩ := hmade.object
      refine ⟨hv, hmodel, owner', hmade.heap, fun m hm => he.typeOf (hinv.model m hm), ?_⟩
      rw [lost_iff_of_made hinv hin hmade, losesOf_statement hin hclose htype hlevel,
        and_iff_right (Or.inl rfl)]
  | refused hrefused =>
    refine ⟨rfl, rfl, owner, hinv.heap, hinv.model, ?_⟩
    have hloses : ¬ s.LosesOf lib line := by
      rw [LosesOf]
      rcases hrefused with ⟨hin, -, hlevel⟩ | ⟨hin, hmodel⟩
      · rw [if_pos hin]
        rintro ⟨-, type, htype, h, -⟩
        exact absurd ((hlevel type htype).symm.trans h) (by decide)
      · rw [hin, if_neg Bool.false_ne_true]
        exact fun h => hmodel h.1
    rw [or_iff_left hloses]
    rfl

/-! ## A line that is read -/

theorem zero_not_mem_cString (line : List UInt8) : 0 ∉ cString line := by
  intro hmem
  have h := List.all_eq_true.mp List.all_takeWhile 0 hmem
  simp at h

theorem exists_append_cString (line behind : List UInt8) :
    ∃ rest, line ++ 0 :: behind = cString line ++ 0 :: rest := by
  induction line with
  | nil => exact ⟨behind, rfl⟩
  | cons b line ih =>
    by_cases hb : b = 0
    · subst hb
      exact ⟨line ++ 0 :: behind, rfl⟩
    · obtain ⟨rest, hrest⟩ := ih
      refine ⟨rest, ?_⟩
      have hcons : cString (b :: line) = b :: cString line :=
        List.takeWhile_cons_of_pos (by simpa using hb)
      rw [hcons, List.cons_append, hrest]
      rfl

theorem Inv.store (hinv : s.Inv owner) : (s.store line).Inv owner := { hinv with }

theorem parseLine_store_comes (lib : CLibrary) (line : List UInt8) (hinv : s.Inv owner) :
    (s.store line).LineComes lib owner (cString line)
      ((s.store line).parseLine lib (cString line)) ((s.store line).verdictOf lib (cString line)) :=
  parseLine_comes hinv.store (zero_not_mem_cString line) (exists_append_cString line _)

/-- What is done with a line is what the verdict says. -/
inductive StepComes (lib : CLibrary) (s : Parser) (owner : Nat → Option Slot)
    (line : List UInt8) : Exec Progress → Verdict → Prop
  | goesOn {s' : Parser} {owner' : Nat → Option Slot} : s'.Inv owner' →
    (s'.Lost owner' ↔ s.Lost owner ∨ s.Loses lib line) →
    StepComes lib s owner line (.ok (.next s')) .goesOn
  | refused {freed : List Nat} {made : Nat} :
    (freed.Perm (List.range made) ↔ ¬ (s.Lost owner ∨ s.Loses lib line)) →
    StepComes lib s owner line (.ok (.done (.null freed made))) .refused
  | faulty {e : Fault} : StepComes lib s owner line (.error e) .faulty

theorem step_comes (lib : CLibrary) (line : List UInt8) (hinv : s.Inv owner) :
    s.StepComes lib owner line (s.step lib line) (s.verdict lib line) := by
  have hcomes := parseLine_store_comes lib line hinv
  rw [step, verdict, terminateLine]
  by_cases hlength : READ_BUFFER_MAX_SIZE ≤ line.length
  · rw [if_neg (Nat.not_lt_of_le hlength), if_pos hlength]
    exact .faulty
  · rw [if_pos (Nat.lt_of_not_le hlength), if_neg hlength]
    simp only [ok_bind]
    generalize hv : (s.store line).verdictOf lib (cString line) = v at hcomes
    generalize (s.store line).parseLine lib (cString line) = x at hcomes
    cases x with
    | error e =>
      rw [hcomes.error]
      exact .faulty
    | ok outcome =>
      cases outcome with
      | next s' =>
        obtain ⟨rfl, owner', hinv', hlost⟩ := hcomes.next hinv.store
        exact .goesOn hinv' hlost
      | exitError s' =>
        obtain ⟨rfl, hmodel, owner', hheap, htype, hlost⟩ := hcomes.exitError hinv.store
        have hmodel' : s'.model = s.model := hmodel
        simp only [ok_bind, hmodel']
        cases hm : s.model with
        | none => exact .faulty
        | some m =>
          obtain ⟨freed, hfreed, hperm⟩ := hheap.freed_iff (htype m hm)
          rw [if_neg (Option.some_ne_none m), hfreed]
          have hlost' : s'.heap.Lost owner' (some m) ↔ s.Lost owner ∨ s.Loses lib line := hm ▸ hlost
          exact .refused (hperm.trans (not_congr hlost'))

theorem Inv.step (hinv : s.Inv owner) (hstep : s.step lib line = .ok (.next s')) :
    ∃ owner', s'.Inv owner' := by
  have hcomes := step_comes lib line hinv
  rw [hstep] at hcomes
  generalize s.verdict lib line = v at hcomes
  cases hcomes with
  | goesOn hinv' => exact ⟨_, hinv'⟩

end

/-! ## The lines of a file -/

def readLines (lib : CLibrary) : Parser → List (List UInt8) → Exec Result
  | s, [] => .ok s.result
  | s, line :: lines => do
    match ← s.step lib line with
    | .next s => readLines lib s lines
    | .done result => return result

/-- A line is reached in a state when the lines before are all taken. -/
inductive Reaches (lib : CLibrary) : Parser → List (List UInt8) → Parser → List UInt8 → Prop
  | here {s : Parser} {line : List UInt8} {lines : List (List UInt8)} :
    Reaches lib s (line :: lines) s line
  | next {s s' t : Parser} {line line' : List UInt8} {lines : List (List UInt8)} :
    s.step lib line = .ok (.next s') → Reaches lib s' lines t line' →
    Reaches lib s (line :: lines) t line'

end Parser

/-- When there is no model, everything that was made is let go once. -/
def Result.LetsGo : Result → Prop
  | .model _ _ => True
  | .null freed made => freed.Perm (List.range made)

namespace Parser

section

variable {lib : CLibrary} {s s' t : Parser} {owner : Nat → Option Slot}
  {line line' : List UInt8} {lines : List (List UInt8)}

theorem reaches_nil : ¬ s.Reaches lib [] t line := by
  intro h
  cases h

theorem reaches_of_next (hstep : s.step lib line = .ok (.next s')) :
    s.Reaches lib (line :: lines) t line' ↔
      t = s ∧ line' = line ∨ s'.Reaches lib lines t line' := by
  constructor
  · intro h
    cases h with
    | here => exact Or.inl ⟨rfl, rfl⟩
    | next hstep' h =>
      cases hstep.symm.trans hstep'
      exact Or.inr h
  · rintro (⟨rfl, rfl⟩ | h)
    · exact .here
    · exact .next hstep h

theorem reaches_of_not_next (hstep : ∀ s', s.step lib line ≠ .ok (.next s')) :
    s.Reaches lib (line :: lines) t line' ↔ t = s ∧ line' = line := by
  constructor
  · intro h
    cases h with
    | here => exact ⟨rfl, rfl⟩
    | next hstep' _ => exact absurd hstep' (hstep _)
  · rintro ⟨rfl, rfl⟩
    exact .here

theorem result_letsGo (hinv : s.Inv owner) : s.result.LetsGo := by
  rw [result]
  cases hmodel : s.model with
  | none =>
    simp only [Result.LetsGo, hinv.empty hmodel]
    exact .refl _
  | some m => trivial

/-- The lines are read without a fault, and everything is let go where there is no model. -/
def ReadsCleanly (lib : CLibrary) (s : Parser) (lines : List (List UInt8)) : Prop :=
  ∃ result, s.readLines lib lines = .ok result ∧ result.LetsGo

/-- No line that is reached is faulty, and where one is refused nothing is lost before. -/
def Careful (lib : CLibrary) (s : Parser) (lines : List (List UInt8)) (lost : Prop) : Prop :=
  (∀ t line, s.Reaches lib lines t line → t.verdict lib line ≠ .faulty) ∧
    ((∃ t line, s.Reaches lib lines t line ∧ t.verdict lib line = .refused) →
      ¬ lost ∧ ∀ t line, s.Reaches lib lines t line → ¬ t.Loses lib line)

theorem readsCleanly_iff (hinv : s.Inv owner) :
    s.ReadsCleanly lib lines ↔ s.Careful lib lines (s.Lost owner) := by
  induction lines generalizing s owner with
  | nil =>
    refine iff_of_true ⟨_, rfl, result_letsGo hinv⟩ ⟨fun t line h => absurd h reaches_nil, ?_⟩
    rintro ⟨t, line, h, -⟩
    exact absurd h reaches_nil
  | cons line lines ih =>
    have hcomes := step_comes lib line hinv
    rw [ReadsCleanly, readLines]
    generalize hv : s.verdict lib line = v at hcomes
    generalize hx : s.step lib line = x at hcomes
    cases hcomes with
    | @goesOn s' owner' hinv' hlost =>
      have hreaches : ∀ t line', s.Reaches lib (line :: lines) t line' ↔
          t = s ∧ line' = line ∨ s'.Reaches lib lines t line' := fun t line' => reaches_of_next hx
      refine (ih hinv').trans ⟨?_, ?_⟩
      · rintro ⟨hfaulty, hlose⟩
        refine ⟨fun t line' h => ?_, ?_⟩
        · rcases (hreaches t line').mp h with ⟨rfl, rfl⟩ | h
          · rw [hv]
            exact Verdict.noConfusion
          · exact hfaulty t line' h
        · rintro ⟨t, line', h, hrefused⟩
          rcases (hreaches t line').mp h with ⟨rfl, rfl⟩ | h
          · rw [hv] at hrefused
            cases hrefused
          · obtain ⟨hnot, hnone⟩ := hlose ⟨t, line', h, hrefused⟩
            rw [hlost, not_or] at hnot
            refine ⟨hnot.1, fun t' l' h' => ?_⟩
            rcases (hreaches t' l').mp h' with ⟨rfl, rfl⟩ | h'
            · exact hnot.2
            · exact hnone t' l' h'
      · rintro ⟨hfaulty, hlose⟩
        refine ⟨fun t line' h => hfaulty t line' (.next hx h), ?_⟩
        rintro ⟨t, line', h, hrefused⟩
        obtain ⟨hnot, hnone⟩ := hlose ⟨t, line', .next hx h, hrefused⟩
        refine ⟨?_, fun t' l' h' => hnone t' l' (.next hx h')⟩
        rw [hlost, not_or]
        exact ⟨hnot, hnone s line .here⟩
    | refused hperm =>
      have hreaches : ∀ t line', s.Reaches lib (line :: lines) t line' ↔ t = s ∧ line' = line :=
        fun t line' => reaches_of_not_next (by rw [hx]; exact fun _ h => by cases h)
      constructor
      · rintro ⟨result, hresult, hletsGo⟩
        cases hresult
        obtain ⟨hnot, hnone⟩ := not_or.mp (hperm.mp hletsGo)
        refine ⟨fun t line' h => ?_, fun _ => ⟨hnot, fun t line' h => ?_⟩⟩
        · obtain ⟨rfl, rfl⟩ := (hreaches t line').mp h
          rw [hv]
          exact Verdict.noConfusion
        · obtain ⟨rfl, rfl⟩ := (hreaches t line').mp h
          exact hnone
      · rintro ⟨-, hlose⟩
        obtain ⟨hnot, hnone⟩ := hlose ⟨s, line, .here, hv⟩
        exact ⟨_, rfl, hperm.mpr (not_or.mpr ⟨hnot, hnone s line .here⟩)⟩
    | faulty =>
      refine iff_of_false ?_ fun h => h.1 s line .here hv
      rintro ⟨result, hresult, -⟩
      cases hresult

/-! ## A file -/

theorem step_error_of_long (hlength : READ_BUFFER_MAX_SIZE ≤ line.length) :
    s.step lib line = .error .outOfBounds := by
  rw [step, terminateLine, if_neg (Nat.not_lt_of_le hlength)]
  rfl

/-- What is read of a file are its lines. -/
theorem parseFile_iff {fuel : Nat} {file : List UInt8} (hfuel : file.length < fuel)
    {result : Result} : parseFile lib fuel file s = .ok result ↔
      s.readLines lib (linesOf file) = .ok result := by
  induction hn : file.length using Nat.strong_induction_on generalizing fuel file s with
  | _ n ih =>
    subst hn
    obtain ⟨fuel, rfl⟩ : ∃ k, fuel = k + 1 := Nat.exists_eq_succ_of_ne_zero (Nat.ne_zero_of_lt hfuel)
    cases file with
    | nil => rfl
    | cons b file =>
      cases hb : isEol b with
      | true =>
        have heq : parseFile lib (fuel + 1) (b :: file) s = parseFile lib (fuel + 1) file s := by
          rw [parseFile, parseFile, readLine, hb, if_pos rfl]
        rw [heq, linesOf_eol hb]
        exact ih file.length (Nat.lt_succ_self _) (Nat.lt_of_succ_lt hfuel) rfl
      | false =>
        rw [linesOf_cons hb, parseFile, readLine, hb, if_neg Bool.false_ne_true, readLines]
        by_cases hfits : 1 + (lineOf file).length < READ_BUFFER_MAX_SIZE
        · rw [readRest_fits hfits]
          simp only [ok_bind, pure_bind, List.cons_ne_nil, if_false]
          cases s.step lib (b :: lineOf file) with
          | error e => exact Iff.rfl
          | ok progress =>
            cases progress with
            | next s' =>
              have hle := length_behindLine_le file
              exact ih (behindLine file).length (Nat.lt_succ_of_le hle)
                (Nat.lt_of_le_of_lt hle (Nat.lt_of_succ_lt_succ hfuel)) rfl
            | done r => exact Iff.rfl
        · have hlong : READ_BUFFER_MAX_SIZE ≤ 1 + (lineOf file).length := Nat.le_of_not_lt hfits
          have hstep : s.step lib (b :: lineOf file) = .error .outOfBounds :=
            step_error_of_long (by rw [List.length_cons, Nat.add_comm]; exact hlong)
          rw [hstep]
          cases hread : readRest READ_BUFFER_MAX_SIZE 1 file with
          | error e => exact iff_of_false (fun h => by cases h) fun h => by cases h
          | ok p =>
            have hlength := le_of_readRest hlong hread
            have hstep' : s.step lib (b :: p.1) = .error .outOfBounds :=
              step_error_of_long (by rw [List.length_cons, Nat.add_comm]; exact hlength)
            simp only [ok_bind, pure_bind, List.cons_ne_nil, if_false, hstep']
            exact iff_of_false (fun h => by cases h) fun h => by cases h

theorem inv_start (lineBuffer : List UInt8) : (start lineBuffer).Inv fun _ => none where
  heap := Heap.inv_empty
  inModel h := by cases h
  outside _ := rfl
  model _ h := by cases h
  logicalDevice h := absurd (show 2 ≤ 0 from h) (by decide)
  logicalNode h := absurd (show 3 ≤ 0 from h) (by decide)
  node _ h := by cases h
  dataSet _ h := by cases h
  gseControlBlock _ h := by cases h
  empty _ := rfl

theorem not_lost_start (lineBuffer : List UInt8) :
    ¬ (start lineBuffer).Lost fun _ => none := by
  rintro ⟨n, hn, -⟩
  cases hn

end

end Parser

/-- A file is read without a fault, and with everything let go where no model comes of it, if and only
if no line that is reached is faulty, and nothing is lost over the lines where one is refused. -/
theorem parsesCleanly_iff (lib : CLibrary) (lineBuffer file : List UInt8) :
    (∃ result, createModelFromConfigFile lib lineBuffer file = .ok result ∧ result.LetsGo) ↔
      (∀ s line, (Parser.start lineBuffer).Reaches lib (linesOf file) s line →
        s.verdict lib line ≠ .faulty) ∧
      ((∃ s line, (Parser.start lineBuffer).Reaches lib (linesOf file) s line ∧
          s.verdict lib line = .refused) →
        ∀ s line, (Parser.start lineBuffer).Reaches lib (linesOf file) s line →
          ¬ s.Loses lib line) := by
  have hclean : (Parser.start lineBuffer).ReadsCleanly lib (linesOf file) ↔
      (Parser.start lineBuffer).Careful lib (linesOf file) _ :=
    Parser.readsCleanly_iff (Parser.inv_start lineBuffer)
  have hfile : (∃ result, createModelFromConfigFile lib lineBuffer file = .ok result ∧
      result.LetsGo) ↔ (Parser.start lineBuffer).ReadsCleanly lib (linesOf file) :=
    exists_congr fun result =>
      and_congr_left' (Parser.parseFile_iff (Nat.lt_succ_self _))
  rw [hfile, hclean, Parser.Careful]
  refine and_congr_right fun _ => imp_congr_right fun _ => ?_
  exact and_iff_right (Parser.not_lost_start lineBuffer)

end Iec61850.ConfigFile
