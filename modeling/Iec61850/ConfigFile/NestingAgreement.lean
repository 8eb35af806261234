import Iec61850.ConfigFile.FileRuns
import Mathlib.Data.List.TakeWhile

/-! The parser and the nesting of the statements: the objects are linked as the statements are nested
as long as the parser sees the braces that are there. -/

namespace Iec61850.ConfigFile

open Machine SiblingLists

/-- There is a statement that it takes to have a list. -/
def seesList (lib : CLibrary) (line : List UInt8) : Bool :=
  (typeOfLine line).any (entersList lib line)

/-- The parser takes the statements to have a list that end with a brace. Only closing braces can be
behind one that it takes to have a list that is not there. -/
def BracesSeen (lib : CLibrary) : List (List UInt8) → Prop
  | [] => True
  | line :: lines =>
    if seesList lib line = endsWithBrace line then BracesSeen lib lines
    else seesList lib line = true ∧ (lines.all fun l => l = ascii "\x7d") = true

theorem closes_iff {lines : List (List UInt8)} :
    (lines.all fun l => l = ascii "\x7d") = true ↔ ∀ l ∈ lines, l = ascii "\x7d" := by
  simp only [List.all_eq_true, decide_eq_true_eq]

instance decidableBracesSeen (lib : CLibrary) :
    (lines : List (List UInt8)) → Decidable (BracesSeen lib lines)
  | [] => .isTrue trivial
  | line :: lines =>
    have := decidableBracesSeen lib lines
    inferInstanceAs (Decidable (if seesList lib line = endsWithBrace line then BracesSeen lib lines
      else seesList lib line = true ∧ (lines.all fun l => l = ascii "\x7d") = true))

namespace ObjectType

/-- The parts of others that can have a list. -/
def mayOpen : ObjectType → Bool
  | iedModel | reportControlBlock | dataSetEntry | phyComAddress => false
  | _ => true

theorem mayOpen_of_takesBrace {type part : ObjectType} (hpart : part ∈ type.parts)
    (h : part.takesBrace true = true) : part.mayOpen = true := by
  cases part with
  | iedModel => cases type <;> exact absurd hpart (by decide)
  | reportControlBlock | dataSetEntry | phyComAddress => cases h
  | _ => rfl

theorem mayOpen_of_entersList {lib : CLibrary} {line : List UInt8} {type part : ObjectType}
    (hpart : part ∈ type.parts) (h : entersList lib line part = true) : part.mayOpen = true := by
  cases part with
  | iedModel => cases type <;> exact absurd hpart (by decide)
  | reportControlBlock | dataSetEntry | phyComAddress => cases h
  | _ => rfl

/-- The parts of a statement are one level above it. -/
theorem onLevel_of_parts {type part : ObjectType} {level : Nat} (hpart : part ∈ type.parts)
    (hlevel : type.onLevel level = true) : part.onLevel (level + 1) = true := by
  cases type <;> cases part <;> simp_all [parts, onLevel] <;> omega

/-- Deep down there are only data objects and attributes with lists. -/
theorem nodes_of_parts {type part : ObjectType} {level : Nat} (hpart : part ∈ type.parts)
    (hopen : part.mayOpen = true) (hlevel : type.onLevel level = true) (hdeep : 3 ≤ level) :
    (part = .dataObject ∨ part = .dataAttribute) ∧ (type = .dataObject ∨ type = .dataAttribute) := by
  cases type <;> cases part <;> simp_all [parts, onLevel, mayOpen]

end ObjectType

/-! ## Statements that are open -/

/-- Each statement that is open is a part of the next one, and so is its object. -/
inductive Nested (h : Heap) : List (ObjectType × Nat) → Prop
  | nil : Nested h []
  | model : h.typeOf 0 = some .iedModel → Nested h [(.iedModel, 0)]
  | cons {type type' : ObjectType} {n n' : Nat} {opened : List (ObjectType × Nat)} :
    Nested h ((type', n') :: opened) → type ∈ type'.parts → type.mayOpen = true →
    h.typeOf n = some type → (type.refersUp = true → h.parentOf n = some n') → n' < n →
    Nested h ((type, n) :: (type', n') :: opened)

namespace Nested

variable {h h' : Heap} {o : Object} {opened : List (ObjectType × Nat)} {type part : ObjectType}
  {n : Nat}

theorem tail (hnested : Nested h ((type, n) :: opened)) : Nested h opened := by
  cases hnested with
  | model => exact .nil
  | cons hrest => exact hrest

theorem typeOf (hnested : Nested h ((type, n) :: opened)) : h.typeOf n = some type := by
  cases hnested with
  | model htype => exact htype
  | cons _ _ _ htype => exact htype

theorem parentOf_of_extends (he : h'.Extends h o) (hn : n < h.count) :
    h'.parentOf n = h.parentOf n := by
  rw [Heap.parentOf, he.object_of_lt hn]
  rfl

theorem grow (he : h'.Extends h o) (hnested : Nested h opened) : Nested h' opened := by
  induction hnested with
  | nil => exact .nil
  | model htype => exact .model (he.typeOf htype)
  | cons _ hpart hopen htype hparent hlt ih =>
    refine .cons ih hpart hopen (he.typeOf htype) (fun hup => ?_) hlt
    rw [parentOf_of_extends he (Heap.lt_of_typeOf htype)]
    exact hparent hup

/-- The level of the innermost statement is the number of those around it. -/
theorem onLevel (hnested : Nested h ((type, n) :: opened)) :
    opened = [] ∧ type = .iedModel ∨ type.onLevel opened.length = true ∧ type.mayOpen = true := by
  induction opened generalizing type n with
  | nil =>
    cases hnested with
    | model => exact Or.inl ⟨rfl, rfl⟩
  | cons e opened ih =>
    cases hnested with
    | cons hrest hpart hopen =>
      refine Or.inr ⟨?_, hopen⟩
      rcases ih hrest with ⟨rfl, rfl⟩ | ⟨hlevel, -⟩
      · cases List.mem_singleton.mp hpart
        rfl
      · exact ObjectType.onLevel_of_parts hpart hlevel

theorem onLevel_part (hnested : Nested h ((type, n) :: opened)) (hpart : part ∈ type.parts) :
    part.onLevel (opened.length + 1) = true := by
  rcases hnested.onLevel with ⟨rfl, rfl⟩ | ⟨hlevel, -⟩
  · cases List.mem_singleton.mp hpart
    rfl
  · exact ObjectType.onLevel_of_parts hpart hlevel

theorem onLevel_of_mem (hnested : Nested h opened) (hmem : (type, n) ∈ opened) :
    type = .iedModel ∨ ∃ level < opened.length, type.onLevel level = true := by
  induction opened with
  | nil => cases hmem
  | cons e opened ih =>
    rcases List.mem_cons.mp hmem with rfl | hmem
    · rcases hnested.onLevel with ⟨-, rfl⟩ | ⟨hlevel, -⟩
      · exact Or.inl rfl
      · exact Or.inr ⟨_, Nat.lt_succ_self _, hlevel⟩
    · refine (ih hnested.tail hmem).imp_right fun h => ?_
      obtain ⟨level, hlt, hlevel⟩ := h
      exact ⟨level, hlt.trans (Nat.lt_succ_self _), hlevel⟩

end Nested

namespace Parser

/-- What the parser takes to be the open statement of a type. -/
def current (s : Parser) : ObjectType → Option Nat
  | .iedModel => s.model
  | .logicalDevice => s.currentLD
  | .logicalNode => s.currentLN
  | .dataObject | .dataAttribute => s.currentModelNode
  | .dataSet => s.currentDataSet
  | .gseControlBlock => s.currentGoCB
  | _ => none

/-- The parser is in the list of the innermost statement. -/
structure At (s : Parser) (opened : List (ObjectType × Nat)) : Prop where
  nested : Nested s.heap opened
  level : s.indendation = opened.length
  top : ∀ type n rest, opened = (type, n) :: rest → s.current type = some n
  kept : ∀ type n, (type, n) ∈ opened → type ∈ [.iedModel, .logicalDevice, .logicalNode] →
    s.current type = some n
  node : ∀ n, s.currentModelNode = some n →
    s.heap.typeOf n = some .dataObject ∨ s.heap.typeOf n = some .dataAttribute

section

variable {lib : CLibrary} {s s' : Parser} {owner owner' : Nat → Option Slot}
  {line : List UInt8} {lines : List (List UInt8)} {type part : ObjectType} {n : Nat}
  {opened : List (ObjectType × Nat)} {h' : Heap} {o : Object}

theorem leave_of_le (h : s.indendation ≤ 4) : s.leave =
    { s with stateInModel := s.stateInModel && s.indendation != 1,
             indendation := s.indendation - 1 } := by
  rw [Parser.leave]
  by_cases h1 : s.indendation = 1
  · rw [if_pos h1, h1]
    simp
  · rw [if_neg h1, if_pos h]
    simp [h1]

theorem leave_of_lt (h : 4 < s.indendation) : s.leave =
    { s with currentModelNode := s.currentModelNode.bind s.heap.parentOf,
             indendation := s.indendation - 1 } := by
  rw [Parser.leave, if_neg (by omega), if_neg (Nat.not_le_of_lt h)]

theorem At.leave_of_le (hat : s.At ((type, n) :: opened)) (h : s.indendation ≤ 4) :
    s.leave.At opened := by
  have hlevel := hat.level
  rw [List.length_cons] at hlevel
  have hcurrent : ∀ type, s.leave.current type = s.current type := by
    rw [Parser.leave_of_le h]
    exact fun type => by cases type <;> rfl
  have hkept : ∀ type n, (type, n) ∈ opened →
      type ∈ [.iedModel, .logicalDevice, .logicalNode] → s.leave.current type = some n := by
    intro t k hmem ht
    rw [hcurrent]
    exact hat.kept t k (List.mem_cons_of_mem _ hmem) ht
  refine ⟨?_, ?_, ?_, hkept, ?_⟩
  · rw [leave_heap]
    exact hat.nested.tail
  · rw [Parser.leave_of_le h]
    change s.indendation - 1 = _
    omega
  · rintro t k rest rfl
    refine hkept t k (List.mem_cons_self ..) ?_
    rw [List.length_cons] at hlevel
    rcases hat.nested.tail.onLevel with ⟨-, rfl⟩ | ⟨ht, -⟩
    · exact List.mem_cons_self ..
    · cases t <;> simp [ObjectType.onLevel] at ht ⊢ <;> omega
  · rw [Parser.leave_of_le h]
    exact hat.node

/-- Deep down the innermost statement is a data object or an attribute, as the one around it. -/
theorem At.nodes (hat : s.At ((type, n) :: opened)) (h : 4 < s.indendation) :
    ∃ type' n' rest, opened = (type', n') :: rest ∧
      (type = .dataObject ∨ type = .dataAttribute) ∧
      (type' = .dataObject ∨ type' = .dataAttribute) := by
  have hlevel := hat.level
  rw [List.length_cons] at hlevel
  cases hat.nested with
  | model => simp at hlevel; omega
  | cons hrest hpart hopen =>
    rw [List.length_cons] at hlevel
    refine ⟨_, _, _, rfl, ?_⟩
    rcases hrest.onLevel with ⟨rfl, -⟩ | ⟨hlevel', -⟩
    · rw [List.length_nil] at hlevel
      omega
    · exact ObjectType.nodes_of_parts hpart hopen hlevel' (by omega)

theorem At.currentModelNode (hat : s.At ((type, n) :: opened)) (h : 4 < s.indendation) :
    s.currentModelNode = some n := by
  obtain ⟨-, -, -, -, hnode, -⟩ := hat.nodes h
  have htop := hat.top type n opened rfl
  rcases hnode with rfl | rfl <;> exact htop

theorem At.leave_of_lt (hat : s.At ((type, n) :: opened)) (h : 4 < s.indendation) :
    s.leave.At opened := by
  have hlevel := hat.level
  have hcurrent := hat.currentModelNode h
  obtain ⟨type', n', rest, rfl, hnode, hnode'⟩ := hat.nodes h
  cases hat.nested with
  | cons hrest hpart hopen htype hparent hlt =>
    have hup : type.refersUp = true := by
      rcases hnode with rfl | rfl <;> rfl
    have hnext : s.leave.currentModelNode = some n' := by
      rw [Parser.leave_of_lt h]
      change s.currentModelNode.bind s.heap.parentOf = _
      rw [hcurrent, Option.bind_some, hparent hup]
    refine ⟨?_, ?_, ?_, fun t k hmem ht => ?_, fun k hk => ?_⟩
    · rw [leave_heap]
      exact hrest
    · rw [Parser.leave_of_lt h]
      change s.indendation - 1 = _
      rw [hlevel]
      rfl
    · rintro t k rest heq
      cases heq
      rcases hnode' with rfl | rfl <;> exact hnext
    · have hkept := hat.kept t k (List.mem_cons_of_mem _ hmem) ht
      rw [Parser.leave_of_lt h]
      cases t <;> first | exact hkept | exact absurd ht (by decide)
    · rw [hnext] at hk
      cases hk
      rw [leave_heap, hrest.typeOf]
      rcases hnode' with rfl | rfl
      · exact Or.inl rfl
      · exact Or.inr rfl

theorem At.leave (hat : s.At ((type, n) :: opened)) : s.leave.At opened := by
  by_cases h : s.indendation ≤ 4
  · exact hat.leave_of_le h
  · exact hat.leave_of_lt (Nat.lt_of_not_le h)

/-- The object of the innermost statement is the one that a part of it is made for. -/
theorem At.holder (hat : s.At ((type, n) :: opened)) (hpart : part ∈ type.parts) :
    s.holder part = some n := by
  have htop := hat.top type n opened rfl
  have hlevel := hat.level
  rw [List.length_cons] at hlevel
  have hon : type ≠ .iedModel → type.onLevel opened.length = true := fun hne =>
    (hat.nested.onLevel.resolve_left fun h => hne h.2).1
  cases type with
  | iedModel =>
    cases List.mem_singleton.mp hpart
    exact htop
  | logicalDevice | dataAttribute | dataSet | gseControlBlock =>
    cases List.mem_singleton.mp hpart
    exact htop
  | logicalNode =>
    have hthree : s.indendation = 3 := by
      have h : opened.length = 2 := of_decide_eq_true (hon ObjectType.noConfusion)
      rw [hlevel, h]
    cases part with
    | dataObject =>
      rw [Parser.holder, if_pos hthree]
      exact htop
    | dataSet | reportControlBlock | gseControlBlock => exact htop
    | _ => exact absurd hpart (by decide)
  | dataObject =>
    have hne : s.indendation ≠ 3 := by
      have h : 3 ≤ opened.length := of_decide_eq_true (hon ObjectType.noConfusion)
      omega
    cases part with
    | dataObject =>
      rw [Parser.holder, if_neg hne]
      exact htop
    | dataAttribute => exact htop
    | _ => exact absurd hpart (by decide)
  | _ => cases hpart

/-- A statement with a list is the innermost one behind it. -/
theorem At.enter (hat : s.At ((type, n) :: opened)) (hpart : part ∈ type.parts)
    (hopen : part.mayOpen = true) (he : h'.Extends s.heap o) (ho : o.type = part)
    (hparent : o.parent = if part.refersUp then some n else none)
    (hsame : (s.enter s.heap.count part).Same s') (hheap : s'.heap = h') :
    s'.At ((part, s.heap.count) :: (type, n) :: opened) := by
  subst hheap
  have hn : n < s.heap.count := Heap.lt_of_typeOf hat.nested.typeOf
  have htype : s'.heap.typeOf s.heap.count = some part := ho ▸ he.typeOf_new
  have hlevel : s'.indendation = s.indendation + 1 := by
    rw [hsame]
    cases part <;> first | rfl | cases hopen
  have hcurrent : s'.current part = some s.heap.count := by
    rw [hsame]
    cases part <;> first | rfl | cases hopen
  have hon := hat.nested.onLevel_part hpart
  have hkept : ∀ t k, (t, k) ∈ (type, n) :: opened →
      t ∈ [.iedModel, .logicalDevice, .logicalNode] → s'.current t = some k := by
    intro t k hmem ht
    rw [← hat.kept t k hmem ht, hsame]
    -- There is no other statement of the type of the part around it.
    have hne : t = .iedModel ∨ t ≠ part := by
      refine (hat.nested.onLevel_of_mem hmem).imp_right ?_
      rintro ⟨level, hlt, hlevel'⟩ rfl
      rw [List.length_cons] at hlt
      cases t with
      | logicalDevice | logicalNode =>
        have h := of_decide_eq_true hlevel'
        have h' := of_decide_eq_true hon
        omega
      | iedModel => cases hlevel'
      | _ => exact absurd ht (by decide)
    cases t with
    | iedModel => cases part <;> rfl
    | logicalDevice | logicalNode =>
      cases part <;> first | rfl | exact absurd rfl (hne.resolve_left ObjectType.noConfusion)
    | _ => exact absurd ht (by decide)
  refine ⟨.cons (hat.nested.grow he) hpart hopen htype (fun hup => ?_) hn, ?_, ?_, ?_, ?_⟩
  · rw [Heap.parentOf_eq he.object_new, hparent, if_pos hup]
  · rw [hlevel, hat.level]
    rfl
  · intro t k rest heq
    cases heq
    exact hcurrent
  · intro t k hmem ht
    rcases List.mem_cons.mp hmem with heq | hmem
    · cases heq
      exact hcurrent
    · exact hkept t k hmem ht
  · intro k hk
    have hnode : part = .dataObject ∨ part = .dataAttribute ∨
        s'.currentModelNode = s.currentModelNode := by
      rw [hsame]
      cases part <;> simp [Parser.enter]
    rcases hnode with rfl | rfl | hnode
    · cases hcurrent.symm.trans hk
      exact Or.inl htype
    · cases hcurrent.symm.trans hk
      exact Or.inr htype
    · rw [hnode] at hk
      exact (hat.node k hk).imp he.typeOf he.typeOf

/-- A statement without a list leaves the parser where it is. -/
theorem At.stay (hat : s.At opened) (he : h'.Extends s.heap o) (hsame : s.Same s')
    (hheap : s'.heap = h') : s'.At opened := by
  subst hheap
  have hcurrent : ∀ type, s'.current type = s.current type := by
    rw [hsame]
    exact fun type => by cases type <;> rfl
  refine ⟨hat.nested.grow he, ?_, ?_, ?_, fun n hn => ?_⟩
  · rw [hsame]
    exact hat.level
  · intro type n rest heq
    rw [hcurrent]
    exact hat.top type n rest heq
  · intro type n hmem htype
    rw [hcurrent]
    exact hat.kept type n hmem htype
  · rw [hsame] at hn
    exact (hat.node n hn).imp he.typeOf he.typeOf

/-! ## Lines that are taken -/

theorem step_next (hinv : s.Inv owner) (hstep : s.step lib line = .ok (.next s')) :
    ∃ v, (s.store line).LineComes lib owner (cString line) (.ok (.next s')) v := by
  have hcomes := parseLine_store_comes lib line hinv
  rw [step] at hstep
  obtain ⟨-, -, hstep⟩ := bind_ok hstep
  obtain ⟨outcome, houtcome, hstep⟩ := bind_ok hstep
  cases outcome with
  | next s'' =>
    cases hstep
    exact ⟨_, houtcome ▸ hcomes⟩
  | exitError s'' =>
    obtain ⟨freed, -, hstep⟩ := bind_ok hstep
    cases hstep

theorem close_of_next (hinv : s.Inv owner)
    (hstep : s.step lib (ascii "\x7d") = .ok (.next s')) :
    s.stateInModel = true ∧ s' = (s.store (ascii "\x7d")).leave := by
  obtain ⟨v, hcomes⟩ := step_next hinv hstep
  cases hcomes with
  | closed hin => exact ⟨hin, rfl⟩
  | model _ _ hmodel => exact absurd hmodel (by decide)
  | statement _ hclose => exact absurd hclose (by decide)

theorem not_close_of_typeOfLine (h : typeOfLine line = some type) :
    startsWith line (ascii "\x7d") = false := by
  obtain ⟨rest, rfl⟩ := List.isPrefixOf_iff_prefix.mp (startsWith_of_typeOfLine h)
  cases type <;> rfl

theorem typeOfLine_of_model (h : startsWith line (ascii "MODEL\x7b") = true ∨
    startsWith line (ascii "MODEL(") = true) : typeOfLine line = some .iedModel := by
  refine startsWith_keyword_iff.mp ?_
  simp only [startsWith, List.isPrefixOf_iff_prefix] at h ⊢
  rcases h with h | h
  · exact List.IsPrefix.trans ⟨[123], rfl⟩ h
  · exact List.IsPrefix.trans ⟨[40], rfl⟩ h

theorem cString_eq_self (h : 0 ∉ line) : cString line = line := by
  refine List.takeWhile_eq_self_iff.mpr fun b hb => decide_eq_true ?_
  rintro rfl
  exact h hb

/-- A statement that is taken is made, in a model or as the model. -/
theorem statement_of_next (hinv : s.Inv owner) (hzero : 0 ∉ line)
    (htype : typeOfLine line = some type) (hstep : s.step lib line = .ok (.next s')) :
    s.stateInModel = true ∧ type.onLevel s.indendation = true ∧
        (∃ owner', s'.Inv owner' ∧
          s.heap.Made owner type (s.holder type) s'.heap owner') ∧
        (if entersList lib line type then s.enter s.heap.count type else s).Same s' ∨
      s.stateInModel = false ∧ type = .iedModel ∧ s'.Inv owner ∧ ∃ name, s' =
        { s with stateInModel := true, indendation := 1, model := some s.heap.count,
                 heap := s.heap.make (.iedModel name), nameString := s'.nameString,
                 lineBuffer := s'.lineBuffer } := by
  obtain ⟨v, hcomes⟩ := step_next hinv hstep
  rw [cString_eq_self hzero] at hcomes
  cases hcomes with
  | closed _ hclose => rw [not_close_of_typeOfLine htype] at hclose; cases hclose
  | model name hin hmodel heq =>
    have heq' := Option.some.inj (htype.symm.trans (typeOfLine_of_model hmodel))
    refine Or.inr ⟨hin, heq', ?_, name, ?_⟩
    · rw [heq]
      exact hinv.store.start
    · rw [heq]
      rfl
  | statement hin hclose htype' hlevel hmade =>
    cases htype.symm.trans htype'
    obtain ⟨-, owner', hmade, hsame⟩ := hmade.next
    refine Or.inl ⟨hin, hlevel, ⟨owner', hinv.store.made hin hlevel hmade hsame, ?_⟩, ?_⟩
    · cases type <;> exact hmade
    · split
      · next hlist =>
        rw [if_pos hlist] at hsame
        rw [Same, hsame]
        cases type <;> rfl
      · next hlist =>
        rw [if_neg hlist] at hsame
        exact hsame

/-! ## The objects and the statements -/

/-- There is an object for each statement so far, in its place. -/
structure Synced (s : Parser) (owner : Nat → Option Slot) (n : Nesting) : Prop where
  inv : s.Inv owner
  count : s.heap.count = n.placed.length
  object : ∀ (i : Nat) (p : Placement), n.placed[i]? = some p →
    ∃ o, s.heap.objects[i]? = some o ∧ o.type = p.type ∧ o.parent = p.parent
  owner : ∀ (i : Nat) (p : Placement), n.placed[i]? = some p → owner i = p.slot
  model : n.placed ≠ [] → s.model = some 0

/-- There is an object that is not in the place of its statement. -/
def Astray (s : Parser) (n : Nesting) : Prop :=
  ∃ (i : Nat) (p : Placement) (o : Object), n.placed[i]? = some p ∧
    s.heap.objects[i]? = some o ∧ o.parent ≠ p.parent

section

variable {n n' : Nesting} {k m : Nat} {p : Placement}

theorem Synced.list_eq (hsync : s.Synced owner n) (slot : Slot) :
    listOf owner s.heap.count slot = n.list slot := by
  rw [listOf, Nesting.list, hsync.count]
  refine List.filter_congr fun i hi => ?_
  rw [List.mem_range] at hi
  rw [hsync.owner i _ (List.getElem?_eq_getElem hi), List.getElem?_eq_getElem hi]
  rfl

theorem Synced.matches (hsync : s.Synced owner n) (hmodel : s.model = some m) :
    Matches s.heap m n := by
  have hplaced : n.placed ≠ [] := by
    intro hnil
    have hlt := Heap.lt_of_typeOf (hsync.inv.model m hmodel)
    rw [hsync.count, hnil] at hlt
    cases hlt
  refine ⟨?_, hsync.count, hsync.object, fun slot => ?_⟩
  · cases hmodel.symm.trans (hsync.model hplaced)
    rfl
  · rw [hsync.inv.heap.list_eq, hsync.list_eq]

theorem Astray.grow (hastray : s.Astray n) {objects : List Object} {placed : List Placement}
    (hobjects : s'.heap.objects = s.heap.objects ++ objects)
    (hplaced : n'.placed = n.placed ++ placed) : s'.Astray n' := by
  obtain ⟨i, p, o, hp, ho, hne⟩ := hastray
  refine ⟨i, p, o, ?_, ?_, hne⟩
  · rw [hplaced, List.getElem?_append_left (List.getElem?_eq_some_iff.mp hp).1, hp]
  · rw [hobjects, List.getElem?_append_left (List.getElem?_eq_some_iff.mp ho).1, ho]

theorem Astray.not_matches (hastray : s.Astray n) : ¬ Matches s.heap m n := by
  obtain ⟨i, p, o, hp, ho, hne⟩ := hastray
  intro hmatches
  obtain ⟨o', ho', -, hparent⟩ := hmatches.parent i p hp
  cases ho.symm.trans ho'
  exact hne hparent

theorem placed_snoc {i : Nat} {q : Placement} (h : (n.placed ++ [q])[i]? = some p) :
    n.placed[i]? = some p ∨ i = n.placed.length ∧ p = q := by
  rcases Nat.lt_trichotomy i n.placed.length with hlt | rfl | hlt
  · exact Or.inl (List.getElem?_append_left hlt ▸ h)
  · rw [List.getElem?_append_right le_rfl, Nat.sub_self] at h
    exact Or.inr ⟨rfl, (Option.some.inj h).symm⟩
  · rw [List.getElem?_eq_none (by rw [List.length_append]; exact hlt)] at h
    cases h

/-- An object that is linked as its statement is placed. -/
theorem Synced.snoc (hsync : s.Synced owner n) (hinv : s'.Inv owner')
    (he : s'.heap.Extends s.heap o) (hmodel : s'.model = some 0) {slot : Option Slot}
    (howner : owner' = Function.update owner s.heap.count slot)
    (hplaced : n'.placed = n.placed ++ [⟨o.type, slot, o.parent⟩]) : s'.Synced owner' n' := by
  refine ⟨hinv, ?_, fun i p hp => ?_, fun i p hp => ?_, fun _ => hmodel⟩
  · rw [he.count, hplaced, List.length_append, hsync.count]
    rfl
  · rw [hplaced] at hp
    rcases placed_snoc hp with hp | ⟨rfl, rfl⟩
    · obtain ⟨o', ho', hsame⟩ := hsync.object i p hp
      refine ⟨o', ?_, hsame⟩
      rw [he.object_of_lt (List.getElem?_eq_some_iff.mp ho').1, ho']
    · rw [← hsync.count]
      exact ⟨o, he.object_new, rfl, rfl⟩
  · rw [hplaced] at hp
    rw [howner]
    rcases placed_snoc hp with hp | ⟨rfl, rfl⟩
    · have hne : i ≠ s.heap.count := by
        rw [hsync.count]
        exact (List.getElem?_eq_some_iff.mp hp).1.ne
      rw [Function.update_of_ne hne]
      exact hsync.owner i p hp
    · rw [← hsync.count, Function.update_self]

/-- An object that is not linked as its statement is placed. -/
theorem Synced.astray (hsync : s.Synced owner n) (he : s'.heap.Extends s.heap o)
    (hplaced : n'.placed = n.placed ++ [p]) (hne : o.parent ≠ p.parent) : s'.Astray n' := by
  refine ⟨n.placed.length, p, o, ?_, ?_, hne⟩
  · rw [hplaced, List.getElem?_append_right le_rfl, Nat.sub_self]
    rfl
  · rw [← hsync.count]
    exact he.object_new

end

/-! ## Placing a statement -/

section

variable {n n' : Nesting} {k m : Nat}

theorem place_close (h : n.place lib (ascii "\x7d") = some n') :
    ∃ e, n.opened = e :: n'.opened ∧ n'.placed = n.placed := by
  rw [Nesting.place, if_pos rfl] at h
  cases hopened : n.opened with
  | nil =>
    rw [hopened] at h
    cases h
  | cons e rest =>
    rw [hopened] at h
    cases h
    exact ⟨e, rfl, rfl⟩

theorem place_statement (h : n.place lib line = some n') (hline : line ≠ ascii "\x7d") :
    ∃ type, typeOfLine line = some type ∧ WellFormed lib type line ∧
      n.add type (endsWithBrace line) = some n' := by
  rw [Nesting.place, if_neg hline] at h
  obtain ⟨type, htype, h⟩ := Option.bind_eq_some_iff.mp h
  split at h
  · next hwell => exact ⟨type, htype, hwell, h⟩
  · cases h

theorem add_cons {brace : Bool} (hopened : n.opened = (part, k) :: opened)
    (h : n.add type brace = some n') : type ∈ part.parts ∧
      (type = .phyComAddress → ∀ p ∈ n.placed, p.slot ≠ some (.children k)) ∧
      n'.opened = (if brace then (type, n.placed.length) :: n.opened else n.opened) ∧
      n'.placed = n.placed ++
        [⟨type, some (type.slotIn k 0), if type.refersUp then some k else none⟩] := by
  rw [Nesting.add, hopened] at h
  simp only at h
  split at h
  · next hadd =>
    cases h
    refine ⟨hadd.1, ?_, ?_, rfl⟩
    · rintro rfl p hp
      have hall := hadd.2.resolve_left (not_not_intro rfl)
      rw [List.all_eq_true] at hall
      exact of_decide_eq_true (hall p hp)
    · rw [hopened]
  · cases h

theorem add_nil {brace : Bool} (hopened : n.opened = []) (h : n.add type brace = some n') :
    type = .iedModel ∧ n.placed = [] ∧ n'.opened = [(.iedModel, 0)] ∧
      n'.placed = [⟨.iedModel, none, none⟩] := by
  rw [Nesting.add, hopened] at h
  simp only at h
  split at h
  · next hadd =>
    cases h
    exact ⟨hadd.1, List.isEmpty_iff.mp hadd.2, rfl, rfl⟩
  · cases h

end

/-! ## Statements in their place -/

section

variable {n n' : Nesting} {k m : Nat}

theorem eq_zero_of_isModel (hnested : Nested s.heap ((part, k) :: opened))
    (hpart : type ∈ part.parts) (hin : type.inModelList = true) (hm : s.heap.IsModel k m) :
    m = 0 := by
  have hln : part = .logicalNode := by
    cases part <;> cases type <;> first | rfl | exact absurd hpart (by decide) | cases hin
  subst hln
  obtain ⟨ld, hld, hm⟩ := hm
  cases hnested with
  | @cons _ type' _ k' opened hrest hpart' _ _ hparent =>
    have htype' : type' = .logicalDevice := by
      cases type' <;> first | rfl | exact absurd hpart' (by decide)
    subst htype'
    cases (hparent rfl).symm.trans hld
    cases hrest with
    | @cons _ type'' _ k'' opened hrest' hpart'' _ _ hparent' =>
      have htype'' : type'' = .iedModel := by
        cases type'' <;> first | rfl | exact absurd hpart'' (by decide)
      subst htype''
      cases (hparent' rfl).symm.trans hm
      cases hrest' with
      | model => rfl
      | @cons _ type3 _ _ _ _ hpart3 => cases type3 <;> exact absurd hpart3 (by decide)

/-- A statement in its place does not lose an object. -/
theorem Synced.not_loses (hsync : s.Synced owner n) (hnested : Nested s.heap ((part, k) :: opened))
    (hpart : type ∈ part.parts)
    (haddress : type = .phyComAddress → ∀ p ∈ n.placed, p.slot ≠ some (.children k)) :
    ¬ s.heap.Loses (some k) type := by
  have hk := hnested.typeOf
  cases type with
  | dataObject | dataAttribute =>
    rintro ⟨p, hp, hnot⟩
    cases hp
    refine hnot ⟨part, hk, ?_⟩
    cases part <;> first | exact absurd hpart (by decide) | decide
  | phyComAddress =>
    rintro ⟨p, hp, hne⟩
    cases hp
    have hnil : listOf owner s.heap.count (.children k) = [] := by
      rw [hsync.list_eq, Nesting.list, List.filter_eq_nil_iff]
      intro i hi
      rw [List.mem_range] at hi
      rw [decide_eq_true_iff, List.getElem?_eq_getElem hi]
      exact haddress rfl _ (List.getElem_mem hi)
    have hchain := hsync.inv.heap.holds (.children k)
    rw [hnil] at hchain
    generalize s.heap.links.first (.children k) = start at hchain hne
    cases hchain
    exact hne rfl
  | _ => exact not_false

theorem Synced.statement (hsync : s.Synced owner n) (hat : s.At ((part, k) :: opened))
    (hpart : type ∈ part.parts)
    (haddress : type = .phyComAddress → ∀ p ∈ n.placed, p.slot ≠ some (.children k))
    (hinv : s'.Inv owner')
    (hmade : s.heap.Made owner type (s.holder type) s'.heap owner') (hmodel : s'.model = some 0)
    (hplaced : n'.placed = n.placed ++
      [⟨type, some (type.slotIn k 0), if type.refersUp then some k else none⟩]) :
    s'.Synced owner' n' ∧ ∃ o, s'.heap.Extends s.heap o ∧ o.type = type ∧
      o.parent = if type.refersUp then some k else none := by
  rw [hat.holder hpart] at hmade
  obtain ⟨o, he, rfl, hparent⟩ := hmade.object
  refine ⟨hsync.snoc hinv he hmodel ?_ (hparent ▸ hplaced), o, he, rfl, hparent⟩
  rcases hmade.owner with ⟨-, p, m, hp, hm, howner⟩ | ⟨hloses, -⟩
  · cases hp
    rw [howner]
    cases hin : o.type.inModelList with
    | true => rw [eq_zero_of_isModel hat.nested hpart hin (hm hin)]
    | false =>
      congr 2
      cases htype : o.type <;> first | rfl | (rw [htype] at hin; cases hin)
  · exact absurd hloses (hsync.not_loses hat.nested hpart haddress)

end

/-! ## Where the parser is -/

def Follows (s : Parser) (owner : Nat → Option Slot) (n : Nesting) : Prop :=
  s.Synced owner n ∧ s.At n.opened

/-- The parser is in the list of a statement that has none. -/
def Ahead (s : Parser) (owner : Nat → Option Slot) (n : Nesting) : Prop :=
  s.Synced owner n ∧ ∃ e, s.At (e :: n.opened)

/-- The parser is not in the list of a statement that has one. -/
def Behind (s : Parser) (owner : Nat → Option Slot) (n : Nesting) : Prop :=
  s.Synced owner n ∧ n.opened ≠ [] ∧ s.At n.opened.tail ∧ Nested s.heap n.opened

section

variable {n n' : Nesting} {k m : Nat} {e : ObjectType × Nat}

theorem At.store (hat : s.At opened) : (s.store line).At opened := { hat with }

theorem At.inModel (hat : s.At (e :: opened)) (hinv : s.Inv owner) : s.stateInModel = true := by
  cases hin : s.stateInModel with
  | true => rfl
  | false =>
    have hlevel := hat.level
    rw [hinv.outside hin] at hlevel
    cases hlevel

theorem Synced.close (hsync : s.Synced owner n) (hplaced : n'.placed = n.placed)
    (hstep : s.step lib (ascii "\x7d") = .ok (.next s')) : s'.Synced owner n' := by
  obtain ⟨hin, rfl⟩ := close_of_next hsync.inv hstep
  refine ⟨hsync.inv.store.leave hin, ?_, ?_, ?_, ?_⟩
  · rw [leave_heap, hplaced]
    exact hsync.count
  · rw [leave_heap, hplaced]
    exact hsync.object
  · rw [hplaced]
    exact hsync.owner
  · rw [leave_model, hplaced]
    exact hsync.model

theorem Follows.close (h : s.Follows owner n) (hplace : n.place lib (ascii "\x7d") = some n')
    (hstep : s.step lib (ascii "\x7d") = .ok (.next s')) : s'.Follows owner n' := by
  obtain ⟨hsync, hat⟩ := h
  obtain ⟨e, hopened, hplaced⟩ := place_close hplace
  refine ⟨hsync.close hplaced hstep, ?_⟩
  obtain ⟨-, rfl⟩ := close_of_next hsync.inv hstep
  rw [hopened] at hat
  exact hat.store.leave

theorem Ahead.close (h : s.Ahead owner n) (hplace : n.place lib (ascii "\x7d") = some n')
    (hstep : s.step lib (ascii "\x7d") = .ok (.next s')) : s'.Ahead owner n' := by
  obtain ⟨hsync, e, hat⟩ := h
  obtain ⟨e', hopened, hplaced⟩ := place_close hplace
  refine ⟨hsync.close hplaced hstep, e', ?_⟩
  obtain ⟨-, rfl⟩ := close_of_next hsync.inv hstep
  rw [hopened] at hat
  exact hat.store.leave

theorem Behind.close (h : s.Behind owner n) (hplace : n.place lib (ascii "\x7d") = some n')
    (hstep : s.step lib (ascii "\x7d") = .ok (.next s')) : s'.Behind owner n' := by
  obtain ⟨hsync, -, hat, hnested⟩ := h
  obtain ⟨e, hopened, hplaced⟩ := place_close hplace
  have hsync' : s'.Synced owner n' := hsync.close hplaced hstep
  obtain ⟨hin, rfl⟩ := close_of_next hsync.inv hstep
  rw [hopened, List.tail_cons] at hat
  rw [hopened] at hnested
  obtain ⟨e', rest, hrest⟩ : ∃ e' rest, n'.opened = e' :: rest := by
    refine List.exists_cons_of_ne_nil fun hnil => ?_
    have hlevel := (hsync.inv.inModel hin).2
    rw [hat.level, hnil] at hlevel
    cases hlevel
  refine ⟨hsync', hrest ▸ List.cons_ne_nil e' rest, ?_, ?_⟩
  · rw [hrest] at hat ⊢
    exact hat.store.leave
  · rw [leave_heap]
    exact hnested.tail

/-- A statement is made in the model, and the parser takes it to have a list or not. -/
theorem Synced.made_of_next (hsync : s.Synced owner n) (hat : s.At (e :: opened))
    (hzero : 0 ∉ line) (htype : typeOfLine line = some type)
    (hstep : s.step lib line = .ok (.next s')) : s.stateInModel = true ∧
      type.onLevel s.indendation = true ∧
      (∃ owner', s'.Inv owner' ∧ s.heap.Made owner type (s.holder type) s'.heap owner') ∧
      (if entersList lib line type then s.enter s.heap.count type else s).Same s' ∧
      s'.model = s.model := by
  rcases statement_of_next hsync.inv hzero htype hstep with
    ⟨hin, hlevel, hmade, hsame⟩ | ⟨hin, -⟩
  · refine ⟨hin, hlevel, hmade, hsame, ?_⟩
    rw [hsame]
    split
    · exact enter_model
    · rfl
  · rw [hat.inModel hsync.inv] at hin
    cases hin

theorem Follows.statement_cons (h : s.Follows owner n) (hopened : n.opened = e :: opened)
    (hplace : n.place lib line = some n') (hline : line ≠ ascii "\x7d")
    (hstep : s.step lib line = .ok (.next s')) : ∃ owner',
      (seesList lib line = endsWithBrace line → s'.Follows owner' n') ∧
      (seesList lib line = true → endsWithBrace line = false → s'.Ahead owner' n') ∧
      (seesList lib line = false → endsWithBrace line = true → s'.Behind owner' n') := by
  obtain ⟨hsync, hat⟩ := h
  obtain ⟨type, htype, hwell, hadd⟩ := place_statement hplace hline
  obtain ⟨part, k⟩ := e
  obtain ⟨hpart, haddress, hopened', hplaced⟩ := add_cons hopened hadd
  have hsees : seesList lib line = entersList lib line type := by
    rw [seesList, htype]
    rfl
  rw [hopened] at hat
  obtain ⟨hin, -, ⟨owner', hinv, hmade⟩, hsame, hmodel⟩ :=
    hsync.made_of_next hat hwell.2.1 htype hstep
  have hplacedne : n.placed ≠ [] := by
    intro hnil
    have hlt := Heap.lt_of_typeOf hat.nested.typeOf
    rw [hsync.count, hnil] at hlt
    cases hlt
  obtain ⟨hsync', o, he, ho, hparent⟩ := hsync.statement hat hpart haddress hinv hmade
    (hmodel.trans (hsync.model hplacedne)) hplaced
  have henter : entersList lib line type = true → type.mayOpen = true →
      s'.At ((type, n.placed.length) :: n.opened) := by
    intro hlist hopen
    rw [if_pos hlist] at hsame
    rw [← hsync.count, hopened]
    exact hat.enter hpart hopen he ho hparent hsame rfl
  have hstay : entersList lib line type = false → s'.At n.opened := by
    intro hlist
    rw [hlist, if_neg Bool.false_ne_true] at hsame
    rw [hopened]
    exact hat.stay he hsame rfl
  have hopen : endsWithBrace line = true → type.mayOpen = true := by
    intro hbrace
    have htakes := hwell.2.2
    rw [hbrace] at htakes
    exact ObjectType.mayOpen_of_takesBrace hpart htakes
  refine ⟨owner', fun heq => ⟨hsync', ?_⟩, fun hlist hbrace => ⟨hsync', ?_⟩,
    fun hlist hbrace => ⟨hsync', ?_⟩⟩
  · rw [hsees] at heq
    rw [hopened', ← heq]
    cases hlist : entersList lib line type with
    | true =>
      rw [if_pos rfl]
      exact henter hlist (hopen (heq ▸ hlist))
    | false =>
      rw [if_neg Bool.false_ne_true]
      exact hstay hlist
  · refine ⟨(type, n.placed.length), ?_⟩
    rw [hopened', hbrace, if_neg Bool.false_ne_true]
    exact henter (hsees ▸ hlist) (ObjectType.mayOpen_of_entersList hpart (hsees ▸ hlist))
  · rw [hopened', hbrace, if_pos rfl]
    refine ⟨List.cons_ne_nil _ _, hstay (hsees ▸ hlist), ?_⟩
    have hat' := hstay (hsees ▸ hlist)
    have hn := hat'.nested
    rw [hopened] at hn ⊢
    refine .cons hn hpart (hopen hbrace) ?_ (fun hup => ?_) ?_
    · rw [← hsync.count]
      exact ho ▸ he.typeOf_new
    · rw [← hsync.count, Heap.parentOf_eq he.object_new, hparent, if_pos hup]
    · rw [← hsync.count]
      exact Heap.lt_of_typeOf hat.nested.typeOf

/-- The model is the first statement. -/
theorem Follows.statement_nil (h : s.Follows owner n) (hopened : n.opened = [])
    (hplace : n.place lib line = some n') (hline : line ≠ ascii "\x7d")
    (hstep : s.step lib line = .ok (.next s')) :
    s'.Follows owner n' ∧ seesList lib line = endsWithBrace line := by
  obtain ⟨hsync, hat⟩ := h
  obtain ⟨type, htype, hwell, hadd⟩ := place_statement hplace hline
  obtain ⟨rfl, hplaced, hopened', hplaced'⟩ := add_nil hopened hadd
  rw [hopened] at hat
  have hcount : s.heap.count = 0 := by
    rw [hsync.count, hplaced]
    rfl
  have hbrace : endsWithBrace line = true := hwell.2.2
  refine ⟨?_, ?_⟩
  · rcases statement_of_next hsync.inv hwell.2.1 htype hstep with
      ⟨hin, -⟩ | ⟨hin, -, hinv, name, heq⟩
    · have hone := (hsync.inv.inModel hin).2
      rw [hat.level] at hone
      cases hone
    · have he : s'.heap.Extends s.heap (.iedModel name) := by
        rw [heq]
        exact Heap.extends_make s.heap _
      have hmodel : s'.model = some 0 := by
        rw [heq, ← hcount]
      have hupdate : owner = Function.update owner s.heap.count none := by
        rw [← hsync.inv.heap.owner_eq_none le_rfl, Function.update_eq_self]
      have hnew : s'.heap.typeOf 0 = some .iedModel := hcount ▸ he.typeOf_new
      refine ⟨hsync.snoc hinv he hmodel hupdate ?_, ?_⟩
      · rw [hplaced', hplaced]
        rfl
      · rw [hopened']
        refine ⟨.model hnew, ?_, ?_, ?_, fun k hk => ?_⟩
        · rw [heq]
          rfl
        · intro t k rest h
          cases h
          exact hmodel
        · intro t k hmem _
          cases List.mem_singleton.mp hmem
          exact hmodel
        · rw [heq] at hk
          exact (hat.node k hk).imp he.typeOf he.typeOf
  · rw [hbrace, seesList, htype]
    rfl

/-- One level too deep, a part is made for another object. -/
theorem At.holder_ne_of_ahead (hat : s.At (e :: (part, k) :: opened)) (hpart : type ∈ part.parts)
    (hlevel : type.onLevel s.indendation = true) :
    type.refersUp = true ∧ s.holder type ≠ some k := by
  obtain ⟨inner, j⟩ := e
  have htop := hat.top inner j _ rfl
  rw [hat.level, List.length_cons, List.length_cons] at hlevel
  have hthree : s.indendation = opened.length + 2 := hat.level
  cases hat.nested with
  | cons hrest hpart' hopen _ _ hlt =>
    have hon := hrest.onLevel
    have hnode : inner = .dataObject ∨ inner = .dataAttribute → s.currentModelNode ≠ some k := by
      intro hinner heq
      have hj : s.currentModelNode = some j := by
        rcases hinner with rfl | rfl <;> exact htop
      exact hlt.ne (Option.some.inj (heq.symm.trans hj))
    cases part with
    | iedModel =>
      cases List.mem_singleton.mp hpart
      rcases hon with ⟨rfl, -⟩ | ⟨hon, -⟩
      · cases hlevel
      · cases hon
    | logicalDevice =>
      cases List.mem_singleton.mp hpart
      have h := of_decide_eq_true hlevel
      have h' := of_decide_eq_true (hon.resolve_left fun h => by cases h.2).1
      omega
    | logicalNode =>
      have h' : opened.length = 2 := of_decide_eq_true (hon.resolve_left fun h => by cases h.2).1
      rw [h'] at hlevel hthree
      cases type with
      | dataObject =>
        refine ⟨rfl, ?_⟩
        rw [Parser.holder, if_neg (by omega)]
        intro heq
        have htype := hrest.typeOf
        rcases hat.node k heq with h | h <;> cases htype.symm.trans h
      | _ => first | exact absurd hpart (by decide) | cases hlevel
    | dataObject =>
      have h' : 3 ≤ opened.length := of_decide_eq_true (hon.resolve_left fun h => by cases h.2).1
      have hinner : inner = .dataObject ∨ inner = .dataAttribute := by
        cases inner <;> first | exact Or.inl rfl | exact Or.inr rfl | exact absurd hpart' (by decide)
      cases type with
      | dataObject =>
        refine ⟨rfl, ?_⟩
        rw [Parser.holder, if_neg (by omega)]
        exact hnode hinner
      | dataAttribute => exact ⟨rfl, hnode hinner⟩
      | _ => exact absurd hpart (by decide)
    | dataAttribute =>
      cases List.mem_singleton.mp hpart
      exact ⟨rfl, hnode (Or.inr (List.mem_singleton.mp hpart'))⟩
    | dataSet | gseControlBlock =>
      cases List.mem_singleton.mp hpart'
      cases hopen
    | _ => cases hpart

/-- One level too high, a part is made for another object. -/
theorem At.holder_ne_of_behind (hat : s.At opened) (hnested : Nested s.heap ((part, k) :: opened))
    (hpart : type ∈ part.parts) (hlevel : type.onLevel s.indendation = true) :
    type.refersUp = true ∧ s.holder type ≠ some k := by
  rw [hat.level] at hlevel
  have hon := hnested.onLevel
  have hne : ∀ {t' k' rest}, opened = (t', k') :: rest → type ∈ t'.parts → k' < k →
      s.holder type ≠ some k := by
    rintro t' k' rest rfl hmem hlt heq
    exact hlt.ne (Option.some.inj ((hat.holder hmem).symm.trans heq))
  cases part with
  | iedModel =>
    cases List.mem_singleton.mp hpart
    rcases hon with ⟨rfl, -⟩ | ⟨hon, -⟩
    · cases hlevel
    · cases hon
  | logicalDevice =>
    cases List.mem_singleton.mp hpart
    have h := of_decide_eq_true hlevel
    have h' := of_decide_eq_true (hon.resolve_left fun h => by cases h.2).1
    omega
  | logicalNode =>
    have h' : opened.length = 2 := of_decide_eq_true (hon.resolve_left fun h => by cases h.2).1
    rw [h'] at hlevel
    cases type <;> first | exact absurd hpart (by decide) | cases hlevel
  | dataObject =>
    cases hnested with
    | @cons _ t' _ k' rest hrest hpart' _ _ _ hlt =>
      have hlength : 3 ≤ rest.length + 1 :=
        of_decide_eq_true (hon.resolve_left fun h => by cases h.2).1
      cases type with
      | dataObject => exact ⟨rfl, hne rfl hpart' hlt⟩
      | dataAttribute =>
        have hdeep : 3 < rest.length + 1 := of_decide_eq_true hlevel
        refine ⟨rfl, hne rfl ?_ hlt⟩
        cases t' with
        | logicalNode =>
          have h' : rest.length = 2 :=
            of_decide_eq_true (hrest.onLevel.resolve_left fun h => by cases h.2).1
          omega
        | dataObject => decide
        | _ => exact absurd hpart' (by decide)
      | _ => exact absurd hpart (by decide)
  | dataAttribute =>
    cases List.mem_singleton.mp hpart
    cases hnested with
    | cons _ hpart' _ _ _ hlt => exact ⟨rfl, hne rfl hpart' hlt⟩
  | dataSet | gseControlBlock =>
    cases List.mem_singleton.mp hpart
    have h := of_decide_eq_true hlevel
    have h' := of_decide_eq_true (hon.resolve_left fun h => by cases h.2).1
    omega
  | _ => cases hpart

theorem Ahead.statement (h : s.Ahead owner n) (hplace : n.place lib line = some n')
    (hline : line ≠ ascii "\x7d") (hstep : s.step lib line = .ok (.next s')) : s'.Astray n' := by
  obtain ⟨hsync, e, hat⟩ := h
  obtain ⟨type, htype, hwell, hadd⟩ := place_statement hplace hline
  obtain ⟨-, hlevel, ⟨owner', -, hmade⟩, -⟩ := hsync.made_of_next hat hwell.2.1 htype hstep
  obtain ⟨o, he, -, hparent⟩ := hmade.object
  cases hopened : n.opened with
  | nil =>
    obtain ⟨-, hplaced, -⟩ := add_nil hopened hadd
    have hlt := Heap.lt_of_typeOf hat.nested.typeOf
    rw [hsync.count, hplaced] at hlt
    cases hlt
  | cons e' opened =>
    obtain ⟨part, k⟩ := e'
    obtain ⟨hpart, -, -, hplaced⟩ := add_cons hopened hadd
    rw [hopened] at hat
    obtain ⟨hup, hne⟩ := hat.holder_ne_of_ahead hpart hlevel
    refine hsync.astray he hplaced ?_
    rw [hparent, if_pos hup, if_pos hup]
    exact hne

theorem Behind.statement (h : s.Behind owner n) (hplace : n.place lib line = some n')
    (hline : line ≠ ascii "\x7d") (hstep : s.step lib line = .ok (.next s')) : s'.Astray n' := by
  obtain ⟨hsync, hne, hat, hnested⟩ := h
  obtain ⟨type, htype, hwell, hadd⟩ := place_statement hplace hline
  obtain ⟨⟨part, k⟩, opened, hopened⟩ := List.exists_cons_of_ne_nil hne
  rw [hopened] at hat hnested
  obtain ⟨hpart, -, -, hplaced⟩ := add_cons hopened hadd
  rcases statement_of_next hsync.inv hwell.2.1 htype hstep with
    ⟨hin, hlevel, ⟨owner', -, hmade⟩, -⟩ | ⟨hin, rfl, -⟩
  · obtain ⟨o, he, -, hparent⟩ := hmade.object
    obtain ⟨hup, hne⟩ := hat.holder_ne_of_behind hnested hpart hlevel
    refine hsync.astray he hplaced ?_
    rw [hparent, if_pos hup, if_pos hup]
    exact hne
  · cases part <;> exact absurd hpart (by decide)

/-- Neither the objects nor the statements that are there change over a line. -/
theorem Astray.step (h : s.Astray n) (hinv : s.Inv owner) (hplace : n.place lib line = some n')
    (hstep : s.step lib line = .ok (.next s')) : s'.Astray n' := by
  by_cases hline : line = ascii "\x7d"
  · subst hline
    obtain ⟨e, -, hplaced⟩ := place_close hplace
    obtain ⟨hin, rfl⟩ := close_of_next hinv hstep
    have hobjects : (s.store (ascii "\x7d")).leave.heap.objects = s.heap.objects ++ [] := by
      rw [leave_heap, List.append_nil]
      rfl
    have hplaced' : n'.placed = n.placed ++ [] := by rw [List.append_nil, hplaced]
    exact h.grow hobjects hplaced'
  · obtain ⟨type, htype, hwell, hadd⟩ := place_statement hplace hline
    obtain ⟨placed, hplaced⟩ : ∃ placed, n'.placed = n.placed ++ placed := by
      cases hopened : n.opened with
      | nil =>
        obtain ⟨-, hnil, -, hplaced⟩ := add_nil hopened hadd
        exact ⟨_, by rw [hplaced, hnil, List.nil_append]⟩
      | cons e opened =>
        obtain ⟨-, -, -, hplaced⟩ := add_cons hopened hadd
        exact ⟨_, hplaced⟩
    rcases statement_of_next hinv hwell.2.1 htype hstep with
      ⟨-, -, ⟨owner', -, hmade⟩, -⟩ | ⟨-, -, -, name, heq⟩
    · obtain ⟨o, he, -⟩ := hmade.object
      exact h.grow he hplaced
    · have hobjects : s'.heap.objects = s.heap.objects ++ [.iedModel name] := by
        rw [heq]
        rfl
      exact h.grow hobjects hplaced

/-! ## A file that is accepted -/

theorem readLines_cons {heap : Heap}
    (h : s.readLines lib (line :: lines) = .ok (.model m heap)) :
    ∃ s', s.step lib line = .ok (.next s') ∧ s'.readLines lib lines = .ok (.model m heap) := by
  rw [readLines] at h
  obtain ⟨progress, hstep, h⟩ := bind_ok h
  cases progress with
  | next s' => exact ⟨s', hstep, h⟩
  | done result =>
    cases h
    rw [step] at hstep
    obtain ⟨-, -, hstep⟩ := bind_ok hstep
    obtain ⟨outcome, -, hstep⟩ := bind_ok hstep
    cases outcome with
    | next s' => cases hstep
    | exitError s' =>
      obtain ⟨freed, -, hstep⟩ := bind_ok hstep
      cases hstep

theorem readLines_nil {heap : Heap} (h : s.readLines lib [] = .ok (.model m heap)) :
    s.model = some m ∧ s.heap = heap := by
  rw [readLines, result] at h
  cases hmodel : s.model with
  | none =>
    rw [hmodel] at h
    cases h
  | some m' =>
    rw [hmodel] at h
    cases h
    exact ⟨rfl, rfl⟩

theorem placeAll_cons (h : placeAll lib n (line :: lines) = some n') :
    ∃ t, n.place lib line = some t ∧ placeAll lib t lines = some n' := by
  rw [placeAll] at h
  exact Option.bind_eq_some_iff.mp h

theorem placeAll_nil (h : placeAll lib n [] = some n') : n.opened = [] ∧ n' = n := by
  rw [placeAll] at h
  split at h
  · next hopened =>
    cases h
    exact ⟨List.isEmpty_iff.mp hopened, rfl⟩
  · cases h

section

variable {heap : Heap}

theorem Astray.run (h : s.Astray n) (hinv : s.Inv owner) (hplace : placeAll lib n lines = some n')
    (hread : s.readLines lib lines = .ok (.model m heap)) : ¬ Matches heap m n' := by
  induction lines generalizing s owner n with
  | nil =>
    obtain ⟨-, rfl⟩ := readLines_nil hread
    obtain ⟨-, rfl⟩ := placeAll_nil hplace
    exact h.not_matches
  | cons line lines ih =>
    obtain ⟨t, ht, hplace'⟩ := placeAll_cons hplace
    obtain ⟨s', hstep, hread'⟩ := readLines_cons hread
    obtain ⟨owner', hinv'⟩ := hinv.step hstep
    exact ih (h.step hinv ht hstep) hinv' hplace' hread'

theorem Ahead.run (h : s.Ahead owner n) (hplace : placeAll lib n lines = some n')
    (hread : s.readLines lib lines = .ok (.model m heap)) :
    Matches heap m n' ↔ ∀ l ∈ lines, l = ascii "\x7d" := by
  induction lines generalizing s n with
  | nil =>
    obtain ⟨hmodel, rfl⟩ := readLines_nil hread
    obtain ⟨-, rfl⟩ := placeAll_nil hplace
    exact iff_of_true (h.1.matches hmodel) fun l hl => by cases hl
  | cons line lines ih =>
    obtain ⟨t, ht, hplace'⟩ := placeAll_cons hplace
    obtain ⟨s', hstep, hread'⟩ := readLines_cons hread
    rw [List.forall_mem_cons]
    by_cases hline : line = ascii "\x7d"
    · subst hline
      exact (ih (h.close ht hstep) hplace' hread').trans (and_iff_right rfl).symm
    · obtain ⟨owner', hinv'⟩ := h.1.inv.step hstep
      exact iff_of_false ((h.statement ht hline hstep).run hinv' hplace' hread')
        fun hall => hline hall.1

/-- The last list of the parser is at its end before that of the last statement is. -/
theorem Behind.run (h : s.Behind owner n) (hplace : placeAll lib n lines = some n')
    (hread : s.readLines lib lines = .ok (.model m heap)) : ¬ Matches heap m n' := by
  induction lines generalizing s n with
  | nil =>
    obtain ⟨hopened, -⟩ := placeAll_nil hplace
    exact absurd hopened h.2.1
  | cons line lines ih =>
    obtain ⟨t, ht, hplace'⟩ := placeAll_cons hplace
    obtain ⟨s', hstep, hread'⟩ := readLines_cons hread
    by_cases hline : line = ascii "\x7d"
    · subst hline
      exact ih (h.close ht hstep) hplace' hread'
    · obtain ⟨owner', hinv'⟩ := h.1.inv.step hstep
      exact (h.statement ht hline hstep).run hinv' hplace' hread'

theorem Follows.run (h : s.Follows owner n) (hplace : placeAll lib n lines = some n')
    (hread : s.readLines lib lines = .ok (.model m heap)) :
    Matches heap m n' ↔ BracesSeen lib lines := by
  induction lines generalizing s owner n with
  | nil =>
    obtain ⟨hmodel, rfl⟩ := readLines_nil hread
    obtain ⟨-, rfl⟩ := placeAll_nil hplace
    exact iff_of_true (h.1.matches hmodel) trivial
  | cons line lines ih =>
    obtain ⟨t, ht, hplace'⟩ := placeAll_cons hplace
    obtain ⟨s', hstep, hread'⟩ := readLines_cons hread
    rw [BracesSeen]
    by_cases hline : line = ascii "\x7d"
    · subst hline
      rw [if_pos (by rfl)]
      exact ih (h.close ht hstep) hplace' hread'
    · cases hopened : n.opened with
      | nil =>
        obtain ⟨h', hseen⟩ := h.statement_nil hopened ht hline hstep
        rw [if_pos hseen]
        exact ih h' hplace' hread'
      | cons e opened =>
        obtain ⟨owner', hfollows, hahead, hbehind⟩ := h.statement_cons hopened ht hline hstep
        split
        · next hseen => exact ih (hfollows hseen) hplace' hread'
        · next hseen =>
          cases hlist : seesList lib line with
          | true =>
            have hbrace : endsWithBrace line = false := by
              rw [hlist] at hseen
              exact Bool.eq_false_iff.mpr fun h => hseen h.symm
            rw [closes_iff]
            exact ((hahead hlist hbrace).run hplace' hread').trans (and_iff_right rfl).symm
          | false =>
            have hbrace : endsWithBrace line = true := by
              rw [hlist] at hseen
              exact Bool.eq_true_of_not_eq_false fun h => hseen h.symm
            exact iff_of_false ((hbehind hlist hbrace).run hplace' hread') fun h => by cases h.1

end

end

theorem follows_start (lineBuffer : List UInt8) :
    (start lineBuffer).Follows (fun _ => none) .start := by
  have hsync : (start lineBuffer).Synced (fun _ => none) .start :=
    { inv := inv_start lineBuffer
      count := rfl
      object := fun _ _ h => by cases h
      owner := fun _ _ h => by cases h
      model := fun h => absurd rfl h }
  have hat : (start lineBuffer).At [] :=
    { nested := .nil
      level := rfl
      top := fun _ _ _ h => by cases h
      kept := fun _ _ h => by cases h
      node := fun _ h => by cases h }
  exact ⟨hsync, hat⟩

end

end Parser

/-- The functions of the library for numbers that are written with digits only. -/
def decimalLibrary : CLibrary where
  int := number
  unsigned := number
  isFloat text := (number text).isSome
  isDouble text := (number text).isSome
where
  isDigit (b : UInt8) : Bool := 48 ≤ b && b ≤ 57
  number (text : List UInt8) : Option (Int × List UInt8) :=
    if text.takeWhile isDigit = [] then none
    else some ((text.takeWhile isDigit).foldl (fun n b => n * 10 + (b.toNat - 48)) 0,
      text.dropWhile isDigit)

def smallFile : List UInt8 :=
  ascii "MODEL(ied)\x7b\nLD(a)\x7b\nLN(b)\x7b\nDO(c 0)\x7b\nDA(d 0 3 0 1 0)=7;\n\x7d\n" ++
    ascii "DS(e)\x7b\nDE(f);\n\x7d\n\x7d\n\x7d\n\x7d\n"

end Iec61850.ConfigFile
