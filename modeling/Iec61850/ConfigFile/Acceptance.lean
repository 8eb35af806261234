import Iec61850.ConfigFile.NestingAgreement

/-! Every file with matching braces whose statements can be read is accepted. -/

namespace Iec61850.ConfigFile

open Machine SiblingLists

/-- The value of an attribute is of the kind of its type. -/
def readableValue (lib : CLibrary) (kind : ValueKind) (line : List UInt8) : Bool :=
  match valueText line with
  | none => true
  | some text =>
    let number := text.dropWhile isSpace
    match kind with
    | .mmsString | .visibleString => text ≠ []
    | .integer | .boolean => (lib.int number).isSome
    | .unsigned => (lib.unsigned number).isSome
    | .float => lib.isFloat number
    | .double => lib.isDouble number
    | .other => true

/-- The address has six octets. -/
def readableAddress (values : List Scanned) : Bool :=
  match values with
  | [_, _, _, .name name] => (Parser.addressOf name).isSome
  | _ => false

/-- The line and its names fit, and its value is one. -/
def Readable (lib : CLibrary) (type : ObjectType) (line : List UInt8) : Prop :=
  line.length < READ_BUFFER_MAX_SIZE ∧ (sscanf lib type line).all (·.fits) = true ∧
    (type = .dataAttribute → readableValue lib
      (valueKind (numberAt (sscanf lib .dataAttribute line) 2)) line = true) ∧
    (type = .phyComAddress → readableAddress (sscanf lib .phyComAddress line) = true)

instance (lib : CLibrary) (type : ObjectType) (line : List UInt8) :
    Decidable (Readable lib type line) := inferInstanceAs (Decidable (_ ∧ _))

namespace Parser

section

variable {lib : CLibrary} {s s' : Parser} {owner : Nat → Option Slot} {line : List UInt8}
  {lines : List (List UInt8)} {type part : ObjectType} {k : Nat} {e : ObjectType × Nat}
  {opened : List (ObjectType × Nat)} {n n' : Nesting}

theorem goesOn_of_verdict (hinv : s.Inv owner) (h : s.verdict lib line = .goesOn) :
    ∃ s', s.step lib line = .ok (.next s') := by
  have hcomes := step_comes lib line hinv
  rw [h] at hcomes
  generalize s.step lib line = x at hcomes
  cases hcomes with
  | goesOn => exact ⟨_, rfl⟩

theorem nameOf_of_complete {values : List Scanned} {format : List Conversion}
    (h : List.Forall₂ Finds (.name :: format) values) : nameOf values ≠ none := by
  obtain ⟨name, rest, rfl, -⟩ := finds_name h
  exact Option.some_ne_none name

theorem scanned_of_names {v : Verdict} (h : (sscanf lib type line).all (·.fits) = true) :
    Verdict.scanned lib type line v = v := if_pos h

theorem named_of_complete {format : List Conversion} {v : Verdict}
    (hformat : type.format = .name :: format) (h : Complete lib type line) :
    Verdict.named s (sscanf lib type line) v = v := by
  have hname := nameOf_of_complete (hformat ▸ h.finds)
  obtain ⟨name, hname⟩ := Option.ne_none_iff_exists'.mp hname
  rw [Verdict.named, hname]
  exact if_neg (Option.some_ne_none name)

theorem value_goesOn {kind : ValueKind} {rest : List UInt8}
    (h : readableValue lib kind line = true) :
    Verdict.value lib kind line (line ++ 0 :: rest) = .goesOn := by
  rw [Verdict.value]
  rw [readableValue] at h
  cases htext : valueText line with
  | none => rfl
  | some text =>
    rw [htext] at h
    obtain ⟨before, rfl⟩ := valueText_eq htext
    cases kind with
    | mmsString | visibleString =>
      refine if_pos ?_
      have hlength := List.length_pos_iff.mpr (of_decide_eq_true h)
      rw [List.drop_append_of_le_length (by rw [List.length_append, List.length_cons]; omega)]
      exact List.mem_append_right _ (List.mem_cons_self ..)
    | integer | boolean | unsigned | float | double => exact if_pos h
    | other => rfl

theorem statement_goesOn (hat : s.At ((part, k) :: opened)) (hpart : type ∈ part.parts)
    (hcomplete : Complete lib type line) (hread : Readable lib type line)
    {rest : List UInt8} (hbuffer : s.lineBuffer = line ++ 0 :: rest) :
    Verdict.statement lib s line type = .goesOn := by
  have hholder := hat.holder hpart
  have hsome : ∀ {reference : Option Nat} {v : Verdict}, reference = some k →
      Verdict.pointer reference v = v := by
    rintro _ v rfl
    exact if_neg (Option.some_ne_none k)
  cases type with
  | iedModel => cases part <;> exact absurd hpart (by decide)
  | logicalDevice | logicalNode | reportControlBlock | gseControlBlock =>
    exact (scanned_of_names hread.2.1).trans (if_pos hcomplete)
  | dataObject =>
    rw [Verdict.statement]
    split
    · exact (scanned_of_names hread.2.1).trans (named_of_complete rfl hcomplete)
    · next hlevel =>
      rw [holder, if_neg hlevel] at hholder
      rw [scanned_of_names hread.2.1, Verdict.complete, if_pos hcomplete]
      exact hsome hholder
  | dataAttribute =>
    rw [holder] at hholder
    rw [Verdict.statement, scanned_of_names hread.2.1, named_of_complete rfl hcomplete,
      hsome hholder, hbuffer]
    exact value_goesOn (hread.2.2.1 rfl)
  | dataSet => exact (scanned_of_names hread.2.1).trans (named_of_complete rfl hcomplete)
  | dataSetEntry =>
    rw [Verdict.statement, scanned_of_names hread.2.1, named_of_complete rfl hcomplete]
    exact hsome hholder
  | phyComAddress =>
    rw [Verdict.statement, scanned_of_names hread.2.1, Verdict.complete, if_pos hcomplete]
    obtain ⟨vlanPrio, vlanId, appId, name, hvalues⟩ := phyComAddress_values hcomplete
    have haddress := hread.2.2.2 rfl
    rw [hvalues] at haddress ⊢
    have hgcb : s.currentGoCB ≠ none := by
      rw [show s.currentGoCB = some k from hholder]
      exact Option.some_ne_none k
    exact if_pos ⟨hgcb, Option.isSome_iff_ne_none.mp haddress⟩

theorem verdict_eq (hlength : line.length < READ_BUFFER_MAX_SIZE)
    (h : (s.store line).verdictOf lib (cString line) = .goesOn) : s.verdict lib line = .goesOn := by
  rw [verdict, if_neg (Nat.not_le_of_lt hlength), h]

/-- A closing brace is read as long as there is a list that it can close. -/
theorem verdict_close (lib : CLibrary) (hinv : s.Inv owner) (hat : s.At (e :: opened)) :
    s.verdict lib (ascii "\x7d") = .goesOn := by
  refine verdict_eq (by decide) ?_
  have hin : (s.store (ascii "\x7d")).stateInModel = true := hat.inModel hinv
  rw [verdictOf, if_pos hin, if_pos (by rfl)]
  split
  · next hdeep =>
    rw [hat.store.currentModelNode hdeep]
    exact if_neg (Option.some_ne_none _)
  · rfl

theorem verdict_statement (hsync : s.Synced owner n) (hat : s.At ((part, k) :: opened))
    (hpart : type ∈ part.parts) (htype : typeOfLine line = some type)
    (hwell : WellFormed lib type line) (hread : Readable lib type line) :
    s.verdict lib line = .goesOn := by
  refine verdict_eq hread.1 ?_
  have hzero := hwell.2.1
  rw [cString_eq_self hzero]
  have hin : (s.store line).stateInModel = true := hat.inModel hsync.inv
  have hlevel : type.onLevel (s.store line).indendation = true := by
    rw [show (s.store line).indendation = opened.length + 1 from hat.level]
    exact hat.nested.onLevel_part hpart
  have hcomplete : Complete lib type line := by
    rcases hwell.1 with ⟨rfl, -⟩ | ⟨hcomplete, -⟩
    · cases part <;> exact absurd hpart (by decide)
    · exact hcomplete
  rw [verdictOf, if_pos hin, not_close_of_typeOfLine htype, if_neg Bool.false_ne_true, htype]
  simp only
  rw [if_pos hlevel]
  exact statement_goesOn hat.store hpart hcomplete hread rfl

theorem verdict_model (hin : s.stateInModel = false) (htype : typeOfLine line = some .iedModel)
    (hwell : WellFormed lib .iedModel line) (hread : Readable lib .iedModel line) :
    s.verdict lib line = .goesOn := by
  refine verdict_eq hread.1 ?_
  rw [cString_eq_self hwell.2.1, verdictOf, show (s.store line).stateInModel = false from hin,
    if_neg Bool.false_ne_true]
  split
  · rfl
  · next hbrace =>
    rcases hwell.1 with ⟨-, rfl⟩ | ⟨hcomplete, -⟩
    · exact absurd rfl hbrace
    · have hname : startsWith line (ascii "MODEL(") = true := by
        by_contra hnot
        rw [Complete, sscanf] at hcomplete
        split at hcomplete
        · next hstart => exact hnot hstart
        · cases hcomplete
      rw [if_pos hname, scanned_of_names hread.2.1, named_of_complete rfl hcomplete]

/-! ## Files that are accepted -/

theorem Synced.placed_ne_nil (hsync : s.Synced owner n) (hat : s.At (e :: opened)) :
    n.placed ≠ [] := by
  intro hnil
  have hlt := Heap.lt_of_typeOf hat.nested.typeOf
  rw [hsync.count, hnil] at hlt
  cases hlt

/-- Behind a list that is not there all closing braces are read. -/
theorem Ahead.accepts (h : s.Ahead owner n) (hplace : placeAll lib n lines = some n')
    (hlines : ∀ l ∈ lines, l = ascii "\x7d") :
    ∃ heap, s.readLines lib lines = .ok (.model 0 heap) := by
  induction lines generalizing s n with
  | nil =>
    obtain ⟨hsync, e, hat⟩ := h
    refine ⟨s.heap, ?_⟩
    rw [readLines, result, hsync.model (hsync.placed_ne_nil hat)]
  | cons line lines ih =>
    obtain ⟨hline, hlines'⟩ := List.forall_mem_cons.mp hlines
    subst hline
    obtain ⟨t, ht, hplace'⟩ := placeAll_cons hplace
    obtain ⟨hsync, e, hat⟩ := id h
    obtain ⟨s', hstep⟩ := goesOn_of_verdict hsync.inv (verdict_close lib hsync.inv hat)
    obtain ⟨heap, hread⟩ := ih (h.close ht hstep) hplace' hlines'
    refine ⟨heap, ?_⟩
    rw [readLines, hstep]
    exact hread

theorem Follows.accepts (h : s.Follows owner n) (hplace : placeAll lib n lines = some n')
    (hsome : n.placed ≠ [] ∨ lines ≠ [])
    (hread : ∀ line ∈ lines, ∀ type ∈ typeOfLine line, Readable lib type line)
    (hbraces : BracesSeen lib lines) :
    ∃ heap, s.readLines lib lines = .ok (.model 0 heap) := by
  induction lines generalizing s owner n with
  | nil =>
    refine ⟨s.heap, ?_⟩
    rw [readLines, result, h.1.model (hsome.resolve_right fun h => h rfl)]
  | cons line lines ih =>
    obtain ⟨t, ht, hplace'⟩ := placeAll_cons hplace
    obtain ⟨hline, hread'⟩ := List.forall_mem_cons.mp hread
    obtain ⟨hsync, hat⟩ := id h
    have hgo : ∀ {s'}, s.step lib line = .ok (.next s') →
        (∃ heap, s'.readLines lib lines = .ok (.model 0 heap)) →
        ∃ heap, s.readLines lib (line :: lines) = .ok (.model 0 heap) := by
      rintro s' hstep ⟨heap, hheap⟩
      refine ⟨heap, ?_⟩
      rw [readLines, hstep]
      exact hheap
    rw [BracesSeen] at hbraces
    by_cases hclose : line = ascii "\x7d"
    · subst hclose
      obtain ⟨e, hopened, hplaced⟩ := place_close ht
      rw [hopened] at hat
      obtain ⟨s', hstep⟩ := goesOn_of_verdict hsync.inv (verdict_close lib hsync.inv hat)
      rw [if_pos (by rfl)] at hbraces
      refine hgo hstep (ih (h.close ht hstep) hplace' (Or.inl ?_) hread' hbraces)
      rw [hplaced]
      exact hsync.placed_ne_nil hat
    · obtain ⟨type, htype, hwell, hadd⟩ := place_statement ht hclose
      cases hopened : n.opened with
      | nil =>
        obtain ⟨rfl, -, -, hplaced⟩ := add_nil hopened hadd
        have hin : s.stateInModel = false := by
          cases hin : s.stateInModel with
          | false => rfl
          | true =>
            have hone := (hsync.inv.inModel hin).2
            rw [hat.level, hopened] at hone
            cases hone
        obtain ⟨s', hstep⟩ := goesOn_of_verdict hsync.inv
          (verdict_model hin htype hwell (hline _ htype))
        obtain ⟨h', hseen⟩ := h.statement_nil hopened ht hclose hstep
        rw [if_pos hseen] at hbraces
        refine hgo hstep (ih h' hplace' (Or.inl ?_) hread' hbraces)
        rw [hplaced]
        exact List.cons_ne_nil _ _
      | cons e opened =>
        obtain ⟨part, k⟩ := e
        obtain ⟨hpart, -, -, hplaced⟩ := add_cons hopened hadd
        rw [hopened] at hat
        obtain ⟨s', hstep⟩ := goesOn_of_verdict hsync.inv
          (verdict_statement hsync hat hpart htype hwell (hline _ htype))
        obtain ⟨owner', hfollows, hahead, -⟩ := h.statement_cons hopened ht hclose hstep
        split at hbraces
        · next hseen =>
          refine hgo hstep (ih (hfollows hseen) hplace' (Or.inl ?_) hread' hbraces)
          rw [hplaced]
          simp
        · next hseen =>
          have hbrace : endsWithBrace line = false := by
            rw [hbraces.1] at hseen
            exact Bool.eq_false_iff.mpr fun h => hseen h.symm
          exact hgo hstep ((hahead hbraces.1 hbrace).accepts hplace' (closes_iff.mp hbraces.2))

end

end Parser

/-- A file with statements in their places, of which each can be read and the braces are seen, is
accepted, and the model has the links of the statements. -/
theorem accepts_of_nestingOf (lib : CLibrary) (lineBuffer file : List UInt8) (n : Nesting)
    (hnesting : nestingOf lib (linesOf file) = some n) (hsome : linesOf file ≠ [])
    (hread : ∀ line ∈ linesOf file, ∀ type ∈ typeOfLine line, Readable lib type line)
    (hbraces : BracesSeen lib (linesOf file)) :
    ∃ heap, createModelFromConfigFile lib lineBuffer file = .ok (.model 0 heap) ∧
      Matches heap 0 n := by
  obtain ⟨heap, hheap⟩ := (Parser.follows_start lineBuffer).accepts hnesting (Or.inr hsome) hread
    hbraces
  refine ⟨heap, (Parser.parseFile_iff (Nat.lt_succ_self _)).mpr hheap, ?_⟩
  exact ((Parser.follows_start lineBuffer).run hnesting hheap).mpr hbraces

theorem smallFile_accepted : ∃ n heap,
    createModelFromConfigFile decimalLibrary [] smallFile = .ok (.model 0 heap) ∧
      Matches heap 0 n := by
  obtain ⟨heap, h⟩ := accepts_of_nestingOf decimalLibrary [] smallFile _ rfl (by decide) (by decide)
    (by decide)
  exact ⟨_, heap, h⟩

end Iec61850.ConfigFile
