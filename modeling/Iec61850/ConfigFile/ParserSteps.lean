import Iec61850.ConfigFile.Nesting
import Iec61850.ConfigFile.Parser

/-! What a line of a configuration file comes to in a state of the parser, and what is made for
it. -/

namespace Iec61850.ConfigFile

open Machine SiblingLists

inductive Verdict
  | goesOn | refused | faulty
  deriving DecidableEq

namespace Verdict

/-- The names have to fit, whatever comes of the line. -/
def scanned (lib : CLibrary) (type : ObjectType) (line : List UInt8) (v : Verdict) : Verdict :=
  if (sscanf lib type line).all (·.fits) then v else .faulty

def complete (lib : CLibrary) (type : ObjectType) (line : List UInt8) (v : Verdict) : Verdict :=
  if Complete lib type line then v else .refused

/-- There has to be a name, on this line or before. -/
def named (s : Parser) (values : List Scanned) (v : Verdict) : Verdict :=
  if (nameOf values).or s.nameString = none then .faulty else v

def pointer (reference : Option Nat) (v : Verdict) : Verdict :=
  if reference = none then .faulty else v

/-- A string has to have an end in the buffer. -/
def value (lib : CLibrary) (kind : ValueKind) (line lineBuffer : List UInt8) : Verdict :=
  match valueText line with
  | none => .goesOn
  | some text =>
    let number := text.dropWhile isSpace
    match kind with
    | .mmsString | .visibleString =>
      if 0 ∈ lineBuffer.drop (line.length - text.length + 1) then .goesOn else .faulty
    | .integer | .boolean => if (lib.int number).isSome then .goesOn else .refused
    | .unsigned => if (lib.unsigned number).isSome then .goesOn else .refused
    | .float => if lib.isFloat number then .goesOn else .refused
    | .double => if lib.isDouble number then .goesOn else .refused
    | .other => .goesOn

/-- The address of a block is a complete line with six octets, below a block. -/
def address (s : Parser) (values : List Scanned) : Verdict :=
  match values with
  | [_, _, _, .name name] =>
    if s.currentGoCB ≠ none ∧ Parser.addressOf name ≠ none then .goesOn else .refused
  | _ => .refused

/-- A statement on a level where there is such a one. -/
def statement (lib : CLibrary) (s : Parser) (line : List UInt8) : ObjectType → Verdict
  | .iedModel => .refused
  | .logicalDevice => scanned lib .logicalDevice line (complete lib .logicalDevice line .goesOn)
  | .logicalNode => scanned lib .logicalNode line (complete lib .logicalNode line .goesOn)
  | .dataObject =>
    if s.indendation = 3 then
      scanned lib .dataObject line (named s (sscanf lib .dataObject line) .goesOn)
    else
      scanned lib .dataObject line
        (complete lib .dataObject line (pointer s.currentModelNode .goesOn))
  | .dataAttribute =>
    scanned lib .dataAttribute line (named s (sscanf lib .dataAttribute line)
      (pointer s.currentModelNode
        (value lib (valueKind (numberAt (sscanf lib .dataAttribute line) 2)) line s.lineBuffer)))
  | .dataSet => scanned lib .dataSet line (named s (sscanf lib .dataSet line) .goesOn)
  | .dataSetEntry =>
    scanned lib .dataSetEntry line
      (named s (sscanf lib .dataSetEntry line) (pointer s.currentDataSet .goesOn))
  | .reportControlBlock =>
    scanned lib .reportControlBlock line (complete lib .reportControlBlock line .goesOn)
  | .gseControlBlock =>
    scanned lib .gseControlBlock line (complete lib .gseControlBlock line .goesOn)
  | .phyComAddress =>
    scanned lib .phyComAddress line
      (complete lib .phyComAddress line (address s (sscanf lib .phyComAddress line)))

end Verdict

/-- The levels that a statement can be on. -/
def ObjectType.onLevel (indendation : Nat) : ObjectType → Bool
  | iedModel => false
  | logicalDevice => indendation = 1
  | logicalNode => indendation = 2
  | dataObject => 3 ≤ indendation
  | dataSet | reportControlBlock | gseControlBlock => indendation = 3
  | dataAttribute | dataSetEntry | phyComAddress => 3 < indendation

namespace Parser

def verdictOf (lib : CLibrary) (s : Parser) (line : List UInt8) : Verdict :=
  if s.stateInModel then
    if startsWith line (ascii "\x7d") then
      if 4 < s.indendation then .pointer s.currentModelNode .goesOn else .goesOn
    else
      match typeOfLine line with
      | none => .refused
      | some type =>
        if type.onLevel s.indendation then .statement lib s line type else .refused
  else if startsWith line (ascii "MODEL\x7b") then .goesOn
  else if startsWith line (ascii "MODEL(") then
    .scanned lib .iedModel line (.named s (sscanf lib .iedModel line) .goesOn)
  else .refused

/-- The line has to fit into the buffer, and there has to be a model that can be let go. -/
def verdict (lib : CLibrary) (s : Parser) (line : List UInt8) : Verdict :=
  if READ_BUFFER_MAX_SIZE ≤ line.length then .faulty
  else
    match (s.store line).verdictOf lib (cString line) with
    | .refused => if s.model = none then .faulty else .refused
    | v => v

/-- The object that the object of a statement is made for. -/
def holder (s : Parser) : ObjectType → Option Nat
  | .iedModel => none
  | .logicalDevice => s.model
  | .logicalNode => s.currentLD
  | .dataObject => if s.indendation = 3 then s.currentLN else s.currentModelNode
  | .dataAttribute => s.currentModelNode
  | .dataSet | .reportControlBlock | .gseControlBlock => s.currentLN
  | .dataSetEntry => s.currentDataSet
  | .phyComAddress => s.currentGoCB

/-- The statements behind are in the list of the object. -/
def enter (s : Parser) (n : Nat) : ObjectType → Parser
  | .logicalDevice => { s with indendation := s.indendation + 1, currentLD := some n }
  | .logicalNode => { s with indendation := s.indendation + 1, currentLN := some n }
  | .dataObject | .dataAttribute =>
    { s with indendation := s.indendation + 1, currentModelNode := some n }
  | .dataSet => { s with indendation := s.indendation + 1, currentDataSet := some n }
  | .gseControlBlock => { s with indendation := s.indendation + 1, currentGoCB := some n }
  | _ => s

/-- The list of the object is at its end. -/
def leave (s : Parser) : Parser :=
  if s.indendation = 1 then { s with stateInModel := false, indendation := 0 }
  else if s.indendation ≤ 4 then { s with indendation := s.indendation - 1 }
  else
    { s with currentModelNode := s.currentModelNode.bind s.heap.parentOf,
             indendation := s.indendation - 1 }

end Parser

/-- The line as it is in the buffer when the value has been read. -/
def cutLine (kind : ValueKind) (line : List UInt8) : List UInt8 :=
  match valueText line with
  | none => line
  | some text =>
    match kind with
    | .mmsString | .visibleString =>
      line.take (line.length - text.length + 1) ++ terminateString (text.drop 1) 34
    | _ => line

/-- The parser takes a statement to have a list. -/
def entersList (lib : CLibrary) (line : List UInt8) : ObjectType → Bool
  | .reportControlBlock | .dataSetEntry | .phyComAddress => false
  | .dataAttribute => endsWithBrace
      (cutLine (valueKind (numberAt (sscanf lib .dataAttribute line) 2)) line)
  | _ => true

/-! ## Objects that are lost -/

namespace Heap

/-- An object that is made would not be linked, or another one not any more. -/
def Loses (h : Heap) (holder : Option Nat) : ObjectType → Prop
  | .dataObject => ∃ p, holder = some p ∧ ¬ h.Takes (.children p) .dataObject
  | .dataAttribute => ∃ p, holder = some p ∧ ¬ h.Takes (.children p) .dataAttribute
  | .phyComAddress => ∃ p, holder = some p ∧ h.links.first (.children p) ≠ none
  | _ => False

/-- An object of the type is made. It is in its list, or something is lost. -/
structure Made (h : Heap) (owner : Nat → Option Slot) (type : ObjectType) (holder : Option Nat)
    (h' : Heap) (owner' : Nat → Option Slot) : Prop where
  object : ∃ o, h'.Extends h o ∧ o.type = type ∧
    o.parent = if type.refersUp then holder else none
  heap : h'.Inv owner'
  owner : ¬ h.Loses holder type ∧
      (∃ p m, holder = some p ∧ (type.inModelList = true → h.IsModel p m) ∧
        owner' = Function.update owner h.count (some (type.slotIn p m))) ∨
    h.Loses holder type ∧ ∀ m, h.typeOf m = some .iedModel → h'.Lost owner' (some m)

/-- An object of the type is made, and is what is returned. -/
def Makes (h : Heap) (owner : Nat → Option Slot) (type : ObjectType) (holder : Option Nat)
    (x : Exec (Heap × Nat)) : Prop :=
  ∃ h' owner', x = .ok (h', h.count) ∧ h.Made owner type holder h' owner'

section

variable {h : Heap} {owner : Nat → Option Slot} {o : Object} {n p m : Nat} {slot : Slot}
  {type : ObjectType} {x : Exec (Heap × Nat)} {reference : Option Nat}

theorem parent_eq_none (h : o.type.refersUp = false) : o.parent = none := by
  cases o <;> first | rfl | cases h

theorem Created.makes (hcreated : h.Created owner x o slot) (htype : o.type = type)
    (hparent : o.parent = if type.refersUp then some p else none)
    (hslot : slot = type.slotIn p m) (hloses : ¬ h.Loses (some p) type)
    (hmodel : type.inModelList = true → h.IsModel p m) :
    h.Makes owner type (some p) x := by
  obtain ⟨h', rfl, he, hinv⟩ := hcreated
  exact ⟨h', _, rfl, ⟨o, he, htype, hparent⟩, hinv, Or.inl ⟨hloses, p, m, rfl, hmodel, hslot ▸ rfl⟩⟩

theorem Unlinked.makes (hinv : h.Inv owner) (hunlinked : h.Unlinked owner x o)
    (htype : o.type = type) (hparent : o.parent = if type.refersUp then some p else none)
    (hloses : h.Loses (some p) type) : h.Makes owner type (some p) x := by
  obtain ⟨h', rfl, he, hinv'⟩ := hunlinked
  exact ⟨h', owner, rfl, ⟨o, he, htype, hparent⟩, hinv',
    Or.inr ⟨hloses, fun m hm => he.lost_of_unlinked hinv hm⟩⟩

theorem Inv.makes_logicalDevice (hinv : h.Inv owner) (href : h.Refers reference .iedModel)
    (name : List UInt8) :
    h.Makes owner .logicalDevice reference (LogicalDevice_create h name reference) := by
  obtain ⟨m, rfl, hm⟩ := href
  exact (hinv.created_logicalDevice hm name).makes (m := m) rfl rfl rfl not_false
    fun h => by cases h

theorem Inv.makes_logicalNode (hinv : h.Inv owner) (href : h.Refers reference .logicalDevice)
    (name : List UInt8) :
    h.Makes owner .logicalNode reference (LogicalNode_create h name reference) := by
  obtain ⟨n, rfl, hn⟩ := href
  exact (hinv.created_logicalNode hn name).makes (m := n) rfl rfl rfl not_false fun h => by cases h

theorem Inv.makes_dataSet (hinv : h.Inv owner) (href : h.Refers reference .logicalNode)
    (name : List UInt8) : h.Makes owner .dataSet reference (DataSet_create h name reference) := by
  obtain ⟨n, rfl, hn⟩ := href
  obtain ⟨ld, m, o, hld, hm, htype, hcreated⟩ := hinv.created_dataSet hn name
  exact hcreated.makes htype (parent_eq_none (by rw [htype]; rfl)) rfl not_false
    fun _ => ⟨ld, hld, hm⟩

theorem Inv.makes_dataSetEntry (hinv : h.Inv owner) (href : h.Refers reference .dataSet)
    (name : List UInt8) (index : Int) :
    h.Makes owner .dataSetEntry reference (DataSetEntry_create h reference name index) := by
  obtain ⟨n, rfl, hn⟩ := href
  obtain ⟨o, htype, hcreated⟩ := hinv.created_dataSetEntry hn name index
  exact hcreated.makes (m := n) htype (parent_eq_none (by rw [htype]; rfl)) rfl not_false
    fun h => by cases h

theorem Inv.makes_reportControlBlock (hinv : h.Inv owner) (href : h.Refers reference .logicalNode)
    (name : List UInt8) (rptId : Option (List UInt8)) (isBuffered : Bool)
    (dataSetName : Option (List UInt8)) (confRef : Int) (trgOps options : UInt8)
    (bufTm intgPd : Int) : h.Makes owner .reportControlBlock reference
      (ReportControlBlock_create h name reference rptId isBuffered dataSetName confRef trgOps
        options bufTm intgPd) := by
  obtain ⟨n, rfl, hn⟩ := href
  obtain ⟨ld, m, hld, hm, hcreated⟩ := hinv.created_reportControlBlock hn name rptId isBuffered
    dataSetName confRef trgOps options bufTm intgPd
  exact hcreated.makes rfl rfl rfl not_false fun _ => ⟨ld, hld, hm⟩

theorem Inv.makes_gseControlBlock (hinv : h.Inv owner) (href : h.Refers reference .logicalNode)
    (name appId dataSet : List UInt8) (confRef : Int) (fixedOffs : Bool) :
    h.Makes owner .gseControlBlock reference
      (GSEControlBlock_create h name reference appId dataSet confRef fixedOffs) := by
  obtain ⟨n, rfl, hn⟩ := href
  obtain ⟨ld, m, hld, hm, hcreated⟩ := hinv.created_gseControlBlock hn name appId dataSet confRef
    fixedOffs
  exact hcreated.makes rfl rfl rfl not_false fun _ => ⟨ld, hld, hm⟩

theorem takes_children_iff (hn : h.typeOf n = some type) {part : ObjectType} :
    h.Takes (.children n) part ↔ part ∈ type.children := by
  constructor
  · rintro ⟨holder, hholder, hmem⟩
    cases hn.symm.trans hholder
    exact hmem
  · exact fun hmem => ⟨type, hn, hmem⟩

theorem Inv.makes_dataObject (hinv : h.Inv owner) (href : h.Refers reference type)
    (name : List UInt8) (arrayElements : Int) :
    h.Makes owner .dataObject reference (DataObject_create h name reference arrayElements) := by
  obtain ⟨n, rfl, hn⟩ := href
  have hmade := hinv.dataObject_eq hn name arrayElements
  have htakes := (takes_children_iff hn).trans (mem_parents_dataObject type).symm
  split at hmade
  · next hmem =>
    refine Created.makes (m := n) hmade rfl rfl rfl ?_ (fun h => by cases h)
    rintro ⟨p, hp, hnot⟩
    cases hp
    exact hnot (htakes.mpr hmem)
  · next hmem => exact Unlinked.makes hinv hmade rfl rfl ⟨n, rfl, fun h => hmem (htakes.mp h)⟩

theorem Inv.makes_dataAttribute (hinv : h.Inv owner) (href : h.Refers reference type)
    (name : List UInt8) (attributeType fc : Int) (triggerOptions : UInt8)
    (arrayElements sAddr : Int) (mmsValue : Option ConfiguredValue) :
    h.Makes owner .dataAttribute reference (DataAttribute_create h name reference attributeType fc
      triggerOptions arrayElements sAddr mmsValue) := by
  obtain ⟨n, rfl, hn⟩ := href
  have hmade := hinv.dataAttribute_eq hn name attributeType fc triggerOptions arrayElements sAddr
    mmsValue
  have htakes := (takes_children_iff hn).trans (mem_parents_dataAttribute type).symm
  split at hmade
  · next hmem =>
    refine Created.makes (m := n) hmade rfl rfl rfl ?_ (fun h => by cases h)
    rintro ⟨p, hp, hnot⟩
    cases hp
    exact hnot (htakes.mpr hmem)
  · next hmem => exact Unlinked.makes hinv hmade rfl rfl ⟨n, rfl, fun h => hmem (htakes.mp h)⟩

/-- The first address of a block is at the end of its list as well. -/
theorem Inv.setOwner_eq (hinv : h.Inv owner) (hfirst : h.links.first slot = none) :
    setOwner owner h.count slot = Function.update owner h.count (some slot) := by
  funext k
  rw [setOwner, Function.update_apply]
  split
  · rfl
  · have hne : owner k ≠ some slot := by
      intro hk
      have hlt : k < h.count := by
        obtain ⟨-, type, htype, -⟩ := hinv.taken k slot hk
        exact lt_of_typeOf htype
      have hchain := hinv.holds slot
      rw [hfirst] at hchain
      have hmem : k ∈ listOf owner h.count slot := mem_listOf.mpr ⟨hlt, hk⟩
      rw [hchain.eq_nil] at hmem
      cases hmem
    exact if_neg hne

theorem Inv.makes_phyComAddress (hinv : h.Inv owner) (href : h.Refers reference .gseControlBlock)
    (vlanPriority : UInt8) (vlanId appId : UInt16) (dstAddress : List UInt8) :
    h.Makes owner .phyComAddress reference
      (.ok (PhyComAddress_create h reference vlanPriority vlanId appId dstAddress)) := by
  obtain ⟨n, rfl, hn⟩ := href
  let o : Object := .phyComAddress vlanPriority vlanId appId dstAddress
  have hinv' := hinv.setAddress (o := o)
    ⟨ObjectType.noConfusion, ObjectType.noConfusion, fun p hp => by cases hp⟩ hn rfl
  have he : Heap.Extends { h.make o with links := (h.make o).links.set (.children n) h.count } h o :=
    rfl
  refine ⟨_, _, rfl, ⟨o, he, rfl, rfl⟩, hinv', ?_⟩
  cases hfirst : h.links.first (.children n) with
  | none =>
    refine Or.inl ⟨?_, n, n, rfl, (fun h => by cases h), hinv.setOwner_eq hfirst⟩
    rintro ⟨p, hp, hne⟩
    cases hp
    exact hne hfirst
  | some first =>
    have hne : h.links.first (.children n) ≠ none := hfirst ▸ Option.some_ne_none first
    exact Or.inr ⟨⟨n, rfl, hne⟩, fun m hm => (hinv.lost_iff_of_setAddress he hm).mpr (Or.inr hne)⟩

end

end Heap

namespace Parser

/-! ## The invariant -/

/-- The references are to objects that are there and of their types, as far as the level says. -/
structure Inv (s : Parser) (owner : Nat → Option Slot) : Prop where
  heap : s.heap.Inv owner
  inModel : s.stateInModel = true → s.model ≠ none ∧ 1 ≤ s.indendation
  outside : s.stateInModel = false → s.indendation = 0
  model : ∀ m, s.model = some m → s.heap.typeOf m = some .iedModel
  logicalDevice : 2 ≤ s.indendation → s.heap.Refers s.currentLD .logicalDevice
  logicalNode : 3 ≤ s.indendation → s.heap.Refers s.currentLN .logicalNode
  node : ∀ n, s.currentModelNode = some n → ∃ type, s.heap.typeOf n = some type
  dataSet : ∀ n, s.currentDataSet = some n → s.heap.typeOf n = some .dataSet
  gseControlBlock : ∀ n, s.currentGoCB = some n → s.heap.typeOf n = some .gseControlBlock
  empty : s.model = none → s.heap.count = 0

/-- The level and the references are the same. -/
def Same (s s' : Parser) : Prop :=
  s' = { s with heap := s'.heap, lineBuffer := s'.lineBuffer, nameString := s'.nameString }

/-- What a statement comes to: an object is made and its list is entered, or the line is refused,
with an attribute made for it or nothing. -/
inductive Comes (lib : CLibrary) (s : Parser) (owner : Nat → Option Slot) (line : List UInt8)
    (type : ObjectType) : Exec Outcome → Verdict → Prop
  | goesOn {s' : Parser} {owner' : Nat → Option Slot} :
    s.heap.Made owner type (s.holder type) s'.heap owner' →
    (if entersList lib line type then s.enter s.heap.count type else s).Same s' →
    Comes lib s owner line type (.ok (.next s')) .goesOn
  | refused {s' : Parser} : type ≠ .dataAttribute → s'.heap = s.heap → s'.model = s.model →
    Comes lib s owner line type (.ok (.exitError s')) .refused
  | refusedValue {s' : Parser} {owner' : Nat → Option Slot} : type = .dataAttribute →
    s.heap.Made owner type (s.holder type) s'.heap owner' → s'.model = s.model →
    Comes lib s owner line type (.ok (.exitError s')) .refused
  | faulty {e : Fault} : Comes lib s owner line type (.error e) .faulty

section

variable {lib : CLibrary} {s s' : Parser} {owner owner' : Nat → Option Slot}
  {line : List UInt8} {type : ObjectType} {v : Verdict} {o : Object} {slot : Slot} {h' : Heap}

theorem Comes.scanned {f : List Scanned → Exec Outcome}
    (h : s.Comes lib owner line type (f (sscanf lib type line)) v) :
    s.Comes lib owner line type (scanStatement lib type line >>= f)
      (.scanned lib type line v) := by
  rw [Verdict.scanned]
  split
  · next hfits =>
    rw [scanStatement_ok hfits]
    exact h
  · next hfits =>
    rw [scanStatement_error hfits]
    exact .faulty

theorem Comes.named {values : List Scanned} {f : List UInt8 → Exec Outcome}
    (h : ∀ name, s.Comes lib owner line type (f name) v) :
    s.Comes lib owner line type (s.name values >>= f) (.named s values v) := by
  rw [Verdict.named, name]
  cases (nameOf values).or s.nameString with
  | none => exact .faulty
  | some name => exact h name

theorem Comes.complete {x : Exec Outcome}
    (hcomplete : Complete lib type line → s.Comes lib owner line type x v)
    (hrefused : ¬ Complete lib type line → s.Comes lib owner line type x .refused) :
    s.Comes lib owner line type x (.complete lib type line v) := by
  rw [Verdict.complete]
  split
  · next h => exact hcomplete h
  · next h => exact hrefused h

theorem Comes.pointer {reference : Option Nat} {x : Exec Outcome}
    (hnone : reference = none → ∃ e, x = .error e)
    (hsome : ∀ n, reference = some n → s.Comes lib owner line type x v) :
    s.Comes lib owner line type x (.pointer reference v) := by
  rw [Verdict.pointer]
  cases hreference : reference with
  | none =>
    obtain ⟨e, rfl⟩ := hnone hreference
    exact .faulty
  | some n => exact hsome n hreference

theorem Inv.refers_model (hinv : s.Inv owner) (hin : s.stateInModel = true) :
    s.heap.Refers s.model .iedModel := by
  obtain ⟨m, hm⟩ := Option.ne_none_iff_exists'.mp (hinv.inModel hin).1
  exact ⟨m, hm, hinv.model m hm⟩

theorem Comes.enters {x : Exec (Heap × Nat)} {f : Heap × Nat → Parser}
    (hlist : entersList lib line type = true)
    (hmakes : s.heap.Makes owner type (s.holder type) x)
    (hheap : ∀ h', (f (h', s.heap.count)).heap = h')
    (hsame : ∀ h', (s.enter s.heap.count type).Same (f (h', s.heap.count))) :
    s.Comes lib owner line type (x >>= fun p => pure (.next (f p))) .goesOn := by
  obtain ⟨h', owner', rfl, hmade⟩ := hmakes
  refine .goesOn ((hheap h').symm ▸ hmade) ?_
  rw [if_pos hlist]
  exact hsame h'

theorem Comes.stays {x : Exec (Heap × Nat)} {f : Heap × Nat → Parser}
    (hlist : entersList lib line type = false)
    (hmakes : s.heap.Makes owner type (s.holder type) x)
    (hheap : ∀ h', (f (h', s.heap.count)).heap = h')
    (hsame : ∀ h', s.Same (f (h', s.heap.count))) :
    s.Comes lib owner line type (x >>= fun p => pure (.next (f p))) .goesOn := by
  obtain ⟨h', owner', rfl, hmade⟩ := hmakes
  refine .goesOn ((hheap h').symm ▸ hmade) ?_
  rw [hlist, if_neg Bool.false_ne_true]
  exact hsame h'

theorem complete_or_nil (lib : CLibrary) (line : List UInt8) (htype : type.format = [.name]) :
    (∃ name, sscanf lib type line = [.name name]) ∧ Complete lib type line ∨
      sscanf lib type line = [] ∧ ¬ Complete lib type line := by
  by_cases hcomplete : Complete lib type line
  · refine Or.inl ⟨?_, hcomplete⟩
    have hfinds := hcomplete.finds
    rw [htype] at hfinds
    generalize sscanf lib type line = values at hfinds
    cases hfinds with
    | cons hname hrest =>
      cases hname
      cases hrest
      exact ⟨_, rfl⟩
  · refine Or.inr ⟨?_, hcomplete⟩
    have hle : (sscanf lib type line).length ≤ 1 := by
      rw [sscanf, htype]
      split
      · simp only [scan]
        split <;> simp
      · exact Nat.zero_le _
    rw [Complete, htype] at hcomplete
    exact List.length_eq_zero_iff.mp (Nat.lt_one_iff.mp (Nat.lt_of_le_of_ne hle hcomplete))

/-- What comes of the value of an attribute. -/
inductive ReadsValue (cut : List UInt8) : Exec (Option Configured) → Verdict → Prop
  | goesOn {c : Configured} : cString c.lineBuffer = cut → ReadsValue cut (.ok (some c)) .goesOn
  | refused : ReadsValue cut (.ok none) .refused
  | faulty {e : Fault} : ReadsValue cut (.error e) .faulty

theorem Comes.value {cut : List UInt8} {x : Exec (Option Configured)}
    {f : Option Configured → Exec Outcome} (h : ReadsValue cut x v)
    (hgoesOn : ∀ c, cString c.lineBuffer = cut → s.Comes lib owner line type (f (some c)) .goesOn)
    (hrefused : s.Comes lib owner line type (f none) .refused) :
    s.Comes lib owner line type (x >>= f) v := by
  cases h with
  | goesOn hcut => exact hgoesOn _ hcut
  | refused => exact hrefused
  | faulty => exact .faulty

theorem bind_error {α β : Type} {x : Exec α} {f : α → Exec β} (h : ∀ a, ∃ e, f a = .error e) :
    ∃ e, x >>= f = .error e := by
  cases x with
  | ok a => exact h a
  | error e => exact ⟨e, rfl⟩

theorem cString_append (h : 0 ∉ line) (rest : List UInt8) : cString (line ++ 0 :: rest) = line := by
  rw [cString, List.takeWhile_append_of_pos, List.takeWhile_cons_of_neg (by simp), List.append_nil]
  intro b hb
  rw [decide_eq_true_iff]
  rintro rfl
  exact h hb

theorem valueText_eq {text : List UInt8} (h : valueText line = some text) :
    ∃ before, line = before ++ 61 :: text := by
  rw [valueText] at h
  split at h
  · next hmem =>
    cases h
    obtain ⟨before, text, rfl, hbefore⟩ := List.eq_append_cons_of_mem hmem
    refine ⟨before, ?_⟩
    rw [List.dropWhile_append_of_pos, List.dropWhile_cons_of_neg (by simp)]
    · rfl
    · intro b hb
      rw [decide_eq_true_iff]
      rintro rfl
      exact hbefore hb
  · cases h

/-- The string is what is behind up to its end, which is marked behind it. -/
theorem stringAt_append {kept behind : List UInt8} {p : List UInt8 × List UInt8}
    (h : stringAt (kept ++ behind) kept.length = .ok p) : ∃ rest,
      p.2 = kept ++ terminateString (cString behind) 34 ++ 0 :: rest := by
  generalize hstring : terminateString (cString behind) 34 = string at h
  have hbefore : string <+: behind :=
    hstring ▸ (List.takeWhile_prefix _).trans (List.takeWhile_prefix _)
  have htake : (kept ++ behind).take (kept.length + string.length) = kept ++ string := by
    rw [List.take_length_add_append, ← List.prefix_iff_eq_take.mp hbefore]
  rw [stringAt, List.drop_left] at h
  split at h
  · cases h
    refine ⟨(kept ++ behind).drop (kept.length + string.length + 1), ?_⟩
    rw [hstring, htake]
  · cases h

/-- The end of the line is where the end of the string is. -/
theorem cString_of_stringAt {before text rest : List UInt8} {p : List UInt8 × List UInt8}
    (hline : 0 ∉ before ++ 61 :: text)
    (h : stringAt (before ++ 61 :: text ++ 0 :: rest) (before.length + 2) = .ok p) :
    cString p.2 = (before ++ 61 :: text).take (before.length + 2) ++
      terminateString (text.drop 1) 34 := by
  cases text with
  | nil =>
    -- The string is behind the end of the line, which stays.
    have hsplit : before ++ [61] ++ 0 :: rest = (before ++ [61, 0]) ++ rest := by simp
    have hlength : before.length + 2 = (before ++ [61, 0]).length := by
      rw [List.length_append]
      rfl
    rw [hsplit, hlength] at h
    obtain ⟨rest', hp⟩ := stringAt_append h
    have hp' : p.2 = (before ++ [61]) ++ 0 :: (terminateString (cString rest) 34 ++ 0 :: rest') := by
      rw [hp]
      simp
    rw [hp', cString_append hline, List.take_of_length_le (by simp)]
    exact (List.append_nil _).symm
  | cons quote tail =>
    have hsplit : before ++ 61 :: quote :: tail = (before ++ [61, quote]) ++ tail := by simp
    have hlength : before.length + 2 = (before ++ [61, quote]).length := by
      rw [List.length_append]
      rfl
    rw [hsplit] at hline
    rw [hsplit, hlength, List.append_assoc] at h
    obtain ⟨rest', hp⟩ := stringAt_append h
    have htail : 0 ∉ tail := fun hmem => hline (List.mem_append_right _ hmem)
    have hbefore : (before ++ [61, quote]) ++ terminateString tail 34 <+:
        (before ++ [61, quote]) ++ tail :=
      (List.prefix_append_right_inj _).mpr (List.takeWhile_prefix _)
    rw [hp, cString_append htail, cString_append fun hmem => hline (hbefore.subset hmem), hsplit,
      hlength, List.take_left]
    rfl

theorem readsValue (lib : CLibrary) (kind : ValueKind) (hline : 0 ∉ line) (rest : List UInt8) :
    ReadsValue (cutLine kind line) (configuredValue lib kind line (line ++ 0 :: rest))
      (Verdict.value lib kind line (line ++ 0 :: rest)) := by
  rw [configuredValue, Verdict.value, cutLine]
  have hsame : cString (line ++ 0 :: rest) = line := cString_append hline rest
  cases htext : valueText line with
  | none => exact .goesOn hsame
  | some text =>
    obtain ⟨before, rfl⟩ := valueText_eq htext
    have hstart : (before ++ 61 :: text).length - text.length + 1 = before.length + 2 := by
      rw [List.length_append, List.length_cons]
      omega
    have hend : 0 ∈ (before ++ 61 :: text ++ 0 :: rest).drop (before.length + 2) ∧
        (∃ p, stringAt (before ++ 61 :: text ++ 0 :: rest) (before.length + 2) = .ok p) ∨
        0 ∉ (before ++ 61 :: text ++ 0 :: rest).drop (before.length + 2) ∧
        stringAt (before ++ 61 :: text ++ 0 :: rest) (before.length + 2) = .error .outOfBounds := by
      rw [stringAt]
      split
      · next h => exact Or.inl ⟨h, _, rfl⟩
      · next h => exact Or.inr ⟨h, rfl⟩
    cases kind with
    | mmsString | visibleString =>
      simp only [hstart]
      rcases hend with ⟨hmem, p, hp⟩ | ⟨hmem, herror⟩
      · rw [if_pos hmem, hp]
        exact .goesOn (cString_of_stringAt hline hp)
      · rw [if_neg hmem, herror]
        exact .faulty
    | integer | boolean =>
      cases hnumber : lib.int (text.dropWhile isSpace) with
      | none =>
        simp only [hnumber]
        exact .refused
      | some p =>
        simp only [hnumber]
        exact .goesOn hsame
    | unsigned =>
      cases hnumber : lib.unsigned (text.dropWhile isSpace) with
      | none =>
        simp only [hnumber]
        exact .refused
      | some p =>
        simp only [hnumber]
        exact .goesOn hsame
    | float =>
      cases hnumber : lib.isFloat (text.dropWhile isSpace) with
      | false =>
        simp only [hnumber]
        exact .refused
      | true =>
        simp only [hnumber]
        exact .goesOn hsame
    | double =>
      cases hnumber : lib.isDouble (text.dropWhile isSpace) with
      | false =>
        simp only [hnumber]
        exact .refused
      | true =>
        simp only [hnumber]
        exact .goesOn hsame
    | other => exact .goesOn hsame

theorem comes_parseLD (hinv : s.Inv owner) (hlevel : s.indendation = 1)
    (hin : s.stateInModel = true) : s.Comes lib owner line .logicalDevice (s.parseLD lib line)
      (Verdict.statement lib s line .logicalDevice) := by
  refine .scanned ?_
  rw [Verdict.complete]
  rcases complete_or_nil lib line (rfl : ObjectType.logicalDevice.format = _) with
    ⟨⟨name, hname⟩, hcomplete⟩ | ⟨hnil, hcomplete⟩
  · rw [if_pos hcomplete, hname]
    refine .enters rfl (hinv.heap.makes_logicalDevice (hinv.refers_model hin) _) (fun _ => rfl)
      fun h' => ?_
    rw [enter, hlevel]
    rfl
  · rw [if_neg hcomplete, hnil]
    exact .refused ObjectType.noConfusion rfl rfl

theorem comes_parseLN (hinv : s.Inv owner) (hlevel : s.indendation = 2) :
    s.Comes lib owner line .logicalNode (s.parseLN lib line)
      (Verdict.statement lib s line .logicalNode) := by
  refine .scanned ?_
  rw [Verdict.complete]
  rcases complete_or_nil lib line (rfl : ObjectType.logicalNode.format = _) with
    ⟨⟨name, hname⟩, hcomplete⟩ | ⟨hnil, hcomplete⟩
  · rw [if_pos hcomplete, hname]
    refine .enters rfl (hinv.heap.makes_logicalNode (hinv.logicalDevice hlevel.ge) _) (fun _ => rfl)
      fun h' => ?_
    rw [enter, hlevel]
    rfl
  · rw [if_neg hcomplete, hnil]
    exact .refused ObjectType.noConfusion rfl rfl

theorem comes_parseDO (hinv : s.Inv owner) (hlevel : s.indendation = 3) :
    s.Comes lib owner line .dataObject (s.parseDO lib line)
      (Verdict.statement lib s line .dataObject) := by
  rw [Verdict.statement, if_pos hlevel]
  refine .scanned (.named fun name => .enters rfl ?_ (fun _ => rfl) fun h' => ?_)
  · rw [holder, if_pos hlevel]
    exact hinv.heap.makes_dataObject (hinv.logicalNode hlevel.ge) _ _
  · rw [enter, hlevel]
    rfl

theorem comes_parseDS (hinv : s.Inv owner) (hlevel : s.indendation = 3) :
    s.Comes lib owner line .dataSet (s.parseDS lib line)
      (Verdict.statement lib s line .dataSet) := by
  refine .scanned (.named fun name => .enters rfl ?_ (fun _ => rfl) fun h' => ?_)
  · exact hinv.heap.makes_dataSet (hinv.logicalNode hlevel.ge) _
  · rw [enter, hlevel]
    rfl

theorem finds_name {values : List Scanned} {format : List Conversion}
    (h : List.Forall₂ Finds (.name :: format) values) :
    ∃ name rest, values = .name name :: rest ∧ List.Forall₂ Finds format rest := by
  cases h with
  | cons hname hrest =>
    cases hname
    exact ⟨_, _, rfl, hrest⟩

theorem finds_number {conversion : Conversion} {values : List Scanned} {format : List Conversion}
    (hne : conversion ≠ .name) (h : List.Forall₂ Finds (conversion :: format) values) :
    ∃ value rest, values = .number value :: rest ∧ List.Forall₂ Finds format rest := by
  cases h with
  | cons hnumber hrest =>
    cases hnumber with
    | name => exact absurd rfl hne
    | int | unsigned => exact ⟨_, _, rfl, hrest⟩

theorem reportControlBlock_values (h : Complete lib .reportControlBlock line) :
    ∃ name rptId isBuffered dataSetName confRef trgOps options bufTm intgPd,
      sscanf lib .reportControlBlock line = [.name name, .name rptId, .number isBuffered,
        .name dataSetName, .number confRef, .number trgOps, .number options, .number bufTm,
        .number intgPd] := by
  obtain ⟨name, _, hvalues, h1⟩ := finds_name h.finds
  obtain ⟨rptId, _, rfl, h2⟩ := finds_name h1
  obtain ⟨isBuffered, _, rfl, h3⟩ := finds_number (by decide) h2
  obtain ⟨dataSetName, _, rfl, h4⟩ := finds_name h3
  obtain ⟨confRef, _, rfl, h5⟩ := finds_number (by decide) h4
  obtain ⟨trgOps, _, rfl, h6⟩ := finds_number (by decide) h5
  obtain ⟨options, _, rfl, h7⟩ := finds_number (by decide) h6
  obtain ⟨bufTm, _, rfl, h8⟩ := finds_number (by decide) h7
  obtain ⟨intgPd, _, rfl, h9⟩ := finds_number (by decide) h8
  cases h9
  exact ⟨_, _, _, _, _, _, _, _, _, hvalues⟩

theorem gseControlBlock_values (h : Complete lib .gseControlBlock line) :
    ∃ name appId dataSet confRef fixedOffs, sscanf lib .gseControlBlock line =
      [.name name, .name appId, .name dataSet, .number confRef, .number fixedOffs] := by
  obtain ⟨name, _, hvalues, h1⟩ := finds_name h.finds
  obtain ⟨appId, _, rfl, h2⟩ := finds_name h1
  obtain ⟨dataSet, _, rfl, h3⟩ := finds_name h2
  obtain ⟨confRef, _, rfl, h4⟩ := finds_number (by decide) h3
  obtain ⟨fixedOffs, _, rfl, h5⟩ := finds_number (by decide) h4
  cases h5
  exact ⟨_, _, _, _, _, hvalues⟩

theorem dataObject_values (h : Complete lib .dataObject line) : ∃ name arrayElements,
    sscanf lib .dataObject line = [.name name, .number arrayElements] := by
  obtain ⟨name, _, hvalues, h1⟩ := finds_name h.finds
  obtain ⟨arrayElements, _, rfl, h2⟩ := finds_number (by decide) h1
  cases h2
  exact ⟨_, _, hvalues⟩

theorem phyComAddress_values (h : Complete lib .phyComAddress line) :
    ∃ vlanPrio vlanId appId name, sscanf lib .phyComAddress line =
      [.number vlanPrio, .number vlanId, .number appId, .name name] := by
  obtain ⟨vlanPrio, _, hvalues, h1⟩ := finds_number (by decide) h.finds
  obtain ⟨vlanId, _, rfl, h2⟩ := finds_number (by decide) h1
  obtain ⟨appId, _, rfl, h3⟩ := finds_number (by decide) h2
  obtain ⟨name, _, rfl, h4⟩ := finds_name h3
  cases h4
  exact ⟨_, _, _, _, hvalues⟩

theorem comes_parseRC (hinv : s.Inv owner) (hlevel : s.indendation = 3) :
    s.Comes lib owner line .reportControlBlock (s.parseRC lib line)
      (Verdict.statement lib s line .reportControlBlock) := by
  refine .scanned (.complete (fun hcomplete => ?_) fun hcomplete => ?_)
  · obtain ⟨name, rptId, isBuffered, dataSetName, confRef, trgOps, options, bufTm, intgPd,
      hvalues⟩ := reportControlBlock_values hcomplete
    rw [hvalues]
    exact .stays rfl (hinv.heap.makes_reportControlBlock (hinv.logicalNode hlevel.ge) ..)
      (fun _ => rfl) fun _ => rfl
  · split
    · next heq => exact absurd (by rw [Complete, heq]; rfl) hcomplete
    · exact .refused ObjectType.noConfusion rfl rfl

theorem comes_parseGC (hinv : s.Inv owner) (hlevel : s.indendation = 3) :
    s.Comes lib owner line .gseControlBlock (s.parseGC lib line)
      (Verdict.statement lib s line .gseControlBlock) := by
  refine .scanned (.complete (fun hcomplete => ?_) fun hcomplete => ?_)
  · obtain ⟨name, appId, dataSet, confRef, fixedOffs, hvalues⟩ := gseControlBlock_values hcomplete
    rw [hvalues]
    refine .enters rfl (hinv.heap.makes_gseControlBlock (hinv.logicalNode hlevel.ge) ..)
      (fun _ => rfl) fun h' => ?_
    rw [enter, hlevel]
    rfl
  · split
    · next heq => exact absurd (by rw [Complete, heq]; rfl) hcomplete
    · exact .refused ObjectType.noConfusion rfl rfl

theorem comes_parseSubDO (hinv : s.Inv owner) (hlevel : s.indendation ≠ 3) :
    s.Comes lib owner line .dataObject (s.parseSubDO lib line)
      (Verdict.statement lib s line .dataObject) := by
  rw [Verdict.statement, if_neg hlevel]
  refine .scanned (.complete (fun hcomplete => ?_) fun hcomplete => ?_)
  · obtain ⟨name, arrayElements, hvalues⟩ := dataObject_values hcomplete
    rw [hvalues]
    refine .pointer (fun hnone => ?_) fun n hn => ?_
    · rw [hnone]
      exact ⟨_, rfl⟩
    · obtain ⟨type, htype⟩ := hinv.node n hn
      refine .enters rfl ?_ (fun _ => rfl) fun h' => rfl
      rw [holder, if_neg hlevel]
      exact hinv.heap.makes_dataObject ⟨n, hn, htype⟩ _ _
  · split
    · next heq => exact absurd (by rw [Complete, heq]; rfl) hcomplete
    · exact .refused ObjectType.noConfusion rfl rfl

theorem comes_parseDE (hinv : s.Inv owner) :
    s.Comes lib owner line .dataSetEntry (s.parseDE lib line)
      (Verdict.statement lib s line .dataSetEntry) := by
  refine .scanned (.named fun name => .pointer (fun hnone => ?_) fun n hn => ?_)
  · rw [hnone]
    exact ⟨_, rfl⟩
  · exact .stays rfl (hinv.heap.makes_dataSetEntry ⟨n, hn, hinv.dataSet n hn⟩ _ _)
      (fun _ => rfl) fun _ => rfl

theorem comes_parsePA (hinv : s.Inv owner) :
    s.Comes lib owner line .phyComAddress (s.parsePA lib line)
      (Verdict.statement lib s line .phyComAddress) := by
  refine .scanned (.complete (fun hcomplete => ?_) fun hcomplete => ?_)
  · obtain ⟨vlanPrio, vlanId, appId, name, hvalues⟩ := phyComAddress_values hcomplete
    rw [hvalues]
    simp only [Verdict.address]
    cases hgcb : s.currentGoCB with
    | none => exact .refused ObjectType.noConfusion rfl rfl
    | some g =>
      cases haddress : addressOf name with
      | none => exact .refused ObjectType.noConfusion rfl rfl
      | some address =>
        rw [if_pos ⟨Option.some_ne_none g, Option.some_ne_none address⟩]
        have hmakes := hinv.heap.makes_phyComAddress ⟨g, hgcb, hinv.gseControlBlock g hgcb⟩
          (octet vlanPrio) (word vlanId) (word appId) address
        obtain ⟨h', owner', heq, hmade⟩ := hmakes
        rw [hgcb] at heq
        have hmade' : s.heap.Made owner .phyComAddress (s.holder .phyComAddress)
            (PhyComAddress_create s.heap (some g) (octet vlanPrio) (word vlanId) (word appId)
              address).1 owner' := by
          rw [Except.ok.inj heq]
          exact hmade
        exact .goesOn hmade' (by rw [← hgcb]; rfl)
  · split
    · next heq => exact absurd (by rw [Complete, heq]; rfl) hcomplete
    · exact .refused ObjectType.noConfusion rfl rfl

theorem comes_parseDA (hinv : s.Inv owner) (hline : 0 ∉ line)
    (hbuffer : ∃ rest, s.lineBuffer = line ++ 0 :: rest) :
    s.Comes lib owner line .dataAttribute (s.parseDA lib line)
      (Verdict.statement lib s line .dataAttribute) := by
  obtain ⟨rest, hrest⟩ := hbuffer
  refine .scanned (.named fun name => ?_)
  have hvalue := readsValue lib (valueKind (numberAt (sscanf lib .dataAttribute line) 2)) hline rest
  rw [← hrest] at hvalue
  refine .pointer (fun hnone => ?_) fun n hn => ?_
  · rw [hnone]
    exact bind_error fun c => by cases c <;> exact ⟨_, rfl⟩
  · obtain ⟨type, htype⟩ := hinv.node n hn
    have hmakes := fun value => hinv.heap.makes_dataAttribute ⟨n, hn, htype⟩ name
      (numberAt (sscanf lib .dataAttribute line) 2) (numberAt (sscanf lib .dataAttribute line) 3)
      (octet (numberAt (sscanf lib .dataAttribute line) 4))
      (numberAt (sscanf lib .dataAttribute line) 1) (numberAt (sscanf lib .dataAttribute line) 5)
      value
    refine .value hvalue (fun c hcut => ?_) ?_
    · obtain ⟨h', owner', heq, hmade⟩ := hmakes c.value
      simp only [heq, ok_bind, hcut]
      cases hlist : endsWithBrace
        (cutLine (valueKind (numberAt (sscanf lib .dataAttribute line) 2)) line) with
      | true =>
        have hlist' : entersList lib line .dataAttribute = true := hlist
        rw [if_pos rfl]
        refine .goesOn hmade ?_
        rw [if_pos hlist']
        rfl
      | false =>
        have hlist' : entersList lib line .dataAttribute = false := hlist
        rw [if_neg Bool.false_ne_true]
        refine .goesOn hmade ?_
        rw [hlist', if_neg Bool.false_ne_true]
        rfl
    · obtain ⟨h', owner', heq, hmade⟩ := hmakes none
      simp only [heq, ok_bind]
      exact .refusedValue rfl hmade rfl

/-- What is done for a statement on a level where there is such a one. -/
def parseStatement (lib : CLibrary) (s : Parser) (line : List UInt8) : ObjectType → Exec Outcome
  | .iedModel => .ok (.exitError s)
  | .logicalDevice => s.parseLD lib line
  | .logicalNode => s.parseLN lib line
  | .dataObject => if s.indendation = 3 then s.parseDO lib line else s.parseSubDO lib line
  | .dataAttribute => s.parseDA lib line
  | .dataSet => s.parseDS lib line
  | .dataSetEntry => s.parseDE lib line
  | .reportControlBlock => s.parseRC lib line
  | .gseControlBlock => s.parseGC lib line
  | .phyComAddress => s.parsePA lib line

theorem parseLine_eq (hin : s.stateInModel = true) (hclose : startsWith line (ascii "\x7d") = false)
    (hlevel : 1 ≤ s.indendation) : s.parseLine lib line =
      match typeOfLine line with
      | none => .ok (.exitError s)
      | some type =>
        if type.onLevel s.indendation then s.parseStatement lib line type
        else .ok (.exitError s) := by
  rw [parseLine, if_pos hin, hclose, if_neg Bool.false_ne_true]
  simp only [choose, startsWith_keyword_iff]
  rcases hl : s.indendation with _ | _ | _ | _ | n
  · rw [hl] at hlevel
    cases hlevel
  all_goals
    cases typeOfLine line with
    | none => simp
    | some type => cases type <;> simp [ObjectType.onLevel, parseStatement, hl]

theorem comes_parseStatement (hinv : s.Inv owner) (hin : s.stateInModel = true)
    (hlevel : type.onLevel s.indendation = true) (hline : 0 ∉ line)
    (hbuffer : ∃ rest, s.lineBuffer = line ++ 0 :: rest) :
    s.Comes lib owner line type (s.parseStatement lib line type)
      (Verdict.statement lib s line type) := by
  cases type with
  | iedModel => cases hlevel
  | logicalDevice => exact comes_parseLD hinv (of_decide_eq_true hlevel) hin
  | logicalNode => exact comes_parseLN hinv (of_decide_eq_true hlevel)
  | dataObject =>
    rw [parseStatement]
    split
    · next h => exact comes_parseDO hinv h
    · next h => exact comes_parseSubDO hinv h
  | dataAttribute => exact comes_parseDA hinv hline hbuffer
  | dataSet => exact comes_parseDS hinv (of_decide_eq_true hlevel)
  | dataSetEntry => exact comes_parseDE hinv
  | reportControlBlock => exact comes_parseRC hinv (of_decide_eq_true hlevel)
  | gseControlBlock => exact comes_parseGC hinv (of_decide_eq_true hlevel)
  | phyComAddress => exact comes_parsePA hinv

end

end Parser

end Iec61850.ConfigFile
