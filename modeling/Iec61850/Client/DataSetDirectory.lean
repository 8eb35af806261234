import Iec61850.Client.DataSets
import Iec61850.Device.Pagination

/-! The directory of a data set has the references that it was created with. -/

namespace Iec61850

open Machine MmsMapping

section Loops

variable {α β γ : Type} {f : α → Exec β} {g : β → Exec γ}

theorem mapM_nil_ok {bs : List β} : ([] : List α).mapM f = .ok bs ↔ bs = [] := by
  rw [List.mapM_nil]
  exact ⟨fun h => (Except.ok.inj h).symm, fun h => h ▸ rfl⟩

theorem mapM_cons_ok {a : α} {as : List α} {bs : List β} :
    (a :: as).mapM f = .ok bs ↔
      ∃ b bs', f a = .ok b ∧ as.mapM f = .ok bs' ∧ bs = b :: bs' := by
  rw [List.mapM_cons]
  constructor
  · intro h
    obtain ⟨b, hb, h⟩ := bind_ok h
    obtain ⟨bs', hbs, h⟩ := bind_ok h
    exact ⟨b, bs', hb, hbs, (Except.ok.inj h).symm⟩
  · rintro ⟨b, bs', hb, hbs, rfl⟩
    rw [hb, ok_bind, hbs]
    rfl

theorem length_of_mapM {as : List α} {bs : List β} (h : as.mapM f = .ok bs) :
    bs.length = as.length := by
  induction as generalizing bs with
  | nil => rw [mapM_nil_ok.mp h]; rfl
  | cons a as ih =>
    obtain ⟨b, bs', -, hbs, rfl⟩ := mapM_cons_ok.mp h
    rw [List.length_cons, List.length_cons, ih hbs]

/-- Two loops are one. -/
theorem mapM_bind_ok {as : List α} {cs : List γ} :
    (as.mapM fun a => f a >>= g) = .ok cs ↔
      ∃ bs, as.mapM f = .ok bs ∧ bs.mapM g = .ok cs := by
  induction as generalizing cs with
  | nil =>
    rw [mapM_nil_ok]
    constructor
    · rintro rfl
      exact ⟨[], rfl, rfl⟩
    · rintro ⟨bs, hbs, hcs⟩
      rw [mapM_nil_ok.mp hbs] at hcs
      exact mapM_nil_ok.mp hcs
  | cons a as ih =>
    rw [mapM_cons_ok]
    constructor
    · rintro ⟨c, cs', hc, hcs, rfl⟩
      obtain ⟨b, hb, hc⟩ := bind_ok hc
      obtain ⟨bs, hbs, hcs⟩ := ih.mp hcs
      exact ⟨b :: bs, mapM_cons_ok.mpr ⟨b, bs, hb, hbs, rfl⟩,
        mapM_cons_ok.mpr ⟨c, cs', hc, hcs, rfl⟩⟩
    · rintro ⟨bs, hbs, hcs⟩
      obtain ⟨b, bs', hb, hrest, rfl⟩ := mapM_cons_ok.mp hbs
      obtain ⟨c, cs', hc, hrest', rfl⟩ := mapM_cons_ok.mp hcs
      refine ⟨c, cs', ?_, ih.mpr ⟨bs', hrest, hrest'⟩, rfl⟩
      rw [hb]
      exact hc

theorem mapM_self_iff {f : α → Exec α} {as : List α} :
    as.mapM f = .ok as ↔ ∀ a ∈ as, f a = .ok a := by
  induction as with
  | nil => exact ⟨fun _ a ha => absurd ha List.not_mem_nil, fun _ => rfl⟩
  | cons a as ih =>
    rw [mapM_cons_ok, List.forall_mem_cons]
    constructor
    · rintro ⟨b, bs, hb, hbs, heq⟩
      obtain ⟨rfl, rfl⟩ := List.cons.inj heq
      exact ⟨hb, ih.mp hbs⟩
    · rintro ⟨ha, has⟩
      exact ⟨a, as, ha, ih.mpr has, rfl⟩

/-- What holds of each turn holds of them all. -/
theorem forall_of_mapM {R : α → β → Prop} {as : List α} {bs : List β} (h : as.mapM f = .ok bs)
    (hR : ∀ a ∈ as, ∀ b, f a = .ok b → R a b) : List.Forall₂ R as bs := by
  induction as generalizing bs with
  | nil =>
    rw [mapM_nil_ok.mp h]
    exact .nil
  | cons a as ih =>
    obtain ⟨b, bs', hb, hbs, rfl⟩ := mapM_cons_ok.mp h
    exact .cons (hR a List.mem_cons_self b hb)
      (ih hbs fun a ha => hR a (List.mem_cons_of_mem _ ha))

end Loops

namespace ListServer

variable {κ : Type}

/-- A member that is not supported ends the loop. -/
def entryOf (s : ListServer κ) (name : ObjectName) : Exec NamedVariableListEntry := do
  match ← s.createEntry ⟨.name name, none⟩ with
  | some entry => return entry
  | none => .error .notThere

theorem createNamedVariableList_names (s : ListServer κ) {names : List ObjectName}
    {entries : List NamedVariableListEntry} :
    s.createNamedVariableList (names.map fun name => ⟨.name name, none⟩) = .ok (some entries) ↔
      names.mapM s.entryOf = .ok entries := by
  induction names generalizing entries with
  | nil =>
    rw [mapM_nil_ok]
    exact ⟨fun h => (Option.some.inj (Except.ok.inj h)).symm, fun h => h ▸ rfl⟩
  | cons name names ih =>
    rw [mapM_cons_ok, List.map_cons, createNamedVariableList]
    have hentry : s.createEntry ⟨.name name, none⟩ = .ok (some ⟨s.getDomain
        (createStringFromBuffer name.domainAndItem.1), createStringFromBuffer name.domainAndItem.2,
        -1, none⟩) := rfl
    rw [entryOf, hentry, ok_bind, ok_bind]
    dsimp only
    cases hrest : s.createNamedVariableList (names.map fun name => ⟨.name name, none⟩) with
    | error e =>
      rw [hrest] at ih
      constructor
      · rintro ⟨⟩
      · rintro ⟨entry, entries', -, hentries, -⟩
        cases ih.mpr hentries
    | ok found =>
      cases found with
      | none =>
        rw [hrest] at ih
        constructor
        · rintro ⟨⟩
        · rintro ⟨entry, entries', -, hentries, -⟩
          cases ih.mpr hentries
      | some found =>
        constructor
        · intro h
          exact ⟨_, found, rfl, ih.mp hrest, (Option.some.inj (Except.ok.inj h)).symm⟩
        · rintro ⟨entry, entries', hentry', hentries, rfl⟩
          rw [hrest] at ih
          cases hentry'
          cases ih.mpr hentries
          rfl

/-! ## One reference -/

/-- What becomes of a reference on its way to the server and back. -/
def returned (s : ListServer κ) (objectReference : List UInt8) : Exec (List UInt8) :=
  (((objectReferenceToVariableAccessSpec objectReference >>= memberName) >>= s.entryOf) >>=
    s.entryAttributes) >>= memberReference

section Reference

variable {s : ListServer κ} {objectReference domainId itemId : List UInt8} {domain : Nat}

theorem createStringFromBuffer_of_notMem {octets : List UInt8} (h : 0 ∉ octets) :
    createStringFromBuffer octets = octets :=
  List.takeWhile_eq_self_iff.mpr (decide_ne_of_notMem h)

theorem domain_of_getDomain (h : s.getDomain domainId = some domain) :
    ∃ d, s.domains[domain]? = some d ∧ d.domainName = domainId := by
  obtain ⟨hlt, hname, -⟩ := List.findIdx?_eq_some_iff_getElem.mp h
  exact ⟨_, List.getElem?_eq_getElem hlt, of_decide_eq_true hname⟩

/-- The server knows a variable of a domain that there is by both its names. -/
theorem attributes_of_names (hdomain : 0 ∉ domainId) (hitem : 0 ∉ itemId) :
    (s.entryOf (.domainSpecific domainId itemId) >>= s.entryAttributes) =
      if (s.getDomain domainId).isSome then .ok (domainId, itemId) else .error .nullPointer := by
  have hentry : s.entryOf (.domainSpecific domainId itemId) =
      .ok ⟨s.getDomain (createStringFromBuffer domainId), createStringFromBuffer itemId, -1,
        none⟩ := rfl
  rw [createStringFromBuffer_of_notMem hdomain, createStringFromBuffer_of_notMem hitem] at hentry
  rw [hentry, ok_bind, entryAttributes]
  cases hfound : s.getDomain domainId with
  | none => rfl
  | some domain =>
    obtain ⟨d, hd, rfl⟩ := domain_of_getDomain hfound
    rw [Option.bind_some, hd]
    rfl

/-- Nothing comes back of a variable whose domain and item are read from one name. -/
theorem vmdSpecific_not_returned (s : ListServer κ) (identifier : List UInt8) :
    ((s.entryOf (.vmdSpecific identifier) >>= s.entryAttributes) >>= memberReference) ≠
      .ok objectReference := by
  have hentry : s.entryOf (.vmdSpecific identifier) =
      .ok ⟨s.getDomain (createStringFromBuffer identifier), [], -1, none⟩ := rfl
  rw [hentry, ok_bind, entryAttributes]
  cases hfound : s.getDomain (createStringFromBuffer identifier) with
  | none => exact fun h => by cases h
  | some domain =>
    obtain ⟨d, hd, -⟩ := domain_of_getDomain hfound
    rw [Option.bind_some, hd]
    exact fun h => by cases h

/-- A reference comes back as it was if it is to data in a domain that there is. -/
theorem returned_iff (hzero : 0 ∉ objectReference) :
    s.returned objectReference = .ok objectReference ↔
      IsPlain objectReference ∧
        (s.getDomain (objectReference.takeWhile (· ≠ 47))).isSome = true := by
  constructor
  · intro h
    obtain ⟨attributes, h, hback⟩ := bind_ok h
    obtain ⟨entry, h, hattributes⟩ := bind_ok h
    obtain ⟨name, h, hentry⟩ := bind_ok h
    obtain ⟨spec, hspec, hname⟩ := bind_ok h
    cases spec with
    | none => cases hname
    | some spec =>
      rw [memberName] at hname
      cases hitem : spec.itemId with
      | none =>
        rw [hitem] at hname
        cases hname
      | some itemId =>
        rw [hitem] at hname
        dsimp only at hname
        have hchain : ((s.entryOf name >>= s.entryAttributes) >>= memberReference) =
            .ok objectReference := by
          rw [hentry, ok_bind, hattributes, ok_bind, hback]
        split at hname
        · cases hname
          exact absurd hchain (vmdSpecific_not_returned s itemId)
        · cases hname
          obtain ⟨item, tail, fc, hreference, hslash, hfc, hlen, hmms, -⟩ :=
            accessSpec_ok hspec hitem
          have hdomain : objectReference.takeWhile (· ≠ 47) = spec.domainId := by
            rw [hreference, takeWhile_append_cons hslash]
          have hzeroDomain : 0 ∉ spec.domainId := fun hmem =>
            hzero (hreference ▸ List.mem_append_left _ hmem)
          have hzeroItem : 0 ∉ itemId := by
            refine notMem_of_createMmsVariableName hmms (by decide) fun hmem => hzero ?_
            rw [hreference]
            exact List.mem_append_right _ (List.mem_cons_of_mem _ (List.mem_append_left _ hmem))
          rw [attributes_of_names hzeroDomain hzeroItem] at hchain
          rw [hdomain]
          split at hchain
          case isFalse => cases hchain
          case isTrue hfound =>
            rw [ok_bind, memberReference, createStringFromBuffer_of_notMem hzeroDomain,
              createStringFromBuffer_of_notMem hzeroItem] at hchain
            exact ⟨isPlain_of_roundTrip hspec hitem hchain, hfound⟩
  · rintro ⟨hplain, hfound⟩
    obtain ⟨domainId, itemId, hspec, rfl, -, hmem, hback⟩ := hplain.roundTrip
    have hzeroDomain : 0 ∉ objectReference.takeWhile (· ≠ 47) := fun h =>
      hzero ((List.takeWhile_sublist _).subset h)
    have hzeroItem : 0 ∉ itemId := fun h => (hmem 0 h).elim (by decide) hzero
    have hname : memberName (some ⟨objectReference.takeWhile (· ≠ 47), some itemId, -1, none⟩) =
        .ok (.domainSpecific (objectReference.takeWhile (· ≠ 47)) itemId) := rfl
    rw [returned, hspec, ok_bind, hname, ok_bind, attributes_of_names hzeroDomain hzeroItem,
      if_pos hfound, ok_bind, memberReference, createStringFromBuffer_of_notMem hzeroDomain,
      createStringFromBuffer_of_notMem hzeroItem, hback]

end Reference

/-! ## The list on the server -/

section Define

variable [DecidableEq κ] {s t : ListServer κ} {connection : κ} {domainId itemId : List UInt8}
  {members : List ListMember}

/-- A list is defined in a domain. -/
theorem handleDefine_define_iff :
    s.handleDefine connection ⟨.domainSpecific domainId itemId, members⟩ = .ok (.define, t) ↔
      ∃ domain entries, s.getDomain (createStringFromBuffer domainId) = some domain ∧
        s.view (.domain domain, createStringFromBuffer itemId) = none ∧
        s.createNamedVariableList members = .ok (some entries) ∧
        t = s.addNamedVariableList (.domain domain)
          ⟨createStringFromBuffer itemId, true, entries⟩ := by
  rw [handleDefine]
  dsimp only
  cases hdomain : s.getDomain (createStringFromBuffer domainId) with
  | none =>
    constructor
    · intro h
      cases h
    · rintro ⟨domain, entries, h, -⟩
      cases h
  | some domain =>
    dsimp only
    rw [defineIn]
    have hview : s.view (.domain domain, createStringFromBuffer itemId) =
      s.getNamedVariableList (.domain domain) (createStringFromBuffer itemId) := rfl
    rw [← hview]
    cases hl : s.view (.domain domain, createStringFromBuffer itemId) with
    | some l =>
      constructor
      · intro h
        cases h
      · rintro ⟨domain', entries, hdomain', hnone, -⟩
        cases hdomain'
        rw [hl] at hnone
        cases hnone
    | none =>
      dsimp only
      constructor
      · intro h
        obtain ⟨found, hfound, h⟩ := bind_ok h
        cases found with
        | none => cases h
        | some entries =>
          cases h
          exact ⟨domain, entries, rfl, hl, hfound, rfl⟩
      · rintro ⟨domain', entries, hdomain', -, hfound, rfl⟩
        cases hdomain'
        rw [hfound]
        rfl

/-- The list that has been defined is described. -/
theorem handleGetAttributes_defined {domain : Nat} {entries : List NamedVariableListEntry}
    (hdomain : s.getDomain (createStringFromBuffer domainId) = some domain)
    (hview : s.view (.domain domain, createStringFromBuffer itemId) = none) :
    (s.addNamedVariableList (.domain domain)
        ⟨createStringFromBuffer itemId, true, entries⟩).handleGetAttributes
      (.domainSpecific domainId itemId) =
        do return .getAttributes true (← entries.mapM s.entryAttributes) := by
  have hdomain' : (s.addNamedVariableList (.domain domain)
      ⟨createStringFromBuffer itemId, true, entries⟩).getDomain (createStringFromBuffer domainId) =
      some domain := hdomain
  have hlist : (s.addNamedVariableList (.domain domain)
      ⟨createStringFromBuffer itemId, true, entries⟩).getNamedVariableList (.domain domain)
        (createStringFromBuffer itemId) = some ⟨createStringFromBuffer itemId, true, entries⟩ := by
    have hadd := view_addNamedVariableList (l := ⟨createStringFromBuffer itemId, true, entries⟩) hview
    exact (congrFun hadd _).trans (Function.update_self ..)
  rw [handleGetAttributes, hdomain']
  dsimp only
  rw [hlist]
  rfl

end Define

/-! ## The data set -/

/-- The octets of the names that a reference is sent and returned with. -/
def nameSizeOf (objectReference : List UInt8) : Nat :=
  domainSpecificSize (objectReference.takeWhile (· ≠ 47)).length
    (objectReference.length - (objectReference.takeWhile (· ≠ 47)).length - 2)

def dataSetNameSize (dataSetReference : List UInt8) : Nat :=
  domainSpecificSize (dataSetReference.takeWhile (· ≠ 47)).length
    (dataSetReference.length - (dataSetReference.takeWhile (· ≠ 47)).length - 1)

/-- The data set is created, and its directory is then read with all of the references. -/
def RoundTrips [DecidableEq κ] (codec : MmsCodec) (uninitialised : Int64) (s : ListServer κ)
    (connection : κ) (invokeId invokeId' : UInt32) (dataSetReference : MmsValue.CString)
    (references : List MmsValue.CString) : Prop :=
  ∃ t, createDataSet codec uninitialised s connection invokeId dataSetReference.octets
      (references.map (·.octets)) = .ok (true, t) ∧
    getDataSetDirectory codec t invokeId' dataSetReference.octets =
      .ok (some (references.map (·.octets), true))

/-- No list in the domain has the name yet, and the buffers can hold it. -/
def IsNewName (s : ListServer κ) (dataSetReference : List UInt8) : Prop :=
  ∃ domainId itemId domain, dataSetReference = domainId ++ 47 :: itemId ∧ 47 ∉ domainId ∧
    dataSetReference.head? ≠ some 64 ∧ domainId.length ≤ 64 ∧ itemId.length ≤ 128 ∧
    s.getDomain domainId = some domain ∧
    s.view (.domain domain, StringUtils.replace 46 36 itemId) = none

/-- What the references have to be like. -/
structure Describable (codec : MmsCodec) (s : ListServer κ) (invokeId invokeId' : UInt32)
    (dataSetReference : MmsValue.CString) (references : List MmsValue.CString) : Prop where
  name : s.IsNewName dataSetReference.octets
  plain : ∀ r ∈ references, IsPlain r.octets
  domains : ∀ r ∈ references, (s.getDomain (r.octets.takeWhile (· ≠ 47))).isSome = true
  request : confirmedSizeOf invokeId (dataSetNameSize dataSetReference.octets)
    (references.map fun r => nameSizeOf r.octets) ≤ codec.defineCapacity
  response : confirmedSizeOf invokeId' 3 (references.map fun r => nameSizeOf r.octets) ≤
    codec.attributesCapacity

section DataSet

variable {s t : ListServer κ} {objectReference : List UInt8} {references : List (List UInt8)}

theorem map_eq_of_forall₂ {α β γ : Type} {f : α → γ} {g : β → γ} {as : List α} {bs : List β}
    (h : List.Forall₂ (fun a b => g b = f a) as bs) : bs.map g = as.map f := by
  induction h with
  | nil => rfl
  | cons hab _ ih => rw [List.map_cons, List.map_cons, hab, ih]

/-- The names on the way have the sizes that the references give. -/
theorem names_of_plain (hplain : ∀ r ∈ references, IsPlain r) (hzero : ∀ r ∈ references, 0 ∉ r)
    {names : List ObjectName} {attributes : List (List UInt8 × List UInt8)}
    (hnames : (references.mapM fun r => objectReferenceToVariableAccessSpec r >>= memberName) =
      .ok names)
    (hattributes : (names.mapM fun name => s.entryOf name >>= s.entryAttributes) =
      .ok attributes) :
    names.map ObjectName.encodedSize = references.map nameSizeOf ∧
      attributes.map (fun a => domainSpecificSize a.1.length a.2.length) =
        references.map nameSizeOf := by
  have hstep : ∀ r ∈ references, ∃ domainId itemId,
      (objectReferenceToVariableAccessSpec r >>= memberName) =
        .ok (.domainSpecific domainId itemId) ∧ 0 ∉ domainId ∧ 0 ∉ itemId ∧
      domainSpecificSize domainId.length itemId.length = nameSizeOf r := by
    intro r hr
    obtain ⟨domainId, itemId, hspec, rfl, hlength, hmem, -⟩ := (hplain r hr).roundTrip
    refine ⟨r.takeWhile (· ≠ 47), itemId, ?_, ?_, ?_, ?_⟩
    · rw [hspec, ok_bind]
      rfl
    · exact fun h => hzero r hr ((List.takeWhile_sublist _).subset h)
    · exact fun h => (hmem 0 h).elim (by decide) (hzero r hr)
    · rw [nameSizeOf, hlength]
      congr 1
      omega
  have hboth := mapM_bind_ok.mpr ⟨names, hnames, hattributes⟩
  refine ⟨map_eq_of_forall₂ (forall_of_mapM hnames ?_),
    map_eq_of_forall₂ (forall_of_mapM hboth ?_)⟩
  · intro r hr name hname
    obtain ⟨domainId, itemId, heq, -, -, hsize⟩ := hstep r hr
    rw [heq] at hname
    cases hname
    exact hsize
  · intro r hr a ha
    obtain ⟨domainId, itemId, heq, hzeroDomain, hzeroItem, hsize⟩ := hstep r hr
    rw [heq, ok_bind, attributes_of_names hzeroDomain hzeroItem] at ha
    split at ha
    · cases ha
      exact hsize
    · cases ha

theorem dataSetName_ok {dataSetReference : List UInt8} {name : ObjectName}
    (h : dataSetName dataSetReference = .ok name) : name = .aaSpecific dataSetReference ∨
      ∃ domainId itemId, dataSetReference = domainId ++ 47 :: itemId ∧ 47 ∉ domainId ∧
        dataSetReference.head? ≠ some 64 ∧ domainId.length ≤ 64 ∧ itemId.length ≤ 128 ∧
        name = .domainSpecific domainId (StringUtils.replace 46 36 itemId) := by
  rw [dataSetName] at h
  split at h
  · exact Or.inl (Except.ok.inj h).symm
  · rename_i hhead
    cases hslash : strchr dataSetReference 47 with
    | none =>
      rw [hslash] at h
      cases h
    | some domainIdEnd =>
      obtain ⟨domainId, itemId, rfl, hnot, rfl⟩ := of_strchr hslash
      rw [hslash, takeWhile_append_cons hnot] at h
      dsimp only at h
      split at h
      · cases h
      · rename_i hlen
        rw [not_or, Nat.not_lt, Nat.not_lt] at hlen
        exact Or.inr ⟨domainId, itemId, rfl, hnot, hhead, hlen.1, hlen.2, (Except.ok.inj h).symm⟩

theorem dataSetName_of_parts {domainId itemId : List UInt8} (hnot : 47 ∉ domainId)
    (hhead : (domainId ++ 47 :: itemId).head? ≠ some 64) (hd : domainId.length ≤ 64)
    (hi : itemId.length ≤ 128) : dataSetName (domainId ++ 47 :: itemId) =
      .ok (.domainSpecific domainId (StringUtils.replace 46 36 itemId)) := by
  have hlen : ¬ (64 < domainId.length ∨ 128 < itemId.length) := by
    rw [not_or, Nat.not_lt, Nat.not_lt]
    exact ⟨hd, hi⟩
  rw [dataSetName, if_neg hhead, strchr_append hnot, takeWhile_append_cons hnot]
  exact if_neg hlen

theorem dataSetNameSize_eq {domainId itemId : List UInt8} (hnot : 47 ∉ domainId) :
    dataSetNameSize (domainId ++ 47 :: itemId) = ObjectName.encodedSize
      (.domainSpecific domainId (StringUtils.replace 46 36 itemId)) := by
  rw [dataSetNameSize, takeWhile_append_cons hnot, ObjectName.encodedSize,
    StringUtils.length_replace]
  congr 1
  rw [List.length_append, List.length_cons]
  omega

theorem noZero_of_parts {domainId itemId : List UInt8} (h : 0 ∉ domainId ++ 47 :: itemId) :
    0 ∉ domainId ∧ 0 ∉ StringUtils.replace 46 36 itemId := by
  rw [List.mem_append, List.mem_cons, not_or, not_or] at h
  refine ⟨h.1, fun hmem => ?_⟩
  exact (StringUtils.mem_of_mem_replace hmem).elim (by decide) h.2.2

theorem length_of_createNamedVariableList {members : List ListMember}
    {entries : List NamedVariableListEntry}
    (h : s.createNamedVariableList members = .ok (some entries)) :
    entries.length = members.length := by
  induction members generalizing entries with
  | nil =>
    cases h
    rfl
  | cons member members ih =>
    obtain ⟨found, -, h⟩ := bind_ok h
    cases found with
    | none => cases h
    | some entry =>
      obtain ⟨rest, hrest, h⟩ := bind_ok h
      obtain ⟨entries', rfl, rfl⟩ := Option.map_eq_some_iff.mp (Except.ok.inj h)
      rw [List.length_cons, List.length_cons, ih hrest]

theorem eq_define {answer : ListAnswer} (h : answer.isDefine = true) : answer = .define := by
  cases answer with
  | define => rfl
  | delete | getAttributes | read | error | reject => cases h

theorem eq_define_of_behindReject {answer : ListAnswer}
    (h : (behindReject answer).isDefine = true) : answer = .define := by
  cases answer with
  | define => rfl
  | delete | getAttributes | read | error | reject => cases h

variable [DecidableEq κ] {codec : MmsCodec} {uninitialised : Int64} {connection : κ}
  {invokeId invokeId' : UInt32}

/-- What the server defines when it has got the request, whole or in part. -/
theorem handleDefine_of_received (hc : codec.Carries) {domainId itemId : List UInt8}
    {members : List ObjectName} {received : Received DefineRequest} {answer : ListAnswer}
    (hd : domainId.length ≤ 64) (hi : itemId.length ≤ 128)
    (hreceived : codec.define invokeId (.domainSpecific domainId itemId) members = some received)
    (h : handle uninitialised s ⟨connection, .define received⟩ = .ok (answer, t))
    (hanswer : answer.isDefine = true) :
    ∃ list, s.handleDefine connection ⟨.domainSpecific domainId itemId, list⟩ =
        .ok (.define, t) ∧
      (defineSize invokeId (.domainSpecific domainId itemId) members ≤ codec.defineCapacity ∧
          list = members.map (fun member => ⟨.name member, none⟩) ∨
        list.length < members.length) := by
  by_cases hfit : defineSize invokeId (.domainSpecific domainId itemId) members ≤
      codec.defineCapacity
  · rw [hc.define_whole _ _ _ hfit] at hreceived
    cases hreceived
    obtain rfl := eq_define hanswer
    exact ⟨_, h, Or.inl ⟨hfit, rfl⟩⟩
  · obtain ⟨found, rfl, hfound⟩ := hc.define_cut _ _ _ _ _ hd hi (Nat.lt_of_not_le hfit) hreceived
    cases found with
    | none => cases h
    | some request =>
      obtain ⟨hname, hlen⟩ := hfound request rfl
      obtain ⟨⟨answer', t'⟩, hdefine, h⟩ := bind_ok h
      obtain ⟨rfl, rfl⟩ := Prod.mk.inj (Except.ok.inj h)
      obtain rfl := eq_define_of_behindReject hanswer
      refine ⟨request.listOfVariable, ?_, Or.inr hlen⟩
      rw [← hname]
      exact hdefine

/-- A data set that is created and described is a list whose members come back. -/
theorem directory_defined {domainId itemId : List UInt8} {domain : Nat} (hc : codec.Carries)
    {entries : List NamedVariableListEntry} {dataSetReference : List UInt8} {deletable : Bool}
    (hname : dataSetName dataSetReference = .ok (.domainSpecific domainId itemId))
    (hdomain : s.getDomain (createStringFromBuffer domainId) = some domain)
    (hview : s.view (.domain domain, createStringFromBuffer itemId) = none) :
    getDataSetDirectory codec (s.addNamedVariableList (.domain domain)
        ⟨createStringFromBuffer itemId, true, entries⟩) invokeId' dataSetReference =
          .ok (some (references, deletable)) ↔
      deletable = true ∧ ∃ attributes, entries.mapM s.entryAttributes = .ok attributes ∧
        attributes.mapM memberReference = .ok references ∧
        attributesSize invokeId' attributes ≤ codec.attributesCapacity := by
  rw [getDataSetDirectory, hname, ok_bind, handleGetAttributes_defined hdomain hview]
  constructor
  · intro h
    obtain ⟨answer, hanswer, h⟩ := bind_ok h
    obtain ⟨attributes, hattributes, hanswer⟩ := bind_ok hanswer
    cases hanswer
    dsimp only at h
    cases hreceived : codec.attributes invokeId' true attributes with
    | none =>
      rw [hreceived] at h
      cases h
    | some received =>
      rw [hreceived] at h
      by_cases hfit : attributesSize invokeId' attributes ≤ codec.attributesCapacity
      · rw [hc.attributes_whole _ _ _ hfit] at hreceived
        cases hreceived
        obtain ⟨found, hfound, h⟩ := bind_ok h
        obtain ⟨rfl, rfl⟩ := Prod.mk.inj (Option.some.inj (Except.ok.inj h))
        exact ⟨rfl, attributes, hattributes, hfound, hfit⟩
      · rw [hc.attributes_cut _ _ _ _ (Nat.lt_of_not_le hfit) hreceived] at h
        cases h
  · rintro ⟨rfl, attributes, hattributes, hback, hfit⟩
    rw [hattributes, ok_bind]
    dsimp only [pure, Except.pure, bind, Except.bind]
    rw [hc.attributes_whole _ _ _ hfit]
    dsimp only
    rw [hback]

end DataSet

section RoundTrip

variable [DecidableEq κ] {codec : MmsCodec} {uninitialised : Int64} {s : ListServer κ}
  {connection : κ} {invokeId invokeId' : UInt32} {dataSetReference : MmsValue.CString}
  {references : List MmsValue.CString}

theorem map_nameSizeOf (references : List MmsValue.CString) :
    (references.map (·.octets)).map nameSizeOf = references.map fun r => nameSizeOf r.octets := by
  rw [List.map_map]
  rfl

theorem forall_octets {references : List MmsValue.CString} {p : List UInt8 → Prop} :
    (∀ r ∈ references.map (·.octets), p r) ↔ ∀ r ∈ references, p r.octets := List.forall_mem_map

theorem forall_noZero (references : List MmsValue.CString) :
    ∀ r ∈ references.map (·.octets), 0 ∉ r := forall_octets.mpr fun r _ => r.noZero

/-- A data set has the directory that it was created with exactly if its name is new, and its
references are to data in domains that there are and fit into the two messages. -/
theorem directory_roundTrips_iff (hc : codec.Carries) :
    RoundTrips codec uninitialised s connection invokeId invokeId' dataSetReference references ↔
      Describable codec s invokeId invokeId' dataSetReference references := by
  constructor
  · rintro ⟨t, hcreate, hdirectory⟩
    obtain ⟨name, hname, hcreate⟩ := bind_ok hcreate
    obtain ⟨specs, hspecs, hcreate⟩ := bind_ok hcreate
    obtain ⟨members, hmembers, hcreate⟩ := bind_ok hcreate
    have hnames := mapM_bind_ok.mpr ⟨specs, hspecs, hmembers⟩
    rcases dataSetName_ok hname with
      rfl | ⟨domainId, itemId, hreference, hslash, hhead, hd, hi, rfl⟩
    · -- the directory of a list of the association is not answered
      rw [getDataSetDirectory, hname] at hdirectory
      cases hdirectory
    · cases hreceived : codec.define invokeId
          (.domainSpecific domainId (StringUtils.replace 46 36 itemId)) members with
      | none =>
        rw [hreceived] at hcreate
        cases hcreate
      | some received =>
        rw [hreceived] at hcreate
        obtain ⟨⟨answer, t'⟩, hhandle, hcreate⟩ := bind_ok hcreate
        obtain ⟨hanswer, rfl⟩ := Prod.mk.inj (Except.ok.inj hcreate)
        have hi' : (StringUtils.replace 46 36 itemId).length ≤ 128 :=
          (StringUtils.length_replace 46 36 itemId).trans_le hi
        obtain ⟨list, hdefine, hlist⟩ :=
          handleDefine_of_received hc hd hi' hreceived hhandle hanswer
        obtain ⟨domain, entries, hdomain, hview, hentries, rfl⟩ :=
          handleDefine_define_iff.mp hdefine
        obtain ⟨-, attributes, hattributes, hback, hresponse⟩ :=
          (directory_defined hc hname hdomain hview).mp hdirectory
        rcases hlist with ⟨hrequest, rfl⟩ | hshort
        · have hentries' := (createNamedVariableList_names s).mp hentries
          have hreturned : (references.map (·.octets)).mapM s.returned =
              .ok (references.map (·.octets)) :=
            mapM_bind_ok.mpr ⟨attributes, mapM_bind_ok.mpr
              ⟨entries, mapM_bind_ok.mpr ⟨members, hnames, hentries'⟩, hattributes⟩, hback⟩
          have hall : ∀ r ∈ references.map (·.octets), IsPlain r ∧
              (s.getDomain (r.takeWhile (· ≠ 47))).isSome = true := fun r hr =>
            (returned_iff (forall_noZero references r hr)).mp (mapM_self_iff.mp hreturned r hr)
          have hplain := fun r hr => (hall r hr).1
          obtain ⟨hsent, hshown⟩ := names_of_plain hplain (forall_noZero references) hnames
            (mapM_bind_ok.mpr ⟨entries, hentries', hattributes⟩)
          rw [map_nameSizeOf] at hsent hshown
          refine ⟨?_, forall_octets.mp hplain, forall_octets.mp fun r hr => (hall r hr).2, ?_, ?_⟩
          · have hzero : 0 ∉ domainId ++ 47 :: itemId := hreference ▸ dataSetReference.noZero
            obtain ⟨hzeroDomain, hzeroItem⟩ := noZero_of_parts hzero
            rw [createStringFromBuffer_of_notMem hzeroDomain] at hdomain
            rw [createStringFromBuffer_of_notMem hzeroItem] at hview
            exact ⟨domainId, itemId, domain, hreference, hslash, hhead, hd, hi, hdomain, hview⟩
          · rw [defineSize, hsent] at hrequest
            rw [hreference, dataSetNameSize_eq hslash]
            exact hrequest
          · rw [attributesSize, hshown] at hresponse
            exact hresponse
        · -- of a list that has been cut the directory is too short
          have h1 := length_of_mapM hback
          have h2 := length_of_mapM hattributes
          have h3 := length_of_createNamedVariableList hentries
          have h4 := length_of_mapM hnames
          omega
  · rintro ⟨⟨domainId, itemId, domain, hreference, hslash, hhead, hd, hi, hdomain, hview⟩, hplain,
      hdomains, hrequest, hresponse⟩
    have hzero : 0 ∉ domainId ++ 47 :: itemId := hreference ▸ dataSetReference.noZero
    obtain ⟨hzeroDomain, hzeroItem⟩ := noZero_of_parts hzero
    rw [← createStringFromBuffer_of_notMem hzeroDomain] at hdomain
    rw [← createStringFromBuffer_of_notMem hzeroItem] at hview
    have hname : dataSetName dataSetReference.octets =
        .ok (.domainSpecific domainId (StringUtils.replace 46 36 itemId)) := by
      rw [hreference] at hhead ⊢
      exact dataSetName_of_parts hslash hhead hd hi
    have hfound : ∀ r ∈ references.map (·.octets),
        (s.getDomain (r.takeWhile (· ≠ 47))).isSome = true := List.forall_mem_map.mpr hdomains
    have hreturned : (references.map (·.octets)).mapM s.returned =
        .ok (references.map (·.octets)) := by
      refine mapM_self_iff.mpr fun r hr => (returned_iff (forall_noZero references r hr)).mpr ?_
      exact ⟨forall_octets.mpr hplain r hr, hfound r hr⟩
    obtain ⟨attributes, hattributes, hback⟩ := mapM_bind_ok.mp hreturned
    obtain ⟨entries, hentries, hattributes⟩ := mapM_bind_ok.mp hattributes
    obtain ⟨members, hnames, hentries⟩ := mapM_bind_ok.mp hentries
    obtain ⟨hsent, hshown⟩ := names_of_plain (forall_octets.mpr hplain) (forall_noZero references)
      hnames (mapM_bind_ok.mpr ⟨entries, hentries, hattributes⟩)
    rw [map_nameSizeOf] at hsent hshown
    obtain ⟨specs, hspecs, hmembers⟩ := mapM_bind_ok.mp hnames
    have hfit : defineSize invokeId (.domainSpecific domainId (StringUtils.replace 46 36 itemId))
        members ≤ codec.defineCapacity := by
      rw [defineSize, hsent, ← dataSetNameSize_eq hslash, ← hreference]
      exact hrequest
    have hdefine : s.handleDefine connection ⟨.domainSpecific domainId
        (StringUtils.replace 46 36 itemId), members.map fun member => ⟨.name member, none⟩⟩ =
          .ok (.define, s.addNamedVariableList (.domain domain) ⟨createStringFromBuffer
            (StringUtils.replace 46 36 itemId), true, entries⟩) :=
      handleDefine_define_iff.mpr ⟨domain, entries, hdomain, hview,
        (createNamedVariableList_names s).mpr hentries, rfl⟩
    refine ⟨_, ?_, (directory_defined hc hname hdomain hview).mpr
      ⟨rfl, attributes, hattributes, hback, ?_⟩⟩
    · rw [createDataSet, hname, ok_bind, hspecs, ok_bind, hmembers, ok_bind,
        hc.define_whole _ _ _ hfit]
      dsimp only
      rw [handle]
      dsimp only
      rw [hdefine]
      rfl
    · rw [attributesSize, hshown]
      exact hresponse

/-- Buffers of 16000 octets; nothing is found in a message whose end is cut off. -/
def bufferCodec : MmsCodec where
  defineCapacity := 16000
  attributesCapacity := 16000
  define invokeId name members :=
    if defineSize invokeId name members ≤ 16000 then
      some (.complete ⟨name, members.map fun member => ⟨.name member, none⟩⟩)
    else some (.incomplete none)
  attributes invokeId mmsDeletable attributes :=
    if attributesSize invokeId attributes ≤ 16000 then some (some (mmsDeletable, attributes))
    else some none

theorem bufferCodec_carries : bufferCodec.Carries where
  define_whole _ _ _ hfit := if_pos hfit
  define_cut invokeId domainId itemId members received _ _ hcut hreceived := by
    have hnone : bufferCodec.define invokeId (.domainSpecific domainId itemId) members =
      some (.incomplete none) := if_neg (Nat.not_le_of_lt hcut)
    rw [hnone] at hreceived
    obtain rfl := Option.some.inj hreceived
    exact ⟨none, rfl, fun _ h => absurd h (Option.not_mem_none _)⟩
  attributes_whole _ _ _ hfit := if_pos hfit
  attributes_cut invokeId mmsDeletable attributes received hcut hreceived := by
    have hnone : bufferCodec.attributes invokeId mmsDeletable attributes = some none :=
      if_neg (Nat.not_le_of_lt hcut)
    rw [hnone] at hreceived
    exact (Option.some.inj hreceived).symm

/-- A domain `L` without variables and lists. -/
def emptyServer : ListServer Unit where
  domains := [⟨[76], (MmsDevice.emptyDomain [76]).toMmsDomain⟩]
  lists _ := []

/-- `"L/N.d"` -/
def dataSetOfNode : MmsValue.CString := ⟨[76, 47, 78, 46, 100], by decide⟩

/-- `"L/N.a[ST]"` -/
def plainReference : MmsValue.CString := ⟨[76, 47, 78, 46, 97, 91, 83, 84, 93], by decide⟩

/-- `"L/N.a(2).b[ST]"` -/
def indexedReference : MmsValue.CString :=
  ⟨[76, 47, 78, 46, 97, 40, 50, 41, 46, 98, 91, 83, 84, 93], by decide⟩

/-- `"L/N.a(0)[ST]"` -/
def firstElementReference : MmsValue.CString :=
  ⟨[76, 47, 78, 46, 97, 40, 48, 41, 91, 83, 84, 93], by decide⟩

theorem plain_roundTrips :
    RoundTrips bufferCodec 0 emptyServer () 1 2 dataSetOfNode [plainReference, plainReference] := by
  have hplain : IsPlain plainReference.octets :=
    ⟨[76], [78, 46, 97], .st, [83, 84], rfl, rfl, rfl, by decide, by decide +kernel, by decide,
      by decide⟩
  refine (directory_roundTrips_iff bufferCodec_carries).mpr ⟨?_, ?_, ?_, by decide, by decide⟩
  · exact ⟨[76], [78, 46, 100], 0, rfl, by decide, by decide, by decide, by decide, rfl, rfl⟩
  · simp only [List.forall_mem_cons]
    exact ⟨hplain, hplain, fun _ h => absurd h List.not_mem_nil⟩
  · simp only [List.forall_mem_cons]
    exact ⟨rfl, rfl, fun _ h => absurd h List.not_mem_nil⟩

/-- The index and the component are lost, and with the index 0 the server cannot answer. -/
theorem indexed_not_roundTrips :
    ¬ RoundTrips bufferCodec 0 emptyServer () 1 2 dataSetOfNode [indexedReference] ∧
      ¬ RoundTrips bufferCodec 0 emptyServer () 1 2 dataSetOfNode [firstElementReference] := by
  constructor
  · rintro ⟨t, hcreate, hdirectory⟩
    obtain rfl := (Prod.mk.inj (Except.ok.inj hcreate)).2
    cases hdirectory
  · rintro ⟨t, hcreate, hdirectory⟩
    obtain rfl := (Prod.mk.inj (Except.ok.inj hcreate)).2
    cases hdirectory

end RoundTrip

end ListServer

end Iec61850
