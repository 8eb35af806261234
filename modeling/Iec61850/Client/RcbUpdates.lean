import Iec61850.Client.ReportControlBlocks

/-! `private_ClientReportControlBlock_updateValues`: which elements of a structure it takes, and
what the getters return afterwards. -/

namespace Iec61850

open Machine

namespace ClientReportControlBlock

/-! ## The places of the attributes -/

def requiredPlaces (isBuffered : Bool) : List (RcbAttribute × Nat) :=
  commonPlaces ++ if isBuffered then bufferedPlaces else unbufferedPlaces

/-- The reservation time of a buffered block and the owner may be missing. -/
def optionalPlaces (isBuffered : Bool) (values : List MmsValue) : List (RcbAttribute × Nat) :=
  if isBuffered then
    if values[13]?.any MmsValue.isOctetString then [(.owner, 13)]
    else [(.resvTms, 13), (.owner, 14)]
  else [(.owner, 11)]

/-- The value of an attribute in a structure. -/
def IsElement (isBuffered : Bool) (values : List MmsValue) (a : RcbAttribute) (w : MmsValue) :
    Prop :=
  ∃ index, (a, index) ∈ requiredPlaces isBuffered ++ optionalPlaces isBuffered values ∧
    values[index]? = some w

/-- A structure of the values of a report control block, with any number of elements. -/
def IsStructure (isBuffered : Bool) (values : List MmsValue) : Prop :=
  ∀ a w, IsElement isBuffered values a w → a.HasType w

/-- The places that are looked at. -/
def takenPlaces (isBuffered : Bool) (values : List MmsValue) : List (RcbAttribute × Nat) :=
  requiredPlaces isBuffered ++
    if isBuffered then (optionalPlaces isBuffered values).filter (·.2 < values.length)
    else if values.length = 12 then optionalPlaces isBuffered values else []

/-- The value of an attribute afterwards. -/
def kept (self : ClientReportControlBlock) (a : RcbAttribute) (w : MmsValue) : MmsValue :=
  match self.value a with
  | some v => v.updated w
  | none => w

variable {self self' : ClientReportControlBlock} {values : List MmsValue} {a : RcbAttribute}
  {w : MmsValue} {places : List (RcbAttribute × Nat)}

section Places

theorem isBuffered_updateOrClone {index : Nat} (h : self.updateOrClone values a index = .ok self') :
    self'.isBuffered = self.isBuffered := by
  unfold updateOrClone at h
  split at h
  · obtain ⟨r, -, hr⟩ := bind_ok h
    cases hr
    rfl
  · obtain ⟨v, -, hv⟩ := bind_ok h
    cases hv
    rfl
  · cases h

theorem isBuffered_updateEach (h : self.updateEach values places = .ok self') :
    self'.isBuffered = self.isBuffered := by
  induction places generalizing self with
  | nil =>
    cases h
    rfl
  | cons p places ih =>
    obtain ⟨self₁, hstep, hrest⟩ := bind_ok h
    exact (ih hrest).trans (isBuffered_updateOrClone hstep)

theorem updateEach_append (ps qs : List (RcbAttribute × Nat)) :
    self.updateEach values (ps ++ qs) = (do (← self.updateEach values ps).updateEach values qs) :=
  List.foldlM_append

theorem updateEach_singleton (p : RcbAttribute × Nat) :
    self.updateEach values [p] = self.updateOrClone values p.1 p.2 := by
  simp [updateEach]

/-- Behind the required places, of a buffered block. -/
theorem updateEach_optional :
    (match values[13]? with
      | none => (pure self : Exec ClientReportControlBlock)
      | some element13 =>
        if element13.isOctetString then self.updateOrClone values .owner 13
        else do
          let self ← self.updateOrClone values .resvTms 13
          if 14 < values.length then self.updateOrClone values .owner 14 else return self) =
      self.updateEach values ((optionalPlaces true values).filter (·.2 < values.length)) := by
  rw [optionalPlaces, if_pos rfl]
  cases helement : values[13]? with
  | none =>
    have hlen : ¬ 13 < values.length := Nat.not_lt.mpr (List.getElem?_eq_none_iff.mp helement)
    have hmore : ¬ 14 < values.length := fun h => hlen (Nat.lt_of_succ_lt h)
    rw [Option.any_none]
    simp only [Bool.false_eq_true, if_false, List.filter_cons, hlen, hmore, decide_false]
    rfl
  | some element13 =>
    obtain ⟨hlen, -⟩ := List.getElem?_eq_some_iff.mp helement
    rw [Option.any_some]
    cases hoctet : element13.isOctetString with
    | true => simp [hoctet, hlen, updateEach]
    | false =>
      by_cases hmore : 14 < values.length
      · simp [hoctet, hlen, hmore, updateEach]
      · simp [hoctet, hlen, hmore, updateEach]

theorem updateValues_eq :
    self.updateValues values = self.updateEach values (takenPlaces self.isBuffered values) := by
  rw [updateValues, takenPlaces, requiredPlaces, List.append_assoc, updateEach_append]
  cases hcommon : self.updateEach values commonPlaces with
  | error e => rfl
  | ok self₁ =>
    rw [ok_bind, ok_bind, isBuffered_updateEach hcommon, updateEach_append]
    cases self.isBuffered with
    | false =>
      refine bind_congr fun self₂ => ?_
      by_cases hlen : values.length = 12
      · simp [hlen, optionalPlaces, updateEach_singleton]
      · simp [hlen, updateEach]
    | true => exact bind_congr fun self₂ => updateEach_optional

end Places

section Run

theorem updateOrClone_ok {index : Nat} (h : self.Typed) (helement : values[index]? = some w)
    (hw : a.HasType w) :
    self.updateOrClone values a index = .ok (self.setValue a (self.kept a w)) := by
  rw [updateOrClone, helement, kept]
  cases hvalue : self.value a with
  | none =>
    simp only [hw.clone, ok_bind]
    rfl
  | some v =>
    have hleaf : ¬ v.Composites w := by
      have hv := (h a v hvalue).isLeaf
      cases v <;> first | exact id | exact hv.elim
    simp only [MmsValue.updateInMemory_apart hleaf, ok_bind]
    rfl

theorem hasType_kept (h : self.Typed) (hw : a.HasType w) : a.HasType (self.kept a w) := by
  rw [kept]
  cases hvalue : self.value a with
  | none => exact hw
  | some v => exact (h a v hvalue).updated hw

/-- The attributes at the places have taken their elements, and the others are as before. -/
structure Updated (values : List MmsValue) (places : List (RcbAttribute × Nat))
    (rcb rcb' : ClientReportControlBlock) : Prop where
  typed : rcb'.Typed
  at_place : ∀ p ∈ places, ∃ w, values[p.2]? = some w ∧ rcb'.value p.1 = some (rcb.kept p.1 w)
  elsewhere : ∀ a, (∀ p ∈ places, p.1 ≠ a) → rcb'.value a = rcb.value a

theorem updateEach_spec (h : self.Typed) (hnodup : (places.map Prod.fst).Nodup)
    (hplaces : ∀ p ∈ places, ∃ w, values[p.2]? = some w ∧ p.1.HasType w) :
    ∃ self', self.updateEach values places = .ok self' ∧ Updated values places self self' := by
  induction places generalizing self with
  | nil => exact ⟨self, rfl, h, nofun, fun _ _ => rfl⟩
  | cons p places ih =>
    obtain ⟨w, hp, hw⟩ := hplaces p List.mem_cons_self
    obtain ⟨hnotMem, hnodup⟩ := List.nodup_cons.mp hnodup
    have hother : ∀ q ∈ places, q.1 ≠ p.1 := fun q hq heq =>
      hnotMem (heq ▸ List.mem_map_of_mem hq)
    have hne : ∀ a, a ≠ p.1 → (self.setValue p.1 (self.kept p.1 w)).value a = self.value a :=
      fun a ha => Function.update_of_ne ha _ _
    obtain ⟨self', hok, hupdated⟩ := ih (h.setValue (hasType_kept h hw)) hnodup fun q hq =>
      hplaces q (List.mem_cons_of_mem p hq)
    refine ⟨self', ?_, hupdated.typed, ?_, ?_⟩
    · rw [updateEach, List.foldlM_cons, updateOrClone_ok h hp hw]
      exact hok
    · intro q hq
      rcases List.mem_cons.mp hq with rfl | hq
      · exact ⟨w, hp, (hupdated.elsewhere q.1 hother).trans value_setValue⟩
      · obtain ⟨u, hu, hvalue⟩ := hupdated.at_place q hq
        rw [kept, hne q.1 (hother q hq)] at hvalue
        exact ⟨u, hu, hvalue⟩
    · intro a ha
      rw [hupdated.elsewhere a fun q hq => ha q (List.mem_cons_of_mem p hq)]
      exact hne a (ha p List.mem_cons_self).symm

theorem updateEach_missing (h : ∃ p ∈ places, values.length ≤ p.2) :
    self.updateEach values places ≠ .ok self' := by
  induction places generalizing self with
  | nil =>
    obtain ⟨p, hp, -⟩ := h
    cases hp
  | cons p places ih =>
    intro hok
    obtain ⟨self₁, hstep, hrest⟩ := bind_ok hok
    obtain ⟨q, hq, hlen⟩ := h
    rcases List.mem_cons.mp hq with rfl | hq
    · cases hvalue : self.value q.1 <;>
        simp [updateOrClone, hvalue, List.getElem?_eq_none hlen] at hstep
    · exact ih ⟨q, hq, hlen⟩ hrest

end Run

/-! ## What an update promises -/

/-- No element is missing, and the getters return the attributes of the structure. -/
def ShowsStructure (self : ClientReportControlBlock) (values : List MmsValue) : Prop :=
  ∃ self', self.updateValues values = .ok self' ∧
    ∀ a w, IsElement self.isBuffered values a w → self'.get a = .ok (a.reading w)

/-- The owner of an unbuffered block is only looked for in structures of twelve elements, and a
value that is there is only changed when it has room. -/
def Takes (self : ClientReportControlBlock) (values : List MmsValue) (a : RcbAttribute)
    (w : MmsValue) : Prop :=
  (a = .owner → self.isBuffered = true ∨ values.length = 12) ∧
    ∀ v, self.value a = some v → v.Accepts w

/-- The condition for that. -/
structure Complete (rcb : ClientReportControlBlock) (values : List MmsValue) : Prop where
  required : (if rcb.isBuffered then 13 else 11) ≤ values.length
  taken : ∀ a w, IsElement rcb.isBuffered values a w → rcb.Takes values a w → a.Readable w
  left : ∀ a w, IsElement rcb.isBuffered values a w → ¬ rcb.Takes values a w →
    rcb.get a = .ok (a.reading w)

theorem requiredPlaces_lt_iff (b : Bool) :
    (∀ p ∈ requiredPlaces b, p.2 < values.length) ↔ (if b then 13 else 11) ≤ values.length := by
  cases b
  · simp [requiredPlaces, commonPlaces, unbufferedPlaces]
    omega
  · simp [requiredPlaces, commonPlaces, bufferedPlaces]
    omega

theorem takenPlaces_sublist (b : Bool) :
    (takenPlaces b values).Sublist (requiredPlaces b ++ optionalPlaces b values) := by
  apply List.Sublist.append_left
  cases b with
  | true => exact List.filter_sublist
  | false =>
    by_cases hlen : values.length = 12
    · simp [hlen]
    · simp [hlen]

theorem nodup_takenPlaces (b : Bool) : ((takenPlaces b values).map Prod.fst).Nodup := by
  apply List.Nodup.sublist ((takenPlaces_sublist b).map Prod.fst)
  rw [optionalPlaces]
  generalize values[13]?.any MmsValue.isOctetString = octetString
  cases b <;> cases octetString <;> decide

theorem ne_owner_of_required (b : Bool) : ∀ p ∈ requiredPlaces b, p.1 ≠ .owner := by
  cases b <;> decide

theorem mem_takenPlaces_iff {p : RcbAttribute × Nat} {b : Bool}
    (hp : p ∈ requiredPlaces b ++ optionalPlaces b values) (hlen : p.2 < values.length) :
    p ∈ takenPlaces b values ↔ (p.1 = .owner → b = true ∨ values.length = 12) := by
  rcases List.mem_append.mp hp with hp | hp
  · exact iff_of_true (List.mem_append_left _ hp) fun howner =>
      absurd howner (ne_owner_of_required b p hp)
  · cases b with
    | true =>
      refine iff_of_true (List.mem_append_right _ ?_) fun _ => Or.inl rfl
      exact List.mem_filter.mpr ⟨hp, decide_eq_true hlen⟩
    | false =>
      have howner : p.1 = .owner := congrArg Prod.fst (List.mem_singleton.mp hp)
      by_cases htwelve : values.length = 12
      · refine iff_of_true (List.mem_append_right _ ?_) fun _ => Or.inr htwelve
        rwa [if_neg Bool.false_ne_true, if_pos htwelve]
      · refine iff_of_false (fun hmem => ?_) fun himp => ?_
        · rcases List.mem_append.mp hmem with hmem | hmem
          · exact ne_owner_of_required false p hmem howner
          · simp [htwelve] at hmem
        · exact (himp howner).elim Bool.false_ne_true htwelve

theorem lt_of_mem_takenPlaces {p : RcbAttribute × Nat} {b : Bool}
    (hrequired : (if b then 13 else 11) ≤ values.length) (hp : p ∈ takenPlaces b values) :
    p.2 < values.length := by
  rcases List.mem_append.mp hp with hp | hp
  · exact (requiredPlaces_lt_iff b).mpr hrequired p hp
  · cases b with
    | true =>
      have hlt := (List.mem_filter.mp hp).2
      exact of_decide_eq_true hlt
    | false =>
      by_cases hlen : values.length = 12
      · simp only [Bool.false_eq_true, if_false, if_pos hlen, optionalPlaces,
          List.mem_singleton] at hp
        rw [hp, hlen]
        decide
      · simp [hlen] at hp

/-- A getter after an attribute has met its element. -/
theorem get_kept (h : self.Typed) (hw : a.HasType w)
    (hvalue : self'.value a = some (self.kept a w)) :
    self'.get a = .ok (a.reading w) ↔
      ((∀ v, self.value a = some v → v.Accepts w) → a.Readable w) ∧
        (¬ (∀ v, self.value a = some v → v.Accepts w) → self.get a = .ok (a.reading w)) := by
  by_cases haccepts : ∀ v, self.value a = some v → v.Accepts w
  · have hdatum : (self.kept a w).datum = w.datum := by
      rw [kept]
      cases hheld : self.value a with
      | none => rfl
      | some v => exact hw.datum_updated (haccepts v hheld)
    obtain ⟨hreading, hreadable⟩ := (hasType_kept h hw).reading_congr hw hdatum
    rw [← hreading, get_iff hvalue (hasType_kept h hw), hreadable]
    exact ⟨fun hr => ⟨fun _ => hr, fun hn => absurd haccepts hn⟩, fun hr => hr.1 haccepts⟩
  · obtain ⟨v, hv⟩ := not_forall.mp haccepts
    obtain ⟨hheld, hv⟩ := Classical.not_imp.mp hv
    have hkept : self.kept a w = v := by
      rw [kept, hheld]
      exact (h a v hheld).updated_eq hv
    rw [get_congr (hvalue.trans ((congrArg some hkept).trans hheld.symm))]
    exact ⟨fun hget => ⟨fun hn => absurd hn haccepts, fun _ => hget⟩, fun hr => hr.2 haccepts⟩

/-- A getter after an update. -/
theorem get_updated (h : self.Typed) (hw : a.HasType w)
    (hupdated : Updated values (takenPlaces self.isBuffered values) self self')
    (helement : IsElement self.isBuffered values a w) :
    self'.get a = .ok (a.reading w) ↔
      (self.Takes values a w → a.Readable w) ∧
        (¬ self.Takes values a w → self.get a = .ok (a.reading w)) := by
  obtain ⟨index, hp, hindex⟩ := helement
  obtain ⟨hlen, -⟩ := List.getElem?_eq_some_iff.mp hindex
  have hmem := mem_takenPlaces_iff hp hlen
  by_cases hplace : a = .owner → self.isBuffered = true ∨ values.length = 12
  · obtain ⟨u, hu, hvalue⟩ := hupdated.at_place (a, index) (hmem.mpr hplace)
    cases hindex.symm.trans hu
    rw [get_kept h hw hvalue, Takes, and_iff_right hplace]
  · have htakes : ¬ self.Takes values a w := fun ht => hplace ht.1
    have helsewhere : self'.value a = self.value a := by
      obtain ⟨howner, hnot⟩ := Classical.not_imp.mp hplace
      refine hupdated.elsewhere a fun p hpmem hpa => ?_
      rcases List.mem_append.mp hpmem with hpmem | hpmem
      · exact ne_owner_of_required _ p hpmem (hpa.trans howner)
      · rw [if_neg (hnot ∘ Or.inl), if_neg (hnot ∘ Or.inr)] at hpmem
        cases hpmem
    rw [get_congr helsewhere]
    exact ⟨fun hget => ⟨fun ht => absurd ht htakes, fun _ => hget⟩, fun hr => hr.2 htakes⟩

theorem updateValues_spec (h : self.Typed) (hvalues : IsStructure self.isBuffered values)
    (hrequired : (if self.isBuffered then 13 else 11) ≤ values.length) :
    ∃ self', self.updateValues values = .ok self' ∧
      Updated values (takenPlaces self.isBuffered values) self self' := by
  rw [updateValues_eq]
  refine updateEach_spec h (nodup_takenPlaces self.isBuffered) fun p hp => ?_
  have hindex := List.getElem?_eq_getElem (lt_of_mem_takenPlaces hrequired hp)
  exact ⟨_, hindex, hvalues p.1 _ ⟨p.2, (takenPlaces_sublist _).subset hp, hindex⟩⟩

theorem required_of_updateValues (hok : self.updateValues values = .ok self') :
    (if self.isBuffered then 13 else 11) ≤ values.length := by
  by_contra hrequired
  rw [updateValues_eq] at hok
  rw [← requiredPlaces_lt_iff] at hrequired
  simp only [not_forall, Nat.not_lt] at hrequired
  obtain ⟨p, hp, hlen⟩ := hrequired
  exact updateEach_missing ⟨p, List.mem_append_left _ hp, hlen⟩ hok

theorem showsStructure_iff (h : self.Typed) (hvalues : IsStructure self.isBuffered values) :
    self.ShowsStructure values ↔ self.Complete values := by
  constructor
  · rintro ⟨self', hok, hshows⟩
    have hrequired := required_of_updateValues hok
    obtain ⟨self'', hok', hupdated⟩ := updateValues_spec h hvalues hrequired
    cases hok.symm.trans hok'
    have hget := fun a w he => (get_updated h (hvalues a w he) hupdated he).mp (hshows a w he)
    exact ⟨hrequired, fun a w he => (hget a w he).1, fun a w he => (hget a w he).2⟩
  · intro hcomplete
    obtain ⟨self', hok, hupdated⟩ := updateValues_spec h hvalues hcomplete.required
    refine ⟨self', hok, fun a w he => ?_⟩
    exact (get_updated h (hvalues a w he) hupdated he).mpr
      ⟨hcomplete.taken a w he, hcomplete.left a w he⟩

theorem typed_updateValues (h : self.Typed) (hvalues : IsStructure self.isBuffered values)
    (hok : self.updateValues values = .ok self') : self'.Typed := by
  obtain ⟨self'', hok', hupdated⟩ := updateValues_spec h hvalues (required_of_updateValues hok)
  cases hok.symm.trans hok'
  exact hupdated.typed

/-! ## The blocks of an application -/

/-- A block is created without values, and changed by setters and by what servers send. -/
inductive Made : ClientReportControlBlock → Prop
  | create (objectReference : List UInt8) : Made (create objectReference)
  | set {self self' : ClientReportControlBlock} (s : RcbSetting) : Made self →
    s.set self = .ok self' → Made self'
  | update {self self' : ClientReportControlBlock} {values : List MmsValue} : Made self →
    IsStructure self.isBuffered values → self.updateValues values = .ok self' → Made self'

theorem Made.typed (h : Made self) : self.Typed := by
  induction h with
  | create => exact nofun
  | set s _ hset ih =>
    obtain ⟨⟨self', hok, htyped⟩, -⟩ := s.readBack_iff ih
    cases hok.symm.trans hset
    exact htyped
  | update _ hvalues hok ih => exact typed_updateValues ih hvalues hok

end ClientReportControlBlock

end Iec61850
