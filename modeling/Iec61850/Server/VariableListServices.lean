import Iec61850.Server.VariableLists

/-! What one request does to the lists of variables, found by their names. -/

namespace Iec61850

open Machine

/-- The part of a variable that an index and a component select; `-1` is no index. -/
inductive MmsVariableSpecification.HasPart :
    MmsVariableSpecification → Int → Option (List UInt8) → Prop
  | whole {v : MmsVariableSpecification} : HasPart v (-1) none
  | component {name : List UInt8} {elements : List MmsVariableSpecification}
    {e : MmsVariableSpecification} : e ∈ elements → HasPart (.structured name elements) (-1) e.name
  | element {name : List UInt8} {elementCount : Int} {e : MmsVariableSpecification} {i : Nat} :
    i < elementCount → HasPart (.array name elementCount e) i none
  | elementComponent {name : List UInt8} {elementCount : Int} {e c : MmsVariableSpecification}
    {i : Nat} : i < elementCount → c ∈ e.elements → HasPart (.array name elementCount e) i c.name

/-- Where no scope is sent it is that of the names. -/
def DeleteRequest.scope (request : DeleteRequest) : Int64 :=
  (request.scopeOfDelete.bind TypeDescription.iNTEGER2long).getD 0

def ListAnswer.IsRefusal : ListAnswer → Prop
  | .error _ => True
  | .reject => True
  | _ => False

namespace ListServer

variable {κ : Type}

/-! ## The lists by their names -/

/-- The list with a name, wherever it stands. -/
def view (s : ListServer κ) (key : ListScope κ × List UInt8) : Option MmsNamedVariableList :=
  s.getNamedVariableList key.1 key.2

/-- What the name in a request stands for, when its parts are copied in a certain way. -/
def resolve (s : ListServer κ) (connection : κ) (copy : List UInt8 → List UInt8) :
    ObjectName → Option (ListScope κ × List UInt8)
  | .domainSpecific domainId itemId =>
    (s.getDomain (copy domainId)).map fun domain => (.domain domain, copy itemId)
  | .aaSpecific identifier => some (.association connection, copy identifier)
  | .vmdSpecific _ => none

/-- What the name in a request stands for. -/
def key (s : ListServer κ) (connection : κ) (name : ObjectName) :
    Option (ListScope κ × List UInt8) := s.resolve connection createStringFromBuffer name

def Unique (s : ListServer κ) : Prop :=
  ∀ scope, NamedList.Unique MmsNamedVariableList.name (s.lists scope)

/-- The variable and the part of it are there. -/
def Resolvable (s : ListServer κ) (entry : NamedVariableListEntry) : Prop :=
  ∃ domain v, entry.domain = some domain ∧
    s.getNamedVariable domain entry.variableName = .ok (some v) ∧
    v.HasPart entry.arrayIndex entry.componentName

section View

variable {s : ListServer κ} {scope : ListScope κ} {l : MmsNamedVariableList} {n : List UInt8}

theorem view_mk (s : ListServer κ) (scope : ListScope κ) (n : List UInt8) :
    s.view (scope, n) = NamedList.lookup MmsNamedVariableList.name (s.lists scope) n := rfl

theorem mem_of_view {key : ListScope κ × List UInt8} (h : s.view key = some l) :
    l ∈ s.lists key.1 ∧ l.name = key.2 := NamedList.mem_of_lookup h

variable [DecidableEq κ]

@[simp] theorem domains_addNamedVariableList (s : ListServer κ) (scope : ListScope κ)
    (l : MmsNamedVariableList) : (s.addNamedVariableList scope l).domains = s.domains := rfl

@[simp] theorem domains_deleteVariableList (s : ListServer κ) (scope : ListScope κ)
    (n : List UInt8) : (s.deleteVariableList scope n).domains = s.domains := rfl

theorem lists_addNamedVariableList (s : ListServer κ) (scope scope' : ListScope κ)
    (l : MmsNamedVariableList) : (s.addNamedVariableList scope l).lists scope' =
      if scope' = scope then s.lists scope ++ [l] else s.lists scope' := Function.update_apply ..

theorem lists_deleteVariableList (s : ListServer κ) (scope scope' : ListScope κ) (n : List UInt8) :
    (s.deleteVariableList scope n).lists scope' =
      if scope' = scope then NamedList.remove MmsNamedVariableList.name (s.lists scope) n
      else s.lists scope' := Function.update_apply ..

theorem view_addNamedVariableList (h : s.view (scope, l.name) = none) :
    (s.addNamedVariableList scope l).view = Function.update s.view (scope, l.name) (some l) := by
  funext key
  obtain ⟨scope', n⟩ := key
  rw [view_mk, lists_addNamedVariableList]
  by_cases hscope : scope' = scope
  · rw [if_pos hscope, NamedList.lookup_append_singleton h, Function.update_apply, hscope]
    refine if_congr ?_ rfl rfl
    rw [Prod.mk.injEq, and_iff_right rfl]
  · rw [if_neg hscope, Function.update_of_ne fun hkey => hscope (Prod.mk.inj hkey).1]
    rfl

theorem Unique.addNamedVariableList (hu : s.Unique) (h : s.view (scope, l.name) = none) :
    (s.addNamedVariableList scope l).Unique := by
  intro scope'
  rw [lists_addNamedVariableList]
  split
  · exact (hu scope).append_singleton h
  · exact hu scope'

theorem Unique.view_deleteVariableList (hu : s.Unique) (scope : ListScope κ) (n : List UInt8) :
    (s.deleteVariableList scope n).view = Function.update s.view (scope, n) none := by
  funext key
  obtain ⟨scope', m⟩ := key
  rw [view_mk, lists_deleteVariableList]
  by_cases hscope : scope' = scope
  · rw [if_pos hscope, (hu scope).lookup_remove, Function.update_apply, hscope]
    refine if_congr ?_ rfl rfl
    rw [Prod.mk.injEq, and_iff_right rfl]
  · rw [if_neg hscope, Function.update_of_ne fun hkey => hscope (Prod.mk.inj hkey).1]
    rfl

theorem Unique.deleteVariableList (hu : s.Unique) (scope : ListScope κ) (n : List UInt8) :
    (s.deleteVariableList scope n).Unique := by
  intro scope'
  rw [lists_deleteVariableList]
  split
  · exact (hu scope).remove n
  · exact hu scope'

end View

/-! ## Names -/

/-- The name is short enough for the buffers that it is copied to. -/
def Fits (s : ListServer κ) (connection : κ) (name : ObjectName) : Prop :=
  s.resolve connection ReadServer.nameOf name = s.key connection name

/-- The copied name stands for the same list, or neither of the two for any. -/
def SameList (s : ListServer κ) (connection : κ) (name : ObjectName) : Prop :=
  s.Fits connection name ∨
    (s.resolve connection ReadServer.nameOf name).bind s.view = none ∧
      (s.key connection name).bind s.view = none

/-- A list is deleted under its name, in a domain that there is. The name of a list of the client
is not copied. -/
def Deletable (s : ListServer κ) (connection : κ) : ObjectName → Prop
  | .domainSpecific domainId itemId =>
    (s.getDomain (ReadServer.nameOf domainId)).isSome = true ∧
      s.SameList connection (.domainSpecific domainId itemId)
  | _ => True

/-- The lists of the clients have been defined. -/
def AllDefined (s : ListServer κ) : Prop :=
  ∀ connection, ∀ l ∈ s.lists (.association connection), l.deletable = true

section Names

variable {s t : ListServer κ} {connection : κ} {name : ObjectName}
  {l : MmsNamedVariableList} {key : ListScope κ × List UInt8} {count : DeleteCount}

theorem resolve_of_domains (h : t.domains = s.domains) (connection : κ)
    (copy : List UInt8 → List UInt8) (name : ObjectName) :
    t.resolve connection copy name = s.resolve connection copy name := by
  cases name with
  | domainSpecific domainId itemId => rw [resolve, resolve, getDomain, getDomain, h]
  | aaSpecific => rfl
  | vmdSpecific => rfl

theorem key_of_domains (h : t.domains = s.domains) (connection : κ) (name : ObjectName) :
    t.key connection name = s.key connection name := resolve_of_domains h connection _ name

/-- What is found once lists have gone. -/
theorem bind_view_eq_none {found : Option (ListScope κ × List UInt8)}
    (hview : ∀ key, s.view key = none → t.view key = none) (h : found.bind s.view = none) :
    found.bind t.view = none := by
  cases found with
  | none => rfl
  | some key => exact hview key h

theorem Deletable.of_view (h : s.Deletable connection name) (hd : t.domains = s.domains)
    (hview : ∀ key, s.view key = none → t.view key = none) : t.Deletable connection name := by
  cases name with
  | domainSpecific domainId itemId =>
    obtain ⟨hdomain, hsame⟩ := h
    refine ⟨?_, ?_⟩
    · rwa [getDomain, hd]
    · rw [SameList, Fits, key_of_domains hd, resolve_of_domains hd]
      exact hsame.imp_right fun h => ⟨bind_view_eq_none hview h.1, bind_view_eq_none hview h.2⟩
  | aaSpecific => trivial
  | vmdSpecific => trivial

variable [DecidableEq κ]

/-- A turn of the loop, by the list that the name stands for. -/
theorem deleteName_eq (h : s.Deletable connection name) (ha : s.AllDefined)
    (count : DeleteCount) :
    deleteName connection name s count =
      match (s.key connection name).bind fun key => (s.view key).map (key, ·) with
      | none => .ok (s, count)
      | some (key, l) =>
        if l.deletable then
          .ok (s.deleteVariableList key.1 key.2,
            ⟨count.numberMatched + 1, count.numberDeleted + 1⟩)
        else .ok (s, { count with numberMatched := count.numberMatched + 1 }) := by
  cases name with
  | vmdSpecific => rfl
  | aaSpecific identifier =>
    have hkey : s.key connection (.aaSpecific identifier) =
      some (.association connection, createStringFromBuffer identifier) := rfl
    rw [deleteName, hkey, Option.bind_some]
    have hview : s.view (.association connection, createStringFromBuffer identifier) =
      s.getNamedVariableList (.association connection) (createStringFromBuffer identifier) := rfl
    rw [hview]
    cases hl : s.getNamedVariableList (.association connection)
        (createStringFromBuffer identifier) with
    | none => rfl
    | some l =>
      have hdeletable := ha connection l (mem_of_view (hview.trans hl)).1
      exact (if_pos hdeletable).symm
  | domainSpecific domainId itemId =>
    obtain ⟨hdomain, hsame⟩ := h
    obtain ⟨domain, hdomain⟩ := Option.isSome_iff_exists.mp hdomain
    have hresolve : s.resolve connection ReadServer.nameOf (.domainSpecific domainId itemId) =
        some (.domain domain, ReadServer.nameOf itemId) := by
      rw [resolve, hdomain]
      rfl
    rw [deleteName, hdomain]
    dsimp only
    rcases hsame with hfits | ⟨hnone, hnone'⟩
    · rw [← hfits, hresolve, Option.bind_some]
      have hview : s.view (.domain domain, ReadServer.nameOf itemId) =
        s.getNamedVariableList (.domain domain) (ReadServer.nameOf itemId) := rfl
      rw [hview]
      cases s.getNamedVariableList (.domain domain) (ReadServer.nameOf itemId) with
      | none => rfl
      | some l => rfl
    · have hview : s.getNamedVariableList (.domain domain) (ReadServer.nameOf itemId) = none := by
        rw [hresolve] at hnone
        exact hnone
      have hbind : ((s.key connection (.domainSpecific domainId itemId)).bind fun key =>
          (s.view key).map (key, ·)) = none := by
        cases hkey : s.key connection (.domainSpecific domainId itemId) with
        | none => rfl
        | some key =>
          rw [hkey, Option.bind_some] at hnone'
          rw [Option.bind_some, hnone']
          rfl
      rw [hview, hbind]

end Names

/-! ## Delete -/

/-- The names that a delete request lists. -/
def listed [DecidableEq κ] (s : ListServer κ) (connection : κ) (names : List ObjectName) :
    Finset (ListScope κ × List UInt8) := (names.filterMap (s.key connection)).toFinset

def isNamed (s : ListServer κ) (key : ListScope κ × List UInt8) : Bool := (s.view key).isSome

def isDeletable (s : ListServer κ) (key : ListScope κ × List UInt8) : Bool :=
  (s.view key).any (·.deletable)

def isStatic (s : ListServer κ) (key : ListScope κ × List UInt8) : Bool :=
  (s.view key).any (!·.deletable)

/-- No list that stays is listed twice. -/
def StaticOnce (s : ListServer κ) (connection : κ) (names : List ObjectName) : Prop :=
  ((names.filterMap (s.key connection)).filter s.isStatic).Nodup

section Delete

variable [DecidableEq κ] {s t : ListServer κ} {connection : κ} {name : ObjectName}
  {names : List ObjectName} {l : MmsNamedVariableList} {key : ListScope κ × List UInt8}
  {count count' : DeleteCount}

/-- The listed lists that can be deleted are gone, nothing else is, and the counts are exact. -/
structure Deletes (s : ListServer κ) (connection : κ) (names : List ObjectName)
    (count : DeleteCount) (t : ListServer κ) (count' : DeleteCount) : Prop where
  domains : t.domains = s.domains
  view : ∀ key, t.view key =
    if key ∈ s.listed connection names ∧ s.isDeletable key = true then none else s.view key
  numberMatched : count'.numberMatched =
    count.numberMatched + ((s.listed connection names).filter (s.isNamed · = true)).card
  numberDeleted : count'.numberDeleted =
    count.numberDeleted + ((s.listed connection names).filter (s.isDeletable · = true)).card

theorem listed_cons_none (h : s.key connection name = none) (names : List ObjectName) :
    s.listed connection (name :: names) = s.listed connection names := by
  rw [listed, List.filterMap_cons_none h, listed]

theorem listed_cons_some (h : s.key connection name = some key) (names : List ObjectName) :
    s.listed connection (name :: names) = insert key (s.listed connection names) := by
  rw [listed, List.filterMap_cons_some h, List.toFinset_cons, listed]

theorem listed_of_domains (h : t.domains = s.domains) (connection : κ) (names : List ObjectName) :
    t.listed connection names = s.listed connection names := by
  have hkey : t.key connection = s.key connection := funext (key_of_domains h connection)
  rw [listed, listed, hkey]

/-- One more has the property than without the element. -/
theorem card_filter_insert {α : Type} [DecidableEq α] {a : α} {as : Finset α} {p p' : α → Bool}
    (ha : p a = true) (hp : ∀ b, p' b = true ↔ p b = true ∧ b ≠ a) :
    ((insert a as).filter (p · = true)).card = (as.filter (p' · = true)).card + 1 := by
  have herase : as.filter (p' · = true) = ((insert a as).filter (p · = true)).erase a := by
    ext b
    simp only [Finset.mem_filter, Finset.mem_erase, Finset.mem_insert, hp]
    constructor
    · rintro ⟨hmem, hb, hne⟩
      exact ⟨hne, Or.inr hmem, hb⟩
    · rintro ⟨hne, hmem, hb⟩
      exact ⟨hmem.resolve_left hne, hb, hne⟩
  rw [herase, Finset.card_erase_add_one]
  exact Finset.mem_filter.mpr ⟨Finset.mem_insert_self _ _, ha⟩

/-- A name of no list has no effect. -/
theorem Deletes.cons_unnamed (h : Deletes s connection names count t count')
    (hkey : ∀ key, s.key connection name = some key → s.view key = none) :
    Deletes s connection (name :: names) count t count' := by
  cases hname : s.key connection name with
  | none =>
    have hlisted := listed_cons_none hname names
    exact ⟨h.domains, hlisted ▸ h.view, hlisted ▸ h.numberMatched, hlisted ▸ h.numberDeleted⟩
  | some key =>
    have hview := hkey key hname
    have hnamed : ¬ s.isNamed key = true := by rw [isNamed, hview]; exact Bool.false_ne_true
    have hdeletable : ¬ s.isDeletable key = true := by
      rw [isDeletable, hview]
      exact Bool.false_ne_true
    refine ⟨h.domains, fun key' => ?_, ?_, ?_⟩
    · rw [h.view, listed_cons_some hname]
      refine if_congr ?_ rfl rfl
      rw [Finset.mem_insert]
      refine and_congr_left fun hd => (or_iff_right ?_).symm
      rintro rfl
      exact hdeletable hd
    · rw [listed_cons_some hname, Finset.filter_insert, if_neg hnamed]
      exact h.numberMatched
    · rw [listed_cons_some hname, Finset.filter_insert, if_neg hdeletable]
      exact h.numberDeleted

/-- A list that stays is matched. -/
theorem Deletes.cons_static (h : Deletes s connection names
      { count with numberMatched := count.numberMatched + 1 } t count')
    (hname : s.key connection name = some key) (hview : s.view key = some l)
    (hl : l.deletable = false) (honce : key ∉ s.listed connection names) :
    Deletes s connection (name :: names) count t count' := by
  have hnamed : s.isNamed key = true := by rw [isNamed, hview]; rfl
  have hdeletable : ¬ s.isDeletable key = true := by
    rw [isDeletable, hview, Option.any_some, hl]
    exact Bool.false_ne_true
  refine ⟨h.domains, fun key' => ?_, ?_, ?_⟩
  · rw [h.view, listed_cons_some hname]
    refine if_congr ?_ rfl rfl
    rw [Finset.mem_insert]
    refine and_congr_left fun hd => (or_iff_right ?_).symm
    rintro rfl
    exact hdeletable hd
  · rw [listed_cons_some hname, Finset.filter_insert, if_pos hnamed, Finset.card_insert_of_notMem
      fun hmem => honce (Finset.mem_filter.mp hmem).1, h.numberMatched]
    exact Nat.add_right_comm _ _ _
  · rw [listed_cons_some hname, Finset.filter_insert, if_neg hdeletable]
    exact h.numberDeleted

/-- A list that goes is matched and deleted, and is not there for the other names. -/
theorem Deletes.cons_deletable (hu : s.Unique)
    (h : Deletes (s.deleteVariableList key.1 key.2) connection names
      ⟨count.numberMatched + 1, count.numberDeleted + 1⟩ t count')
    (hname : s.key connection name = some key) (hview : s.view key = some l)
    (hl : l.deletable = true) : Deletes s connection (name :: names) count t count' := by
  have hview' : (s.deleteVariableList key.1 key.2).view = Function.update s.view key none :=
    hu.view_deleteVariableList key.1 key.2
  have hlisted : (s.deleteVariableList key.1 key.2).listed connection names =
      s.listed connection names := listed_of_domains rfl connection names
  have hnamed : s.isNamed key = true := by rw [isNamed, hview]; rfl
  have hdeletable : s.isDeletable key = true := by rw [isDeletable, hview]; exact hl
  have hisNamed : ∀ key', (s.deleteVariableList key.1 key.2).isNamed key' = true ↔
      s.isNamed key' = true ∧ key' ≠ key := by
    intro key'
    rw [isNamed, hview', isNamed, Function.update_apply]
    split <;> simp [*]
  have hisDeletable : ∀ key', (s.deleteVariableList key.1 key.2).isDeletable key' = true ↔
      s.isDeletable key' = true ∧ key' ≠ key := by
    intro key'
    rw [isDeletable, hview', isDeletable, Function.update_apply]
    split <;> simp [*]
  refine ⟨h.domains, fun key' => ?_, ?_, ?_⟩
  · rw [h.view, hlisted, listed_cons_some hname, hview', Function.update_apply]
    by_cases hkey : key' = key
    · rw [hkey, if_pos rfl, ite_self, if_pos ⟨Finset.mem_insert_self _ _, hdeletable⟩]
    · rw [if_neg hkey]
      refine if_congr ?_ rfl rfl
      rw [hisDeletable, Finset.mem_insert, or_iff_right hkey, and_iff_left hkey]
  · rw [h.numberMatched, hlisted, listed_cons_some hname, card_filter_insert hnamed hisNamed]
    exact Nat.add_right_comm _ _ _
  · rw [h.numberDeleted, hlisted, listed_cons_some hname, card_filter_insert hdeletable hisDeletable]
    exact Nat.add_right_comm _ _ _

omit [DecidableEq κ] in
theorem StaticOnce.tail (h : s.StaticOnce connection (name :: names)) :
    s.StaticOnce connection names := by
  cases hname : s.key connection name with
  | none =>
    rw [StaticOnce, List.filterMap_cons_none hname] at h
    exact h
  | some key =>
    rw [StaticOnce, List.filterMap_cons_some hname] at h
    exact h.sublist ((List.sublist_cons_self _ _).filter _)

/-- A list that stays and is listed first is not listed again. -/
theorem StaticOnce.not_mem (h : s.StaticOnce connection (name :: names))
    (hname : s.key connection name = some key) (hview : s.view key = some l)
    (hl : l.deletable = false) : key ∉ s.listed connection names := by
  have hstatic : s.isStatic key = true := by
    rw [isStatic, hview, Option.any_some, hl]
    rfl
  rw [StaticOnce, List.filterMap_cons_some hname, List.filter_cons_of_pos hstatic,
    List.nodup_cons] at h
  intro hmem
  exact h.1 (List.mem_filter.mpr ⟨List.mem_toFinset.mp hmem, hstatic⟩)

theorem StaticOnce.deleteVariableList (h : s.StaticOnce connection names) (hu : s.Unique)
    (scope : ListScope κ) (n : List UInt8) :
    (s.deleteVariableList scope n).StaticOnce connection names := by
  have hkey : (s.deleteVariableList scope n).key connection = s.key connection :=
    funext (key_of_domains rfl connection)
  rw [StaticOnce, hkey]
  refine List.Nodup.sublist (List.monotone_filter_right _ ?_) h
  intro key hstatic
  rw [isStatic, hu.view_deleteVariableList, Function.update_apply] at hstatic
  split at hstatic
  · cases hstatic
  · exact hstatic

theorem AllDefined.deleteVariableList (ha : s.AllDefined) (scope : ListScope κ) (n : List UInt8) :
    (s.deleteVariableList scope n).AllDefined := by
  intro connection l hl
  rw [lists_deleteVariableList] at hl
  split at hl
  case isTrue hscope => exact ha connection l (hscope ▸ NamedList.mem_of_mem_remove hl)
  case isFalse => exact ha connection l hl

/-- The loop over the names. -/
theorem deleteNames_deletes (hu : s.Unique) (ha : s.AllDefined)
    (hd : ∀ name ∈ names, s.Deletable connection name) (honce : s.StaticOnce connection names)
    (count : DeleteCount) :
    ∃ t count', deleteNames connection names s count = .ok (t, count') ∧ t.Unique ∧
      t.AllDefined ∧ Deletes s connection names count t count' := by
  induction names generalizing s count with
  | nil =>
    refine ⟨s, count, rfl, hu, ha, rfl, fun key => (if_neg ?_).symm, rfl, rfl⟩
    exact fun h => Finset.notMem_empty _ h.1
  | cons name names ih =>
    have hrest := fun name hmem => hd name (List.mem_cons_of_mem _ hmem)
    have hturn := deleteName_eq (hd name List.mem_cons_self) ha count
    rw [deleteNames, hturn]
    cases hfound : (s.key connection name).bind fun key => (s.view key).map (key, ·) with
    | none =>
      obtain ⟨t, count', hloop, hut, hat, h⟩ := ih hu ha hrest honce.tail count
      refine ⟨t, count', hloop, hut, hat, h.cons_unnamed fun key hkey => ?_⟩
      rw [hkey, Option.bind_some] at hfound
      exact Option.map_eq_none_iff.mp hfound
    | some found =>
      obtain ⟨key, l⟩ := found
      obtain ⟨key', hname, hmap⟩ := Option.bind_eq_some_iff.mp hfound
      obtain ⟨l', hview, heq⟩ := Option.map_eq_some_iff.mp hmap
      cases heq
      dsimp only
      by_cases hl : l.deletable = true
      · have hnone : ∀ key', s.view key' = none →
            (s.deleteVariableList key.1 key.2).view key' = none := by
          intro key' hnone
          rw [hu.view_deleteVariableList, Function.update_apply, hnone, ite_self]
        obtain ⟨t, count', hloop, hut, hat, h⟩ := ih (hu.deleteVariableList key.1 key.2)
          (ha.deleteVariableList key.1 key.2)
          (fun name hmem => (hrest name hmem).of_view rfl hnone)
          (honce.tail.deleteVariableList hu key.1 key.2)
          ⟨count.numberMatched + 1, count.numberDeleted + 1⟩
        rw [if_pos hl]
        exact ⟨t, count', hloop, hut, hat, h.cons_deletable hu hname hview hl⟩
      · rw [Bool.not_eq_true] at hl
        obtain ⟨t, count', hloop, hut, hat, h⟩ := ih hu ha hrest honce.tail
          { count with numberMatched := count.numberMatched + 1 }
        rw [if_neg (Bool.eq_false_iff.mp hl)]
        refine ⟨t, count', hloop, hut, hat, h.cons_static hname hview hl ?_⟩
        exact honce.not_mem hname hview hl

end Delete

/-! ## Define -/

section Define

variable {s : ListServer κ} {member : ListMember} {members : List ListMember}

/-- The variable that the member names is there, and the part of it that is selected. -/
def Resolves (s : ListServer κ) (member : ListMember) : Prop :=
  ∃ name part, member.variableSpecification = .name name ∧
    alternatePart member.alternateAccess = .ok (some part) ∧
    s.Resolvable ⟨s.getDomain (createStringFromBuffer name.domainAndItem.1),
      createStringFromBuffer name.domainAndItem.2, part.1, part.2⟩

/-- The member is of a kind that no list is defined with. -/
def RefusedMember (member : ListMember) : Prop :=
  alternatePart member.alternateAccess = .ok none ∨
    (∃ part, alternatePart member.alternateAccess = .ok (some part)) ∧
      member.variableSpecification = .other

theorem Resolves.createEntry (h : s.Resolves member) :
    ∃ entry, s.createEntry member = .ok (some entry) ∧ s.Resolvable entry := by
  obtain ⟨name, part, hname, hpart, hresolvable⟩ := h
  refine ⟨_, ?_, hresolvable⟩
  rw [ListServer.createEntry, hpart, ok_bind, hname]
  rfl

theorem createEntry_of_refused (h : RefusedMember member) : s.createEntry member = .ok none := by
  rcases h with hpart | ⟨⟨part, hpart⟩, hother⟩
  · rw [createEntry, hpart, ok_bind]
    rfl
  · rw [createEntry, hpart, ok_bind, hother]
    rfl

/-- A member of a kind that is not supported stands behind members that are at least gone through
without a fault. -/
def RefusedMembers (members : List ListMember) : Prop :=
  ∃ first member rest, members = first ++ member :: rest ∧
    (∀ m ∈ first, ∃ part, alternatePart m.alternateAccess = .ok part) ∧ RefusedMember member

theorem createNamedVariableList_of_resolves (h : ∀ m ∈ members, s.Resolves m) :
    ∃ entries, s.createNamedVariableList members = .ok (some entries) ∧
      List.Forall₂ (fun m entry => s.createEntry m = .ok (some entry)) members entries ∧
      ∀ entry ∈ entries, s.Resolvable entry := by
  induction members with
  | nil => exact ⟨[], rfl, .nil, fun entry hmem => absurd hmem List.not_mem_nil⟩
  | cons m members ih =>
    obtain ⟨entry, hentry, hresolvable⟩ := (h m List.mem_cons_self).createEntry
    obtain ⟨entries, heq, hall, hresolvables⟩ := ih fun m hmem => h m (List.mem_cons_of_mem _ hmem)
    refine ⟨entry :: entries, ?_, .cons hentry hall, ?_⟩
    · rw [createNamedVariableList, hentry, ok_bind]
      dsimp only
      rw [heq]
      rfl
    · exact List.forall_mem_cons.mpr ⟨hresolvable, hresolvables⟩

theorem createEntry_of_part (h : ∃ part, alternatePart member.alternateAccess = .ok part) :
    ∃ found, s.createEntry member = .ok found := by
  obtain ⟨part, hpart⟩ := h
  rw [createEntry, hpart, ok_bind]
  cases part with
  | none => exact ⟨_, rfl⟩
  | some part =>
    cases member.variableSpecification with
    | name name => exact ⟨_, rfl⟩
    | other => exact ⟨_, rfl⟩

theorem createNamedVariableList_of_refused (h : RefusedMembers members) :
    s.createNamedVariableList members = .ok none := by
  obtain ⟨first, member, rest, rfl, hfirst, hrefused⟩ := h
  induction first with
  | nil =>
    rw [List.nil_append, createNamedVariableList, createEntry_of_refused hrefused, ok_bind]
    rfl
  | cons m first ih =>
    obtain ⟨found, hfound⟩ := createEntry_of_part (s := s) (hfirst m List.mem_cons_self)
    rw [List.cons_append, createNamedVariableList, hfound, ok_bind]
    cases found with
    | none => rfl
    | some entry =>
      dsimp only
      rw [ih fun m hmem => hfirst m (List.mem_cons_of_mem _ hmem)]
      rfl

variable [DecidableEq κ] {t : ListServer κ} {connection : κ} {request : DefineRequest}

/-- A list with a new name is there, and nothing else has changed. Its members are there, and it
can be read and deleted under its name. -/
def Defines (s : ListServer κ) (connection : κ) (request : DefineRequest) (t : ListServer κ) :
    Prop :=
  ∃ key entries, s.key connection request.variableListName = some key ∧ s.view key = none ∧
    t.view = Function.update s.view key (some ⟨key.2, true, entries⟩) ∧
    List.Forall₂ (fun m entry => s.createEntry m = .ok (some entry)) request.listOfVariable
      entries ∧
    (∀ entry ∈ entries, s.Resolvable entry) ∧ s.Fits connection request.variableListName

/-- What a define request has to be like if its name is not taken. -/
def DefineMeets (s : ListServer κ) (connection : κ) (request : DefineRequest) : Prop :=
  (s.Fits connection request.variableListName ∧ ∀ m ∈ request.listOfVariable, s.Resolves m) ∨
    RefusedMembers request.listOfVariable

/-- The request is refused, or the list is added. -/
theorem handleDefine_cases (h : ∀ key, s.key connection request.variableListName = some key →
      s.view key = none → s.DefineMeets connection request) :
    (∃ error, s.handleDefine connection request = .ok (.error error, s)) ∨
      ∃ key entries, s.handleDefine connection request =
          .ok (.define, s.addNamedVariableList key.1 ⟨key.2, true, entries⟩) ∧
        s.key connection request.variableListName = some key ∧ s.view key = none ∧
        List.Forall₂ (fun m entry => s.createEntry m = .ok (some entry)) request.listOfVariable
          entries ∧
        (∀ entry ∈ entries, s.Resolvable entry) ∧ s.Fits connection request.variableListName := by
  have hin : ∀ key, s.key connection request.variableListName = some key →
      s.handleDefine connection request = s.defineIn key.1 key.2 request.listOfVariable := by
    intro key hkey
    rw [handleDefine]
    cases hname : request.variableListName with
    | vmdSpecific identifier =>
      rw [hname] at hkey
      cases hkey
    | aaSpecific identifier =>
      rw [hname] at hkey
      cases hkey
      rfl
    | domainSpecific domainId itemId =>
      rw [hname, ListServer.key, resolve] at hkey
      obtain ⟨domain, hdomain, rfl⟩ := Option.map_eq_some_iff.mp hkey
      dsimp only
      rw [hdomain]
  cases hkey : s.key connection request.variableListName with
  | none =>
    refine Or.inl ?_
    rw [handleDefine]
    cases hname : request.variableListName with
    | vmdSpecific identifier => exact ⟨_, rfl⟩
    | aaSpecific identifier =>
      rw [hname] at hkey
      cases hkey
    | domainSpecific domainId itemId =>
      rw [hname, ListServer.key, resolve] at hkey
      dsimp only
      rw [Option.map_eq_none_iff.mp hkey]
      exact ⟨_, rfl⟩
  | some key =>
    rw [hin key hkey, defineIn]
    have hlookup : s.view key = s.getNamedVariableList key.1 key.2 := rfl
    cases hview : s.view key with
    | some l =>
      rw [hlookup] at hview
      rw [hview]
      exact Or.inl ⟨_, rfl⟩
    | none =>
      have hmeets := h key hkey hview
      rw [hlookup] at hview
      rw [hview]
      dsimp only
      rcases hmeets with ⟨hfits, hresolves⟩ | hrefused
      · obtain ⟨entries, heq, hall, hresolvable⟩ := createNamedVariableList_of_resolves hresolves
        rw [heq, ok_bind]
        exact Or.inr ⟨key, entries, rfl, rfl, hview, hall, hresolvable, hfits⟩
      · rw [createNamedVariableList_of_refused hrefused, ok_bind]
        exact Or.inl ⟨_, rfl⟩

end Define

/-! ## Get attributes, and read -/

section Read

variable {s : ListServer κ} {connection : κ} {name : ObjectName} {l : MmsNamedVariableList}
  {key : ListScope κ × List UInt8}

/-- What is answered for a member of a list that is read. -/
def Found (s : ListServer κ) (entry : NamedVariableListEntry)
    (found : Nat × List UInt8 × Option MmsVariableSpecification) : Prop :=
  entry.domain = some found.1 ∧ entry.variableName = found.2.1 ∧
    s.getNamedVariable found.1 found.2.1 = .ok found.2.2

/-- The variables of the list are read, one after the other, or there is no list. -/
def Reads (s : ListServer κ) (connection : κ) (name : ObjectName) (answer : ListAnswer) : Prop :=
  match (s.key connection name).bind s.view with
  | none => answer.IsRefusal
  | some l => ∃ found, answer = .read found ∧ List.Forall₂ s.Found l.listOfVariables found

/-- The members of a list are in domains that there are. -/
def InDomains (s : ListServer κ) (l : MmsNamedVariableList) : Prop :=
  ∀ entry ∈ l.listOfVariables, ∃ domain d, entry.domain = some domain ∧ s.domains[domain]? = some d

/-- They are looked for without a fault. -/
def Readable (s : ListServer κ) (l : MmsNamedVariableList) : Prop :=
  ∀ entry ∈ l.listOfVariables, ∃ domain v, entry.domain = some domain ∧
    s.getNamedVariable domain entry.variableName = .ok v

theorem mapM_ok {α β : Type} {f : α → Exec β} {R : α → β → Prop} (as : List α)
    (h : ∀ a ∈ as, ∃ b, f a = .ok b ∧ R a b) : ∃ bs, as.mapM f = .ok bs ∧ List.Forall₂ R as bs := by
  induction as with
  | nil => exact ⟨[], rfl, .nil⟩
  | cons a as ih =>
    obtain ⟨b, hb, hr⟩ := h a List.mem_cons_self
    obtain ⟨bs, hbs, hrs⟩ := ih fun a ha => h a (List.mem_cons_of_mem _ ha)
    refine ⟨b :: bs, ?_, .cons hr hrs⟩
    rw [List.mapM_cons, hb, ok_bind, hbs]
    rfl

theorem readList_reads (h : s.Readable l) :
    ∃ found, s.readList (some l) = .ok (.read found) ∧
      List.Forall₂ s.Found l.listOfVariables found := by
  obtain ⟨found, hfound, hall⟩ := mapM_ok (f := s.readEntry) (R := s.Found)
    l.listOfVariables fun entry hmem => by
      obtain ⟨domain, v, hdomain, hv⟩ := h entry hmem
      refine ⟨(domain, entry.variableName, v), ?_, hdomain, rfl, hv⟩
      rw [readEntry, hdomain]
      dsimp only
      rw [hv]
      rfl
  refine ⟨found, ?_, hall⟩
  rw [readList, hfound]
  rfl

/-- A list is read under its copied name. -/
theorem handleRead_eq (connection : κ) (name : ObjectName) :
    s.handleRead connection name = s.readList
        ((s.resolve connection ReadServer.nameOf name).bind s.view) ∨
      s.resolve connection ReadServer.nameOf name = none ∧
        s.handleRead connection name = .ok (.error .objectAccessUnsupported) := by
  cases name with
  | vmdSpecific identifier => exact Or.inr ⟨rfl, rfl⟩
  | aaSpecific identifier => exact Or.inl rfl
  | domainSpecific domainId itemId =>
    left
    rw [handleRead, resolve]
    cases s.getDomain (ReadServer.nameOf domainId) with
    | none => rfl
    | some domain => rfl

theorem handleRead_reads (hsame : s.SameList connection name)
    (h : ∀ key l, s.key connection name = some key → s.view key = some l → s.Readable l) :
    ∃ answer, s.handleRead connection name = .ok answer ∧ s.Reads connection name answer := by
  have hfound : (s.resolve connection ReadServer.nameOf name).bind s.view =
      (s.key connection name).bind s.view := by
    rcases hsame with hfits | ⟨hnone, hnone'⟩
    · rw [hfits]
    · rw [hnone, hnone']
  unfold Reads
  rw [← hfound]
  rcases handleRead_eq connection name with heq | ⟨hnone, heq⟩
  · rw [heq, hfound]
    cases hl : (s.key connection name).bind s.view with
    | none => exact ⟨_, rfl, trivial⟩
    | some l =>
      obtain ⟨key, hkey, hview⟩ := Option.bind_eq_some_iff.mp hl
      obtain ⟨found, hread, hall⟩ := readList_reads (h key l hkey hview)
      exact ⟨_, hread, found, rfl, hall⟩
  · rw [heq, hnone]
    exact ⟨_, rfl, trivial⟩

/-- The list is described, with its members in their order. -/
theorem handleGetAttributes_ok (h : ∀ key l, s.key connection name = some key →
    s.view key = some l → s.InDomains l) : ∃ answer, s.handleGetAttributes name = .ok answer := by
  cases name with
  | vmdSpecific identifier => exact ⟨_, rfl⟩
  | aaSpecific identifier => exact ⟨_, rfl⟩
  | domainSpecific domainId itemId =>
    rw [handleGetAttributes]
    cases hdomain : s.getDomain (createStringFromBuffer domainId) with
    | none => exact ⟨_, rfl⟩
    | some domain =>
      dsimp only
      cases hl : s.getNamedVariableList (.domain domain) (createStringFromBuffer itemId) with
      | none => exact ⟨_, rfl⟩
      | some l =>
        have hkey : s.key connection (.domainSpecific domainId itemId) =
            some (.domain domain, createStringFromBuffer itemId) := by
          rw [ListServer.key, resolve, hdomain]
          rfl
        obtain ⟨attributes, hattributes, -⟩ := mapM_ok (f := s.entryAttributes)
          (R := fun _ _ => True) l.listOfVariables fun entry hmem => by
            obtain ⟨index, d, hindex, hd⟩ := h _ l hkey hl entry hmem
            refine ⟨(d.domainName, entry.variableName), ?_, trivial⟩
            rw [entryAttributes, hindex, Option.bind_some, hd]
        dsimp only
        rw [hattributes]
        exact ⟨_, rfl⟩

theorem readable_of_resolvable (h : ∀ entry ∈ l.listOfVariables, s.Resolvable entry) :
    s.Readable l := by
  intro entry hmem
  obtain ⟨domain, v, hdomain, hv, -⟩ := h entry hmem
  exact ⟨domain, _, hdomain, hv⟩

theorem inDomains_of_resolvable (h : ∀ entry ∈ l.listOfVariables, s.Resolvable entry) :
    s.InDomains l := by
  intro entry hmem
  obtain ⟨domain, v, hdomain, hv, -⟩ := h entry hmem
  rw [getNamedVariable] at hv
  cases hd : s.domains[domain]? with
  | none =>
    rw [hd] at hv
    cases hv
  | some d => exact ⟨domain, d, hdomain, hd⟩

end Read

end ListServer

end Iec61850
