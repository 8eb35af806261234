import Iec61850.ConfigFile.DynamicModel

/-! Which list each object of a data model is in. The objects in the lists of a model and below are
let go with it, and the others are not. -/

namespace Iec61850.ConfigFile

open Machine SiblingLists

/-- The types of the objects in the list of an object. -/
def ObjectType.children : ObjectType → List ObjectType
  | .logicalDevice => [.logicalNode]
  | .logicalNode => [.dataObject]
  | .dataObject => [.dataObject, .dataAttribute]
  | .dataAttribute => [.dataAttribute]
  | .dataSet => [.dataSetEntry]
  | .gseControlBlock => [.phyComAddress]
  | _ => []

/-- The lists of the model that the objects below it are in. -/
def ObjectType.inModelList : ObjectType → Bool
  | dataSet | reportControlBlock | gseControlBlock => true
  | _ => false

def Slot.holder : Slot → Nat
  | devices model | dataSets model | rcbs model | gseCBs model => model
  | children object => object

namespace Heap

/-- An object of the type may come to the list. -/
def Takes (h : Heap) (s : Slot) (type : ObjectType) : Prop :=
  match s with
  | .devices m => h.typeOf m = some .iedModel ∧ type = .logicalDevice
  | .dataSets m => h.typeOf m = some .iedModel ∧ type = .dataSet
  | .rcbs m => h.typeOf m = some .iedModel ∧ type = .reportControlBlock
  | .gseCBs m => h.typeOf m = some .iedModel ∧ type = .gseControlBlock
  | .children p => ∃ holder, h.typeOf p = some holder ∧ type ∈ holder.children

/-- A reference leads to an object of the type. -/
def Refers (h : Heap) (reference : Option Nat) (type : ObjectType) : Prop :=
  ∃ n, reference = some n ∧ h.typeOf n = some type

/-- The parent of an object is there, and is what its type says. -/
structure HasParent (h : Heap) (o : Object) : Prop where
  logicalNode : o.type = .logicalNode → h.Refers o.parent .logicalDevice
  logicalDevice : o.type = .logicalDevice → h.Refers o.parent .iedModel
  exists_type : ∀ p, o.parent = some p → ∃ type, h.typeOf p = some type

/-- The lists are those of the owners, every object is in a list that takes it, and a block has one
address at most. -/
structure Inv (h : Heap) (owner : Nat → Option Slot) : Prop where
  holds : h.links.Holds owner h.count
  taken : ∀ n s, owner n = some s → s.holder < n ∧ ∃ type, h.typeOf n = some type ∧ h.Takes s type
  hasParent : ∀ (n : Nat) (o : Object), h.objects[n]? = some o → h.HasParent o
  address : ∀ n n' g, h.typeOf g = some .gseControlBlock → owner n = some (.children g) →
    owner n' = some (.children g) → n = n'

variable {h h' : Heap} {owner : Nat → Option Slot} {o : Object} {s : Slot} {n m : Nat}
  {type : ObjectType}

theorem inv_empty : Heap.empty.Inv fun _ => none where
  holds _ := .nil
  taken _ _ h := by cases h
  hasParent _ _ h := by cases h
  address _ _ _ _ h := by cases h

theorem lt_of_typeOf (hn : h.typeOf n = some type) : n < h.count := by
  obtain ⟨o, ho, -⟩ := Option.map_eq_some_iff.mp hn
  exact (List.getElem?_eq_some_iff.mp ho).1

theorem typeOf_of_object {n : Nat} (ho : h.objects[n]? = some o) : h.typeOf n = some o.type := by
  rw [typeOf, ho]
  rfl

/-- What is there stays, and the new object is behind it. -/
def Extends (h' h : Heap) (o : Object) : Prop := h'.objects = h.objects ++ [o]

theorem extends_make (h : Heap) (o : Object) : (h.make o).Extends h o := rfl

theorem Extends.count (he : h'.Extends h o) : h'.count = h.count + 1 := by
  rw [Heap.count, he, List.length_append]
  rfl

theorem Extends.object_of_lt (he : h'.Extends h o) (hn : n < h.count) :
    h'.objects[n]? = h.objects[n]? := by
  rw [he, List.getElem?_append_left hn]

theorem Extends.object_new (he : h'.Extends h o) : h'.objects[h.count]? = some o := by
  rw [he, Heap.count, List.getElem?_append_right le_rfl, Nat.sub_self]
  rfl

theorem Extends.typeOf (he : h'.Extends h o) (hn : h.typeOf n = some type) :
    h'.typeOf n = some type := by
  rw [Heap.typeOf, he.object_of_lt (lt_of_typeOf hn)]
  exact hn

theorem Extends.typeOf_new (he : h'.Extends h o) : h'.typeOf h.count = some o.type :=
  typeOf_of_object he.object_new

theorem Extends.typeOf_of_lt (he : h'.Extends h o) (hn : n < h.count) :
    h'.typeOf n = h.typeOf n := by
  rw [Heap.typeOf, he.object_of_lt hn]
  rfl

theorem Extends.takes (he : h'.Extends h o) (ht : h.Takes s type) : h'.Takes s type := by
  cases s with
  | devices m | dataSets m | rcbs m | gseCBs m => exact ⟨he.typeOf ht.1, ht.2⟩
  | children p =>
    obtain ⟨holder, hholder, htype⟩ := ht
    exact ⟨holder, he.typeOf hholder, htype⟩

theorem Extends.refers (he : h'.Extends h o) {reference : Option Nat}
    (hr : h.Refers reference type) : h'.Refers reference type := by
  obtain ⟨n, hn, htype⟩ := hr
  exact ⟨n, hn, he.typeOf htype⟩

theorem Extends.hasParent (he : h'.Extends h o) {o' : Object} (hp : h.HasParent o') :
    h'.HasParent o' :=
  ⟨fun htype => he.refers (hp.logicalNode htype), fun htype => he.refers (hp.logicalDevice htype),
    fun p hparent => (hp.exists_type p hparent).imp fun _ htype => he.typeOf htype⟩

theorem Takes.holder_lt (ht : h.Takes s type) : s.holder < h.count := by
  cases s with
  | devices m | dataSets m | rcbs m | gseCBs m => exact lt_of_typeOf ht.1
  | children p =>
    obtain ⟨holder, hholder, -⟩ := ht
    exact lt_of_typeOf hholder

/-- A model is in no list. -/
theorem Takes.ne_iedModel (ht : h.Takes s type) : type ≠ .iedModel := by
  cases s with
  | devices m | dataSets m | rcbs m | gseCBs m =>
    rw [ht.2]
    exact ObjectType.noConfusion
  | children p =>
    rintro rfl
    obtain ⟨holder, -, htype⟩ := ht
    revert htype
    cases holder <;> decide

theorem Inv.owner_eq_none (hinv : h.Inv owner) (hn : h.count ≤ n) : owner n = none := by
  cases howner : owner n with
  | none => rfl
  | some s =>
    obtain ⟨-, type, htype, -⟩ := hinv.taken n s howner
    exact absurd (lt_of_typeOf htype) (Nat.not_lt_of_le hn)

theorem Inv.holder_lt (hinv : h.Inv owner) {g : Nat} (howner : owner n = some (.children g)) :
    g < h.count := by
  obtain ⟨-, type, -, htakes⟩ := hinv.taken n _ howner
  exact htakes.holder_lt

theorem Inv.owner_iedModel (hinv : h.Inv owner) (hm : h.typeOf m = some .iedModel) :
    owner m = none := by
  cases howner : owner m with
  | none => rfl
  | some s =>
    obtain ⟨-, type, htype, htakes⟩ := hinv.taken m s howner
    rw [hm] at htype
    exact absurd (Option.some.inj htype).symm htakes.ne_iedModel

/-- With the next object the parents are still there. -/
theorem Inv.hasParent_of_extends (hinv : h.Inv owner) (he : h'.Extends h o)
    (hparent : h.HasParent o) : ∀ (n : Nat) (o' : Object), h'.objects[n]? = some o' →
      h'.HasParent o' := by
  intro n o' ho'
  rcases Nat.lt_trichotomy n h.count with hlt | rfl | hlt
  · rw [he.object_of_lt hlt] at ho'
    exact he.hasParent (hinv.hasParent n o' ho')
  · rw [he.object_new] at ho'
    exact Option.some.inj ho' ▸ he.hasParent hparent
  · have hle : h'.count ≤ n := by
      rw [he.count]
      exact hlt
    rw [List.getElem?_eq_none hle] at ho'
    cases ho'

theorem Inv.make (hinv : h.Inv owner) (hparent : h.HasParent o) :
    (h.make o).Inv owner := by
  have hupdate : Function.update owner h.count none = owner := by
    rw [← hinv.owner_eq_none le_rfl, Function.update_eq_self]
  have he := extends_make h o
  refine ⟨?_, fun n s howner => ?_, hinv.hasParent_of_extends he hparent, ?_⟩
  · have hholds := hinv.holds.make
    rw [hupdate] at hholds
    rw [he.count]
    exact hholds
  · obtain ⟨hlt, type, htype, htakes⟩ := hinv.taken n s howner
    exact ⟨hlt, type, he.typeOf htype, he.takes htakes⟩
  · intro n n' g hg howner howner'
    rw [he.typeOf_of_lt (hinv.holder_lt howner)] at hg
    exact hinv.address n n' g hg howner howner'

/-- An object that is made for a list that takes it is at the end of the list. -/
theorem Inv.create (hinv : h.Inv owner) (hparent : h.HasParent o)
    (htakes : h.Takes s o.type)
    (hs : ∀ g, s = .children g → h.typeOf g ≠ some .gseControlBlock) :
    ∃ h', h.create o s = .ok (h', h.count) ∧ h'.Extends h o ∧
      h'.Inv (Function.update owner h.count (some s)) := by
  have hmake := hinv.make hparent
  have he := extends_make h o
  have hcount : h.count ≤ (h.make o).count := he.count ▸ Nat.le_succ _
  obtain ⟨links, happend, hholds⟩ := Holds.append (he.count ▸ hmake.holds)
    (hinv.owner_eq_none le_rfl) (Function.update_self ..) hcount s
  refine ⟨{ h.make o with links }, ?_, rfl, ?_⟩
  · rw [Heap.create, Heap.append, happend]
    rfl
  · have he' : Heap.Extends { h.make o with links } h o := rfl
    refine ⟨?_, fun n s' howner => ?_, hinv.hasParent_of_extends he' hparent, ?_⟩
    · rw [he'.count]
      exact hholds
    · by_cases hn : n = h.count
      · subst hn
        rw [Function.update_self] at howner
        cases howner
        exact ⟨htakes.holder_lt, o.type, he'.typeOf_new, he'.takes htakes⟩
      · rw [Function.update_of_ne hn] at howner
        obtain ⟨hlt, type, htype, ht⟩ := hinv.taken n s' howner
        exact ⟨hlt, type, he'.typeOf htype, he'.takes ht⟩
    · have hold : ∀ n g, Heap.typeOf { h.make o with links } g = some .gseControlBlock →
          Function.update owner h.count (some s) n = some (.children g) →
          h.typeOf g = some .gseControlBlock ∧ owner n = some (.children g) := by
        intro n g hg howner
        by_cases hn : n = h.count
        · subst hn
          rw [Function.update_self] at howner
          cases howner
          have hlt : g < h.count := htakes.holder_lt
          rw [he'.typeOf_of_lt hlt] at hg
          exact absurd hg (hs g rfl)
        · rw [Function.update_of_ne hn] at howner
          rw [he'.typeOf_of_lt (hinv.holder_lt howner)] at hg
          exact ⟨hg, howner⟩
      intro n n' g hg howner howner'
      obtain ⟨hg, howner⟩ := hold n g hg howner
      obtain ⟨_, howner'⟩ := hold n' g (he'.typeOf hg) howner'
      exact hinv.address n n' g hg howner howner'

/-- The new address of a block is the only one that is in its list. -/
theorem Inv.setAddress (hinv : h.Inv owner) (hparent : h.HasParent o) {g : Nat}
    (hg : h.typeOf g = some .gseControlBlock) (ho : o.type = .phyComAddress) :
    Heap.Inv { h.make o with links := (h.make o).links.set (.children g) h.count }
      (setOwner owner h.count (.children g)) := by
  have he : Heap.Extends { h.make o with links := (h.make o).links.set (.children g) h.count } h o :=
    rfl
  have hold : ∀ n s, setOwner owner h.count (.children g) n = some s → n ≠ h.count →
      owner n = some s ∧ s ≠ .children g := by
    intro n s howner hn
    rw [setOwner, if_neg hn] at howner
    split at howner
    · cases howner
    · next hne =>
      refine ⟨howner, ?_⟩
      rintro rfl
      exact hne howner
  have hmake := hinv.make hparent
  refine ⟨?_, fun n s howner => ?_, hinv.hasParent_of_extends he hparent, ?_⟩
  · have hholds := Holds.set ((extends_make h o).count ▸ hmake.holds)
      (hinv.owner_eq_none le_rfl) (Function.update_self ..) (.children g)
    rw [he.count]
    exact hholds
  · by_cases hn : n = h.count
    · subst hn
      rw [setOwner, if_pos rfl] at howner
      cases howner
      refine ⟨lt_of_typeOf hg, .phyComAddress, ho ▸ he.typeOf_new, .gseControlBlock, he.typeOf hg,
        ?_⟩
      exact List.mem_singleton_self _
    · obtain ⟨hlt, type, htype, htakes⟩ := hinv.taken n s (hold n s howner hn).1
      exact ⟨hlt, type, he.typeOf htype, he.takes htakes⟩
  · intro n n' g' hg' howner howner'
    have hcount : ∀ n, setOwner owner h.count (.children g) n = some (.children g) →
        n = h.count := by
      intro n howner
      by_contra hn
      exact (hold n _ howner hn).2 rfl
    by_cases hgg : g' = g
    · subst hgg
      rw [hcount n howner, hcount n' howner']
    · have hne : ∀ n, setOwner owner h.count (.children g) n = some (.children g') →
          owner n = some (.children g') := by
        intro n howner
        refine (hold n _ howner ?_).1
        rintro rfl
        rw [setOwner, if_pos rfl] at howner
        cases howner
        exact hgg rfl
      rw [he.typeOf_of_lt (hinv.holder_lt (hne n howner))] at hg'
      exact hinv.address n n' g' hg' (hne n howner) (hne n' howner')

/-! ## What is let go -/

/-- The objects in the list of an object. -/
def below (h : Heap) (owner : Nat → Option Slot) (n : Nat) : List Nat :=
  listOf owner h.count (.children n)

/-- The object whose list an object is in. -/
def above (owner : Nat → Option Slot) (n : Nat) : Option Nat :=
  (owner n).bind fun
    | .children p => some p
    | _ => none

/-- The objects in the lists of a model. -/
def roots (h : Heap) (owner : Nat → Option Slot) (m : Nat) : List Nat :=
  listOf owner h.count (.devices m) ++ listOf owner h.count (.dataSets m) ++
    listOf owner h.count (.rcbs m) ++ listOf owner h.count (.gseCBs m)

theorem above_eq_some_iff {p : Nat} : above owner n = some p ↔ owner n = some (.children p) := by
  rw [above]
  cases owner n with
  | none => exact iff_of_false (Option.some_ne_none p).symm (Option.some_ne_none _).symm
  | some s =>
    rw [Option.bind_some]
    cases s with
    | devices m | dataSets m | rcbs m | gseCBs m =>
      exact iff_of_false (Option.some_ne_none p).symm fun h => Slot.noConfusion (Option.some.inj h)
    | children q =>
      rw [Option.some_inj, Option.some_inj, Slot.children.injEq]

theorem mem_below_iff (n c : Nat) :
    c ∈ h.below owner n ↔ c < h.count ∧ above owner c = some n := by
  rw [below, mem_listOf, above_eq_some_iff]

theorem mem_roots_iff : n ∈ h.roots owner m ↔ n < h.count ∧
    (owner n = some (.devices m) ∨ owner n = some (.dataSets m) ∨ owner n = some (.rcbs m) ∨
      owner n = some (.gseCBs m)) := by
  simp only [roots, List.mem_append, mem_listOf, or_assoc, ← and_or_left]

theorem nodup_roots : (h.roots owner m).Nodup := by
  have hdisjoint : ∀ s s', s ≠ s' →
      ∀ a ∈ listOf owner h.count s, ∀ b ∈ listOf owner h.count s', a ≠ b := by
    rintro s s' hne a ha b hb rfl
    exact hne (Option.some.inj ((mem_listOf.mp ha).2.symm.trans (mem_listOf.mp hb).2))
  simp only [roots, List.nodup_append, List.mem_append, or_imp, forall_and]
  refine ⟨⟨⟨nodup_listOf, nodup_listOf, ?_⟩, nodup_listOf, ?_, ?_⟩, nodup_listOf, ⟨?_, ?_⟩, ?_⟩
  all_goals exact hdisjoint _ _ Slot.noConfusion

theorem Inv.lt_of_mem_below (hinv : h.Inv owner) : ∀ n, ∀ c ∈ h.below owner n, n < c := by
  intro n c hc
  exact (hinv.taken c _ (mem_listOf.mp hc).2).1

/-- An object of a type that has no objects below. -/
theorem Inv.below_eq_nil (hinv : h.Inv owner) (hn : h.typeOf n = some type)
    (htype : type.children = []) : h.below owner n = [] := by
  refine List.eq_nil_iff_forall_not_mem.mpr fun c hc => ?_
  obtain ⟨-, t, -, holder, hholder, ht⟩ := hinv.taken c _ (mem_listOf.mp hc).2
  rw [hn] at hholder
  cases hholder
  rw [htype] at ht
  cases ht

theorem Inv.list_eq (hinv : h.Inv owner) (s : Slot) :
    h.list s = .ok (listOf owner h.count s) := hinv.holds.walk_eq le_rfl s

/-- The loops over devices and nodes are the recursion over two more levels. -/
theorem destroyLogicalDevice_eq (h : Heap) :
    h.destroyLogicalDevice = h.links.dismantle .children h.count (h.count + 2) := rfl

theorem Inv.destroyLogicalDevice (hinv : h.Inv owner) (hn : n < h.count) :
    h.destroyLogicalDevice n = .ok (postorder (h.below owner) (h.count + 2) n) := by
  rw [destroyLogicalDevice_eq]
  exact dismantle_eq hinv.holds hinv.lt_of_mem_below hn (by omega)

theorem postorder_leaf {children : Nat → List Nat} {fuel : Nat} (hn : children n = []) :
    postorder children (fuel + 1) n = [n] := by
  rw [postorder, hn]
  rfl

/-- An object whose list has only objects without lists. -/
theorem Inv.postorder_of_leaves (hinv : h.Inv owner) (hn : h.typeOf n = some type)
    (htype : ∀ t ∈ type.children, t.children = []) (fuel : Nat) :
    postorder (h.below owner) (fuel + 2) n = h.below owner n ++ [n] := by
  have hleaf : ∀ c ∈ h.below owner n, postorder (h.below owner) (fuel + 1) c = [c] := by
    intro c hc
    obtain ⟨-, t, ht, holder, hholder, hmem⟩ := hinv.taken c _ (mem_listOf.mp hc).2
    rw [hn] at hholder
    cases hholder
    exact postorder_leaf (hinv.below_eq_nil ht (htype t hmem))
  rw [postorder, List.flatMap_congr hleaf, List.flatMap_singleton']

theorem Inv.destroyDataSet (hinv : h.Inv owner) (hn : h.typeOf n = some .dataSet) :
    h.destroyDataSet n = .ok (postorder (h.below owner) (h.count + 2) n) := by
  rw [Heap.destroyDataSet, hinv.list_eq, hinv.postorder_of_leaves hn (by decide)]
  rfl

theorem Inv.destroyGSEControlBlock (hinv : h.Inv owner)
    (hn : h.typeOf n = some .gseControlBlock) :
    h.destroyGSEControlBlock n = postorder (h.below owner) (h.count + 2) n := by
  rw [Heap.destroyGSEControlBlock, hinv.postorder_of_leaves hn (by decide)]
  have hchain : Chain h.links.sibling (h.links.first (.children n)) (h.below owner n) :=
    hinv.holds (.children n)
  have hone : ∀ a ∈ h.below owner n, ∀ b ∈ h.below owner n, a = b := fun a ha b hb =>
    hinv.address a b n hn (mem_listOf.mp ha).2 (mem_listOf.mp hb).2
  have hnodup : (h.below owner n).Nodup := nodup_listOf
  generalize h.below owner n = ns at hchain hone hnodup
  generalize h.links.first (.children n) = start at hchain
  cases hchain with
  | nil => rfl
  | @cons a ns _ =>
    cases ns with
    | nil => rfl
    | cons b ns =>
      have hab := hone a List.mem_cons_self b (List.mem_cons_of_mem _ List.mem_cons_self)
      exact absurd (hab ▸ List.mem_cons_self) (List.nodup_cons.mp hnodup).1

theorem Inv.typeOf_of_mem (hinv : h.Inv owner) (hn : n ∈ listOf owner h.count s) :
    ∃ type, h.typeOf n = some type ∧ h.Takes s type :=
  (hinv.taken n s (mem_listOf.mp hn).2).2

theorem Inv.destroy_eq (hinv : h.Inv owner) (m : Nat) : h.IedModel_destroy (some m) =
    .ok ((h.roots owner m).flatMap (postorder (h.below owner) (h.count + 2)) ++ [m]) := by
  have hdevices : ∀ n ∈ listOf owner h.count (.devices m), h.destroyLogicalDevice n =
      .ok (postorder (h.below owner) (h.count + 2) n) := fun n hn =>
    hinv.destroyLogicalDevice (mem_listOf.mp hn).1
  have hdataSets : ∀ n ∈ listOf owner h.count (.dataSets m), h.destroyDataSet n =
      .ok (postorder (h.below owner) (h.count + 2) n) := by
    intro n hn
    obtain ⟨type, htype, htakes⟩ := hinv.typeOf_of_mem hn
    exact hinv.destroyDataSet (htakes.2 ▸ htype)
  have hrcbs : ∀ n ∈ listOf owner h.count (.rcbs m),
      postorder (h.below owner) (h.count + 2) n = [n] := by
    intro n hn
    obtain ⟨type, htype, htakes⟩ := hinv.typeOf_of_mem hn
    exact postorder_leaf (hinv.below_eq_nil (htakes.2 ▸ htype) rfl)
  have hgseCBs : ∀ n ∈ listOf owner h.count (.gseCBs m),
      h.destroyGSEControlBlock n = postorder (h.below owner) (h.count + 2) n := by
    intro n hn
    obtain ⟨type, htype, htakes⟩ := hinv.typeOf_of_mem hn
    exact hinv.destroyGSEControlBlock (htakes.2 ▸ htype)
  simp only [Heap.IedModel_destroy, deref, hinv.list_eq, ok_bind, concatM_eq_flatMap hdevices,
    concatM_eq_flatMap hdataSets]
  rw [roots, List.flatMap_append, List.flatMap_append, List.flatMap_append,
    List.flatMap_congr hrcbs, List.flatMap_singleton', List.flatMap_congr hgseCBs]
  rfl

/-- With a model everything is let go once, if and only if the other objects are all in lists. -/
theorem Inv.destroy_perm_iff (hinv : h.Inv owner) (hm : h.typeOf m = some .iedModel) :
    ∃ freed, h.IedModel_destroy (some m) = .ok freed ∧
      (freed.Perm (List.range h.count) ↔ ∀ n < h.count, n = m ∨ owner n ≠ none) := by
  refine ⟨_, hinv.destroy_eq m, ?_⟩
  have htop := hinv.owner_iedModel hm
  have htoproot : m ∉ h.roots owner m := by
    intro hmem
    rw [mem_roots_iff, htop] at hmem
    simp at hmem
  have htopabove : above owner m = none := by
    rw [above, htop]
    rfl
  have hroot : ∀ n ∈ h.roots owner m, n < h.count ∧ above owner n = none := by
    intro n hn
    rw [mem_roots_iff] at hn
    refine ⟨hn.1, ?_⟩
    rcases hn.2 with howner | howner | howner | howner <;> rw [above, howner] <;> rfl
  have hparent : ∀ n, above owner n ≠ some m := by
    intro n hn
    obtain ⟨-, type, -, holder, hholder, htype⟩ := hinv.taken n _ (above_eq_some_iff.mp hn)
    rw [hm] at hholder
    cases hholder
    cases htype
  rw [perm_range_iff hinv.lt_of_mem_below mem_below_iff (fun _ => nodup_listOf) nodup_roots hroot
    (Nat.le_add_right _ 2) (lt_of_typeOf hm) htoproot htopabove hparent]
  constructor
  · intro hall n hn
    rcases hall n hn with heq | hmem | ⟨p, hp⟩
    · exact Or.inl heq
    · refine Or.inr fun hnone => ?_
      rw [mem_roots_iff, hnone] at hmem
      simp at hmem
    · rw [above_eq_some_iff] at hp
      exact Or.inr (hp ▸ Option.some_ne_none _)
  · intro hall n hn
    -- The only model is this one, since a model is in no list.
    have hmodel : ∀ m', h.typeOf m' = some .iedModel → m' = m := fun m' hm' =>
      (hall m' (lt_of_typeOf hm')).resolve_right fun hne => hne (hinv.owner_iedModel hm')
    rcases hall n hn with heq | hne
    · exact Or.inl heq
    · obtain ⟨s, hs⟩ := Option.ne_none_iff_exists'.mp hne
      obtain ⟨-, type, -, htakes⟩ := hinv.taken n s hs
      cases s with
      | devices m' | dataSets m' | rcbs m' | gseCBs m' =>
        obtain rfl := hmodel m' htakes.1
        refine Or.inr (Or.inl (mem_roots_iff.mpr ⟨hn, ?_⟩))
        simp [hs]
      | children p => exact Or.inr (Or.inr ⟨p, above_eq_some_iff.mpr hs⟩)

/-! ## The functions that make objects -/

/-- The object that an object is part of. -/
def parentOf (h : Heap) (n : Nat) : Option Nat := h.objects[n]?.bind (·.parent)

/-- The model is the one that the holder is part of. -/
def IsModel (h : Heap) (holder model : Nat) : Prop :=
  ∃ ld, h.parentOf holder = some ld ∧ h.parentOf ld = some model

/-- An object is made, and is at the end of a list. -/
def Created (h : Heap) (owner : Nat → Option Slot) (x : Exec (Heap × Nat)) (o : Object)
    (s : Slot) : Prop :=
  ∃ h', x = .ok (h', h.count) ∧ h'.Extends h o ∧ h'.Inv (Function.update owner h.count (some s))

/-- An object is made that is in no list. -/
def Unlinked (h : Heap) (owner : Nat → Option Slot) (x : Exec (Heap × Nat)) (o : Object) : Prop :=
  ∃ h', x = .ok (h', h.count) ∧ h'.Extends h o ∧ h'.Inv owner

theorem exists_object (hn : h.typeOf n = some type) :
    ∃ o, h.objects[n]? = some o ∧ o.type = type ∧ h.object n = .ok o := by
  obtain ⟨o, ho, htype⟩ := Option.map_eq_some_iff.mp hn
  refine ⟨o, ho, htype, ?_⟩
  rw [object, ho]

theorem parentOf_eq (ho : h.objects[n]? = some o) : h.parentOf n = o.parent := by
  rw [parentOf, ho]
  rfl

theorem Inv.parent_of_logicalNode (hinv : h.Inv owner) (hn : h.typeOf n = some .logicalNode) :
    ∃ ld, h.parentOf n = some ld ∧ h.typeOf ld = some .logicalDevice := by
  obtain ⟨o, ho, htype, -⟩ := exists_object hn
  obtain ⟨ld, hparent, hld⟩ := (hinv.hasParent n o ho).logicalNode htype
  exact ⟨ld, (parentOf_eq ho).trans hparent, hld⟩

theorem Inv.parent_of_logicalDevice (hinv : h.Inv owner)
    (hn : h.typeOf n = some .logicalDevice) :
    ∃ m, h.parentOf n = some m ∧ h.typeOf m = some .iedModel := by
  obtain ⟨o, ho, htype, -⟩ := exists_object hn
  obtain ⟨m, hparent, hm⟩ := (hinv.hasParent n o ho).logicalDevice htype
  exact ⟨m, (parentOf_eq ho).trans hparent, hm⟩

theorem Inv.created_logicalDevice (hinv : h.Inv owner) (hm : h.typeOf m = some .iedModel)
    (name : List UInt8) : Created h owner (LogicalDevice_create h name (some m))
      (.logicalDevice name m) (.devices m) :=
  hinv.create
    ⟨ObjectType.noConfusion, fun _ => ⟨m, rfl, hm⟩, fun _ hp => ⟨_, Option.some.inj hp ▸ hm⟩⟩
    ⟨hm, rfl⟩ fun _ heq => Slot.noConfusion heq

theorem Inv.created_logicalNode (hinv : h.Inv owner) (hn : h.typeOf n = some .logicalDevice)
    (name : List UInt8) : Created h owner (LogicalNode_create h name (some n))
      (.logicalNode name n) (.children n) := by
  refine hinv.create ⟨fun _ => ⟨n, rfl, hn⟩, ObjectType.noConfusion,
    fun _ hp => ⟨_, Option.some.inj hp ▸ hn⟩⟩ ⟨_, hn, List.mem_singleton_self _⟩ fun g heq => ?_
  cases heq
  rw [hn]
  exact fun h => ObjectType.noConfusion (Option.some.inj h)

theorem Inv.modelOf_eq (hinv : h.Inv owner) (hn : h.typeOf n = some .logicalNode) :
    ∃ ld m, h.parentOf n = some ld ∧ h.parentOf ld = some m ∧ h.typeOf m = some .iedModel ∧
      h.modelOf n = .ok m := by
  obtain ⟨o, ho, -, hobject⟩ := exists_object hn
  obtain ⟨ld, hparent, hld⟩ := hinv.parent_of_logicalNode hn
  obtain ⟨o', ho', -, hobject'⟩ := exists_object hld
  obtain ⟨m, hparent', hm⟩ := hinv.parent_of_logicalDevice hld
  refine ⟨ld, m, hparent, hparent', hm, ?_⟩
  rw [parentOf_eq ho] at hparent
  rw [parentOf_eq ho'] at hparent'
  simp only [modelOf, hobject, hparent, hobject', hparent', ok_bind, deref]

theorem Inv.created_dataSet (hinv : h.Inv owner) (hn : h.typeOf n = some .logicalNode)
    (name : List UInt8) : ∃ ld m o, h.parentOf n = some ld ∧ h.parentOf ld = some m ∧
      o.type = .dataSet ∧ Created h owner (DataSet_create h name (some n)) o (.dataSets m) := by
  obtain ⟨o, ho, -, hobject⟩ := exists_object hn
  obtain ⟨ld, hparent, hld⟩ := hinv.parent_of_logicalNode hn
  obtain ⟨o', ho', -, hobject'⟩ := exists_object hld
  obtain ⟨m, hparent', hm⟩ := hinv.parent_of_logicalDevice hld
  refine ⟨ld, m, .dataSet (o.name ++ ascii "$" ++ name) o'.name, hparent, hparent', rfl, ?_⟩
  rw [parentOf_eq ho] at hparent
  rw [parentOf_eq ho'] at hparent'
  simp only [DataSet_create, deref, ok_bind, hobject, hparent, hobject', hparent']
  exact hinv.create ⟨ObjectType.noConfusion, ObjectType.noConfusion, fun p hp => by cases hp⟩
    ⟨hm, rfl⟩ fun _ heq => Slot.noConfusion heq

theorem Inv.created_dataSetEntry (hinv : h.Inv owner) (hn : h.typeOf n = some .dataSet)
    (name : List UInt8) (index : Int) : ∃ o, o.type = .dataSetEntry ∧
      Created h owner (DataSetEntry_create h (some n) name index) o (.children n) := by
  obtain ⟨o, ho, htype, hobject⟩ := exists_object hn
  cases o with
  | dataSet name' ld =>
    refine ⟨.dataSetEntry name ld index, rfl, ?_⟩
    simp only [DataSetEntry_create, deref, ok_bind, hobject]
    refine hinv.create ⟨ObjectType.noConfusion, ObjectType.noConfusion, fun p hp => by cases hp⟩
      ⟨_, hn, List.mem_singleton_self _⟩ fun g heq => ?_
    cases heq
    rw [hn]
    exact fun h => ObjectType.noConfusion (Option.some.inj h)
  | _ => cases htype

theorem Inv.created_reportControlBlock (hinv : h.Inv owner) (hn : h.typeOf n = some .logicalNode)
    (name : List UInt8) (rptId : Option (List UInt8)) (isBuffered : Bool)
    (dataSetName : Option (List UInt8)) (confRef : Int) (trgOps options : UInt8)
    (bufTm intgPd : Int) : ∃ ld m, h.parentOf n = some ld ∧ h.parentOf ld = some m ∧
      Created h owner (ReportControlBlock_create h name (some n) rptId isBuffered dataSetName
        confRef trgOps options bufTm intgPd)
        (.reportControlBlock name n rptId isBuffered dataSetName confRef trgOps options bufTm
          intgPd) (.rcbs m) := by
  obtain ⟨ld, m, hparent, hparent', hm, hmodel⟩ := hinv.modelOf_eq hn
  refine ⟨ld, m, hparent, hparent', ?_⟩
  simp only [ReportControlBlock_create, deref, ok_bind, hmodel]
  exact hinv.create ⟨ObjectType.noConfusion, ObjectType.noConfusion,
    fun p hp => ⟨_, Option.some.inj hp ▸ hn⟩⟩ ⟨hm, rfl⟩ fun _ heq => Slot.noConfusion heq

theorem Inv.created_gseControlBlock (hinv : h.Inv owner) (hn : h.typeOf n = some .logicalNode)
    (name appId dataSet : List UInt8) (confRef : Int) (fixedOffs : Bool) :
    ∃ ld m, h.parentOf n = some ld ∧ h.parentOf ld = some m ∧
      Created h owner (GSEControlBlock_create h name (some n) appId dataSet confRef fixedOffs)
        (.gseControlBlock name (some n) appId dataSet confRef fixedOffs) (.gseCBs m) := by
  obtain ⟨ld, m, hparent, hparent', hm, hmodel⟩ := hinv.modelOf_eq hn
  refine ⟨ld, m, hparent, hparent', ?_⟩
  simp only [GSEControlBlock_create, hmodel, ok_bind]
  exact hinv.create ⟨ObjectType.noConfusion, ObjectType.noConfusion,
    fun p hp => ⟨_, Option.some.inj hp ▸ hn⟩⟩ ⟨hm, rfl⟩ fun _ heq => Slot.noConfusion heq

/-- A data object or an attribute is below its parent where that has such children, and otherwise it
is not linked. -/
theorem Inv.addToParent_eq (hinv : h.Inv owner) (hn : h.typeOf n = some type)
    {types : List ObjectType} (hparent : o.parent = some n)
    (htype : o.type ≠ .logicalNode ∧ o.type ≠ .logicalDevice)
    (hchildren : ∀ t, t ∈ types ↔ o.type ∈ t.children) (hne : o.type ≠ .phyComAddress) :
    if type ∈ types then Created h owner (addToParent h o n types) o (.children n)
    else Unlinked h owner (addToParent h o n types) o := by
  obtain ⟨p, -, rfl, hobject⟩ := exists_object hn
  have hparent' : h.HasParent o := ⟨fun heq => absurd heq htype.1, fun heq => absurd heq htype.2,
    fun p' hp' => ⟨p.type, Option.some.inj (hparent.symm.trans hp') ▸ hn⟩⟩
  simp only [addToParent, hobject, ok_bind]
  by_cases hmem : p.type ∈ types
  · rw [if_pos hmem]
    simp only [if_pos hmem]
    refine hinv.create hparent' ⟨p.type, hn, (hchildren _).mp hmem⟩ fun g heq hg => ?_
    cases heq
    rw [hn] at hg
    have hgcb := (hchildren _).mp hmem
    rw [Option.some.inj hg] at hgcb
    exact hne (List.mem_singleton.mp hgcb)
  · rw [if_neg hmem]
    simp only [if_neg hmem]
    exact ⟨h.make o, rfl, extends_make h o, hinv.make hparent'⟩

theorem mem_parents_dataObject (t : ObjectType) :
    t ∈ [.logicalNode, .dataObject] ↔ .dataObject ∈ t.children := by
  cases t <;> decide

theorem mem_parents_dataAttribute (t : ObjectType) :
    t ∈ [.dataObject, .dataAttribute] ↔ .dataAttribute ∈ t.children := by
  cases t <;> decide

theorem Inv.dataObject_eq (hinv : h.Inv owner) (hn : h.typeOf n = some type)
    (name : List UInt8) (arrayElements : Int) :
    if type ∈ [.logicalNode, .dataObject] then
      Created h owner (DataObject_create h name (some n) arrayElements)
        (.dataObject name n arrayElements) (.children n)
    else Unlinked h owner (DataObject_create h name (some n) arrayElements)
      (.dataObject name n arrayElements) :=
  hinv.addToParent_eq hn rfl ⟨ObjectType.noConfusion, ObjectType.noConfusion⟩
    mem_parents_dataObject ObjectType.noConfusion

theorem Inv.dataAttribute_eq (hinv : h.Inv owner) (hn : h.typeOf n = some type)
    (name : List UInt8) (attributeType fc : Int) (triggerOptions : UInt8)
    (arrayElements sAddr : Int) (mmsValue : Option ConfiguredValue) :
    if type ∈ [.dataObject, .dataAttribute] then
      Created h owner (DataAttribute_create h name (some n) attributeType fc triggerOptions
        arrayElements sAddr mmsValue)
        (.dataAttribute name n attributeType fc triggerOptions arrayElements sAddr mmsValue)
        (.children n)
    else Unlinked h owner (DataAttribute_create h name (some n) attributeType fc triggerOptions
      arrayElements sAddr mmsValue)
      (.dataAttribute name n attributeType fc triggerOptions arrayElements sAddr mmsValue) :=
  hinv.addToParent_eq hn rfl ⟨ObjectType.noConfusion, ObjectType.noConfusion⟩
    mem_parents_dataAttribute ObjectType.noConfusion

/-! ## Lost objects -/

/-- There is an object that is not the model and is in no list. -/
def Lost (h : Heap) (owner : Nat → Option Slot) (model : Option Nat) : Prop :=
  ∃ n < h.count, model ≠ some n ∧ owner n = none

theorem Inv.freed_iff (hinv : h.Inv owner) (hm : h.typeOf m = some .iedModel) :
    ∃ freed, h.IedModel_destroy (some m) = .ok freed ∧
      (freed.Perm (List.range h.count) ↔ ¬ h.Lost owner (some m)) := by
  obtain ⟨freed, hfreed, hperm⟩ := hinv.destroy_perm_iff hm
  refine ⟨freed, hfreed, hperm.trans ?_⟩
  simp only [Lost, not_exists, not_and, ne_eq, Option.some_inj, ← or_iff_not_imp_left]
  exact forall₂_congr fun n _ => by rw [eq_comm]

/-- With an object at the end of a list no object is lost. -/
theorem Extends.lost_iff_of_created {model : Option Nat} (he : h'.Extends h o) :
    h'.Lost (Function.update owner h.count (some s)) model ↔ h.Lost owner model := by
  constructor
  · rintro ⟨n, hn, hmodel, howner⟩
    rw [he.count] at hn
    by_cases heq : n = h.count
    · rw [heq, Function.update_self] at howner
      cases howner
    · rw [Function.update_of_ne heq] at howner
      exact ⟨n, Nat.lt_of_le_of_ne (Nat.le_of_lt_succ hn) heq, hmodel, howner⟩
  · rintro ⟨n, hn, hmodel, howner⟩
    refine ⟨n, he.count ▸ hn.trans (Nat.lt_succ_self _), hmodel, ?_⟩
    rw [Function.update_of_ne hn.ne]
    exact howner

/-- An object that is not linked is lost. -/
theorem Extends.lost_of_unlinked (hinv : h.Inv owner) (he : h'.Extends h o)
    (hm : h.typeOf m = some .iedModel) : h'.Lost owner (some m) :=
  ⟨h.count, he.count ▸ Nat.lt_succ_self _, fun heq => (lt_of_typeOf hm).ne (Option.some.inj heq),
    hinv.owner_eq_none le_rfl⟩

/-- The address that a block had is lost. -/
theorem Inv.lost_iff_of_setAddress (hinv : h.Inv owner) (he : h'.Extends h o) {g : Nat}
    (hm : h.typeOf m = some .iedModel) :
    h'.Lost (setOwner owner h.count (.children g)) (some m) ↔
      h.Lost owner (some m) ∨ h.links.first (.children g) ≠ none := by
  have hchain := hinv.holds (.children g)
  constructor
  · rintro ⟨n, hn, hmodel, howner⟩
    rw [he.count] at hn
    rw [setOwner] at howner
    split at howner
    · cases howner
    · next hne =>
      have hlt : n < h.count := Nat.lt_of_le_of_ne (Nat.le_of_lt_succ hn) hne
      split at howner
      · next hg =>
        refine Or.inr fun hfirst => ?_
        rw [hfirst] at hchain
        have hmem : n ∈ listOf owner h.count (.children g) := mem_listOf.mpr ⟨hlt, hg⟩
        rw [hchain.eq_nil] at hmem
        cases hmem
      · exact Or.inl ⟨n, hlt, hmodel, howner⟩
  · have hlost : ∀ n < h.count, some m ≠ some n → setOwner owner h.count (.children g) n = none →
        h'.Lost (setOwner owner h.count (.children g)) (some m) := fun n hn hmodel howner =>
      ⟨n, he.count ▸ hn.trans (Nat.lt_succ_self _), hmodel, howner⟩
    rintro (⟨n, hn, hmodel, howner⟩ | hfirst)
    · refine hlost n hn hmodel ?_
      rw [setOwner, if_neg hn.ne, howner]
      exact if_neg (Option.some_ne_none _).symm
    · cases hlist : listOf owner h.count (.children g) with
      | nil =>
        rw [hlist] at hchain
        generalize h.links.first (.children g) = start at hchain hfirst
        cases hchain
        exact absurd rfl hfirst
      | cons a _ =>
        obtain ⟨hlt, howner⟩ := mem_listOf.mp (hlist ▸ List.mem_cons_self (a := a))
        refine hlost a hlt ?_ ?_
        · intro heq
          rw [← Option.some.inj heq, hinv.owner_iedModel hm] at howner
          cases howner
        · rw [setOwner, if_neg hlt.ne, if_pos howner]

end Heap

end Iec61850.ConfigFile
