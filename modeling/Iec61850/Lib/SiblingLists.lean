import Iec61850.Lib.Concat
import Mathlib.Data.List.Nodup
import Mathlib.Data.List.Range
import Mathlib.Logic.Function.Basic

/-! Lists of objects that refer to each other: a slot has the first object of a list, and an object
the next one. Objects are numbered as they are made, and come to the end of one list at most. -/

open Machine

structure SiblingLists (σ : Type) where
  first : σ → Option Nat
  sibling : Nat → Option Nat

namespace SiblingLists

variable {σ : Type} [DecidableEq σ]

/-- The loop that goes on while there is a next object. -/
def lastFrom (sibling : Nat → Option Nat) : Nat → Nat → Exec Nat
  | 0, _ => .error .outOfFuel
  | fuel + 1, n =>
    match sibling n with
    | none => .ok n
    | some next => lastFrom sibling fuel next

/-- The objects from one on. -/
def walk (sibling : Nat → Option Nat) : Nat → Option Nat → Exec (List Nat)
  | _, none => .ok []
  | 0, some _ => .error .outOfFuel
  | fuel + 1, some n => do
    let rest ← walk sibling fuel (sibling n)
    return n :: rest

/-- A new object has no next one. -/
def make (l : SiblingLists σ) (n : Nat) : SiblingLists σ :=
  { l with sibling := Function.update l.sibling n none }

def append (l : SiblingLists σ) (fuel : Nat) (s : σ) (n : Nat) : Exec (SiblingLists σ) :=
  match l.first s with
  | none => .ok { l with first := Function.update l.first s (some n) }
  | some first => do
    let last ← lastFrom l.sibling fuel first
    return { l with sibling := Function.update l.sibling last (some n) }

/-- The object becomes all of the list. -/
def set (l : SiblingLists σ) (s : σ) (n : Nat) : SiblingLists σ :=
  { l with first := Function.update l.first s (some n) }

/-- The references are those of a list. -/
inductive Chain (sibling : Nat → Option Nat) : Option Nat → List Nat → Prop
  | nil : Chain sibling none []
  | cons {n : Nat} {ns : List Nat} : Chain sibling (sibling n) ns →
    Chain sibling (some n) (n :: ns)

section

variable {sibling sibling' : Nat → Option Nat} {start : Option Nat} {ns : List Nat} {n m : Nat}

theorem Chain.congr (h : Chain sibling start ns) (heq : ∀ n ∈ ns, sibling' n = sibling n) :
    Chain sibling' start ns := by
  induction h with
  | nil => exact .nil
  | cons _ ih =>
    rw [List.forall_mem_cons] at heq
    have htail := ih heq.2
    rw [← heq.1] at htail
    exact .cons htail

theorem Chain.eq_nil (h : Chain sibling none ns) : ns = [] := by
  cases h
  rfl

theorem Chain.walk_eq (h : Chain sibling start ns) {fuel : Nat} (hfuel : ns.length ≤ fuel) :
    walk sibling fuel start = .ok ns := by
  induction h generalizing fuel with
  | nil => rw [walk]
  | cons _ ih =>
    obtain ⟨fuel, rfl⟩ : ∃ k, fuel = k + 1 := Nat.exists_eq_add_of_le' (Nat.one_le_of_lt hfuel)
    rw [walk, ih (Nat.le_of_succ_le_succ hfuel)]
    rfl

theorem Chain.lastFrom_eq {first : Nat} (h : Chain sibling (some first) (ns ++ [m])) {fuel : Nat}
    (hfuel : ns.length < fuel) : lastFrom sibling fuel first = .ok m := by
  induction ns generalizing first fuel with
  | nil =>
    obtain ⟨fuel, rfl⟩ : ∃ k, fuel = k + 1 := Nat.exists_eq_add_of_le' hfuel
    cases h with
    | cons h =>
      rw [lastFrom]
      generalize sibling m = next at h
      cases h
      rfl
  | cons n ns ih =>
    obtain ⟨fuel, rfl⟩ : ∃ k, fuel = k + 1 := Nat.exists_eq_add_of_le' (Nat.one_le_of_lt hfuel)
    cases h with
    | cons h =>
      rw [lastFrom]
      cases hnext : sibling n with
      | none =>
        rw [hnext] at h
        exact absurd h.eq_nil (List.append_ne_nil_of_right_ne_nil _ (List.cons_ne_nil _ _))
      | some next =>
        rw [hnext] at h
        exact ih h (Nat.lt_of_succ_lt_succ hfuel)

/-- The next object of the last one is set. -/
theorem Chain.snoc (h : Chain sibling start (ns ++ [m])) (hn : sibling n = none)
    (hm : m ∉ ns) (hne : n ≠ m) :
    Chain (Function.update sibling m (some n)) start (ns ++ [m, n]) := by
  induction ns generalizing start with
  | nil =>
    cases h with
    | cons h =>
      refine .cons ?_
      rw [Function.update_self]
      refine .cons ?_
      rw [Function.update_of_ne hne, hn]
      exact .nil
  | cons k ns ih =>
    rw [List.mem_cons, not_or] at hm
    cases h with
    | cons h =>
      refine .cons ?_
      rw [Function.update_of_ne (Ne.symm hm.1)]
      exact ih h hm.2

end

/-! ## The lists by the slots of the objects -/

/-- The objects of a slot, as they have been made. -/
def listOf (owner : Nat → Option σ) (count : Nat) (s : σ) : List Nat :=
  (List.range count).filter (owner · = some s)

/-- The lists are those of the slots that the objects are in. -/
def Holds (l : SiblingLists σ) (owner : Nat → Option σ) (count : Nat) : Prop :=
  ∀ s, Chain l.sibling (l.first s) (listOf owner count s)

section

variable {l : SiblingLists σ} {owner : Nat → Option σ} {count n : Nat} {s : σ}

theorem mem_listOf : n ∈ listOf owner count s ↔ n < count ∧ owner n = some s := by
  rw [listOf, List.mem_filter, List.mem_range, decide_eq_true_iff]

theorem nodup_listOf : (listOf owner count s).Nodup := List.nodup_range.filter _

theorem length_listOf_le : (listOf owner count s).length ≤ count :=
  (List.length_filter_le _ _).trans (List.length_range).le

theorem listOf_succ :
    listOf owner (count + 1) s =
      listOf owner count s ++ if owner count = some s then [count] else [] := by
  rw [listOf, List.range_succ, List.filter_append, listOf]
  by_cases h : owner count = some s
  · simp [h]
  · simp [h]

theorem listOf_congr {owner' : Nat → Option σ}
    (h : ∀ n < count, owner' n = some s ↔ owner n = some s) :
    listOf owner' count s = listOf owner count s := by
  refine List.filter_congr fun n hn => ?_
  rw [decide_eq_decide]
  exact h n (List.mem_range.mp hn)

theorem listOf_update_self (o : Option σ) :
    listOf (Function.update owner count o) count s = listOf owner count s :=
  listOf_congr fun n hn => by rw [Function.update_of_ne hn.ne]

/-- An object is made, and is in no list. -/
theorem Holds.make (h : l.Holds owner count) :
    (l.make count).Holds (Function.update owner count none) (count + 1) := by
  intro s
  rw [listOf_succ, Function.update_self, if_neg (Option.some_ne_none s).symm, List.append_nil,
    listOf_update_self]
  refine (h s).congr fun n hn => ?_
  exact Function.update_of_ne (mem_listOf.mp hn).1.ne none l.sibling

/-- The one that was made last comes to the end of a list. -/
theorem Holds.append (h : l.Holds owner (count + 1)) (hnone : owner count = none)
    (hsibling : l.sibling count = none) {fuel : Nat} (hfuel : count ≤ fuel) (s : σ) :
    ∃ l', l.append fuel s count = .ok l' ∧
      l'.Holds (Function.update owner count (some s)) (count + 1) := by
  have hlist : ∀ s', listOf owner (count + 1) s' = listOf owner count s' := by
    intro s'
    rw [listOf_succ, hnone, if_neg (Option.some_ne_none s').symm, List.append_nil]
  have hother : ∀ s', s' ≠ s → listOf (Function.update owner count (some s)) (count + 1) s' =
      listOf owner count s' := by
    intro s' hne
    rw [listOf_succ, Function.update_self, if_neg (fun h => hne (Option.some.inj h).symm),
      List.append_nil, listOf_update_self]
  have hself : listOf (Function.update owner count (some s)) (count + 1) s =
      listOf owner count s ++ [count] := by
    rw [listOf_succ, Function.update_self, if_pos rfl, listOf_update_self]
  have hs := h s
  rw [hlist] at hs
  rw [SiblingLists.append]
  cases hfirst : l.first s with
  | none =>
    rw [hfirst] at hs
    refine ⟨_, rfl, fun s' => ?_⟩
    by_cases hs' : s' = s
    · subst hs'
      rw [hself]
      generalize listOf owner count s' = ns at hs
      cases hs
      change Chain l.sibling (Function.update l.first s' (some count) s') _
      rw [Function.update_self]
      refine .cons ?_
      rw [hsibling]
      exact .nil
    · rw [hother s' hs', ← hlist]
      change Chain l.sibling (Function.update l.first s (some count) s') _
      rw [Function.update_of_ne hs']
      exact h s'
  | some first =>
    rw [hfirst] at hs
    rcases List.eq_nil_or_concat' (listOf owner count s) with hnil | ⟨ns, m, hconcat⟩
    · rw [hnil] at hs
      cases hs
    · have hm : m < count := (mem_listOf.mp (hconcat ▸ List.mem_append_right ns
        (List.mem_singleton_self m))).1
      have hlength : (ns ++ [m]).length ≤ count := hconcat ▸ length_listOf_le
      have hnodup : (ns ++ [m]).Nodup := hconcat ▸ nodup_listOf
      rw [hconcat] at hs
      rw [List.length_append, List.length_singleton] at hlength
      simp only [hs.lastFrom_eq (hlength.trans hfuel)]
      refine ⟨_, rfl, fun s' => ?_⟩
      by_cases hs' : s' = s
      · subst hs'
        rw [hself, hconcat, List.append_assoc]
        change Chain (Function.update l.sibling m (some count)) (l.first s') _
        rw [hfirst]
        refine hs.snoc hsibling ?_ hm.ne'
        intro hmem
        exact (List.nodup_append.mp hnodup).2.2 m hmem m (List.mem_singleton_self m) rfl
      · rw [hother s' hs', ← hlist]
        refine (h s').congr fun n hn => Function.update_of_ne ?_ _ _
        rintro rfl
        rw [hlist] at hn
        have hn' : n ∈ listOf owner count s := hconcat ▸ List.mem_append_right ns
          (List.mem_singleton_self n)
        exact hs' (Option.some.inj ((mem_listOf.mp hn).2.symm.trans (mem_listOf.mp hn').2))

/-- The objects that were in the slot before are not in a list any more. -/
def setOwner (owner : Nat → Option σ) (n : Nat) (s : σ) (k : Nat) : Option σ :=
  if k = n then some s else if owner k = some s then none else owner k

theorem Holds.set (h : l.Holds owner (count + 1)) (hnone : owner count = none)
    (hsibling : l.sibling count = none) (s : σ) :
    (l.set s count).Holds (setOwner owner count s) (count + 1) := by
  intro s'
  by_cases hs' : s' = s
  · subst hs'
    have hempty : listOf (setOwner owner count s') count s' = [] := by
      refine List.filter_eq_nil_iff.mpr fun n hn => ?_
      rw [List.mem_range] at hn
      rw [decide_eq_true_iff, setOwner, if_neg hn.ne]
      split
      · exact (Option.some_ne_none s').symm
      · assumption
    rw [listOf_succ, hempty, setOwner, if_pos rfl, if_pos rfl]
    change Chain l.sibling (Function.update l.first s' (some count) s') _
    rw [Function.update_self]
    refine .cons ?_
    rw [hsibling]
    exact .nil
  · have hsame : listOf (setOwner owner count s) (count + 1) s' =
        listOf owner (count + 1) s' := by
      refine listOf_congr fun n _ => ?_
      rw [setOwner]
      by_cases hn : n = count
      · rw [if_pos hn, hn, hnone]
        exact iff_of_false (fun h => hs' (Option.some.inj h).symm)
          (Option.some_ne_none s').symm
      · rw [if_neg hn]
        split
        · next howner =>
          rw [howner]
          exact iff_of_false (Option.some_ne_none s').symm fun h => hs' (Option.some.inj h).symm
        · exact Iff.rfl
    rw [hsame]
    change Chain l.sibling (Function.update l.first s (some count) s') _
    rw [Function.update_of_ne hs']
    exact h s'

theorem Holds.walk_eq (h : l.Holds owner count) {fuel : Nat} (hfuel : count ≤ fuel) (s : σ) :
    walk l.sibling fuel (l.first s) = .ok (listOf owner count s) :=
  (h s).walk_eq (length_listOf_le.trans hfuel)

end

/-! ## Objects that are in the lists of others -/

section Forest

/-- The objects below an object, each behind those below it. -/
def postorder (children : Nat → List Nat) : Nat → Nat → List Nat
  | 0, _ => []
  | fuel + 1, n => (children n).flatMap (postorder children fuel) ++ [n]

/-- The recursion over the lists of objects: the ones below are let go first. -/
def dismantle (l : SiblingLists σ) (slot : Nat → σ) (count : Nat) : Nat → Nat → Exec (List Nat)
  | 0, _ => .error .outOfFuel
  | fuel + 1, n => do
    let children ← walk l.sibling count (l.first (slot n))
    let below ← concatM (dismantle l slot count fuel) children
    return below ++ [n]

variable {parent : Nat → Option Nat} {children : Nat → List Nat} {count fuel n m : Nat}

theorem le_of_mem_postorder (hlt : ∀ n, ∀ c ∈ children n, n < c)
    (h : m ∈ postorder children fuel n) : n ≤ m := by
  induction fuel generalizing n with
  | zero => cases h
  | succ fuel ih =>
    rw [postorder, List.mem_append, List.mem_flatMap, List.mem_singleton] at h
    rcases h with ⟨c, hc, h⟩ | rfl
    · exact (hlt n c hc).le.trans (ih h)
    · exact le_rfl

theorem lt_of_mem_postorder (hchildren : ∀ n, ∀ c ∈ children n, c < count) (hn : n < count)
    (h : m ∈ postorder children fuel n) : m < count := by
  induction fuel generalizing n with
  | zero => cases h
  | succ fuel ih =>
    rw [postorder, List.mem_append, List.mem_flatMap, List.mem_singleton] at h
    rcases h with ⟨c, hc, h⟩ | rfl
    · exact ih (hchildren n c hc) h
    · exact hn

theorem count_postorder_of_lt (hlt : ∀ n, ∀ c ∈ children n, n < c) (h : m < n) :
    (postorder children fuel n).count m = 0 :=
  List.count_eq_zero.mpr fun hmem => absurd (le_of_mem_postorder hlt hmem) (Nat.not_le_of_lt h)

theorem count_postorder_self (hlt : ∀ n, ∀ c ∈ children n, n < c) :
    (postorder children (fuel + 1) n).count n = 1 := by
  have hbelow : ((children n).flatMap (postorder children fuel)).count n = 0 := by
    refine List.count_eq_zero.mpr fun hmem => ?_
    obtain ⟨c, hc, hmem⟩ := List.mem_flatMap.mp hmem
    exact absurd (le_of_mem_postorder hlt hmem) (Nat.not_le_of_lt (hlt n c hc))
  rw [postorder, List.count_append, hbelow, List.count_singleton_self]

theorem count_flatMap_congr {as : List Nat} {f : Nat → List Nat} {g : Nat → Nat} {x : Nat}
    (h : ∀ a ∈ as, (f a).count x = g a) : (as.flatMap f).count x = (as.map g).sum := by
  rw [List.count_flatMap]
  exact congrArg List.sum (List.map_congr_left h)

theorem sum_map_ite (as : List Nat) (x : Nat) :
    (as.map fun a => if x = a then 1 else 0).sum = as.count x := by
  induction as with
  | nil => rfl
  | cons a as ih =>
    rw [List.map_cons, List.sum_cons, ih, List.count_cons]
    by_cases h : x = a
    · rw [if_pos h, if_pos (beq_iff_eq.mpr h.symm), Nat.add_comm]
    · rw [if_neg h, if_neg (by rw [beq_iff_eq]; exact Ne.symm h), Nat.add_comm]

/-- An object is as often below another one as its parent is, if it is another object itself. -/
theorem count_postorder (hlt : ∀ n, ∀ c ∈ children n, n < c)
    (hmem : ∀ n c, c ∈ children n ↔ c < count ∧ parent c = some n)
    (hnodup : ∀ n, (children n).Nodup) (hn : n < count) (hfuel : count ≤ n + fuel) (hm : m < count)
    (hne : m ≠ n) : (postorder children fuel n).count m =
      (parent m).elim 0 fun p => (postorder children fuel n).count p := by
  induction fuel generalizing n with
  | zero => exact absurd hn (Nat.not_lt_of_le hfuel)
  | succ fuel ih =>
    have hbelow : (postorder children (fuel + 1) n).count m =
        ((children n).flatMap (postorder children fuel)).count m := by
      rw [postorder, List.count_append, List.count_singleton,
        if_neg (by rw [beq_iff_eq]; exact hne.symm), Nat.add_zero]
    have hih : ∀ c ∈ children n, m ≠ c → (postorder children fuel c).count m =
        (parent m).elim 0 fun p => (postorder children fuel c).count p := by
      intro c hc hne
      exact ih ((hmem n c).mp hc).1 (by have := hlt n c hc; omega) hne
    rw [hbelow]
    cases hparent : parent m with
    | none =>
      rw [count_flatMap_congr (g := fun _ => 0)]
      · simp
      · intro c hc
        have hne : m ≠ c := by
          rintro rfl
          rw [((hmem n m).mp hc).2] at hparent
          cases hparent
        rw [hih c hc hne, hparent]
        rfl
    | some p =>
      by_cases hp : p = n
      · subst hp
        have hchild : m ∈ children p := (hmem p m).mpr ⟨hm, hparent⟩
        rw [Option.elim_some, count_postorder_self hlt,
          count_flatMap_congr (g := fun c => if m = c then 1 else 0), sum_map_ite]
        · exact List.count_eq_one_of_mem (hnodup p) hchild
        · intro c hc
          have hpc := hlt p c hc
          split
          · next heq =>
            subst heq
            obtain ⟨k, rfl⟩ : ∃ k, fuel = k + 1 := ⟨fuel - 1, by omega⟩
            exact count_postorder_self hlt
          · next hne =>
            rw [hih c hc hne, hparent, Option.elim_some]
            exact count_postorder_of_lt hlt hpc
      · have hchild : m ∉ children n := by
          intro h
          exact hp (Option.some.inj (hparent.symm.trans ((hmem n m).mp h).2))
        rw [Option.elim_some, postorder, List.count_append, List.count_singleton,
          if_neg (by rw [beq_iff_eq]; exact Ne.symm hp), Nat.add_zero]
        refine (count_flatMap_congr (g := fun c => (postorder children fuel c).count p) ?_).trans
          List.count_flatMap.symm
        intro c hc
        have hne : m ≠ c := by
          rintro rfl
          exact hchild hc
        rw [hih c hc hne, hparent]
        rfl

/-- The same below several objects, of which none is in the list of another one. -/
theorem count_flatMap_postorder (hlt : ∀ n, ∀ c ∈ children n, n < c)
    (hmem : ∀ n c, c ∈ children n ↔ c < count ∧ parent c = some n)
    (hnodup : ∀ n, (children n).Nodup) {roots : List Nat} (hroots : roots.Nodup)
    (hroot : ∀ n ∈ roots, n < count ∧ parent n = none) (hfuel : count ≤ fuel) (hm : m < count) :
    (roots.flatMap (postorder children fuel)).count m =
      if m ∈ roots then 1
      else (parent m).elim 0 fun p => (roots.flatMap (postorder children fuel)).count p := by
  have hroot' : ∀ n ∈ roots, m ≠ n → (postorder children fuel n).count m =
      (parent m).elim 0 fun p => (postorder children fuel n).count p := fun n hn hne =>
    count_postorder hlt hmem hnodup (hroot n hn).1 (hfuel.trans (Nat.le_add_left fuel n)) hm hne
  obtain ⟨k, rfl⟩ : ∃ k, fuel = k + 1 :=
    Nat.exists_eq_add_of_le' (Nat.one_le_of_lt (lt_of_lt_of_le hm hfuel))
  by_cases hmroot : m ∈ roots
  · rw [if_pos hmroot, count_flatMap_congr (g := fun n => if m = n then 1 else 0), sum_map_ite]
    · exact List.count_eq_one_of_mem hroots hmroot
    · intro n hn
      split
      · next heq =>
        subst heq
        exact count_postorder_self hlt
      · next hne =>
        rw [hroot' n hn hne, (hroot m hmroot).2]
        rfl
  · have hne : ∀ n ∈ roots, m ≠ n := by
      rintro n hn rfl
      exact hmroot hn
    rw [if_neg hmroot]
    cases hparent : parent m with
    | none =>
      rw [count_flatMap_congr (g := fun _ => 0)]
      · simp
      · intro n hn
        rw [hroot' n hn (hne n hn), hparent]
        rfl
    | some p =>
      refine (count_flatMap_congr
        (g := fun n => (postorder children (k + 1) n).count p) ?_).trans List.count_flatMap.symm
      intro n hn
      rw [hroot' n hn (hne n hn), hparent]
      rfl

/-- Everything is let go once, with the object that the roots are of, if and only if every other
object is a root or below another one. -/
theorem perm_range_iff (hlt : ∀ n, ∀ c ∈ children n, n < c)
    (hmem : ∀ n c, c ∈ children n ↔ c < count ∧ parent c = some n)
    (hnodup : ∀ n, (children n).Nodup) {roots : List Nat} (hroots : roots.Nodup)
    (hroot : ∀ n ∈ roots, n < count ∧ parent n = none) (hfuel : count ≤ fuel)
    {top : Nat} (htop : top < count) (htoproot : top ∉ roots) (htopparent : parent top = none)
    (hparent : ∀ n, parent n ≠ some top) :
    (roots.flatMap (postorder children fuel) ++ [top]).Perm (List.range count) ↔
      ∀ n < count, n = top ∨ n ∈ roots ∨ ∃ p, parent n = some p := by
  have hcount : ∀ m, m < count → (roots.flatMap (postorder children fuel)).count m =
      if m ∈ roots then 1
      else (parent m).elim 0 fun p => (roots.flatMap (postorder children fuel)).count p :=
    fun m hm => count_flatMap_postorder hlt hmem hnodup hroots hroot hfuel hm
  rw [List.perm_iff_count]
  constructor
  · intro h n hn
    by_contra hnone
    simp only [not_or, not_exists] at hnone
    obtain ⟨hne, hnroot, hnparent⟩ := hnone
    have hnone : parent n = none := Option.eq_none_iff_forall_not_mem.mpr hnparent
    have hn' := h n
    rw [List.count_append, hcount n hn, if_neg hnroot, hnone, List.count_singleton,
      if_neg (by rw [beq_iff_eq]; exact Ne.symm hne), List.count_range, if_pos hn] at hn'
    cases hn'
  · intro h
    have hone : ∀ m, m < count →
        (roots.flatMap (postorder children fuel) ++ [top]).count m = 1 := by
      intro m
      induction m using Nat.strong_induction_on with
      | _ m ih =>
        intro hm
        rw [List.count_append, hcount m hm, List.count_singleton]
        by_cases hmroot : m ∈ roots
        · have hne : top ≠ m := by
            rintro rfl
            exact htoproot hmroot
          rw [if_pos hmroot, if_neg (by rw [beq_iff_eq]; exact hne)]
        · rw [if_neg hmroot]
          rcases h m hm with rfl | hroot' | ⟨p, hp⟩
          · rw [htopparent, if_pos (beq_self_eq_true m)]
            rfl
          · exact absurd hroot' hmroot
          · have hne : top ≠ m := by
              rintro rfl
              rw [htopparent] at hp
              cases hp
            have hpm : p < m := hlt p m ((hmem p m).mpr ⟨hm, hp⟩)
            have hp' := ih p hpm (hpm.trans hm)
            rw [List.count_append, List.count_singleton,
              if_neg (by rw [beq_iff_eq]; rintro rfl; exact hparent m hp)] at hp'
            rw [hp, if_neg (by rw [beq_iff_eq]; exact hne)]
            exact hp'
    intro m
    rw [List.count_range]
    split
    · next hm => exact hone m hm
    · next hm =>
      refine List.count_eq_zero.mpr fun hmem' => hm ?_
      rw [List.mem_append, List.mem_flatMap, List.mem_singleton] at hmem'
      rcases hmem' with ⟨n, hn, hmem'⟩ | rfl
      · exact lt_of_mem_postorder (fun n c hc => ((hmem n c).mp hc).1) (hroot n hn).1 hmem'
      · exact htop

theorem dismantle_eq {l : SiblingLists σ} {owner : Nat → Option σ} {slot : Nat → σ}
    (h : l.Holds owner count) (hlt : ∀ n, ∀ c ∈ listOf owner count (slot n), n < c)
    (hn : n < count) (hfuel : count ≤ n + fuel) : l.dismantle slot count fuel n =
      .ok (postorder (fun n => listOf owner count (slot n)) fuel n) := by
  induction fuel generalizing n with
  | zero => exact absurd hn (Nat.not_lt_of_le hfuel)
  | succ fuel ih =>
    have hbelow : ∀ c ∈ listOf owner count (slot n), l.dismantle slot count fuel c =
        .ok (postorder (fun n => listOf owner count (slot n)) fuel c) := by
      intro c hc
      have hnc := hlt n c hc
      exact ih (mem_listOf.mp hc).1 (by omega)
    rw [dismantle, h.walk_eq le_rfl]
    change (concatM (l.dismantle slot count fuel) _ >>= _) = _
    rw [concatM_eq_flatMap hbelow]
    rfl

end Forest

end SiblingLists
