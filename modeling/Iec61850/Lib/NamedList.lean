import Mathlib.Data.List.Nodup

/-! Lists whose entries have names: the first entry with a name is found and removed, and entries
with new names come to the end. With names of their own the entries are found wherever they are. -/

namespace NamedList

variable {α ν : Type} (name : α → ν)

def Unique (as : List α) : Prop := (as.map name).Nodup

section

variable {name} {as : List α} {a : α}

theorem Unique.tail (h : Unique name (a :: as)) : Unique name as := (List.nodup_cons.mp h).2

theorem Unique.not_mem (h : Unique name (a :: as)) : ∀ b ∈ as, name b ≠ name a :=
  fun _ hb hname => (List.nodup_cons.mp h).1 (hname ▸ List.mem_map_of_mem hb)

end

variable [DecidableEq ν]

def lookup (as : List α) (n : ν) : Option α := as.find? (name · = n)

/-- The first entry with the name goes. -/
def remove (as : List α) (n : ν) : List α := as.eraseP (name · = n)

variable {name} {as : List α} {a : α} {n m : ν}

theorem mem_of_lookup (h : lookup name as n = some a) : a ∈ as ∧ name a = n := by
  have hname := List.find?_some h
  exact ⟨List.mem_of_find?_eq_some h, of_decide_eq_true hname⟩

theorem lookup_eq_none_iff : lookup name as n = none ↔ ∀ a ∈ as, name a ≠ n := by
  simp [lookup]

@[simp] theorem lookup_cons (a : α) (as : List α) (n : ν) :
    lookup name (a :: as) n = if name a = n then some a else lookup name as n := by
  by_cases h : name a = n
  · rw [if_pos h]
    exact List.find?_cons_of_pos (decide_eq_true h)
  · rw [if_neg h]
    exact List.find?_cons_of_neg (fun hd => h (of_decide_eq_true hd))

@[simp] theorem remove_cons (a : α) (as : List α) (n : ν) :
    remove name (a :: as) n = if name a = n then as else a :: remove name as n := by
  simp only [remove, List.eraseP_cons, decide_eq_true_eq, cond_eq_ite]

theorem Unique.lookup (h : Unique name as) (ha : a ∈ as) : lookup name as (name a) = some a := by
  induction as with
  | nil => cases ha
  | cons b as ih =>
    rw [lookup_cons]
    rcases List.mem_cons.mp ha with rfl | ha
    · exact if_pos rfl
    · rw [if_neg fun hname => h.not_mem a ha hname.symm]
      exact ih h.tail ha

theorem lookup_append_singleton (h : lookup name as (name a) = none) (n : ν) :
    lookup name (as ++ [a]) n = if n = name a then some a else lookup name as n := by
  induction as with
  | nil =>
    rw [List.nil_append, lookup_cons]
    exact if_congr eq_comm rfl rfl
  | cons b as ih =>
    rw [lookup_cons] at h
    have hb : name b ≠ name a := fun hname => by rw [if_pos hname] at h; cases h
    rw [if_neg hb] at h
    rw [List.cons_append, lookup_cons, lookup_cons, ih h]
    by_cases hn : n = name a
    · rw [if_pos hn, if_pos hn, if_neg fun hname => hb (hname.trans hn)]
    · rw [if_neg hn, if_neg hn]

theorem Unique.append_singleton (h : Unique name as) (ha : NamedList.lookup name as (name a) = none) :
    Unique name (as ++ [a]) := by
  rw [Unique, List.map_append, List.nodup_append]
  refine ⟨h, List.nodup_singleton _, ?_⟩
  intro n hn m hm
  obtain ⟨b, hb, rfl⟩ := List.mem_map.mp hn
  obtain rfl := List.mem_singleton.mp hm
  exact lookup_eq_none_iff.mp ha b hb

theorem Unique.remove (h : Unique name as) (n : ν) : Unique name (remove name as n) :=
  h.sublist (List.eraseP_sublist.map _)

theorem Unique.lookup_remove (h : Unique name as) (n m : ν) :
    NamedList.lookup name (NamedList.remove name as n) m =
      if m = n then none else NamedList.lookup name as m := by
  induction as with
  | nil => exact (ite_self none).symm
  | cons a as ih =>
    rw [remove_cons]
    by_cases ha : name a = n
    · rw [if_pos ha, lookup_cons]
      by_cases hm : m = n
      · rw [if_pos hm, hm, ← ha]
        exact lookup_eq_none_iff.mpr h.not_mem
      · rw [if_neg hm, if_neg fun hname => hm (hname.symm.trans ha)]
    · rw [if_neg ha, lookup_cons, lookup_cons, ih h.tail]
      by_cases hm : m = n
      · rw [if_pos hm, if_pos hm, if_neg fun hname => ha (hname.trans hm)]
      · rw [if_neg hm, if_neg hm]

theorem mem_of_mem_remove (ha : a ∈ NamedList.remove name as n) : a ∈ as :=
  List.mem_of_mem_eraseP ha

end NamedList
