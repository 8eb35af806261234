import Mathlib.Data.List.Chain

/-! Runs of a transition system whose steps all meet a guard, and what an invariant
of one step says about them. -/

namespace Transition

variable {σ ι : Type} (step : σ → ι → σ → Prop) (guard : σ → ι → Prop)

inductive Run : σ → List ι → σ → Prop
  | nil {s : σ} : Run s [] s
  | snoc {s t u : σ} {is : List ι} {i : ι} :
    Run s is t → guard t i → step t i u → Run s (is ++ [i]) u

variable {step guard} {s t : σ} {is : List ι}

theorem Run.invariant {inv : σ → Prop} (hr : Run step guard s is t) (hs : inv s)
    (h : ∀ t i u, inv t → guard t i → step t i u → inv u) : inv t := by
  induction hr with
  | nil => exact hs
  | snoc _ hg hst ih => exact h _ _ _ ih hg hst

theorem Run.append {u : σ} {js : List ι} (hr : Run step guard s is t)
    (hr' : Run step guard t js u) : Run step guard s (is ++ js) u := by
  induction hr' with
  | nil => rwa [List.append_nil]
  | snoc _ hg hst ih =>
    rw [← List.append_assoc]
    exact .snoc ih hg hst

theorem Run.split {js : List ι} (hr : Run step guard s (is ++ js) t) :
    ∃ u, Run step guard s is u ∧ Run step guard u js t := by
  generalize hks : is ++ js = ks at hr
  induction hr generalizing js with
  | nil =>
    obtain ⟨rfl, rfl⟩ := List.append_eq_nil_iff.mp hks
    exact ⟨_, .nil, .nil⟩
  | snoc hrun hg hst ih =>
    obtain rfl | ⟨js, j, rfl⟩ := List.eq_nil_or_concat' js
    · rw [List.append_nil] at hks
      exact ⟨_, hks ▸ .snoc hrun hg hst, .nil⟩
    · rw [← List.append_assoc] at hks
      obtain ⟨hinit, hj⟩ := List.append_inj' hks rfl
      obtain rfl := List.singleton_inj.mp hj
      obtain ⟨v, hv, hv'⟩ := ih hinit
      exact ⟨v, hv, hv'.snoc hg hst⟩

theorem Run.eq_of_nil (hr : Run step guard s is t) (h : is = []) : s = t := by
  cases hr with
  | nil => rfl
  | snoc => exact absurd h (List.append_ne_nil_of_right_ne_nil _ (List.cons_ne_nil _ _))

theorem Run.last {js : List ι} {i : ι} (hr : Run step guard s js t) (h : js = is ++ [i]) :
    ∃ u, Run step guard s is u ∧ guard u i ∧ step u i t := by
  cases hr with
  | nil => exact absurd h.symm (List.append_ne_nil_of_right_ne_nil _ (List.cons_ne_nil _ _))
  | snoc hrun hg hst =>
    obtain ⟨rfl, hi⟩ := List.append_inj' h rfl
    obtain rfl := List.singleton_inj.mp hi
    exact ⟨_, hrun, hg, hst⟩

theorem Run.single {i : ι} (hr : Run step guard s [i] t) : guard s i ∧ step s i t := by
  obtain ⟨u, hrun, h⟩ := hr.last (List.nil_append _).symm
  obtain rfl := hrun.eq_of_nil rfl
  exact h

/-- A weaker guard allows more runs. -/
theorem Run.mono {guard' : σ → ι → Prop} (hr : Run step guard s is t)
    (h : ∀ t i, guard t i → guard' t i) : Run step guard' s is t := by
  induction hr with
  | nil => exact .nil
  | snoc _ hg hst ih => exact .snoc ih (h _ _ hg) hst

/-- The steps are taken one after the other, each if it meets the guard. -/
def follow (next : σ → ι → Option σ) (guard : σ → ι → Prop) [∀ s i, Decidable (guard s i)] :
    σ → List ι → Option σ
  | s, [] => some s
  | s, i :: is => if guard s i then (next s i).bind fun t => follow next guard t is else none

theorem run_of_follow [∀ s i, Decidable (guard s i)] {next : σ → ι → Option σ}
    (hnext : ∀ s i t, next s i = some t → step s i t)
    (hf : follow next guard s is = some t) : Run step guard s is t := by
  induction is generalizing s with
  | nil =>
    cases hf
    exact .nil
  | cons i is ih =>
    obtain ⟨hg, hf⟩ := Option.ite_none_right_eq_some.mp hf
    obtain ⟨u, hu, hf⟩ := Option.bind_eq_some_iff.mp hf
    have hnil : Run step guard s [] s := .nil
    exact (hnil.snoc hg (hnext s i u hu)).append (ih hf)

/-! ## What is bound to happen -/

section

variable {α : Type} (own : α → α → Prop) (goal : α → Prop)

/-- However the system goes on with steps of its own, it comes to the goal. -/
inductive Inevitable : α → Prop
  | now {a : α} : goal a → Inevitable a
  | later {a : α} : (∃ b, own a b) → (∀ b, own a b → Inevitable b) → Inevitable a

variable {own goal} (inv : α → Prop) {a : α}

/-- There is a step until the goal is reached, and there are only so many of them. -/
theorem inevitable_of_measure (measure : α → Nat)
    (hinv : ∀ a b, inv a → own a b → inv b)
    (hlt : ∀ a b, inv a → own a b → measure b < measure a)
    (hprogress : ∀ a, inv a → ¬ goal a → ∃ b, own a b) (h : inv a) : Inevitable own goal a := by
  induction hn : measure a using Nat.strongRecOn generalizing a with
  | _ n ih =>
    by_cases hg : goal a
    · exact .now hg
    · refine .later (hprogress a h hg) fun b hb => ?_
      exact ih (measure b) (hn ▸ hlt a b h hb) (hinv a b h hb) rfl

end

/-! ## Records in which each entry follows the one in front of it -/

section

variable {α : Type} {Follows : α → α → Prop} {entries : List α} {a b : α}

theorem isChain_snoc (h : entries.IsChain Follows) (hlast : ∀ a ∈ entries.getLast?, Follows a b) :
    (entries ++ [b]).IsChain Follows := by
  refine List.isChain_append.mpr ⟨h, List.isChain_singleton b, fun a ha b' hb => ?_⟩
  obtain rfl := Option.some.inj hb
  exact hlast a ha

/-- What rises from each entry to the next one rises from any entry to any later one. -/
theorem rank_lt_of_isChain (rank : α → Nat) {proper : α → Prop}
    (hrise : ∀ a b, proper a → Follows a b → rank a < rank b)
    (h : (a :: (entries ++ [b])).IsChain Follows) (hp : ∀ c ∈ a :: entries, proper c) :
    rank a < rank b := by
  induction entries generalizing a with
  | nil => exact hrise a b (hp a List.mem_cons_self) (List.isChain_cons_cons.mp h).1
  | cons c entries ih =>
    obtain ⟨ha, hc⟩ := List.forall_mem_cons.mp hp
    obtain ⟨hac, hchain⟩ := List.isChain_cons_cons.mp h
    exact (hrise a c ha hac).trans (ih hchain hc)

end

/-! ## Programs -/

section

variable {ε σ ι : Type} (step : σ → ι → Except ε σ) (s : σ)

/-- All steps can be taken, and this holds after each of them. -/
def Always (goal : σ → Prop) (is : List ι) : Prop :=
  ∀ before after, is = before ++ after → ∃ t, before.foldlM step s = .ok t ∧ goal t

/-- Each step is like this where it is taken. -/
def EachStep (good : σ → ι → Prop) (is : List ι) : Prop :=
  ∀ before i after t, is = before ++ i :: after → before.foldlM step s = .ok t → good t i

variable {step s} {goal inv : σ → Prop} {good : σ → ι → Prop} {is before after : List ι}

theorem foldlM_append_singleton (before : List ι) (i : ι) :
    (before ++ [i]).foldlM step s = before.foldlM step s >>= fun t => step t i := by
  rw [List.foldlM_append]
  cases before.foldlM step s with
  | error => rfl
  | ok t => exact bind_pure (step t i)

theorem invariant_of_good (hs : inv s)
    (hstep : ∀ t i, inv t → good t i → ∃ u, step t i = .ok u ∧ inv u)
    (h : ∀ before i after t, is = before ++ i :: after → before.foldlM step s = .ok t → inv t →
      good t i) (his : is = before ++ after) : ∃ t, before.foldlM step s = .ok t ∧ inv t := by
  induction before using List.reverseRecOn generalizing after with
  | nil => exact ⟨s, rfl, hs⟩
  | append_singleton before i ih =>
    rw [List.append_assoc] at his
    obtain ⟨t, hrun, ht⟩ := ih his
    obtain ⟨u, hu, hinv⟩ := hstep t i ht (h before i after t his hrun ht)
    refine ⟨u, ?_, hinv⟩
    rw [foldlM_append_singleton, hrun]
    exact hu

/-- Good steps are what it takes, and nothing more. -/
theorem always_iff (hs : inv s) (hgoal : ∀ t, inv t → goal t)
    (hstep : ∀ t i, inv t → good t i → ∃ u, step t i = .ok u ∧ inv u)
    (hgood : ∀ t i u, inv t → step t i = .ok u → goal u → good t i) :
    Always step s goal is ↔ EachStep step s good is := by
  constructor
  · intro h
    have hneeded (before : List ι) (i : ι) (after : List ι) (t : σ)
        (his : is = before ++ i :: after) (hrun : before.foldlM step s = .ok t) (ht : inv t) :
        good t i := by
      have hsplit : is = (before ++ [i]) ++ after := by rw [his, List.append_assoc]; rfl
      obtain ⟨u, hrun', hu⟩ := h (before ++ [i]) after hsplit
      rw [foldlM_append_singleton, hrun] at hrun'
      exact hgood t i u ht hrun' hu
    intro before i after t his hrun
    obtain ⟨t', hrun', ht⟩ := invariant_of_good hs hstep hneeded his
    cases hrun.symm.trans hrun'
    exact hneeded before i after t his hrun ht
  · intro h before after his
    have hneeded (before : List ι) (i : ι) (after : List ι) (t : σ)
        (his : is = before ++ i :: after) (hrun : before.foldlM step s = .ok t) (_ : inv t) :
        good t i := h before i after t his hrun
    obtain ⟨t, hrun, ht⟩ := invariant_of_good hs hstep hneeded his
    exact ⟨t, hrun, hgoal t ht⟩

end

end Transition
