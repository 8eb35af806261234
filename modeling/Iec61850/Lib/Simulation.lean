import Iec61850.Lib.Transition

/-! One system that does what another one does, step by step, and messages that are on their way as a
sequence of octets. -/

namespace Transition

section Simulation

variable {σ τ ι κ : Type} {step : σ → ι → σ → Prop} {guard : σ → ι → Prop} {step' : τ → κ → τ → Prop}
  {R : σ → τ → Prop} {s t : σ} {a : τ} {is : List ι}

/-- Every run of the one is a run of the other. -/
theorem Run.simulated (hr : Run step guard s is t) (hs : R s a)
    (h : ∀ t i u b, R t b → guard t i → step t i u → ∃ j c, step' b j c ∧ R u c) :
    ∃ js b, Run step' (fun _ _ => True) a js b ∧ R t b := by
  induction hr with
  | nil => exact ⟨[], a, .nil, hs⟩
  | snoc _ hg hst ih =>
    obtain ⟨js, b, hrun, hb⟩ := ih
    obtain ⟨j, c, hc, hR⟩ := h _ _ _ b hb hg hst
    exact ⟨js ++ [j], c, hrun.snoc trivial hc, hR⟩

variable {own : σ → σ → Prop} {own' : τ → τ → Prop} {goal : σ → Prop} {goal' : τ → Prop}

/-- What is bound to happen to the one is bound to happen to the other. -/
theorem Inevitable.simulated (hi : Inevitable own' goal' a) (hs : R s a)
    (hgoal : ∀ s a, R s a → goal' a → goal s)
    (hprogress : ∀ s a b, R s a → own' a b → ∃ t, own s t)
    (h : ∀ s a t, R s a → own s t → ∃ b, own' a b ∧ R t b) : Inevitable own goal s := by
  induction hi generalizing s with
  | now hg => exact .now (hgoal s _ hs hg)
  | later hex _ ih =>
    obtain ⟨b, hb⟩ := hex
    refine .later (hprogress s _ b hs hb) fun t ht => ?_
    obtain ⟨c, hc, hR⟩ := h s _ t hs ht
    exact ih c hc hR

end Simulation

end Transition

namespace Channel

variable {μ β : Type} {encodes : μ → List β → Prop} {m : μ} {ms : List μ} {s octets : List β}

/-- The octets are those of the messages, one behind the other. -/
inductive Carries (encodes : μ → List β → Prop) : List β → List μ → Prop
  | nil : Carries encodes [] []
  | cons {m : μ} {octets rest : List β} {ms : List μ} : encodes m octets → Carries encodes rest ms →
    Carries encodes (octets ++ rest) (m :: ms)

theorem Carries.singleton (hm : encodes m octets) : Carries encodes octets [m] := by
  have h : Carries encodes (octets ++ []) [m] := .cons hm .nil
  rwa [List.append_nil] at h

/-- A message is sent behind the others. -/
theorem Carries.snoc (h : Carries encodes s ms) (hm : encodes m octets) :
    Carries encodes (s ++ octets) (ms ++ [m]) := by
  induction h with
  | nil => exact .singleton hm
  | cons hfirst _ ih =>
    rw [List.append_assoc]
    exact .cons hfirst ih

/-- The first message is what is read first. -/
theorem Carries.uncons (h : Carries encodes s (m :: ms)) :
    ∃ octets rest, s = octets ++ rest ∧ encodes m octets ∧ Carries encodes rest ms := by
  cases h with
  | cons hm hrest => exact ⟨_, _, rfl, hm, hrest⟩

theorem Carries.eq_nil (h : Carries encodes s []) : s = [] := by
  cases h
  rfl

/-- Where every message has octets, there are octets if and only if there is a message. -/
theorem Carries.ne_nil_iff (hne : ∀ m octets, encodes m octets → octets ≠ [])
    (h : Carries encodes s ms) : s ≠ [] ↔ ms ≠ [] := by
  cases h with
  | nil => exact iff_of_false (fun h => h rfl) fun h => h rfl
  | cons hm _ =>
    exact iff_of_true (List.append_ne_nil_of_left_ne_nil (hne _ _ hm) _) (List.cons_ne_nil _ _)

end Channel
