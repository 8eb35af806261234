import Mathlib.Data.List.Forall2

/-! Trees that grow from seeds. A seed has a label and further seeds, in an order, or it fails; and
there is only a certain depth to grow into. Where the seeds may lead back to themselves the question
is when the growth ends. -/

inductive RoseTree (β : Type)
  | node (label : β) (children : List (RoseTree β))

namespace RoseTree

variable {α β ε : Type}

def label : RoseTree β → β
  | .node label _ => label

def children : RoseTree β → List (RoseTree β)
  | .node _ children => children

/-- The tree at a place, which is the number of a child for each level. -/
def get? (t : RoseTree β) : List Nat → Option (RoseTree β)
  | [] => some t
  | i :: place => t.children[i]?.bind fun c => c.get? place

/-- The growth from a seed. What is too deep fails. -/
def grow (step : α → Except ε (β × List α)) (tooDeep : ε) : Nat → α → Except ε (RoseTree β)
  | 0, _ => .error tooDeep
  | depth + 1, a => do
    let (label, seeds) ← step a
    let children ← seeds.mapM (grow step tooDeep depth)
    return .node label children

mutual

/-- All of the tree is what the seeds are declared to become. -/
def IsGrown (declares : α → β → List α → Prop) : RoseTree β → α → Prop
  | .node label children, a =>
    ∃ seeds, declares a label seeds ∧ AreGrown declares children seeds

def AreGrown (declares : α → β → List α → Prop) : List (RoseTree β) → List α → Prop
  | [], seeds => seeds = []
  | t :: ts, seeds => ∃ a rest, seeds = a :: rest ∧ IsGrown declares t a ∧ AreGrown declares ts rest

end

/-- The growth of one seed comes to another: the ones before it become trees. -/
def Reaches (declares : α → β → List α → Prop) (c a : α) : Prop :=
  ∃ label front back, declares a label (front ++ c :: back) ∧
    ∀ d ∈ front, ∃ t, IsGrown declares t d

/-! ## Lists -/

section Lists

variable {f g : α → Except ε β} {as front back : List α} {bs : List β} {a : α} {e : ε}

theorem map_eq_ok {x : Except ε α} {h : α → β} {b : β} (heq : x.map h = .ok b) :
    ∃ a, x = .ok a ∧ h a = b := by
  cases x with
  | error e => cases heq
  | ok a =>
    cases heq
    exact ⟨a, rfl, rfl⟩

theorem map_eq_error {x : Except ε α} {h : α → β} (heq : x.map h = .error e) : x = .error e := by
  cases x with
  | error e' =>
    cases heq
    rfl
  | ok a => cases heq

theorem mapM_cons_ok {b : β} (h : f a = .ok b) :
    (a :: as).mapM f = (as.mapM f).map (b :: ·) := by
  rw [List.mapM_cons, h]
  cases as.mapM f <;> rfl

theorem mapM_cons_error (h : f a = .error e) : (a :: as).mapM f = .error e := by
  rw [List.mapM_cons, h]
  rfl

theorem forall₂_of_mapM (h : as.mapM f = .ok bs) :
    List.Forall₂ (fun b a => f a = .ok b) bs as := by
  induction as generalizing bs with
  | nil =>
    cases h
    exact .nil
  | cons a as ih =>
    cases ha : f a with
    | error e =>
      rw [mapM_cons_error ha] at h
      cases h
    | ok b =>
      rw [mapM_cons_ok ha] at h
      obtain ⟨bs', hall, rfl⟩ := map_eq_ok h
      exact .cons ha (ih hall)

/-- Where the loop does not end with a failure, another loop that goes as far does the same. -/
theorem mapM_congr (h : ∀ a ∈ as, f a ≠ .error e → g a = f a) (hall : as.mapM f ≠ .error e) :
    as.mapM g = as.mapM f := by
  induction as with
  | nil => rfl
  | cons a as ih =>
    cases ha : f a with
    | error e' =>
      have hne : f a ≠ .error e := by
        rw [ha]
        intro heq
        cases heq
        exact hall (mapM_cons_error ha)
      rw [mapM_cons_error ha, mapM_cons_error ((h a List.mem_cons_self hne).trans ha)]
    | ok b =>
      have hne : f a ≠ .error e := by
        rw [ha]
        intro h
        cases h
      rw [mapM_cons_ok ha] at hall ⊢
      rw [mapM_cons_ok ((h a List.mem_cons_self hne).trans ha),
        ih (fun a ha => h a (List.mem_cons_of_mem _ ha))]
      intro htail
      rw [htail] at hall
      exact hall rfl

/-- A loop that does not end with a failure has not met it behind a start that it passes. -/
theorem ne_error_of_mapM (hfront : ∀ d ∈ front, (∃ b, f d = .ok b) ∨ f d = .error e)
    (h : (front ++ a :: back).mapM f ≠ .error e) : f a ≠ .error e := by
  induction front with
  | nil =>
    intro ha
    exact h (mapM_cons_error ha)
  | cons d front ih =>
    rw [List.cons_append] at h
    rcases hfront d List.mem_cons_self with ⟨b, hd⟩ | hd
    · rw [mapM_cons_ok hd] at h
      refine ih (fun d hd => hfront d (List.mem_cons_of_mem _ hd)) fun htail => h ?_
      rw [htail]
      rfl
    · exact absurd (mapM_cons_error hd) h

end Lists

/-! ## Growth -/

section Growth

variable {step : α → Except ε (β × List α)} {tooDeep : ε} {declares : α → β → List α → Prop}
  {a : α} {t t' : RoseTree β} {ts : List (RoseTree β)} {as seeds : List α} {label : β}

theorem areGrown_iff : AreGrown declares ts as ↔ List.Forall₂ (IsGrown declares) ts as := by
  induction ts generalizing as with
  | nil =>
    rw [AreGrown, List.forall₂_nil_left_iff]
  | cons t ts ih =>
    simp only [AreGrown, ih, List.forall₂_cons_left_iff]
    constructor
    · rintro ⟨a, rest, rfl, h, hall⟩
      exact ⟨a, rest, h, hall, rfl⟩
    · rintro ⟨a, rest, h, hall, rfl⟩
      exact ⟨a, rest, rfl, h, hall⟩

theorem grow_error {e : ε} (h : step a = .error e) (depth : Nat) :
    grow step tooDeep (depth + 1) a = .error e := by
  rw [grow, h]
  rfl

theorem grow_ok (h : step a = .ok (label, seeds)) (depth : Nat) :
    grow step tooDeep (depth + 1) a =
      (seeds.mapM (grow step tooDeep depth)).map (node label) := by
  rw [grow, h]
  change (seeds.mapM (grow step tooDeep depth) >>= fun children => .ok (node label children)) = _
  cases seeds.mapM (grow step tooDeep depth) <;> rfl

theorem grow_ne_of_mapM (h : step a = .ok (label, seeds)) {depth : Nat}
    (hne : grow step tooDeep (depth + 1) a ≠ .error tooDeep) :
    seeds.mapM (grow step tooDeep depth) ≠ .error tooDeep := by
  intro hall
  rw [grow_ok h, hall] at hne
  exact hne rfl

/-- With more depth the same comes of it. -/
theorem grow_mono {n m : Nat} (hle : n ≤ m) (h : grow step tooDeep n a ≠ .error tooDeep) :
    grow step tooDeep m a = grow step tooDeep n a := by
  induction n generalizing a m with
  | zero => exact absurd rfl h
  | succ n ih =>
    obtain ⟨m, rfl⟩ : ∃ k, m = k + 1 := Nat.exists_eq_add_of_le' (Nat.one_le_of_lt hle)
    cases hstep : step a with
    | error e => rw [grow_error hstep, grow_error hstep]
    | ok p =>
      obtain ⟨label, seeds⟩ := p
      rw [grow_ok hstep, grow_ok hstep]
      exact congrArg _ (mapM_congr (fun c _ hc => ih (Nat.le_of_succ_le_succ hle) hc)
        (grow_ne_of_mapM hstep h))

/-- What fails is too deep, or a seed fails. -/
theorem grow_fails {e : ε} {n : Nat} (h : grow step tooDeep n a = .error e) :
    e = tooDeep ∨ ∃ c, step c = .error e := by
  induction n generalizing a with
  | zero =>
    cases h
    exact Or.inl rfl
  | succ n ih =>
    cases hstep : step a with
    | error e' =>
      rw [grow_error hstep] at h
      cases h
      exact Or.inr ⟨a, hstep⟩
    | ok p =>
      obtain ⟨label, seeds⟩ := p
      rw [grow_ok hstep] at h
      have hall := map_eq_error h
      clear h hstep
      induction seeds with
      | nil => cases hall
      | cons c seeds ihs =>
        cases hc : grow step tooDeep n c with
        | error e' =>
          rw [mapM_cons_error hc] at hall
          cases hall
          exact ih hc
        | ok t =>
          rw [mapM_cons_ok hc] at hall
          exact ihs (map_eq_error hall)

mutual

theorem grow_of_isGrown
    (hstep : ∀ a label seeds, step a = .ok (label, seeds) ↔ declares a label seeds) :
    ∀ (t : RoseTree β) (a : α), IsGrown declares t a →
      ∃ n, ∀ m, n ≤ m → grow step tooDeep m a = .ok t
  | .node label children, a, h => by
    rw [IsGrown] at h
    obtain ⟨seeds, hdeclares, hall⟩ := h
    obtain ⟨n, hn⟩ := mapM_grow_of_areGrown hstep children seeds hall
    refine ⟨n + 1, fun m hm => ?_⟩
    obtain ⟨m, rfl⟩ : ∃ k, m = k + 1 := Nat.exists_eq_add_of_le' (Nat.one_le_of_lt hm)
    rw [grow_ok ((hstep a label seeds).mpr hdeclares), hn m (Nat.le_of_succ_le_succ hm)]
    rfl

theorem mapM_grow_of_areGrown
    (hstep : ∀ a label seeds, step a = .ok (label, seeds) ↔ declares a label seeds) :
    ∀ (ts : List (RoseTree β)) (as : List α), AreGrown declares ts as →
      ∃ n, ∀ m, n ≤ m → as.mapM (grow step tooDeep m) = .ok ts
  | [], as, h => by
    rw [AreGrown] at h
    subst h
    exact ⟨0, fun m _ => rfl⟩
  | t :: ts, as, h => by
    rw [AreGrown] at h
    obtain ⟨a, rest, rfl, ha, hall⟩ := h
    obtain ⟨n, hn⟩ := grow_of_isGrown hstep t a ha
    obtain ⟨n', hn'⟩ := mapM_grow_of_areGrown hstep ts rest hall
    refine ⟨max n n', fun m hm => ?_⟩
    rw [mapM_cons_ok (hn m (Nat.le_trans (Nat.le_max_left n n') hm)),
      hn' m (Nat.le_trans (Nat.le_max_right n n') hm)]
    rfl

end

variable (hstep : ∀ a label seeds, step a = .ok (label, seeds) ↔ declares a label seeds)

include hstep

theorem isGrown_of_grow {n : Nat} (h : grow step tooDeep n a = .ok t) : IsGrown declares t a := by
  induction n generalizing a t with
  | zero => cases h
  | succ n ih =>
    cases ha : step a with
    | error e =>
      rw [grow_error ha] at h
      cases h
    | ok p =>
      obtain ⟨label, seeds⟩ := p
      rw [grow_ok ha] at h
      obtain ⟨ts, hall, rfl⟩ := map_eq_ok h
      rw [IsGrown]
      refine ⟨seeds, (hstep a label seeds).mp ha, areGrown_iff.mpr ?_⟩
      exact (forall₂_of_mapM hall).imp fun t c hc => ih hc

theorem isGrown_unique (tooDeep : ε) (h : IsGrown declares t a) (h' : IsGrown declares t' a) :
    t = t' := by
  have hgrow : ∀ u, IsGrown declares u a →
      ∃ n, ∀ m, n ≤ m → grow step tooDeep m a = .ok u := fun u => grow_of_isGrown hstep u a
  obtain ⟨n, hn⟩ := hgrow t h
  obtain ⟨n', hn'⟩ := hgrow t' h'
  have heq := (hn _ (Nat.le_max_left n n')).symm.trans (hn' _ (Nat.le_max_right n n'))
  cases heq
  rfl

/-- What can be grown is grown, or it is too deep. -/
theorem grow_of_reached (h : IsGrown declares t a) (n : Nat) :
    (∃ t, grow step tooDeep n a = .ok t) ∨ grow step tooDeep n a = .error tooDeep := by
  by_cases hne : grow step tooDeep n a = .error tooDeep
  · exact Or.inr hne
  · obtain ⟨m, hm⟩ := grow_of_isGrown hstep t a h
    have heq := grow_mono (Nat.le_max_left n m) hne
    rw [hm _ (Nat.le_max_right n m)] at heq
    exact Or.inl ⟨t, heq.symm⟩

/-- The growth ends if and only if no chain of seeds that it comes to is endless. -/
theorem acc_iff (htooDeep : ∀ a, step a ≠ .error tooDeep) : Acc (Reaches declares) a ↔
    ∃ n r, r ≠ .error tooDeep ∧ ∀ m, n ≤ m → grow step tooDeep m a = r := by
  constructor
  · intro h
    induction h with
    | intro a _ ih =>
      cases ha : step a with
      | error e =>
        refine ⟨1, .error e, ?_, fun m hm => ?_⟩
        · intro heq
          cases heq
          exact htooDeep a ha
        · obtain ⟨m, rfl⟩ : ∃ k, m = k + 1 := Nat.exists_eq_add_of_le' hm
          exact grow_error ha m
      | ok p =>
        obtain ⟨label, seeds⟩ := p
        -- The seeds are taken one after the other, behind those that have become trees.
        have hseeds : ∀ back front, seeds = front ++ back →
            (∀ d ∈ front, ∃ t, IsGrown declares t d) →
            ∃ n r, r ≠ .error tooDeep ∧ ∀ m, n ≤ m → back.mapM (grow step tooDeep m) = r := by
          intro back
          induction back with
          | nil =>
            intro front _ _
            refine ⟨0, .ok [], ?_, fun m _ => rfl⟩
            intro heq
            cases heq
          | cons c back ihback =>
            intro front hfront hgrown
            have hreached : Reaches declares c a :=
              ⟨label, front, back, (hstep a label _).mp (hfront ▸ ha), hgrown⟩
            obtain ⟨n, r, hne, hr⟩ := ih c hreached
            cases r with
            | error e =>
              refine ⟨n, .error e, ?_, fun m hm => mapM_cons_error (hr m hm)⟩
              intro heq
              cases heq
              exact hne rfl
            | ok t =>
              have hgrown' : ∀ d ∈ front ++ [c], ∃ t, IsGrown declares t d := by
                intro d hd
                rcases List.mem_append.mp hd with hd | hd
                · exact hgrown d hd
                · rw [List.mem_singleton.mp hd]
                  exact ⟨t, isGrown_of_grow hstep (hr n (Nat.le_refl n))⟩
              obtain ⟨n', r', hne', hr'⟩ := ihback (front ++ [c])
                (by rw [hfront, List.append_assoc]; rfl) hgrown'
              refine ⟨max n n', r'.map (t :: ·), ?_, fun m hm => ?_⟩
              · intro heq
                exact hne' (map_eq_error heq)
              · rw [mapM_cons_ok (hr m (Nat.le_trans (Nat.le_max_left n n') hm)),
                  hr' m (Nat.le_trans (Nat.le_max_right n n') hm)]
        obtain ⟨n, r, hne, hr⟩ := hseeds seeds [] rfl fun d hd => nomatch hd
        refine ⟨n + 1, r.map (node label), ?_, fun m hm => ?_⟩
        · intro heq
          exact hne (map_eq_error heq)
        · obtain ⟨m, rfl⟩ : ∃ k, m = k + 1 := Nat.exists_eq_add_of_le' (Nat.one_le_of_lt hm)
          rw [grow_ok ha, hr m (Nat.le_of_succ_le_succ hm)]
  · rintro ⟨n, r, hne, hr⟩
    have hgrow : grow step tooDeep n a ≠ .error tooDeep := by
      rw [hr n (Nat.le_refl n)]
      exact hne
    clear hr hne
    induction n generalizing a with
    | zero => exact absurd rfl hgrow
    | succ n ih =>
      refine Acc.intro a fun c hc => ih ?_
      obtain ⟨label, front, back, hdeclares, hfront⟩ := hc
      have hall := grow_ne_of_mapM ((hstep a label _).mpr hdeclares) hgrow
      refine ne_error_of_mapM (fun d hd => ?_) hall
      obtain ⟨t, ht⟩ := hfront d hd
      exact grow_of_reached hstep ht n

end Growth

end RoseTree
