import Mathlib

/-! Runs of a machine that takes one step for each input: what holds in all their states. -/

namespace Runs

variable {σ α : Type*} {step : σ → α → σ} {Inv : σ → Prop} {Meets : σ → α → Prop}

/-- Every state of the run over `l` from `s` has the property. -/
def Always (step : σ → α → σ) (Inv : σ → Prop) (s : σ) (l : List α) : Prop :=
  ∀ initial, initial <+: l → Inv (initial.foldl step s)

/-- Every step of the run is taken in a state in which its input meets the condition. -/
def EachMeets (step : σ → α → σ) (Meets : σ → α → Prop) (s : σ) (l : List α) : Prop :=
  ∀ initial a, initial ++ [a] <+: l → Meets (initial.foldl step s) a

theorem always_nil {s : σ} : Always step Inv s [] ↔ Inv s := by
  constructor
  · intro h
    exact h [] List.nil_prefix
  · intro h initial hinitial
    rw [List.prefix_nil.mp hinitial]
    exact h

theorem always_cons {s : σ} {a : α} {l : List α} :
    Always step Inv s (a :: l) ↔ Inv s ∧ Always step Inv (step s a) l := by
  constructor
  · intro h
    refine ⟨h [] List.nil_prefix, fun initial hinitial => ?_⟩
    exact h (a :: initial) (List.cons_prefix_cons.mpr ⟨rfl, hinitial⟩)
  · rintro ⟨hs, h⟩ initial hinitial
    cases initial with
    | nil => exact hs
    | cons b initial =>
      obtain ⟨rfl, hrest⟩ := List.cons_prefix_cons.mp hinitial
      exact h initial hrest

theorem eachMeets_nil {s : σ} : EachMeets step Meets s [] := by
  intro initial a h
  have hnil := List.prefix_nil.mp h
  simp at hnil

theorem eachMeets_cons {s : σ} {a : α} {l : List α} :
    EachMeets step Meets s (a :: l) ↔ Meets s a ∧ EachMeets step Meets (step s a) l := by
  constructor
  · intro h
    refine ⟨h [] a (List.cons_prefix_cons.mpr ⟨rfl, List.nil_prefix⟩), fun initial b hb => ?_⟩
    exact h (a :: initial) b (List.cons_prefix_cons.mpr ⟨rfl, hb⟩)
  · rintro ⟨ha, h⟩ initial b hb
    cases initial with
    | nil =>
      obtain ⟨rfl, -⟩ := List.cons_prefix_cons.mp hb
      exact ha
    | cons c initial =>
      obtain ⟨rfl, hrest⟩ := List.cons_prefix_cons.mp hb
      exact h initial b hrest

/-- Where a step keeps the invariant exactly on a condition, and always what this rests on, all
states of a run have the invariant exactly when all its steps meet the condition. -/
theorem always_iff_eachMeets {P : σ → Prop} (hP : ∀ s a, P s → Inv s → P (step s a))
    (hstep : ∀ s a, P s → Inv s → (Inv (step s a) ↔ Meets s a)) {s : σ} (hs : P s) (h : Inv s)
    (l : List α) : Always step Inv s l ↔ EachMeets step Meets s l := by
  induction l generalizing s with
  | nil => exact ⟨fun _ => eachMeets_nil, fun _ => always_nil.mpr h⟩
  | cons a l ih =>
    rw [always_cons, eachMeets_cons]
    constructor
    · rintro ⟨-, hrest⟩
      have ha : Inv (step s a) := hrest [] List.nil_prefix
      exact ⟨(hstep s a hs h).mp ha, (ih (hP s a hs h) ha).mp hrest⟩
    · rintro ⟨hmeets, hrest⟩
      exact ⟨h, (ih (hP s a hs h) ((hstep s a hs h).mpr hmeets)).mpr hrest⟩

/-- A property that steps keep when they meet the condition holds all along a run of such steps. -/
theorem always_of_eachMeets (hstep : ∀ s a, Inv s → Meets s a → Inv (step s a)) {s : σ} (h : Inv s)
    {l : List α} (hl : EachMeets step Meets s l) : Always step Inv s l := by
  induction l generalizing s with
  | nil => exact always_nil.mpr h
  | cons a l ih =>
    obtain ⟨hmeets, hrest⟩ := eachMeets_cons.mp hl
    exact always_cons.mpr ⟨h, ih (hstep s a h hmeets) hrest⟩

/-- Where a property that is lost does not come back, the last state of a run decides. -/
theorem last_iff_eachMeets (hstep : ∀ s a, Inv s → (Inv (step s a) ↔ Meets s a))
    (hlost : ∀ s a, ¬Inv s → ¬Inv (step s a)) {s : σ} (h : Inv s) (l : List α) :
    Inv (l.foldl step s) ↔ EachMeets step Meets s l := by
  have hgone : ∀ (l : List α) (s : σ), ¬Inv s → ¬Inv (l.foldl step s) := by
    intro l
    induction l with
    | nil => exact fun s hs => hs
    | cons a l ih => exact fun s hs => ih _ (hlost s a hs)
  induction l generalizing s with
  | nil => exact iff_of_true h eachMeets_nil
  | cons a l ih =>
    rw [eachMeets_cons, ← hstep s a h]
    show Inv (l.foldl step (step s a)) ↔ _
    by_cases hnext : Inv (step s a)
    · have hrest := ih hnext
      exact ⟨fun hlast => ⟨hnext, hrest.mp hlast⟩, fun hboth => hrest.mpr hboth.2⟩
    · exact iff_of_false (hgone l _ hnext) fun hboth => hnext hboth.1

/-- What every step of a run meets depends on the states only that the run goes through, as long as
its steps meet it. -/
theorem eachMeets_congr {P : σ → Prop} {Meets' : σ → α → Prop}
    (hP : ∀ s a, P s → Meets s a → P (step s a))
    (h : ∀ s a, P s → (Meets s a ↔ Meets' s a)) {s : σ} (hs : P s) (l : List α) :
    EachMeets step Meets s l ↔ EachMeets step Meets' s l := by
  induction l generalizing s with
  | nil => exact iff_of_true eachMeets_nil eachMeets_nil
  | cons a l ih =>
    rw [eachMeets_cons, eachMeets_cons, ← h s a hs]
    exact and_congr_right fun ha => ih (hP s a hs ha)

end Runs
