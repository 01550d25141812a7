import Mathlib

/-! Two lists related entry by entry. -/

namespace Forall2

variable {α β : Type*} {R R' : α → β → Prop} {xs xs' : List α} {ys zs : List β}

theorem imp_mem (h : List.Forall₂ R xs ys) (himp : ∀ x ∈ xs, ∀ y, R x y → R' x y) :
    List.Forall₂ R' xs ys := by
  induction h with
  | nil => exact .nil
  | cons hxy _ ih =>
    exact .cons (himp _ List.mem_cons_self _ hxy)
      (ih fun x hx => himp x (List.mem_cons_of_mem _ hx))

theorem exists_left (h : List.Forall₂ R xs ys) {y : β} (hy : y ∈ ys) : ∃ x ∈ xs, R x y := by
  induction h with
  | nil => simp at hy
  | cons hxy _ ih =>
    rcases List.mem_cons.mp hy with rfl | hy
    · exact ⟨_, List.mem_cons_self, hxy⟩
    · obtain ⟨x, hx, hr⟩ := ih hy
      exact ⟨x, List.mem_cons_of_mem _ hx, hr⟩

theorem exists_right (h : List.Forall₂ R xs ys) {x : α} (hx : x ∈ xs) : ∃ y ∈ ys, R x y :=
  exists_left h.flip hx

theorem exists_of_forall (h : ∀ x ∈ xs, ∃ y, R x y) : ∃ ys, List.Forall₂ R xs ys := by
  induction xs with
  | nil => exact ⟨[], .nil⟩
  | cons x xs ih =>
    obtain ⟨y, hxy⟩ := h x List.mem_cons_self
    obtain ⟨ys, hrest⟩ := ih fun z hz => h z (List.mem_cons_of_mem _ hz)
    exact ⟨y :: ys, .cons hxy hrest⟩

theorem trans {γ : Type*} {S : β → γ → Prop} {T : α → γ → Prop} {ws : List γ}
    (h : List.Forall₂ R xs ys) (h' : List.Forall₂ S ys ws) (hT : ∀ x y w, R x y → S y w → T x w) :
    List.Forall₂ T xs ws := by
  induction h generalizing ws with
  | nil =>
    rw [List.forall₂_nil_left_iff.mp h']
    exact .nil
  | cons hxy _ ih =>
    obtain ⟨w, ws', hyw, hrest, rfl⟩ := List.forall₂_cons_left_iff.mp h'
    exact .cons (hT _ _ _ hxy hyw) (ih hrest)

/-- What is related to a concatenation is one. -/
theorem split_append (h : List.Forall₂ R (xs ++ xs') zs) :
    ∃ ys ys', zs = ys ++ ys' ∧ List.Forall₂ R xs ys ∧ List.Forall₂ R xs' ys' := by
  induction xs generalizing zs with
  | nil => exact ⟨[], zs, rfl, .nil, h⟩
  | cons x xs ih =>
    obtain ⟨y, zs', hxy, hrest, rfl⟩ := List.forall₂_cons_left_iff.mp h
    obtain ⟨ys, ys', rfl, hys, hys'⟩ := ih hrest
    exact ⟨y :: ys, ys', rfl, .cons hxy hys, hys'⟩

theorem countP_eq {p : α → Bool} {q : β → Bool} (h : List.Forall₂ R xs ys)
    (hq : ∀ x ∈ xs, ∀ y, R x y → q y = p x) : ys.countP q = xs.countP p := by
  induction h with
  | nil => rfl
  | @cons x y xs ys hxy _ ih =>
    rw [List.countP_cons, List.countP_cons, hq x List.mem_cons_self y hxy,
      ih fun z hz => hq z (List.mem_cons_of_mem _ hz)]

/-- A value that the relation keeps is the same on both sides. -/
theorem map_eq {γ : Type*} {f : α → γ} {g : β → γ} (h : List.Forall₂ R xs ys)
    (hfg : ∀ x y, R x y → g y = f x) : ys.map g = xs.map f := by
  induction h with
  | nil => rfl
  | cons hxy _ ih => rw [List.map_cons, List.map_cons, hfg _ _ hxy, ih]

end Forall2
