import Mathlib

/-! Lists laid end to end with nothing between them: as many pieces, all but at most one of them of
the same length, are fixed by the whole. -/

namespace Pieces

variable {α : Type*}

/-- How many corresponding pieces have different lengths. -/
def shifts : List (List α) → List (List α) → ℕ
  | x :: xs, y :: ys => (if x.length = y.length then 0 else 1) + shifts xs ys
  | _, _ => 0

theorem shifts_self (xs : List (List α)) : shifts xs xs = 0 := by
  induction xs with
  | nil => rfl
  | cons x xs ih => rw [shifts, if_pos rfl, ih]

theorem length_flatten_eq {xs ys : List (List α)} (hlength : xs.length = ys.length)
    (h : shifts xs ys = 0) : xs.flatten.length = ys.flatten.length := by
  induction xs generalizing ys with
  | nil =>
    rw [List.length_eq_zero_iff.mp hlength.symm]
  | cons x xs ih =>
    cases ys with
    | nil => cases hlength
    | cons y ys =>
      rw [shifts, Nat.add_eq_zero_iff] at h
      have hx : x.length = y.length := by
        by_contra hne
        rw [if_neg hne] at h
        exact absurd h.1 one_ne_zero
      rw [List.flatten_cons, List.flatten_cons, List.length_append, List.length_append, hx,
        ih (Nat.succ.inj hlength) h.2]

/-- One displaced boundary cannot be made up for elsewhere. -/
theorem eq_of_flatten_eq {xs ys : List (List α)} (hlength : xs.length = ys.length)
    (h : shifts xs ys ≤ 1) (hflat : xs.flatten = ys.flatten) : xs = ys := by
  induction xs generalizing ys with
  | nil => rw [List.length_eq_zero_iff.mp hlength.symm]
  | cons x xs ih =>
    cases ys with
    | nil => cases hlength
    | cons y ys =>
      have htails := Nat.succ.inj hlength
      rw [List.flatten_cons, List.flatten_cons] at hflat
      rw [shifts] at h
      by_cases hx : x.length = y.length
      · rw [if_pos hx, Nat.zero_add] at h
        obtain ⟨hhead, hrest⟩ := List.append_inj hflat hx
        rw [hhead, ih htails h hrest]
      · rw [if_neg hx] at h
        have hrest := length_flatten_eq htails (by omega)
        have hwhole := congrArg List.length hflat
        rw [List.length_append, List.length_append] at hwhole
        omega

end Pieces
