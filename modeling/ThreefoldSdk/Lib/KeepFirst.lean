import Mathlib

/-! A list that keeps the first element of each key: elements are put at its end unless their key is
in it already. -/

universe u v

namespace KeepFirst
variable {α : Type u} {κ : Type v} [DecidableEq κ] (key : α → κ)

def insertNew (old : List α) (x : α) : List α :=
  if key x ∈ old.map key then old else old ++ [x]

def insertAll (old xs : List α) : List α := xs.foldl (insertNew key) old

/-- How many of the elements are not put in. -/
def repeats (old : List α) : List α → ℕ
  | [] => 0
  | x :: xs => (if key x ∈ old.map key then 1 else 0) + repeats (insertNew key old x) xs

variable {key} {old xs ys : List α} {x : α} {k : κ}

theorem insertAll_cons : insertAll key old (x :: xs) = insertAll key (insertNew key old x) xs := rfl

theorem insertAll_append :
    insertAll key old (xs ++ ys) = insertAll key (insertAll key old xs) ys :=
  List.foldl_append

theorem mem_keys_insertNew : k ∈ (insertNew key old x).map key ↔ k ∈ old.map key ∨ k = key x := by
  unfold insertNew
  split_ifs with h
  · exact (or_iff_left_of_imp fun hk => hk ▸ h).symm
  · rw [List.map_append, List.mem_append, List.map_singleton, List.mem_singleton]

theorem mem_keys_insertAll :
    k ∈ (insertAll key old xs).map key ↔ k ∈ old.map key ∨ k ∈ xs.map key := by
  induction xs generalizing old with
  | nil => exact (or_iff_left List.not_mem_nil).symm
  | cons x xs ih =>
    rw [insertAll_cons, ih, mem_keys_insertNew, or_assoc, List.map_cons, List.mem_cons]

theorem nodup_insertNew (h : (old.map key).Nodup) : ((insertNew key old x).map key).Nodup := by
  unfold insertNew
  split_ifs with hin
  · exact h
  · rw [List.map_append, List.map_singleton, ← List.concat_eq_append]
    exact h.concat hin

theorem nodup_insertAll (h : (old.map key).Nodup) : ((insertAll key old xs).map key).Nodup := by
  induction xs generalizing old with
  | nil => exact h
  | cons x xs ih => exact ih (nodup_insertNew h)

/-- Under each key there is the first element of that key. -/
theorem find_insertNew (k : κ) :
    (insertNew key old x).find? (fun y => decide (key y = k)) =
      (old ++ [x]).find? fun y => decide (key y = k) := by
  unfold insertNew
  split_ifs with hin
  · rw [List.find?_append]
    cases hfind : old.find? fun y => decide (key y = k) with
    | some y => rfl
    | none =>
      rw [Option.none_or, eq_comm, List.find?_eq_none]
      intro y hy hyk
      obtain ⟨z, hz, hzx⟩ := List.mem_map.mp hin
      refine List.find?_eq_none.mp hfind z hz (decide_eq_true ?_)
      rw [hzx, ← List.mem_singleton.mp hy]
      exact of_decide_eq_true hyk
  · rfl

theorem find_insertAll (k : κ) :
    (insertAll key old xs).find? (fun y => decide (key y = k)) =
      (old ++ xs).find? fun y => decide (key y = k) := by
  induction xs generalizing old with
  | nil => rw [List.append_nil]; rfl
  | cons x xs ih =>
    rw [insertAll_cons, ih, List.find?_append, find_insertNew, ← List.find?_append,
      List.append_assoc, List.singleton_append]

theorem length_insertNew :
    (insertNew key old x).length + (if key x ∈ old.map key then 1 else 0) = old.length + 1 := by
  unfold insertNew
  split_ifs
  · rfl
  · rw [List.length_append, List.length_singleton, add_zero]

theorem length_insertAll :
    (insertAll key old xs).length + repeats key old xs = old.length + xs.length := by
  induction xs generalizing old with
  | nil => rfl
  | cons x xs ih =>
    have hone : (insertNew key old x).length + (if key x ∈ old.map key then 1 else 0) =
        old.length + 1 := length_insertNew
    have hrest : (insertAll key (insertNew key old x) xs).length +
        repeats key (insertNew key old x) xs = (insertNew key old x).length + xs.length := ih
    rw [insertAll_cons, repeats, List.length_cons]
    omega

/-- All are put in exactly when their keys are new and distinct. -/
theorem repeats_eq_zero_iff :
    repeats key old xs = 0 ↔ (xs.map key).Nodup ∧ ∀ x ∈ xs, key x ∉ old.map key := by
  induction xs generalizing old with
  | nil => exact iff_of_true rfl ⟨List.nodup_nil, fun x hx => absurd hx List.not_mem_nil⟩
  | cons x xs ih =>
    rw [repeats, Nat.add_eq_zero_iff, ih, List.map_cons, List.nodup_cons, List.forall_mem_cons]
    have hfirst : (if key x ∈ old.map key then 1 else 0) = 0 ↔ key x ∉ old.map key := by
      by_cases h : key x ∈ old.map key
      · rw [if_pos h]
        exact iff_of_false Nat.one_ne_zero (not_not.mpr h)
      · rw [if_neg h]
        exact iff_of_true rfl h
    have hrest : (∀ y ∈ xs, key y ∉ (insertNew key old x).map key) ↔
        (∀ y ∈ xs, key y ∉ old.map key) ∧ key x ∉ xs.map key := by
      constructor
      · intro hnew
        refine ⟨fun y hy hold => hnew y hy (mem_keys_insertNew.mpr (Or.inl hold)), fun hin => ?_⟩
        obtain ⟨y, hy, hkey⟩ := List.mem_map.mp hin
        exact hnew y hy (mem_keys_insertNew.mpr (Or.inr hkey))
      · rintro ⟨hold, hin⟩ y hy hnew
        rcases mem_keys_insertNew.mp hnew with hnew | hnew
        · exact hold y hy hnew
        · exact hin (hnew ▸ List.mem_map_of_mem hy)
    rw [hfirst, hrest]
    tauto

end KeepFirst
