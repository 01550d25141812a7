import Mathlib

/-! An index that lags behind, read together with the entries recorded since. -/

namespace Overlay

variable {α κ : Type*} [DecidableEq κ] (key : α → κ) (selects recent : α → Bool)

/-- The entry in the place of the first one with its key. -/
def replace (a : α) : List α → List α
  | [] => []
  | b :: bs => if key b = key a then a :: bs else b :: replace a bs

/-- The entries read, and the recorded ones that stay recorded: one that the index shows is dropped,
unless it is recent and takes the place of what the index shows. -/
def merge : List α → List α → List α × List α
  | entries, [] => (entries, [])
  | entries, a :: recorded =>
    if selects a then
      if entries.any fun b => key b = key a then
        if recent a then
          let r := merge (replace key a entries) recorded
          (r.1, a :: r.2)
        else merge entries recorded
      else
        let r := merge (entries ++ [a]) recorded
        (r.1, a :: r.2)
    else
      let r := merge entries recorded
      (r.1, a :: r.2)

variable {key selects recent}

theorem map_replace (a : α) (entries : List α) :
    (replace key a entries).map key = entries.map key := by
  induction entries with
  | nil => rfl
  | cons b bs ih =>
    unfold replace
    split
    · rename_i h
      rw [List.map_cons, List.map_cons, h]
    · rw [List.map_cons, List.map_cons, ih]

theorem any_key_iff {a : α} {entries : List α} :
    (entries.any fun b => key b = key a) = true ↔ key a ∈ entries.map key := by
  simp only [List.any_eq_true, decide_eq_true_eq, List.mem_map]

/-- The keys read are those of the index and of the selected entries. -/
theorem mem_merge_iff (entries recorded : List α) (k : κ) :
    k ∈ (merge key selects recent entries recorded).1.map key ↔
      k ∈ entries.map key ∨ ∃ a ∈ recorded, selects a = true ∧ key a = k := by
  induction recorded generalizing entries with
  | nil => simp [merge]
  | cons a recorded ih =>
    have hsplit : (∃ b ∈ a :: recorded, selects b = true ∧ key b = k) ↔
        (selects a = true ∧ key a = k) ∨ ∃ b ∈ recorded, selects b = true ∧ key b = k := by
      simp only [List.exists_mem_cons_iff]
    rw [hsplit]
    unfold merge
    split_ifs with hselects hin hrecent
    · change k ∈ (merge key selects recent (replace key a entries) recorded).1.map key ↔ _
      rw [ih, map_replace]
      have hkey := any_key_iff.mp hin
      constructor
      · rintro (h | h)
        · exact Or.inl h
        · exact Or.inr (Or.inr h)
      · rintro (h | ⟨-, rfl⟩ | h)
        · exact Or.inl h
        · exact Or.inl hkey
        · exact Or.inr h
    · rw [ih]
      have hkey := any_key_iff.mp hin
      constructor
      · rintro (h | h)
        · exact Or.inl h
        · exact Or.inr (Or.inr h)
      · rintro (h | ⟨-, rfl⟩ | h)
        · exact Or.inl h
        · exact Or.inl hkey
        · exact Or.inr h
    · change k ∈ (merge key selects recent (entries ++ [a]) recorded).1.map key ↔ _
      rw [ih, List.map_append, List.mem_append, List.map_singleton, List.mem_singleton, or_assoc]
      simp only [hselects, true_and, eq_comm (a := k)]
    · change k ∈ (merge key selects recent entries recorded).1.map key ↔ _
      rw [ih]
      simp only [hselects, Bool.false_eq_true, false_and, false_or]

theorem mem_replace {a b : α} {entries : List α} (h : b ∈ replace key a entries) :
    b ∈ entries ∨ b = a := by
  induction entries with
  | nil => exact Or.inl h
  | cons c cs ih =>
    unfold replace at h
    split at h
    · rcases List.mem_cons.mp h with rfl | h
      · exact Or.inr rfl
      · exact Or.inl (List.mem_cons_of_mem _ h)
    · rcases List.mem_cons.mp h with rfl | h
      · exact Or.inl List.mem_cons_self
      · exact (ih h).imp_left (List.mem_cons_of_mem _)

/-- What is read comes from the index or was recorded. -/
theorem mem_merge {entries recorded : List α} {b : α}
    (h : b ∈ (merge key selects recent entries recorded).1) : b ∈ entries ∨ b ∈ recorded := by
  induction recorded generalizing entries with
  | nil => exact Or.inl h
  | cons a recorded ih =>
    unfold merge at h
    split_ifs at h with hselects hin hrecent
    · rcases @ih (replace key a entries) h with h | h
      · rcases mem_replace h with h | rfl
        · exact Or.inl h
        · exact Or.inr List.mem_cons_self
      · exact Or.inr (List.mem_cons_of_mem _ h)
    · exact (ih h).imp_right (List.mem_cons_of_mem _)
    · rcases @ih (entries ++ [a]) h with h | h
      · rcases List.mem_append.mp h with h | h
        · exact Or.inl h
        · exact Or.inr (List.mem_singleton.mp h ▸ List.mem_cons_self)
      · exact Or.inr (List.mem_cons_of_mem _ h)
    · exact (@ih entries h).imp_right (List.mem_cons_of_mem _)

/-- No key is read twice that the index shows once. -/
theorem nodup_merge {entries : List α} (recorded : List α) (h : (entries.map key).Nodup) :
    ((merge key selects recent entries recorded).1.map key).Nodup := by
  induction recorded generalizing entries with
  | nil => exact h
  | cons a recorded ih =>
    unfold merge
    split_ifs with hselects hin hrecent
    · refine @ih (replace key a entries) ?_
      rw [map_replace]
      exact h
    · exact ih h
    · refine @ih (entries ++ [a]) ?_
      rw [List.map_append, List.map_singleton]
      refine List.nodup_append.mpr ⟨h, List.nodup_singleton _, ?_⟩
      rintro b hb c hc rfl
      rw [List.mem_singleton.mp hc] at hb
      exact hin (any_key_iff.mpr hb)
    · exact ih h

end Overlay
