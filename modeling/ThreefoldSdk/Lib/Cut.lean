import Mathlib

/-! Lists cut at the occurrences of a separator that may be longer than one element. -/

namespace Cut

variable {α : Type*} [DecidableEq α]

/-- What stands before the first occurrence of the separator, and what stands behind it. -/
def cut (sep : List α) : List α → Option (List α × List α)
  | [] => none
  | a :: s =>
    if sep <+: a :: s then some ([], (a :: s).drop sep.length)
    else (cut sep s).map fun p => (a :: p.1, p.2)

/-- The pieces between the occurrences of the separator, at most `n` cuts. -/
def splitN (sep : List α) : Nat → List α → List (List α)
  | 0, s => [s]
  | n + 1, s =>
    match cut sep s with
    | none => [s]
    | some (piece, rest) => piece :: splitN sep n rest

def split (sep s : List α) : List (List α) := splitN sep s.length s

/-- What stands before the first occurrence of the separator; all of the list when there is none. -/
def before (sep s : List α) : List α := ((cut sep s).map Prod.fst).getD s

omit [DecidableEq α] in
/-- The first occurrence of an element splits a list in one way. -/
theorem append_cons_inj {a : α} {x y z w : List α} (hx : a ∉ x) (hy : a ∉ y)
    (h : x ++ a :: z = y ++ a :: w) : x = y ∧ z = w := by
  induction x generalizing y with
  | nil =>
    cases y with
    | nil => exact ⟨rfl, (List.cons_eq_cons.mp h).2⟩
    | cons b y => exact absurd ((List.cons_eq_cons.mp h).1 ▸ List.mem_cons_self) hy
  | cons b x ih =>
    cases y with
    | nil => exact absurd ((List.cons_eq_cons.mp h).1 ▸ List.mem_cons_self) hx
    | cons c y =>
      obtain ⟨rfl, hrest⟩ := List.cons_eq_cons.mp h
      obtain ⟨rfl, hzw⟩ := ih (fun hin => hx (List.mem_cons_of_mem _ hin))
        (fun hin => hy (List.mem_cons_of_mem _ hin)) hrest
      exact ⟨rfl, hzw⟩

variable {sep s : List α}

theorem append_of_cut {b r : List α} (h : cut sep s = some (b, r)) : s = b ++ sep ++ r := by
  induction s generalizing b with
  | nil => cases h
  | cons a s ih =>
    unfold cut at h
    split at h
    · rename_i hstart
      cases h
      obtain ⟨t, ht⟩ := hstart
      rw [← ht, List.drop_left, List.nil_append]
    · obtain ⟨⟨b', r'⟩, hcut, heq⟩ := Option.map_eq_some_iff.mp h
      cases heq
      rw [ih hcut]
      rfl

/-- No occurrence begins before the first one. -/
theorem length_le_of_cut {b r : List α} (h : cut sep s = some (b, r)) {b' r' : List α}
    (hocc : s = b' ++ sep ++ r') : b.length ≤ b'.length := by
  induction s generalizing b b' with
  | nil => cases h
  | cons a s ih =>
    unfold cut at h
    split at h
    · cases h
      exact Nat.zero_le _
    · rename_i hstart
      obtain ⟨⟨b₁, r₁⟩, hcut, heq⟩ := Option.map_eq_some_iff.mp h
      cases heq
      cases b' with
      | nil => exact absurd ⟨r', hocc.symm⟩ hstart
      | cons a' b' =>
        apply Nat.succ_le_succ
        exact ih hcut (List.cons_eq_cons.mp hocc).2

theorem not_infix_of_cut (hsep : sep ≠ []) (h : cut sep s = none) : ¬ sep <:+: s := by
  induction s with
  | nil =>
    intro hin
    exact hsep (List.infix_nil.mp hin)
  | cons a s ih =>
    unfold cut at h
    split at h
    · cases h
    · rename_i hstart
      intro hin
      rcases List.infix_cons_iff.mp hin with hin | hin
      · exact hstart hin
      · exact ih (Option.map_eq_none_iff.mp h) hin

theorem before_prefix (sep s : List α) : before sep s <+: s := by
  unfold before
  cases h : cut sep s with
  | none => exact List.prefix_refl s
  | some p =>
    rw [append_of_cut h, List.append_assoc]
    exact List.prefix_append _ _

/-- The list up to the first occurrence has at least the first `n` elements exactly when no
occurrence begins in them. -/
theorem le_length_before_iff (hsep : sep ≠ []) {n : Nat} (hn : n ≤ s.length) :
    n ≤ (before sep s).length ↔ ∀ b r, s = b ++ sep ++ r → n ≤ b.length := by
  unfold before
  cases h : cut sep s with
  | none =>
    refine iff_of_true hn fun b r hocc => absurd ?_ (not_infix_of_cut hsep h)
    exact ⟨b, r, hocc.symm⟩
  | some p =>
    constructor
    · intro hle b r hocc
      exact hle.trans (length_le_of_cut h hocc)
    · intro hall
      exact hall _ _ (append_of_cut h)

theorem head_splitN (sep : List α) (n : Nat) (s : List α) (hn : n = 0 → s = []) :
    (splitN sep n s)[0]? = some (before sep s) := by
  cases n with
  | zero =>
    rw [hn rfl]
    rfl
  | succ n =>
    unfold splitN before
    cases cut sep s with
    | none => rfl
    | some p => rfl

/-- The second piece of a list that begins with the separator. -/
theorem second_split (hsep : sep ≠ []) (rest : List α) :
    (split sep (sep ++ rest))[1]? = some (before sep rest) := by
  obtain ⟨a, sep, rfl⟩ := List.exists_cons_of_ne_nil hsep
  have hcut : cut (a :: sep) (a :: sep ++ rest) = some ([], rest) := by
    rw [List.cons_append, cut, if_pos ⟨rest, rfl⟩, ← List.cons_append, List.drop_left]
  have hsplit : split (a :: sep) (a :: sep ++ rest) =
      [] :: splitN (a :: sep) (sep.length + rest.length) rest := by
    have hlength : (a :: sep ++ rest).length = (sep.length + rest.length) + 1 := by
      simp only [List.length_append, List.length_cons]
      omega
    rw [split, hlength, splitN, hcut]
  rw [hsplit]
  apply head_splitN
  intro hzero
  exact List.length_eq_zero_iff.mp (by omega)

theorem split_of_not_infix (h : ¬ sep <:+: s) : split sep s = [s] := by
  have hcut : cut sep s = none := by
    cases hcut : cut sep s with
    | none => rfl
    | some p => exact absurd ⟨_, _, (append_of_cut hcut).symm⟩ h
  unfold split
  cases s.length with
  | zero => rfl
  | succ n => rw [splitN, hcut]

/-- No piece contains the separator, when there are cuts enough. -/
theorem not_infix_of_mem_splitN (hsep : sep ≠ []) {n : ℕ} (hn : s.length ≤ n) {piece : List α}
    (hpiece : piece ∈ splitN sep n s) : ¬ sep <:+: piece := by
  induction n generalizing s with
  | zero =>
    have hnil : s = [] := List.length_eq_zero_iff.mp (Nat.le_zero.mp hn)
    have hpiece' : piece = [] := by simpa [splitN, hnil] using hpiece
    rw [hpiece']
    exact fun hin => hsep (List.infix_nil.mp hin)
  | succ n ih =>
    unfold splitN at hpiece
    split at hpiece
    · rename_i hcut
      rw [List.mem_singleton.mp hpiece]
      exact not_infix_of_cut hsep hcut
    · rename_i b rest hcut
      have happend := append_of_cut hcut
      have hpos := List.length_pos_iff.mpr hsep
      have hlength := congrArg List.length happend
      simp only [List.length_append] at hlength
      rcases List.mem_cons.mp hpiece with heq | hpiece
      · -- an occurrence in the first piece would begin before the first one
        intro hin
        rw [heq] at hin
        obtain ⟨u, w, hocc⟩ := hin
        have hearly : s = u ++ sep ++ (w ++ sep ++ rest) := by
          rw [happend, ← hocc]
          simp only [List.append_assoc]
        have hbefore := length_le_of_cut hcut hearly
        have hlonger := congrArg List.length hocc
        simp only [List.length_append] at hlonger
        omega
      · exact ih (by omega) hpiece

end Cut
