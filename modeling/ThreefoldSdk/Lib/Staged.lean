import Mathlib

/-! A list of requests worked off in slices. Each slice takes effect as a whole or not at all; the
run stops at the first slice that fails, and what the slices before it did stays done. -/

namespace Staged

section Slices
variable {α : Type*}

/-- Consecutive slices of `k + 1` elements; the last one may be shorter. -/
def slices (k : Nat) : List α → List (List α)
  | [] => []
  | x :: xs => (x :: xs.take k) :: slices k (xs.drop k)
termination_by xs => xs.length
decreasing_by simp only [List.length_drop, List.length_cons]; omega

theorem slices_nil (k : Nat) : slices k ([] : List α) = [] := by rw [slices]

theorem slices_cons (k : Nat) (x : α) (xs : List α) :
    slices k (x :: xs) = (x :: xs.take k) :: slices k (xs.drop k) := by rw [slices]

theorem slices_flatten (k : Nat) (xs : List α) : (slices k xs).flatten = xs := by
  induction xs using slices.induct k with
  | case1 => rw [slices_nil, List.flatten_nil]
  | case2 x xs ih => rw [slices_cons, List.flatten_cons, ih, List.cons_append, List.take_append_drop]

theorem ne_nil_of_mem_slices {k : Nat} {xs b : List α} (hb : b ∈ slices k xs) : b ≠ [] := by
  induction xs using slices.induct k with
  | case1 => simp [slices_nil] at hb
  | case2 x xs ih =>
    rw [slices_cons, List.mem_cons] at hb
    rcases hb with rfl | hb
    · exact List.cons_ne_nil _ _
    · exact ih hb

theorem slices_of_length_le {k : Nat} {xs : List α} (hne : xs ≠ []) (hle : xs.length ≤ k + 1) :
    slices k xs = [xs] := by
  cases xs with
  | nil => exact absurd rfl hne
  | cons x xs =>
    have hk : xs.length ≤ k := Nat.le_of_succ_le_succ hle
    rw [slices_cons, List.take_of_length_le hk, List.drop_of_length_le hk, slices_nil]

theorem slices_append {k : Nat} {xs ys : List α} (h : xs.length = k + 1) :
    slices k (xs ++ ys) = xs :: slices k ys := by
  cases xs with
  | nil => cases h
  | cons x xs =>
    have hk : xs.length = k := Nat.succ.inj h
    rw [List.cons_append, slices_cons, List.take_left' hk, List.drop_left' hk]

theorem take_slices_flatten (k m : Nat) (xs : List α) :
    ((slices k xs).take m).flatten = xs.take (m * (k + 1)) := by
  induction m generalizing xs with
  | zero => simp
  | succ m ih =>
    cases xs with
    | nil => simp [slices_nil]
    | cons x xs =>
      have hcount : (m + 1) * (k + 1) = k + m * (k + 1) + 1 := by
        rw [Nat.add_mul]
        omega
      rw [slices_cons, List.take_succ_cons, List.flatten_cons, ih, hcount, List.take_succ_cons,
        List.cons_append, List.take_add]

end Slices

section Run
variable {α ρ σ ε : Type*}

/-- `done` lists the requests that have taken effect. -/
structure Outcome (α ρ σ ε : Type*) where
  result : Except ε (List ρ)
  state : σ
  done : List α

/-- `step j b s` is the `j`-th slice `b` tried in state `s`. -/
def run (step : Nat → List α → σ → Except ε (List ρ × σ)) :
    Nat → List (List α) → σ → Outcome α ρ σ ε
  | _, [], s => ⟨.ok [], s, []⟩
  | j, b :: bs, s =>
    match step j b s with
    | .error e => ⟨.error e, s, []⟩
    | .ok (rs, s') =>
      let rest := run step (j + 1) bs s'
      ⟨rest.result.map (rs ++ ·), rest.state, b ++ rest.done⟩

variable {step : Nat → List α → σ → Except ε (List ρ × σ)}

theorem run_cons_error {j : Nat} {b : List α} {bs : List (List α)} {s : σ} {e : ε}
    (h : step j b s = .error e) : run step j (b :: bs) s = ⟨.error e, s, []⟩ := by
  simp only [run, h]

theorem run_cons_ok {j : Nat} {b : List α} {bs : List (List α)} {s s' : σ} {rs : List ρ}
    (h : step j b s = .ok (rs, s')) :
    run step j (b :: bs) s =
      ⟨(run step (j + 1) bs s').result.map (rs ++ ·), (run step (j + 1) bs s').state,
        b ++ (run step (j + 1) bs s').done⟩ := by
  simp only [run, h]

/-- A run that starts at the next number is one of the steps that follow. -/
theorem run_succ {j : Nat} {bs : List (List α)} {s : σ} :
    run step (j + 1) bs s = run (fun i => step (i + 1)) j bs s := by
  induction bs generalizing j s with
  | nil => rfl
  | cons b bs ih => simp only [run, ih]

/-- Some slice fails when its turn comes. -/
def Fails (step : Nat → List α → σ → Except ε (List ρ × σ)) : Nat → List (List α) → σ → Prop
  | _, [], _ => False
  | j, b :: bs, s =>
    match step j b s with
    | .error _ => True
    | .ok (_, s') => Fails step (j + 1) bs s'

theorem fails_succ {j : Nat} {bs : List (List α)} {s : σ} :
    Fails step (j + 1) bs s ↔ Fails (fun i => step (i + 1)) j bs s := by
  induction bs generalizing j s with
  | nil => rfl
  | cons b bs ih => simp only [Fails, ih]

/-- The very first slice fails. -/
def FirstFails (step : Nat → List α → σ → Except ε (List ρ × σ)) (j : Nat) :
    List (List α) → σ → Prop
  | [], _ => False
  | b :: _, s => ∃ e, step j b s = .error e

theorem error_iff_fails {j : Nat} {bs : List (List α)} {s : σ} :
    (∃ e, (run step j bs s).result = .error e) ↔ Fails step j bs s := by
  induction bs generalizing j s with
  | nil => simp [run, Fails]
  | cons b bs ih =>
    cases h : step j b s with
    | error e => simp [run_cons_error h, Fails, h]
    | ok p =>
      obtain ⟨rs, s'⟩ := p
      rw [run_cons_ok h]
      simp only [Fails, h, ← ih]
      cases (run step (j + 1) bs s').result <;> simp [Except.map]

theorem done_of_ok {j : Nat} {bs : List (List α)} {s : σ} {rs : List ρ}
    (h : (run step j bs s).result = .ok rs) : (run step j bs s).done = bs.flatten := by
  induction bs generalizing j s rs with
  | nil => rfl
  | cons b bs ih =>
    cases hb : step j b s with
    | error e =>
      rw [run_cons_error hb] at h
      cases h
    | ok p =>
      obtain ⟨rs', s'⟩ := p
      rw [run_cons_ok hb] at h ⊢
      cases hrest : (run step (j + 1) bs s').result with
      | error e =>
        rw [hrest] at h
        cases h
      | ok rest => rw [List.flatten_cons, ih hrest]

/-- A run that stops early has done a number of whole slices and nothing else. -/
theorem done_of_error {j : Nat} {bs : List (List α)} {s : σ} {e : ε}
    (h : (run step j bs s).result = .error e) :
    ∃ m < bs.length, (run step j bs s).done = (bs.take m).flatten := by
  induction bs generalizing j s e with
  | nil => cases h
  | cons b bs ih =>
    cases hb : step j b s with
    | error e' => exact ⟨0, by simp, by rw [run_cons_error hb]; rfl⟩
    | ok p =>
      obtain ⟨rs, s'⟩ := p
      rw [run_cons_ok hb] at h ⊢
      cases hrest : (run step (j + 1) bs s').result with
      | ok rest =>
        rw [hrest] at h
        cases h
      | error e' =>
        obtain ⟨m, hm, hdone⟩ := ih hrest
        exact ⟨m + 1, by simpa using hm, by rw [List.take_succ_cons, List.flatten_cons, hdone]⟩

/-- What has taken effect is a beginning of the list. -/
theorem done_initial {j : Nat} {bs : List (List α)} {s : σ} :
    (run step j bs s).done <+: bs.flatten := by
  cases h : (run step j bs s).result with
  | ok rs => rw [done_of_ok h]
  | error e =>
    obtain ⟨m, -, hdone⟩ := done_of_error h
    rw [hdone]
    exact ⟨(bs.drop m).flatten, by rw [← List.flatten_append, List.take_append_drop]⟩

/-- A relation between the requests that took effect and the states around them holds of a run when
it holds of nothing done and extends by every slice that goes through. -/
theorem run_done {P : List α → σ → σ → Prop} (hnil : ∀ s, P [] s s)
    (hcons : ∀ j b s rs s' done s'', step j b s = .ok (rs, s') → P done s' s'' →
      P (b ++ done) s s'')
    {j : Nat} {bs : List (List α)} {s : σ} :
    P (run step j bs s).done s (run step j bs s).state := by
  induction bs generalizing j s with
  | nil => exact hnil s
  | cons b bs ih =>
    cases hb : step j b s with
    | error e =>
      rw [run_cons_error hb]
      exact hnil s
    | ok p =>
      rw [run_cons_ok hb]
      exact hcons j b s p.1 p.2 _ _ hb ih

/-- All requests take effect and the run returns, or none does and it stops with an error. -/
def AllOrNothing (o : Outcome α ρ σ ε) (all : List α) : Prop :=
  (∃ rs, o.result = .ok rs ∧ o.done = all) ∨ (∃ e, o.result = .error e ∧ o.done = [])

/-- A run is all-or-nothing exactly when no slice fails after another one has gone through. -/
theorem allOrNothing_iff {j : Nat} {bs : List (List α)} {s : σ} (hne : ∀ b ∈ bs, b ≠ []) :
    AllOrNothing (run step j bs s) bs.flatten ↔
      (Fails step j bs s → FirstFails step j bs s) := by
  cases bs with
  | nil => simp [AllOrNothing, run, Fails]
  | cons b bs =>
    have hb : b ≠ [] := hne b List.mem_cons_self
    cases h : step j b s with
    | error e => simp [AllOrNothing, run_cons_error h, FirstFails, h]
    | ok p =>
      obtain ⟨rs, s'⟩ := p
      have hfirst : ¬ FirstFails step j (b :: bs) s := by
        rintro ⟨e, he⟩
        rw [h] at he
        cases he
      have hlate : Fails step j (b :: bs) s ↔ Fails step (j + 1) bs s' := by simp only [Fails, h]
      rw [hlate, ← error_iff_fails]
      simp only [hfirst, imp_false]
      rw [run_cons_ok h]
      constructor
      · rintro (⟨rs', hok, _⟩ | ⟨e, _, hdone⟩) ⟨e', he'⟩
        · rw [he'] at hok
          cases hok
        · exact hb (List.append_eq_nil_iff.mp hdone).1
      · intro hno
        cases hrest : (run step (j + 1) bs s').result with
        | error e => exact absurd ⟨e, hrest⟩ hno
        | ok rest =>
          exact Or.inl ⟨rs ++ rest, rfl, by rw [done_of_ok hrest, List.flatten_cons]⟩

end Run
end Staged
