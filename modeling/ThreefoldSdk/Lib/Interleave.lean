import Mathlib

/-! Tasks that take their steps in any order over a shared state. -/

namespace Interleave

variable {ι σ φ ψ α : Type*} [DecidableEq ι]

/-- The shared state, and where each task is. -/
structure State (ι σ φ : Type*) where
  shared : σ
  task : ι → φ

/-- One step of the task `i`. -/
def step (act : ι → σ → φ → σ × φ) (s : State ι σ φ) (i : ι) : State ι σ φ where
  shared := (act i s.shared (s.task i)).1
  task := Function.update s.task i (act i s.shared (s.task i)).2

def run (act : ι → σ → φ → σ × φ) (s : State ι σ φ) (schedule : List ι) : State ι σ φ :=
  schedule.foldl (step act) s

def State.map (view : ι → φ → ψ) (s : State ι σ φ) : State ι σ ψ where
  shared := s.shared
  task i := view i (s.task i)

variable {act : ι → σ → φ → σ × φ} {s : State ι σ φ} {l : List ι}

theorem step_task_self (i : ι) : (step act s i).task i = (act i s.shared (s.task i)).2 :=
  Function.update_self ..

theorem step_task_of_ne {i j : ι} (h : j ≠ i) : (step act s i).task j = s.task j :=
  Function.update_of_ne h _ _

theorem run_append (l l' : List ι) : run act s (l ++ l') = run act (run act s l) l' :=
  List.foldl_append

/-- A view of the tasks that keeps their steps keeps their runs. -/
theorem run_map {act' : ι → σ → ψ → σ × ψ} {view : ι → φ → ψ}
    (h : ∀ i x p, act' i x (view i p) = ((act i x p).1, view i (act i x p).2)) (l : List ι) :
    run act' (s.map view) l = (run act s l).map view := by
  induction l generalizing s with
  | nil => rfl
  | cons i l ih =>
    have hstep : step act' (s.map view) i = (step act s i).map view := by
      unfold step State.map
      simp only [h, State.mk.injEq, true_and]
      funext j
      by_cases hj : j = i
      · subst hj
        rw [Function.update_self, Function.update_self]
      · rw [Function.update_of_ne hj, Function.update_of_ne hj]
    show run act' (step act' (s.map view) i) l = (run act (step act s i) l).map view
    rw [hstep, ih]

/-- What no step changes is the same after the run. -/
theorem run_const (f : State ι σ φ → α) (Inv : State ι σ φ → Prop)
    (h : ∀ s i, Inv s → Inv (step act s i) ∧ f (step act s i) = f s) (hs : Inv s) (l : List ι) :
    Inv (run act s l) ∧ f (run act s l) = f s := by
  induction l generalizing s with
  | nil => exact ⟨hs, rfl⟩
  | cons i l ih =>
    obtain ⟨hinv, heq⟩ := h s i hs
    obtain ⟨hrun, hsame⟩ := ih hinv
    exact ⟨hrun, hsame.trans heq⟩

theorem run_inv {Inv : State ι σ φ → Prop} (h : ∀ s i, Inv s → Inv (step act s i)) (hs : Inv s)
    (l : List ι) : Inv (run act s l) :=
  (run_const (fun _ => ()) Inv (fun s i hinv => ⟨h s i hinv, rfl⟩) hs l).1

/-- While no task goes beyond its first steps, and these leave the shared state as it is, each task
is where it would be alone. -/
theorem run_quiet (quiet : ι → ℕ)
    (h : ∀ i n, n < quiet i →
      (act i s.shared ((fun p => (act i s.shared p).2)^[n] (s.task i))).1 = s.shared)
    (hl : ∀ i, l.count i ≤ quiet i) :
    run act s l = ⟨s.shared, fun i => (fun p => (act i s.shared p).2)^[l.count i] (s.task i)⟩ := by
  induction l using List.reverseRecOn with
  | nil => rfl
  | append_singleton l i ih =>
    have hcount : ∀ j, l.count j ≤ quiet j := by
      intro j
      have hj := hl j
      rw [List.count_append] at hj
      omega
    have hlast : l.count i < quiet i := by
      have hi := hl i
      rw [List.count_append, List.count_singleton_self] at hi
      omega
    rw [run_append, ih hcount]
    show step act _ i = _
    unfold step
    simp only [h i _ hlast, State.mk.injEq, true_and]
    funext j
    by_cases hj : j = i
    · subst hj
      rw [Function.update_self, List.count_append, List.count_singleton_self,
        Function.iterate_succ_apply']
    · rw [Function.update_of_ne hj, List.count_append, List.count_singleton, if_neg, Nat.add_zero]
      simpa using fun heq => hj heq.symm

/-- Either no task goes beyond its first steps, or one is the first to do so. -/
theorem exists_first_over (quiet : ι → ℕ) (l : List ι) :
    (∀ i, l.count i ≤ quiet i) ∨
      ∃ initial a, initial ++ [a] <+: l ∧ initial.count a = quiet a ∧
        ∀ i, initial.count i ≤ quiet i := by
  induction l using List.reverseRecOn with
  | nil => exact Or.inl fun i => Nat.zero_le _
  | append_singleton l a ih =>
    rcases ih with hl | ⟨initial, b, hprefix, hover⟩
    · by_cases ha : l.count a = quiet a
      · exact Or.inr ⟨l, a, List.prefix_rfl, ha, hl⟩
      · left
        intro i
        have hi := hl i
        rw [List.count_append, List.count_singleton]
        split
        · rename_i heq
          have hsame : a = i := by simpa using heq
          subst hsame
          omega
        · omega
    · exact Or.inr ⟨initial, b, hprefix.trans ( List.prefix_append _ _), hover⟩

end Interleave
