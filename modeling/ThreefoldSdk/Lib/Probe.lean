import Mathlib

/-! Loops that read the places `i`, `i + 1`, … until one is empty. -/

namespace Probe

variable {ε α β : Type*}

/-- The loop, with what it puts out for each place it reads; a read may fail. -/
def probe (read : Nat → Except ε (List α)) (emit : Nat → List α → β) :
    Nat → Nat → Except ε (List β)
  | 0, _ => .ok []
  | fuel + 1, i =>
    match read i with
    | .error e => .error e
    | .ok [] => .ok []
    | .ok (a :: v) => (probe read emit fuel (i + 1)).map fun rest => emit i (a :: v) :: rest

/-- The places from `i` on hold these values, and the next one is empty. -/
def Chain (read : Nat → Except ε (List α)) : Nat → List (List α) → Prop
  | i, [] => read i = .ok []
  | i, f :: fs => read i = .ok f ∧ f ≠ [] ∧ Chain read (i + 1) fs

def emitAll (emit : Nat → List α → β) : Nat → List (List α) → List β
  | _, [] => []
  | i, f :: fs => emit i f :: emitAll emit (i + 1) fs

variable {read read' : Nat → Except ε (List α)} {emit : Nat → List α → β} {i : Nat}
  {fs : List (List α)}

theorem probe_of_chain (h : Chain read i fs) {fuel : Nat} (hfuel : fs.length < fuel) :
    probe read emit fuel i = .ok (emitAll emit i fs) := by
  induction fs generalizing i fuel with
  | nil =>
    obtain ⟨fuel, rfl⟩ := Nat.exists_eq_succ_of_ne_zero (Nat.ne_of_gt hfuel)
    have hread : read i = .ok [] := h
    simp only [probe, hread, emitAll]
  | cons f fs ih =>
    obtain ⟨fuel, rfl⟩ := Nat.exists_eq_succ_of_ne_zero (Nat.ne_zero_of_lt hfuel)
    obtain ⟨hread, hne, hrest⟩ := h
    obtain ⟨a, v, rfl⟩ := List.exists_cons_of_ne_nil hne
    have hnext := ih hrest (Nat.lt_of_succ_lt_succ hfuel)
    simp only [probe, hread, hnext, emitAll]
    rfl

/-- More steps than there are values before the first empty place change nothing. -/
theorem probe_stable {m : Nat} (hempty : read (i + m) = .ok []) {fuel fuel' : Nat}
    (h : m < fuel) (h' : m < fuel') : probe read emit fuel i = probe read emit fuel' i := by
  induction m generalizing i fuel fuel' with
  | zero =>
    obtain ⟨fuel, rfl⟩ := Nat.exists_eq_succ_of_ne_zero (Nat.ne_of_gt h)
    obtain ⟨fuel', rfl⟩ := Nat.exists_eq_succ_of_ne_zero (Nat.ne_of_gt h')
    rw [Nat.add_zero] at hempty
    simp only [probe, hempty]
  | succ m ih =>
    obtain ⟨fuel, rfl⟩ := Nat.exists_eq_succ_of_ne_zero (Nat.ne_zero_of_lt h)
    obtain ⟨fuel', rfl⟩ := Nat.exists_eq_succ_of_ne_zero (Nat.ne_zero_of_lt h')
    have hnext : read (i + 1 + m) = .ok [] := by
      rw [Nat.add_assoc, Nat.add_comm 1 m]
      exact hempty
    have hrest := ih hnext (Nat.lt_of_succ_lt_succ h) (Nat.lt_of_succ_lt_succ h')
    unfold probe
    cases read i with
    | error e => rfl
    | ok v =>
      cases v with
      | nil => rfl
      | cons a v => rw [hrest]

theorem probe_congr (h : ∀ j, i ≤ j → read j = read' j) (fuel : Nat) :
    probe read emit fuel i = probe read' emit fuel i := by
  induction fuel generalizing i with
  | zero => rfl
  | succ fuel ih =>
    unfold probe
    rw [h i le_rfl, ih fun j hj => h j (Nat.le_of_succ_le hj)]

/-- Places that can all be read hold a chain, when one of them is empty. -/
theorem exists_chain (hread : ∀ j, ∃ v, read j = .ok v) {m : Nat} (hempty : read (i + m) = .ok []) :
    ∃ fs : List (List α), fs.length ≤ m ∧ Chain read i fs := by
  induction m generalizing i with
  | zero => exact ⟨[], le_rfl, hempty⟩
  | succ m ih =>
    obtain ⟨v, hv⟩ := hread i
    by_cases hnil : v = []
    · refine ⟨[], Nat.zero_le _, ?_⟩
      rw [hnil] at hv
      exact hv
    · have hnext : read (i + 1 + m) = .ok [] := by
        rw [Nat.add_assoc, Nat.add_comm 1 m]
        exact hempty
      obtain ⟨fs, hlength, hchain⟩ := ih hnext
      exact ⟨v :: fs, Nat.succ_le_succ hlength, hv, hnil, hchain⟩

theorem Chain.read_add (h : Chain read i fs) {j : Nat} {f : List α} (hf : fs[j]? = some f) :
    read (i + j) = .ok f := by
  induction fs generalizing i j with
  | nil => cases hf
  | cons f' fs ih =>
    obtain ⟨hread, -, hrest⟩ := h
    cases j with
    | zero =>
      cases hf
      exact hread
    | succ j =>
      rw [Nat.add_comm j 1, ← Nat.add_assoc]
      exact ih hrest hf

theorem Chain.read_length (h : Chain read i fs) : read (i + fs.length) = .ok [] := by
  induction fs generalizing i with
  | nil => exact h
  | cons f fs ih =>
    rw [List.length_cons, Nat.add_comm fs.length 1, ← Nat.add_assoc]
    exact ih h.2.2

theorem Chain.ne_nil (h : Chain read i fs) : ∀ f ∈ fs, f ≠ [] := by
  induction fs generalizing i with
  | nil => simp
  | cons f fs ih =>
    intro f' hf'
    rcases List.mem_cons.mp hf' with rfl | hf'
    · exact h.2.1
    · exact ih h.2.2 f' hf'

theorem Chain.of_reads (hne : ∀ f ∈ fs, f ≠ [])
    (hreads : ∀ j f, fs[j]? = some f → read (i + j) = .ok f)
    (hend : read (i + fs.length) = .ok []) : Chain read i fs := by
  induction fs generalizing i with
  | nil => exact hend
  | cons f fs ih =>
    refine ⟨hreads 0 f rfl, hne f List.mem_cons_self, ?_⟩
    apply ih (fun f' hf' => hne f' (List.mem_cons_of_mem _ hf'))
    · intro j f' hf'
      rw [Nat.add_assoc, Nat.add_comm 1 j]
      exact hreads (j + 1) f' hf'
    · rw [Nat.add_assoc, Nat.add_comm 1]
      exact hend

/-- What the loop reads is not empty. -/
theorem ne_nil_of_probe {fuel : Nat} {vs : List (List α)}
    (h : probe read (fun _ v => v) fuel i = .ok vs) : ∀ v ∈ vs, v ≠ [] := by
  induction fuel generalizing i vs with
  | zero =>
    cases h
    exact fun v hv => nomatch hv
  | succ fuel ih =>
    unfold probe at h
    split at h
    · cases h
    · cases h
      exact fun v hv => nomatch hv
    · rename_i a v hread
      cases hrest : probe read (fun _ v => v) fuel (i + 1) with
      | error e =>
        rw [hrest] at h
        cases h
      | ok rest =>
        rw [hrest] at h
        cases h
        intro w hw
        rcases List.mem_cons.mp hw with rfl | hw
        · exact List.cons_ne_nil _ _
        · exact ih hrest w hw

theorem emitAll_value : emitAll (fun _ f => f) i fs = fs := by
  induction fs generalizing i with
  | nil => rfl
  | cons f fs ih => rw [emitAll, ih]

theorem emitAll_append (gs : List (List α)) :
    emitAll emit i (fs ++ gs) = emitAll emit i fs ++ emitAll emit (i + fs.length) gs := by
  induction fs generalizing i with
  | nil => rfl
  | cons f fs ih =>
    rw [List.cons_append, emitAll, emitAll, ih, List.length_cons, List.cons_append, Nat.add_assoc,
      Nat.add_comm 1]

theorem getElem?_emitAll (j : Nat) : (emitAll emit i fs)[j]? = fs[j]?.map (emit (i + j)) := by
  induction fs generalizing i j with
  | nil => rfl
  | cons f fs ih =>
    cases j with
    | zero => rfl
    | succ j =>
      rw [emitAll, List.getElem?_cons_succ, List.getElem?_cons_succ, ih, Nat.add_assoc,
        Nat.add_comm 1]

theorem mem_emitAll {b : β} : b ∈ emitAll emit i fs ↔ ∃ j f, fs[j]? = some f ∧ emit (i + j) f = b := by
  simp only [List.mem_iff_getElem?, getElem?_emitAll, Option.map_eq_some_iff]

theorem length_emitAll : (emitAll emit i fs).length = fs.length := by
  induction fs generalizing i with
  | nil => rfl
  | cons f fs ih => rw [emitAll, List.length_cons, ih, List.length_cons]

end Probe
