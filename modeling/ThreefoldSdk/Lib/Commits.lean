import ThreefoldSdk.Lib.Frame

/-! Computations that change a part of the state in one step or not at all, and what a run of them
makes of that part. -/

namespace Frame

variable {ε σ γ : Type} {α β ι : Type}

/-- The computation throws and leaves the part as it was, or it returns and `R` holds of the part
before, of the result and of the part behind it. -/
structure Commits (p : σ → γ) (R : γ → α → γ → Prop) (x : EStateM ε σ α) : Prop where
  error : ∀ s e s', x s = .error e s' → p s' = p s
  ok : ∀ s a s', x s = .ok a s' → R (p s) a (p s')

theorem Commits.mono {p : σ → γ} {R R' : γ → α → γ → Prop} {x : EStateM ε σ α}
    (h : Commits p R x) (hR : ∀ c a c', R c a c' → R' c a c') : Commits p R' x where
  error := h.error
  ok s a s' hs := hR _ _ _ (h.ok s a s' hs)

theorem commits_throw (p : σ → γ) (R : γ → α → γ → Prop) (e : ε) :
    Commits p R (throw e : EStateM ε σ α) where
  error s e' s' hs := by
    cases hs
    rfl
  ok s a s' hs := by cases hs

/-- What comes before the step only reads the part. -/
theorem Commits.after {p : σ → γ} {Q : γ → α → Prop} {R : γ → β → γ → Prop} {x : EStateM ε σ α}
    {f : α → EStateM ε σ β} (hx : Keeps p x) (hQ : Reads p Q x)
    (hf : ∀ a, Commits p (fun c b c' => Q c a → R c b c') (f a)) : Commits p R (x >>= f) where
  error s e s' hs := by
    rcases bind_eq_error.mp hs with hs | ⟨a, s₁, ha, hs⟩
    · exact hx.of_error hs
    · exact ((hf a).error s₁ e s' hs).trans (hx.of_ok ha)
  ok s b s' hs := by
    obtain ⟨a, s₁, ha, hs⟩ := bind_eq_ok.mp hs
    have hread := hQ s a s₁ ha
    have hb := (hf a).ok s₁ b s' hs
    rw [hread.1] at hb
    exact hb hread.2

/-- What comes behind the step only computes the result. -/
theorem Commits.map {p : σ → γ} {R : γ → α → γ → Prop} {R' : γ → β → γ → Prop}
    {x : EStateM ε σ α} {g : α → β} (hx : Commits p R x)
    (hR : ∀ c a c', R c a c' → R' c (g a) c') : Commits p R' (x >>= fun a => pure (g a)) where
  error s e s' hs := by
    rcases bind_eq_error.mp hs with hs | ⟨a, s₁, ha, hs⟩
    · exact hx.error s e s' hs
    · cases hs
  ok s b s' hs := by
    obtain ⟨a, s₁, ha, hs⟩ := bind_eq_ok.mp hs
    cases hs
    exact hR _ _ _ (hx.ok s a _ ha)

/-- Errors may be thrown again under another text. -/
theorem Commits.rethrow {p : σ → γ} {R : γ → α → γ → Prop} {x : EStateM ε σ α} (g : ε → ε)
    (hx : Commits p R x) : Commits p R (tryCatch x fun e => throw (g e)) where
  error s e s' hs := by
    cases h : x s with
    | ok a s₁ =>
      rw [tryCatch_of_ok h] at hs
      cases hs
    | error e₁ s₁ =>
      rw [tryCatch_of_error h] at hs
      cases hs
      exact hx.error s e₁ s' h
  ok s a s' hs := by
    cases h : x s with
    | ok b s₁ =>
      rw [tryCatch_of_ok h] at hs
      cases hs
      exact hx.ok s a s' h
    | error e₁ s₁ =>
      rw [tryCatch_of_error h] at hs
      cases hs

/-- A computation that only reads the part. -/
theorem Commits.of_reads {p : σ → γ} {Q : γ → α → Prop} {x : EStateM ε σ α} (hx : Keeps p x)
    (hQ : Reads p Q x) : Commits p (fun c a c' => Q c a ∧ c' = c) x where
  error _ _ _ hs := hx.of_error hs
  ok s a s' hs := ⟨(hQ s a s' hs).2, (hQ s a s' hs).1⟩

/-- From `c` to `c'` by a list of calls with what each of them answered: a call that threw changed
nothing, and `R` holds of one that returned. -/
inductive Committed (R : ι → γ → α → γ → Prop) : List ι → γ → List (Except ε α) → γ → Prop where
  | nil (c : γ) : Committed R [] c [] c
  | refused {i : ι} {l : List ι} {c c' : γ} {e : ε} {answers : List (Except ε α)}
    (h : Committed R l c answers c') : Committed R (i :: l) c (.error e :: answers) c'
  | accepted {i : ι} {l : List ι} {c c' c'' : γ} {a : α} {answers : List (Except ε α)}
    (hi : R i c a c') (h : Committed R l c' answers c'') :
    Committed R (i :: l) c (.ok a :: answers) c''

/-- The answers of the calls, one after the other, and the state behind them. -/
def runAll (m : ι → EStateM ε σ α) : List ι → σ → List (Except ε α) × σ
  | [], s => ([], s)
  | i :: l, s =>
    match m i s with
    | .ok a s' => ((.ok a :: (runAll m l s').1), (runAll m l s').2)
    | .error e s' => ((.error e :: (runAll m l s').1), (runAll m l s').2)

theorem committed_runAll {p : σ → γ} {R : ι → γ → α → γ → Prop} {m : ι → EStateM ε σ α}
    (h : ∀ i, Commits p (R i) (m i)) (l : List ι) (s : σ) :
    Committed R l (p s) (runAll m l s).1 (p (runAll m l s).2) := by
  induction l generalizing s with
  | nil => exact .nil (p s)
  | cons i l ih =>
    unfold runAll
    cases hi : m i s with
    | error e s' =>
      have hsame := (h i).error s e s' hi
      rw [← hsame]
      exact .refused (ih s')
    | ok a s' => exact .accepted ((h i).ok s a s' hi) (ih s')

/-- What every accepted call keeps, the run keeps. -/
theorem Committed.keeps {R : ι → γ → α → γ → Prop} {P : γ → Prop} {l : List ι} {c c' : γ}
    {answers : List (Except ε α)} (h : Committed R l c answers c')
    (hstep : ∀ i ∈ l, ∀ c a c', R i c a c' → P c → P c') (hc : P c) : P c' := by
  induction h with
  | nil c => exact hc
  | refused h ih => exact ih (fun i hi => hstep i (List.mem_cons_of_mem _ hi)) hc
  | accepted hi h ih =>
    exact ih (fun i hi => hstep i (List.mem_cons_of_mem _ hi))
      (hstep _ List.mem_cons_self _ _ _ hi hc)

end Frame
