import Mathlib

/-! Computations with a state that survives an exception: what a run leaves alone, and how a run of
a sequence splits into runs of its parts. -/

namespace Frame

universe u

variable {ε σ α β : Type u} {γ δ : Type*}

/-- The state a run ends in, whether it returns or throws. -/
def after (x : EStateM ε σ α) (s : σ) : σ :=
  match x s with
  | .ok _ s' => s'
  | .error _ s' => s'

theorem after_of_ok {x : EStateM ε σ α} {s s' : σ} {a : α} (h : x s = .ok a s') :
    after x s = s' := by simp only [after, h]

theorem after_of_error {x : EStateM ε σ α} {s s' : σ} {e : ε} (h : x s = .error e s') :
    after x s = s' := by simp only [after, h]

theorem bind_eq_ok {x : EStateM ε σ α} {f : α → EStateM ε σ β} {s s'' : σ} {b : β} :
    (x >>= f) s = .ok b s'' ↔ ∃ a s', x s = .ok a s' ∧ f a s' = .ok b s'' := by
  change EStateM.bind x f s = .ok b s'' ↔ _
  unfold EStateM.bind
  cases h : x s with
  | ok a s' => simp
  | error e s' => simp

theorem bind_eq_error {x : EStateM ε σ α} {f : α → EStateM ε σ β} {s s'' : σ} {e : ε} :
    (x >>= f) s = .error e s'' ↔
      x s = .error e s'' ∨ ∃ a s', x s = .ok a s' ∧ f a s' = .error e s'' := by
  change EStateM.bind x f s = .error e s'' ↔ _
  unfold EStateM.bind
  cases h : x s with
  | ok a s' => simp
  | error e s' => simp

theorem bind_of_ok {x : EStateM ε σ α} {f : α → EStateM ε σ β} {s s' : σ} {a : α}
    (h : x s = .ok a s') : (x >>= f) s = f a s' := by
  change EStateM.bind x f s = f a s'
  simp only [EStateM.bind, h]

theorem bind_of_error {x : EStateM ε σ α} {f : α → EStateM ε σ β} {s s' : σ} {e : ε}
    (h : x s = .error e s') : (x >>= f) s = .error e s' := by
  change EStateM.bind x f s = .error e s'
  simp only [EStateM.bind, h]

theorem after_bind_of_ok {x : EStateM ε σ α} {f : α → EStateM ε σ β} {s s' : σ} {a : α}
    (h : x s = .ok a s') : after (x >>= f) s = after (f a) s' := by
  unfold after
  rw [bind_of_ok h]

theorem after_bind_of_error {x : EStateM ε σ α} {f : α → EStateM ε σ β} {s s' : σ} {e : ε}
    (h : x s = .error e s') : after (x >>= f) s = s' := after_of_error (bind_of_error h)

/-- Computing a value from a result does nothing to the state. -/
theorem after_bind_pure (x : EStateM ε σ α) (g : α → β) (s : σ) :
    after (x >>= fun a => pure (g a)) s = after x s := by
  cases h : x s with
  | ok a s' =>
    rw [after_bind_of_ok h, after_of_ok h]
    rfl
  | error e s' => rw [after_bind_of_error h, after_of_error h]

/-- A computation that throws keeps what it did until then. -/
theorem tryCatch_of_error {x : EStateM ε σ α} {f : ε → EStateM ε σ α} {s s' : σ} {e : ε}
    (h : x s = .error e s') : tryCatch x f s = f e s' := by
  change EStateM.tryCatch x f s = f e s'
  simp only [EStateM.tryCatch, h]
  rfl

theorem tryCatch_of_ok {x : EStateM ε σ α} {f : ε → EStateM ε σ α} {s s' : σ} {a : α}
    (h : x s = .ok a s') : tryCatch x f s = .ok a s' := by
  change EStateM.tryCatch x f s = .ok a s'
  simp only [EStateM.tryCatch, h]

/-- Whether a run returned. -/
def returned : EStateM.Result ε σ α → Bool
  | .ok _ _ => true
  | .error _ _ => false

theorem exists_ok_of_returned {r : EStateM.Result ε σ α} (h : returned r = true) :
    ∃ a s, r = .ok a s := by
  cases r with
  | ok a s => exact ⟨a, s, rfl⟩
  | error e s => cases h

theorem exists_error_of_returned {r : EStateM.Result ε σ α} (h : returned r = false) :
    ∃ e s, r = .error e s := by
  cases r with
  | ok a s => cases h
  | error e s => exact ⟨e, s, rfl⟩

theorem returned_bind_of_ok {x : EStateM ε σ α} {f : α → EStateM ε σ β} {s s' : σ} {a : α}
    (h : x s = .ok a s') : returned ((x >>= f) s) = returned (f a s') := by rw [bind_of_ok h]

theorem returned_bind_of_error {x : EStateM ε σ α} {f : α → EStateM ε σ β} {s s' : σ} {e : ε}
    (h : x s = .error e s') : returned ((x >>= f) s) = false := by
  rw [bind_of_error h]
  rfl

/-- Whether a run returned, and with a value that passes a test. -/
def returnedWith (test : α → Bool) : EStateM.Result ε σ α → Bool
  | .ok a _ => test a
  | .error _ _ => false

theorem exceptBind_eq_ok {x : Except ε α} {f : α → Except ε β} {b : β} :
    (x >>= f) = .ok b ↔ ∃ a, x = .ok a ∧ f a = .ok b := by
  cases x with
  | ok a =>
    change f a = .ok b ↔ _
    simp
  | error e =>
    change Except.error e = .ok b ↔ _
    simp

theorem exceptMap_eq_ok {x : Except ε α} {f : α → β} {b : β} :
    x.map f = .ok b ↔ ∃ a, x = .ok a ∧ f a = b := by
  cases x with
  | ok a =>
    change Except.ok (f a) = .ok b ↔ _
    simp
  | error e =>
    change Except.error e = .ok b ↔ _
    simp

/-- A check in front of a computation: it returns when the check does not throw. -/
theorem exceptCheck_eq_ok {c : Prop} [Decidable c] {e : ε} {x : Except ε α} {a : α} :
    (if c then (do throw e; x) else x) = .ok a ↔ ¬c ∧ x = .ok a := by
  by_cases hc : c
  · rw [if_pos hc]
    exact iff_of_false (fun h => nomatch h) fun h => h.1 hc
  · rw [if_neg hc]
    exact (and_iff_right hc).symm

/-- A list is run through when every element is. -/
theorem mapM_eq_ok {f : α → Except ε β} {xs : List α} {ys : List β} :
    xs.mapM f = .ok ys ↔ List.Forall₂ (fun x y => f x = .ok y) xs ys := by
  induction xs generalizing ys with
  | nil =>
    rw [List.mapM_nil, List.forall₂_nil_left_iff]
    exact ⟨fun hok => (Except.ok.inj hok).symm, fun hnil => hnil ▸ rfl⟩
  | cons x xs ih =>
    rw [List.mapM_cons, List.forall₂_cons_left_iff]
    constructor
    · intro hok
      obtain ⟨y, hy, hok⟩ := exceptBind_eq_ok.mp hok
      obtain ⟨ys', hys, hok⟩ := exceptBind_eq_ok.mp hok
      exact ⟨y, ys', hy, ih.mp hys, (Except.ok.inj hok).symm⟩
    · rintro ⟨y, ys', hy, hys, rfl⟩
      exact exceptBind_eq_ok.mpr ⟨y, hy, exceptBind_eq_ok.mpr ⟨ys', ih.mpr hys, rfl⟩⟩

/-- Where a computation returns on what passes a test, and then a known value, a list is run through
when all of it passes. -/
theorem mapM_eq_ok_iff {f : α → Except ε β} {p : α → Prop} {g : α → β}
    (h : ∀ x y, f x = .ok y ↔ p x ∧ g x = y) {xs : List α} {ys : List β} :
    xs.mapM f = .ok ys ↔ (∀ x ∈ xs, p x) ∧ xs.map g = ys := by
  simp only [mapM_eq_ok, h]
  rw [List.forall₂_and_left]
  refine and_congr_right fun _ => ?_
  rw [← List.forall₂_map_left_iff (f := g), List.forall₂_eq_eq_eq]

theorem exists_of_isOk {x : Except ε α} (h : x.isOk = true) : ∃ a, x = .ok a := by
  cases x with
  | error e => cases h
  | ok a => exact ⟨a, rfl⟩

theorem exists_of_toOption_any {x : Except ε α} {test : α → Bool}
    (h : x.toOption.any test = true) : ∃ a, x = .ok a ∧ test a = true := by
  cases x with
  | error e => cases h
  | ok a => exact ⟨a, rfl, h⟩

/-- No run changes the part `p` of the state. -/
def Keeps (p : σ → γ) (x : EStateM ε σ α) : Prop := ∀ s, p (after x s) = p s

theorem Keeps.of_ok {p : σ → γ} {x : EStateM ε σ α} (h : Keeps p x) {s s' : σ} {a : α}
    (hx : x s = .ok a s') : p s' = p s := by rw [← h s, after_of_ok hx]

theorem Keeps.of_error {p : σ → γ} {x : EStateM ε σ α} (h : Keeps p x) {s s' : σ} {e : ε}
    (hx : x s = .error e s') : p s' = p s := by rw [← h s, after_of_error hx]

theorem Keeps.comp {p : σ → γ} {x : EStateM ε σ α} (h : Keeps p x) (q : γ → δ) :
    Keeps (fun s => q (p s)) x := fun s => congrArg q (h s)

theorem keeps_pure (p : σ → γ) (a : α) : Keeps p (pure a : EStateM ε σ α) := fun _ => rfl

theorem keeps_throw (p : σ → γ) (e : ε) : Keeps p (throw e : EStateM ε σ α) := fun _ => rfl

theorem keeps_get (p : σ → γ) : Keeps p (get : EStateM ε σ σ) := fun _ => rfl

theorem Keeps.bind {p : σ → γ} {x : EStateM ε σ α} {f : α → EStateM ε σ β} (hx : Keeps p x)
    (hf : ∀ a, Keeps p (f a)) : Keeps p (x >>= f) := by
  intro s
  cases h : x s with
  | ok a s' =>
    have hstep : after (x >>= f) s = after (f a) s' := by simp only [after, bind_of_ok h]
    rw [hstep, hf a s', hx.of_ok h]
  | error e s' =>
    rw [after_of_error (bind_of_error h), hx.of_error h]

theorem Keeps.tryCatch {p : σ → γ} {x : EStateM ε σ α} {f : ε → EStateM ε σ α} (hx : Keeps p x)
    (hf : ∀ e, Keeps p (f e)) : Keeps p (tryCatch x f) := by
  intro s
  cases h : x s with
  | ok a s' =>
    have hstep : (MonadExcept.tryCatch x f) s = .ok a s' := tryCatch_of_ok h
    rw [after_of_ok hstep, hx.of_ok h]
  | error e s' =>
    have hstep : after (MonadExcept.tryCatch x f) s = after (f e) s' := by
      simp only [after, tryCatch_of_error h]
    rw [hstep, hf e s', hx.of_error h]

/-- Every run, also one that throws, ends in a state that `R` relates to the one it started in. -/
def Relates (R : σ → σ → Prop) (x : EStateM ε σ α) : Prop := ∀ s, R s (after x s)

theorem Relates.of_ok {R : σ → σ → Prop} {x : EStateM ε σ α} (h : Relates R x) {s s' : σ} {a : α}
    (hx : x s = .ok a s') : R s s' := after_of_ok hx ▸ h s

theorem Relates.of_error {R : σ → σ → Prop} {x : EStateM ε σ α} (h : Relates R x) {s s' : σ}
    {e : ε} (hx : x s = .error e s') : R s s' := after_of_error hx ▸ h s

theorem Keeps.relates {p : σ → γ} {x : EStateM ε σ α} (h : Keeps p x) :
    Relates (fun s s' => p s' = p s) x := h

theorem Relates.mono {R Q : σ → σ → Prop} {x : EStateM ε σ α} (h : Relates R x)
    (hsub : ∀ s s', R s s' → Q s s') : Relates Q x := fun s => hsub _ _ (h s)

theorem relates_pure (R : σ → σ → Prop) [Std.Refl R] (a : α) :
    Relates R (pure a : EStateM ε σ α) := fun s => refl_of R s

theorem relates_throw (R : σ → σ → Prop) [Std.Refl R] (e : ε) :
    Relates R (throw e : EStateM ε σ α) := fun s => refl_of R s

theorem relates_get (R : σ → σ → Prop) [Std.Refl R] :
    Relates R (get : EStateM ε σ σ) := fun s => refl_of R s

theorem relates_modify {R : σ → σ → Prop} {f : σ → σ} (h : ∀ s, R s (f s)) :
    Relates R (modify f : EStateM ε σ PUnit) := fun s => h s

theorem Relates.bind {R : σ → σ → Prop} [IsTrans σ R] {x : EStateM ε σ α}
    {f : α → EStateM ε σ β} (hx : Relates R x) (hf : ∀ a, Relates R (f a)) :
    Relates R (x >>= f) := by
  intro s
  cases h : x s with
  | ok a s' =>
    rw [after_bind_of_ok h]
    exact trans_of R (hx.of_ok h) (hf a s')
  | error e s' =>
    rw [after_bind_of_error h]
    exact hx.of_error h

theorem Relates.tryCatch {R : σ → σ → Prop} [IsTrans σ R] {x : EStateM ε σ α}
    {f : ε → EStateM ε σ α} (hx : Relates R x) (hf : ∀ e, Relates R (f e)) :
    Relates R (tryCatch x f) := by
  intro s
  cases h : x s with
  | ok a s' =>
    have hstep : (MonadExcept.tryCatch x f) s = .ok a s' := tryCatch_of_ok h
    rw [after_of_ok hstep]
    exact hx.of_ok h
  | error e s' =>
    have hstep : after (MonadExcept.tryCatch x f) s = after (f e) s' := by
      simp only [after, tryCatch_of_error h]
    rw [hstep]
    exact trans_of R (hx.of_error h) (hf e s')

/-- A run that returns leaves the part `p` of the state alone, and what it returns stands in the
relation `Q` to that part. -/
def Reads (p : σ → γ) (Q : γ → α → Prop) (x : EStateM ε σ α) : Prop :=
  ∀ s a s', x s = .ok a s' → p s' = p s ∧ Q (p s) a

theorem Keeps.reads {p : σ → γ} {x : EStateM ε σ α} (h : Keeps p x) :
    Reads p (fun _ _ => True) x := fun _ _ _ hx => ⟨h.of_ok hx, trivial⟩

theorem reads_pure {p : σ → γ} {Q : γ → α → Prop} {a : α} (h : ∀ c, Q c a) :
    Reads p Q (pure a : EStateM ε σ α) := by
  intro s b s' hx
  cases hx
  exact ⟨rfl, h _⟩

theorem reads_throw (p : σ → γ) (Q : γ → α → Prop) (e : ε) :
    Reads p Q (throw e : EStateM ε σ α) := fun _ _ _ hx => nomatch hx

theorem reads_get (p : σ → γ) : Reads p (fun c s => p s = c) (get : EStateM ε σ σ) := by
  intro s a s' hx
  cases hx
  exact ⟨rfl, rfl⟩

theorem Reads.mono {p : σ → γ} {Q R : γ → α → Prop} {x : EStateM ε σ α} (hx : Reads p Q x)
    (h : ∀ c a, Q c a → R c a) : Reads p R x :=
  fun s a s' hs => ⟨(hx s a s' hs).1, h _ _ (hx s a s' hs).2⟩

/-- The rest of a sequence may use what its first part was found to return. -/
theorem Reads.bind {p : σ → γ} {Q : γ → α → Prop} {R : γ → β → Prop} {x : EStateM ε σ α}
    {f : α → EStateM ε σ β} (hx : Reads p Q x)
    (hf : ∀ a, Reads p (fun c b => Q c a → R c b) (f a)) : Reads p R (x >>= f) := by
  intro s b s'' hs
  obtain ⟨a, s', ha, hb⟩ := bind_eq_ok.mp hs
  obtain ⟨hkeep, hq⟩ := hx s a s' ha
  obtain ⟨hkeep', hr⟩ := hf a s' b s'' hb
  rw [hkeep] at hkeep' hr
  exact ⟨hkeep', hr hq⟩

/-- A handler that throws returns nothing new. -/
theorem Reads.tryCatch_throw {p : σ → γ} {Q : γ → α → Prop} {x : EStateM ε σ α} (g : ε → ε)
    (hx : Reads p Q x) : Reads p Q (tryCatch x fun e => throw (g e)) := by
  intro s a s' hs
  cases h : x s with
  | ok b s₁ =>
    have hok : (tryCatch x fun e => throw (g e)) s = .ok b s₁ := tryCatch_of_ok h
    rw [hok] at hs
    cases hs
    exact hx s a s' h
  | error e s₁ =>
    have herr : (tryCatch x fun e => throw (g e)) s = .error (g e) s₁ := tryCatch_of_error h
    rw [herr] at hs
    cases hs

end Frame
