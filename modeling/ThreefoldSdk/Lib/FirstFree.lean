import Mathlib

/-! The search for the first free value of a sequence that is stepped through by a partial function:
what it finds, and how many steps it takes at most. -/

namespace FirstFree

variable {α κ : Type*} {next : α → Option α} {taken : α → Bool}

/-- The value after `n` steps, if there are that many. -/
def follow (next : α → Option α) : Nat → α → Option α
  | 0, a => some a
  | n + 1, a => (next a).bind (follow next n)

/-- The loop that steps on while the value is taken. -/
def search (next : α → Option α) (taken : α → Bool) : Nat → α → Option α
  | 0, _ => none
  | fuel + 1, a => if taken a then (next a).bind (search next taken fuel) else some a

/-- A value that is reached, and behind taken ones only. -/
def Free (next : α → Option α) (taken : α → Bool) (a : α) (n : Nat) (b : α) : Prop :=
  follow next n a = some b ∧ taken b = false ∧
    ∀ m < n, ∀ c, follow next m a = some c → taken c = true

theorem follow_succ_of {a b : α} (h : next a = some b) (n : Nat) :
    follow next (n + 1) a = follow next n b := by
  simp only [follow, h, Option.bind_some]

theorem free_zero_iff {a b : α} : Free next taken a 0 b ↔ b = a ∧ taken a = false := by
  unfold Free follow
  constructor
  · rintro ⟨h, hfree, -⟩
    cases h
    exact ⟨rfl, hfree⟩
  · rintro ⟨rfl, hfree⟩
    exact ⟨rfl, hfree, fun m hm => absurd hm (Nat.not_lt_zero m)⟩

theorem free_succ_iff {a b : α} {n : Nat} :
    Free next taken a (n + 1) b ↔ taken a = true ∧ ∃ a', next a = some a' ∧
      Free next taken a' n b := by
  constructor
  · rintro ⟨hfollow, hfree, hbefore⟩
    refine ⟨hbefore 0 n.succ_pos a rfl, ?_⟩
    cases hnext : next a with
    | none => simp [follow, hnext] at hfollow
    | some a' =>
      rw [follow_succ_of hnext] at hfollow
      refine ⟨a', rfl, hfollow, hfree, fun m hm c hc => ?_⟩
      apply hbefore (m + 1) (Nat.succ_lt_succ hm) c
      rw [follow_succ_of hnext]
      exact hc
  · rintro ⟨htaken, a', hnext, hfollow, hfree, hbefore⟩
    refine ⟨by rw [follow_succ_of hnext, hfollow], hfree, fun m hm c hc => ?_⟩
    cases m with
    | zero =>
      cases hc
      exact htaken
    | succ m =>
      rw [follow_succ_of hnext] at hc
      exact hbefore m (Nat.lt_of_succ_lt_succ hm) c hc

/-- The search finds the first free value within its fuel. -/
theorem search_eq_some_iff {fuel : Nat} {a b : α} :
    search next taken fuel a = some b ↔ ∃ n < fuel, Free next taken a n b := by
  induction fuel generalizing a with
  | zero => simp [search]
  | succ fuel ih =>
    unfold search
    cases htaken : taken a with
    | false =>
      simp only [Bool.false_eq_true, ↓reduceIte, Option.some.injEq]
      constructor
      · rintro rfl
        exact ⟨0, fuel.succ_pos, free_zero_iff.mpr ⟨rfl, htaken⟩⟩
      · rintro ⟨n, -, hfree⟩
        cases n with
        | zero => exact (free_zero_iff.mp hfree).1.symm
        | succ n =>
          have htrue := (free_succ_iff.mp hfree).1
          rw [htaken] at htrue
          cases htrue
    | true =>
      simp only [↓reduceIte, Option.bind_eq_some_iff]
      constructor
      · rintro ⟨a', hnext, hsearch⟩
        obtain ⟨n, hn, hfree⟩ := ih.mp hsearch
        exact ⟨n + 1, Nat.succ_lt_succ hn, free_succ_iff.mpr ⟨htaken, a', hnext, hfree⟩⟩
      · rintro ⟨n, hn, hfree⟩
        cases n with
        | zero =>
          have hfalse := (free_zero_iff.mp hfree).2
          rw [htaken] at hfalse
          cases hfalse
        | succ n =>
          obtain ⟨-, a', hnext, hfree⟩ := free_succ_iff.mp hfree
          exact ⟨a', hnext, ih.mpr ⟨n, Nat.lt_of_succ_lt_succ hn, hfree⟩⟩

theorem follow_isSome_of_le {n m : Nat} {a b : α} (h : follow next n a = some b) (hm : m ≤ n) :
    ∃ c, follow next m a = some c := by
  induction n generalizing m a with
  | zero =>
    obtain rfl : m = 0 := Nat.le_zero.mp hm
    exact ⟨a, rfl⟩
  | succ n ih =>
    cases m with
    | zero => exact ⟨a, rfl⟩
    | succ m =>
      obtain ⟨a', hnext, hrest⟩ := Option.bind_eq_some_iff.mp h
      obtain ⟨c, hc⟩ := ih hrest (Nat.le_of_succ_le_succ hm)
      exact ⟨c, by rw [follow_succ_of hnext, hc]⟩

/-- A free value that is reached has a first one before it. -/
theorem exists_free_of_follow {a b : α} {n : Nat} (hfollow : follow next n a = some b)
    (hfree : taken b = false) : ∃ m ≤ n, ∃ c, Free next taken a m c := by
  induction n generalizing a with
  | zero =>
    cases hfollow
    exact ⟨0, le_rfl, b, free_zero_iff.mpr ⟨rfl, hfree⟩⟩
  | succ n ih =>
    cases htaken : taken a with
    | false => exact ⟨0, Nat.zero_le _, a, free_zero_iff.mpr ⟨rfl, htaken⟩⟩
    | true =>
      obtain ⟨a', hnext, hrest⟩ := Option.bind_eq_some_iff.mp hfollow
      obtain ⟨m, hm, c, hc⟩ := ih hrest
      exact ⟨m + 1, Nat.succ_le_succ hm, c, free_succ_iff.mpr ⟨htaken, a', hnext, hc⟩⟩

/-- No value is passed twice. -/
def Distinct (next : α → Option α) (key : α → κ) (a : α) : Prop :=
  ∀ n m b c, follow next n a = some b → follow next m a = some c → key b = key c → n = m

variable [DecidableEq κ] {key : α → κ} {xs : List κ}

/-- The first free value stands behind no more values than are taken. -/
theorem le_length_of_free {a b : α} {n : Nat} (hdistinct : Distinct next key a)
    (h : Free next (fun c => decide (key c ∈ xs)) a n b) : n ≤ xs.length := by
  obtain ⟨hfollow, -, hbefore⟩ := h
  have hreached : ∀ m < n, ∃ c, follow next m a = some c := fun m hm =>
    follow_isSome_of_le hfollow hm.le
  have : Nonempty α := ⟨a⟩
  choose! f hf using hreached
  have hinj : Set.InjOn (fun m => key (f m)) (Finset.range n) := by
    intro m hm k hk heq
    exact hdistinct m k _ _ (hf m (Finset.mem_range.mp hm)) (hf k (Finset.mem_range.mp hk)) heq
  have hsub : (Finset.range n).image (fun m => key (f m)) ⊆ xs.toFinset := by
    intro x hx
    obtain ⟨m, hm, rfl⟩ := Finset.mem_image.mp hx
    have hlt := Finset.mem_range.mp hm
    exact List.mem_toFinset.mpr (of_decide_eq_true (hbefore m hlt _ (hf m hlt)))
  calc n = ((Finset.range n).image fun m => key (f m)).card := by
        rw [Finset.card_image_of_injOn hinj, Finset.card_range]
    _ ≤ xs.toFinset.card := Finset.card_le_card hsub
    _ ≤ xs.length := xs.toFinset_card_le

/-- With one step more than values are taken, the search stops for no other reason than that the
sequence ends. -/
theorem search_eq_some_iff_free {a b : α} (hdistinct : Distinct next key a) :
    search next (fun c => decide (key c ∈ xs)) (xs.length + 1) a = some b ↔
      ∃ n, Free next (fun c => decide (key c ∈ xs)) a n b := by
  rw [search_eq_some_iff]
  constructor
  · rintro ⟨n, -, hfree⟩
    exact ⟨n, hfree⟩
  · rintro ⟨n, hfree⟩
    exact ⟨n, Nat.lt_succ_of_le (le_length_of_free hdistinct hfree), hfree⟩

end FirstFree
