import Mathlib.Algebra.Order.BigOperators.Group.List
import Mathlib.Algebra.Order.Floor.Ring
import Mathlib.Data.Int.Log
import Mathlib.Data.Rat.Floor
import Mathlib.Tactic.Linarith
import Mathlib.Tactic.NormNum

/-! Numbers with a fixed number of digits and an exponent of any size: what is left of a rational
number, and which numbers are left as they are. -/

namespace Rounding

/-- Where a number goes that is halfway between two integers. -/
inductive Tie where
  | even
  | away

def Tie.up (below : ℤ) : Tie → Bool
  | .even => below % 2 ≠ 0
  | .away => 0 ≤ below

def toInt (tie : Tie) (q : ℚ) : ℤ :=
  let below := ⌊q⌋
  if q - below < 1 / 2 ∨ q - below = 1 / 2 ∧ tie.up below = false then below else below + 1

structure Format where
  base : ℕ
  digits : ℕ
  tie : Tie
  one_lt : 1 < base
  pos : 0 < digits

/-- The numbers of JavaScript, but for the ends of their range. -/
def double : Format := ⟨2, 53, .even, by decide, by decide⟩

/-- Decimal numbers of twenty digits. -/
def decimal : Format := ⟨10, 20, .away, by decide, by decide⟩

namespace Format

/-- The place of the last digit that is kept. -/
def unit (f : Format) (x : ℚ) : ℚ := (f.base : ℚ) ^ (Int.log f.base |x| + 1 - f.digits)

def round (f : Format) (x : ℚ) : ℚ := toInt f.tie (x / f.unit x) * f.unit x

def sub (f : Format) (x y : ℚ) : ℚ := f.round (x - y)

/-- The next power of the base. -/
def above (f : Format) (x : ℚ) : ℚ := (f.base : ℚ) ^ (Int.log f.base x + 1)

/-- A number of steps of one power of the base, no more than the digits count. -/
def Whole (f : Format) (e : ℤ) (x : ℚ) : Prop :=
  ∃ m : ℤ, |m| ≤ (f.base : ℤ) ^ f.digits ∧ x = m * (f.base : ℚ) ^ e

end Format

section
variable {f : Format} {e : ℤ} {x y : ℚ}

theorem toInt_intCast (tie : Tie) (m : ℤ) : toInt tie m = m := by
  simp [toInt]

theorem toInt_eq_or (tie : Tie) (q : ℚ) :
    toInt tie q = ⌊q⌋ ∨ toInt tie q = ⌊q⌋ + 1 ∧ (⌊q⌋ : ℚ) < q := by
  unfold toInt
  dsimp only
  split_ifs with hbelow
  · exact Or.inl rfl
  · have hhalf := not_lt.mp (not_or.mp hbelow).1
    exact Or.inr ⟨rfl, by linarith⟩

theorem abs_toInt_le {tie : Tie} {q : ℚ} {n : ℤ} (h : |q| ≤ n) : |toInt tie q| ≤ n := by
  obtain ⟨hlow, hhigh⟩ := abs_le.mp h
  have hfloor : -n ≤ ⌊q⌋ := Int.le_floor.mpr (by exact_mod_cast hlow)
  rcases toInt_eq_or tie q with heq | ⟨heq, hlt⟩
  · have hle : ⌊q⌋ ≤ n := by exact_mod_cast (Int.floor_le q).trans hhigh
    rw [heq]
    exact abs_le.mpr ⟨hfloor, hle⟩
  · have hless : ⌊q⌋ < n := by exact_mod_cast hlt.trans_le hhigh
    rw [heq]
    exact abs_le.mpr ⟨by omega, by omega⟩

theorem base_pos (f : Format) : (0 : ℚ) < f.base := by
  exact_mod_cast lt_trans Nat.zero_lt_one f.one_lt

theorem unit_pos (f : Format) (x : ℚ) : 0 < f.unit x := zpow_pos (base_pos f) _

/-- Whole numbers of a unit are left as they are. -/
theorem round_of_dvd {m : ℤ} (h : x = m * f.unit x) : f.round x = x := by
  have hdiv : x / f.unit x = m := (div_eq_iff (unit_pos f x).ne').mpr h
  rw [Format.round, hdiv, toInt_intCast]
  exact h.symm

theorem round_of_abs {n : ℤ} (h : |x| = n * f.unit x) : f.round x = x := by
  rcases abs_choice x with habs | habs
  · exact round_of_dvd (habs.symm.trans h)
  · apply round_of_dvd (m := -n)
    rw [Int.cast_neg, neg_mul, ← h, habs, neg_neg]

/-- Numbers of few enough steps are left as they are. -/
theorem Format.Whole.round_eq (h : f.Whole e x) : f.round x = x := by
  obtain ⟨m, hm, hx⟩ := h
  have hbase := base_pos f
  have hpower := zpow_pos hbase e
  by_cases hzero : x = 0
  · apply round_of_dvd (m := 0)
    rw [Int.cast_zero, zero_mul, hzero]
  have hpos : 0 < |x| := abs_pos.mpr hzero
  have hle : |x| ≤ (f.base : ℚ) ^ ((f.digits : ℤ) + e) := by
    have hcast : |(m : ℚ)| ≤ (f.base : ℚ) ^ f.digits := by exact_mod_cast hm
    rw [hx, abs_mul, abs_of_pos hpower, zpow_add₀ hbase.ne', zpow_natCast]
    exact mul_le_mul_of_nonneg_right hcast hpower.le
  -- the unit is no larger than the step, unless the number is the next power of the base
  rcases hle.lt_or_eq with hlt | heq
  · have hlog : Int.log f.base |x| < f.digits + e := (Int.lt_zpow_iff_log_lt f.one_lt hpos).mp hlt
    obtain ⟨n, hn⟩ := Int.eq_ofNat_of_zero_le (a := e - (Int.log f.base |x| + 1 - f.digits)) (by omega)
    apply round_of_dvd (m := m * (f.base : ℤ) ^ n)
    have hsplit : e = (n : ℤ) + (Int.log f.base |x| + 1 - f.digits) := by omega
    have hstep : (f.base : ℚ) ^ e = (f.base : ℚ) ^ n * f.unit x := by
      rw [Format.unit, ← zpow_natCast, ← zpow_add₀ hbase.ne', ← hsplit]
    push_cast
    rw [mul_assoc, ← hstep]
    exact hx
  · have hlog : Int.log f.base |x| = f.digits + e := by
      rw [heq, Int.log_zpow f.one_lt]
    have hunit : f.unit x = (f.base : ℚ) ^ (e + 1) := by
      rw [Format.unit, hlog]
      congr 1
      ring
    have hdigits : (f.digits : ℤ) + e = ((f.digits - 1 : ℕ) : ℤ) + (e + 1) := by
      have hpos := f.pos
      omega
    apply round_of_abs (n := (f.base : ℤ) ^ (f.digits - 1))
    rw [heq, hunit, hdigits, zpow_add₀ hbase.ne', zpow_natCast]
    push_cast
    rfl

theorem round_zero (f : Format) : f.round 0 = 0 :=
  Format.Whole.round_eq (e := 0) ⟨0, by rw [abs_zero]; positivity, by rw [Int.cast_zero, zero_mul]⟩

/-- What a number is rounded to is one of few enough steps. -/
theorem whole_round (f : Format) (x : ℚ) : ∃ e, f.Whole e (f.round x) := by
  refine ⟨Int.log f.base |x| + 1 - f.digits, toInt f.tie (x / f.unit x), ?_, rfl⟩
  apply abs_toInt_le
  have hbase := base_pos f
  have hlog := Int.lt_zpow_succ_log_self f.one_lt |x|
  rw [abs_div, abs_of_pos (unit_pos f x), div_le_iff₀ (unit_pos f x)]
  have hall : (f.base : ℚ) ^ (Int.log f.base |x| + 1) = (f.base : ℚ) ^ f.digits * f.unit x := by
    rw [Format.unit, ← zpow_natCast, ← zpow_add₀ hbase.ne']
    congr 1
    ring
  rw [hall] at hlog
  push_cast
  exact hlog.le

theorem round_round (f : Format) (x : ℚ) : f.round (f.round x) = f.round x := by
  obtain ⟨e, h⟩ := whole_round f x
  exact h.round_eq

/-! Numbers of the same step. -/

theorem Format.Whole.sub {n : ℕ} (hx : f.Whole e x) (hle : n * (f.base : ℚ) ^ e ≤ x) :
    f.Whole e (x - n * (f.base : ℚ) ^ e) := by
  obtain ⟨m, hm, rfl⟩ := hx
  have hnm : (n : ℤ) ≤ m := by exact_mod_cast le_of_mul_le_mul_right hle (zpow_pos (base_pos f) e)
  refine ⟨m - n, ?_, by push_cast; ring⟩
  rw [abs_of_nonneg (by omega)]
  exact (sub_le_self m n.cast_nonneg).trans ((le_abs_self m).trans hm)

/-! Powers of the base. -/

theorem lt_above (f : Format) (x : ℚ) : x < f.above x := Int.lt_zpow_succ_log_self f.one_lt x

theorem above_le (hpos : 0 < x) : f.above x ≤ f.base * x := by
  rw [Format.above, zpow_add_one₀ (base_pos f).ne', mul_comm]
  exact mul_le_mul_of_nonneg_left (Int.zpow_log_le_self f.one_lt hpos) (base_pos f).le

theorem round_above (f : Format) (x : ℚ) : f.round (f.above x) = f.above x := by
  apply Format.Whole.round_eq (e := Int.log f.base x + 1)
  refine ⟨1, ?_, by rw [Int.cast_one, one_mul, Format.above]⟩
  rw [abs_one]
  exact_mod_cast Nat.one_le_pow _ _ (lt_trans Nat.zero_lt_one f.one_lt)

end

/-! The numbers of a format. -/

@[ext]
structure Number (f : Format) where
  val : ℚ
  exact : f.round val = val
deriving DecidableEq

namespace Number
variable {f g : Format}

/-- The number of the format that is nearest. -/
def ofRat (f : Format) (x : ℚ) : Number f := ⟨f.round x, round_round f x⟩

instance : Zero (Number f) := ⟨⟨0, round_zero f⟩⟩

def add (x y : Number f) : Number f := ofRat f (x.val + y.val)

/-- From the left, beginning at zero. -/
def sum (xs : List (Number f)) : Number f := xs.foldl add 0

/-- The nearest number of another format. -/
def convert (g : Format) (x : Number f) : Number g := ofRat g x.val

@[simp]
theorem val_zero : (0 : Number f).val = 0 := rfl

@[simp]
theorem ofRat_val (x : Number f) : ofRat f x.val = x := Number.ext x.exact

@[simp]
theorem add_zero (x : Number f) : x.add 0 = x := by
  rw [add, val_zero, Rat.add_zero, ofRat_val]

@[simp]
theorem convert_zero : convert g (0 : Number f) = 0 := Number.ext (round_zero g)

theorem sum_nil : sum ([] : List (Number f)) = 0 := rfl

/-- Nothing is added by zeros. -/
theorem foldl_add_zeros {xs : List (Number f)} (h : ∀ x ∈ xs, x = 0) (start : Number f) :
    xs.foldl add start = start := by
  induction xs with
  | nil => rfl
  | cons x xs ih =>
    obtain ⟨hx, hxs⟩ := List.forall_mem_cons.mp h
    rw [List.foldl_cons, hx, add_zero, ih hxs]

/-- What is zero may be left out of a sum. -/
theorem foldl_add_filter {α : Type} {num : α → Number f} {q : α → Bool}
    (h : ∀ a, q a = false → num a = 0) (as : List α) (start : Number f) :
    (as.map num).foldl add start = ((as.filter q).map num).foldl add start := by
  induction as generalizing start with
  | nil => rfl
  | cons a as ih =>
    cases hq : q a with
    | true => rw [List.filter_cons_of_pos hq, List.map_cons, List.map_cons, List.foldl_cons,
        List.foldl_cons, ih]
    | false => rw [List.filter_cons_of_neg (by rw [hq]; decide), List.map_cons, List.foldl_cons, h a hq,
        add_zero, ih]

/-- A sum of whole numbers of one power of the base is exact as long as it has few enough of them. -/
theorem foldl_add_val {e : ℤ} {xs : List (Number f)}
    (hxs : ∀ x ∈ xs, ∃ n : ℕ, x.val = n * (f.base : ℚ) ^ e) {start : Number f} {m : ℕ}
    (hstart : start.val = m * (f.base : ℚ) ^ e)
    (hbound : start.val + (xs.map val).sum ≤ (f.base : ℚ) ^ f.digits * (f.base : ℚ) ^ e) :
    (xs.foldl add start).val = start.val + (xs.map val).sum := by
  induction xs generalizing start m with
  | nil => simp
  | cons x xs ih =>
    obtain ⟨⟨n, hx⟩, hxs⟩ := List.forall_mem_cons.mp hxs
    have hbase := zpow_pos (base_pos f) e
    have hnonneg : 0 ≤ (xs.map val).sum := by
      apply List.sum_nonneg
      intro y hy
      obtain ⟨z, hz, rfl⟩ := List.mem_map.mp hy
      obtain ⟨k, hk⟩ := hxs z hz
      rw [hk]
      positivity
    rw [List.map_cons, List.sum_cons] at hbound
    have hsum : start.val + x.val = ((m + n : ℕ) : ℚ) * (f.base : ℚ) ^ e := by
      rw [hstart, hx]
      push_cast
      ring
    have hwhole : f.Whole e (start.val + x.val) := by
      refine ⟨(m + n : ℕ), ?_, by rw [hsum]; push_cast; rfl⟩
      have hle : ((m + n : ℕ) : ℚ) ≤ (f.base : ℚ) ^ f.digits :=
        le_of_mul_le_mul_right (by rw [← hsum]; linarith) hbase
      rw [abs_of_nonneg (by positivity)]
      exact_mod_cast hle
    have hadd : (start.add x).val = start.val + x.val := hwhole.round_eq
    rw [List.foldl_cons, ih hxs (hadd.trans hsum) (by rw [hadd]; linarith), hadd, List.map_cons,
      List.sum_cons]
    ring

/-- Such a sum does not depend on the order. -/
theorem sum_perm {e : ℤ} {xs ys : List (Number f)} (hperm : ys.Perm xs)
    (hxs : ∀ x ∈ xs, ∃ n : ℕ, x.val = n * (f.base : ℚ) ^ e)
    (hbound : (xs.map val).sum ≤ (f.base : ℚ) ^ f.digits * (f.base : ℚ) ^ e) : sum ys = sum xs := by
  have hzero : (0 : Number f).val = (0 : ℕ) * (f.base : ℚ) ^ e := by
    rw [val_zero, Nat.cast_zero, zero_mul]
  have hvals := (hperm.map val).sum_eq
  apply Number.ext
  unfold sum
  rw [foldl_add_val hxs hzero (by rwa [val_zero, zero_add]),
    foldl_add_val (fun y hy => hxs y (hperm.mem_iff.mp hy)) hzero
      (by rwa [val_zero, zero_add, hvals]), hvals]

end Number

end Rounding
