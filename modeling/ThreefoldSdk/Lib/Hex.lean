import Mathlib

/-! Bytes written as two hexadecimal digits each, and the reading of such numbers. -/

namespace Hex

/-- The digit of four bits, in lower case. -/
def digit (n : ℕ) : Char := if n < 10 then Char.ofNat (48 + n) else Char.ofNat (87 + n)

/-- The four bits of a digit of either case. -/
def value (c : Char) : Option ℕ :=
  if '0' ≤ c ∧ c ≤ '9' then some (c.toNat - 48)
  else if 'a' ≤ c ∧ c ≤ 'f' then some (c.toNat - 87)
  else if 'A' ≤ c ∧ c ≤ 'F' then some (c.toNat - 55)
  else none

def isDigit (c : Char) : Bool := (value c).isSome

/-- A digit as `digit` writes it. -/
def IsLower (c : Char) : Prop := ∃ n < 16, c = digit n

def encode (t : List UInt8) : List Char :=
  t.flatMap fun b => [digit (b.toNat / 16), digit (b.toNat % 16)]

/-- The white space and the line ends that a reader of numbers skips. -/
def isSpace (c : Char) : Bool :=
  let n := c.toNat
  decide (9 ≤ n ∧ n ≤ 13 ∨ n = 32 ∨ n = 160 ∨ n = 5760 ∨ 8192 ≤ n ∧ n ≤ 8202 ∨ n = 8232 ∨
    n = 8233 ∨ n = 8239 ∨ n = 8287 ∨ n = 12288 ∨ n = 65279)

def unsigned (s : List Char) : Bool × List Char :=
  match s with
  | '-' :: s => (true, s)
  | '+' :: s => (false, s)
  | s => (false, s)

def unmarked (s : List Char) : List Char :=
  match s with
  | '0' :: 'x' :: s => s
  | '0' :: 'X' :: s => s
  | s => s

/-- The digits in front of a text. -/
def digits (s : List Char) : List ℕ := (s.takeWhile isDigit).filterMap value

/-- The number in front of a text: white space, a sign, the mark of the base and digits; nothing
where there is no digit. -/
def parseInt (s : List Char) : Option ℤ :=
  let (negative, s) := unsigned (s.dropWhile isSpace)
  let ds := digits (unmarked s)
  if ds = [] then none
  else
    let n : ℕ := ds.foldl (fun n d => 16 * n + d) 0
    some (if negative = true then -(n : ℤ) else n)

/-- A number as a byte keeps it: the lower eight bits, and zero for what is none. -/
def toByte (n : Option ℤ) : UInt8 := UInt8.ofNat (n.getD 0 % 256).toNat

section
variable {c d : Char} {n : ℕ}

theorem value_digit (h : n < 16) : value (digit n) = some n := by
  interval_cases n <;> decide

/-- The three ranges of digits. -/
theorem toNat_of_value (h : value c = some n) :
    (48 ≤ c.toNat ∧ c.toNat ≤ 57 ∧ n = c.toNat - 48) ∨
      (97 ≤ c.toNat ∧ c.toNat ≤ 102 ∧ n = c.toNat - 87) ∨
      (65 ≤ c.toNat ∧ c.toNat ≤ 70 ∧ n = c.toNat - 55) := by
  unfold value at h
  split_ifs at h with hdigit hlower hupper
  · exact Or.inl ⟨hdigit.1, hdigit.2, (Option.some.inj h).symm⟩
  · exact Or.inr (Or.inl ⟨hlower.1, hlower.2, (Option.some.inj h).symm⟩)
  · exact Or.inr (Or.inr ⟨hupper.1, hupper.2, (Option.some.inj h).symm⟩)

theorem IsLower.isDigit (h : IsLower c) : isDigit c = true := by
  obtain ⟨n, hn, rfl⟩ := h
  unfold Hex.isDigit
  rw [value_digit hn]
  rfl

/-- Digits are no white space and no signs. -/
theorem unsigned_digit (h : isDigit c = true) (s : List Char) :
    unsigned ((c :: s).dropWhile isSpace) = (false, c :: s) := by
  obtain ⟨n, hn⟩ := Option.isSome_iff_exists.mp h
  have hsigns : c ≠ '-' ∧ c ≠ '+' := by
    constructor
    · intro heq
      rw [heq] at hn
      cases hn
    · intro heq
      rw [heq] at hn
      cases hn
  have hspace : isSpace c = false := by
    have hranges := toNat_of_value hn
    apply decide_eq_false
    omega
  rw [List.dropWhile_cons_of_neg (by rw [hspace]; exact Bool.false_ne_true)]
  unfold unsigned
  split
  · rename_i heq
    exact absurd (List.cons.inj heq).1 hsigns.1
  · rename_i heq
    exact absurd (List.cons.inj heq).1 hsigns.2
  · rfl

/-- The mark of the base ends in no digit. -/
theorem unmarked_digits (h : isDigit d = true) (s : List Char) :
    unmarked (c :: d :: s) = c :: d :: s := by
  unfold unmarked
  split
  · rename_i heq
    have hd : d = 'x' := (List.cons.inj (List.cons.inj heq).2).1
    rw [hd] at h
    exact absurd h (by decide)
  · rename_i heq
    have hd : d = 'X' := (List.cons.inj (List.cons.inj heq).2).1
    rw [hd] at h
    exact absurd h (by decide)
  · rfl

/-- Two digits are read as one byte. -/
theorem parseInt_pair {a b : ℕ} (hc : value c = some a) (hd : value d = some b) :
    parseInt [c, d] = some ((16 * a + b : ℕ) : ℤ) := by
  have hc' : isDigit c = true := by
    unfold isDigit
    rw [hc]
    rfl
  have hd' : isDigit d = true := by
    unfold isDigit
    rw [hd]
    rfl
  have hdigits : digits [c, d] = [a, b] := by
    unfold digits
    rw [List.takeWhile_cons_of_pos hc', List.takeWhile_cons_of_pos hd', List.takeWhile_nil,
      List.filterMap_cons_some hc, List.filterMap_cons_some hd, List.filterMap_nil]
  unfold parseInt
  rw [unsigned_digit hc']
  dsimp only
  rw [unmarked_digits hd', hdigits, if_neg (List.cons_ne_nil _ _), if_neg Bool.false_ne_true]
  rw [List.foldl_cons, List.foldl_cons, List.foldl_nil, mul_zero, zero_add]

theorem toByte_pair {a b : ℕ} (ha : a < 16) (hb : b < 16) :
    (toByte (some ((16 * a + b : ℕ) : ℤ))).toNat = 16 * a + b := by
  unfold toByte
  rw [Option.getD_some]
  have hcast : (((16 * a + b : ℕ) : ℤ) % 256).toNat = 16 * a + b := by omega
  rw [hcast, UInt8.toNat_ofNat']
  omega

/-- The byte of its own two digits. -/
theorem toByte_digits (b : UInt8) :
    toByte (parseInt [digit (b.toNat / 16), digit (b.toNat % 16)]) = b := by
  have hb := b.toNat_lt
  have hhigh : b.toNat / 16 < 16 := by omega
  have hlow : b.toNat % 16 < 16 := Nat.mod_lt _ (by decide)
  apply UInt8.toNat_inj.mp
  rw [parseInt_pair (value_digit hhigh) (value_digit hlow), toByte_pair hhigh hlow]
  omega

theorem encode_cons (b : UInt8) (t : List UInt8) :
    encode (b :: t) = digit (b.toNat / 16) :: digit (b.toNat % 16) :: encode t := rfl

end

end Hex
