import Mathlib

/-! Bytes written in base 64, and texts by their UTF-8 bytes. -/

namespace Base64

/-- The groups of six bits, the last one filled up with zeros. -/
def sextets : List UInt8 → List ℕ
  | [] => []
  | [a] => [a.toNat / 4, a.toNat % 4 * 16]
  | [a, b] => [a.toNat / 4, a.toNat % 4 * 16 + b.toNat / 16, b.toNat % 16 * 4]
  | a :: b :: c :: t => a.toNat / 4 :: (a.toNat % 4 * 16 + b.toNat / 16) ::
      (b.toNat % 16 * 4 + c.toNat / 64) :: c.toNat % 64 :: sextets t

/-- The bytes of groups of six bits; what is left of the last group is dropped. -/
def octets : List ℕ → List UInt8
  | a :: b :: c :: d :: t => UInt8.ofNat (a * 4 + b / 16) :: UInt8.ofNat (b % 16 * 16 + c / 4) ::
      UInt8.ofNat (c % 4 * 64 + d) :: octets t
  | [a, b, c] => [UInt8.ofNat (a * 4 + b / 16), UInt8.ofNat (b % 16 * 16 + c / 4)]
  | [a, b] => [UInt8.ofNat (a * 4 + b / 16)]
  | _ => []

/-- The digit of six bits. -/
def digit (n : ℕ) : Char :=
  if n < 26 then Char.ofNat (65 + n)
  else if n < 52 then Char.ofNat (71 + n)
  else if n < 62 then Char.ofNat (n - 4)
  else if n = 62 then '+' else '/'

/-- The six bits of a digit; `-` and `_` are read like `+` and `/`, other characters are none. -/
def value (c : Char) : Option ℕ :=
  if 'A' ≤ c ∧ c ≤ 'Z' then some (c.toNat - 65)
  else if 'a' ≤ c ∧ c ≤ 'z' then some (c.toNat - 71)
  else if '0' ≤ c ∧ c ≤ '9' then some (c.toNat + 4)
  else if c = '+' ∨ c = '-' then some 62
  else if c = '/' ∨ c = '_' then some 63
  else none

def encode (t : List UInt8) : List Char :=
  (sextets t).map digit ++ List.replicate ((3 - t.length % 3) % 3) '='

def decode (t : List Char) : List UInt8 :=
  octets ((t.takeWhile (· ≠ '=')).filterMap value)

/-- The UTF-8 bytes of a text. -/
def utf8 (t : List Char) : List UInt8 := t.flatMap String.utf8EncodeChar

/-- The character of the lower seven bits. -/
def ascii (b : UInt8) : Char := Char.ofNat (b.toNat % 128)

def IsAscii (t : List Char) : Prop := ∀ c ∈ t, c.toNat < 128

theorem ofNat_eq {n : ℕ} {a : UInt8} (h : n = a.toNat) : UInt8.ofNat n = a := by
  rw [h, UInt8.ofNat_toNat]

theorem octets_sextets (t : List UInt8) : octets (sextets t) = t := by
  induction t using sextets.induct with
  | case1 => rfl
  | case2 a =>
    have ha := a.toNat_lt
    have h : UInt8.ofNat (a.toNat / 4 * 4 + a.toNat % 4 * 16 / 16) = a := ofNat_eq (by omega)
    simp only [sextets, octets, h]
  | case3 a b =>
    have ha := a.toNat_lt
    have hb := b.toNat_lt
    have h : UInt8.ofNat (a.toNat / 4 * 4 + (a.toNat % 4 * 16 + b.toNat / 16) / 16) = a :=
      ofNat_eq (by omega)
    have h' : UInt8.ofNat ((a.toNat % 4 * 16 + b.toNat / 16) % 16 * 16 + b.toNat % 16 * 4 / 4) =
        b := ofNat_eq (by omega)
    simp only [sextets, octets, h, h']
  | case4 a b c t ih =>
    have ha := a.toNat_lt
    have hb := b.toNat_lt
    have hc := c.toNat_lt
    have h : UInt8.ofNat (a.toNat / 4 * 4 + (a.toNat % 4 * 16 + b.toNat / 16) / 16) = a :=
      ofNat_eq (by omega)
    have h' : UInt8.ofNat ((a.toNat % 4 * 16 + b.toNat / 16) % 16 * 16 +
        (b.toNat % 16 * 4 + c.toNat / 64) / 4) = b := ofNat_eq (by omega)
    have h'' : UInt8.ofNat ((b.toNat % 16 * 4 + c.toNat / 64) % 4 * 64 + c.toNat % 64) = c :=
      ofNat_eq (by omega)
    simp only [sextets, octets, h, h', h'', ih]

theorem sextets_lt (t : List UInt8) : ∀ n ∈ sextets t, n < 64 := by
  induction t using sextets.induct with
  | case1 => simp [sextets]
  | case2 a =>
    have ha := a.toNat_lt
    simp only [sextets, List.forall_mem_cons]
    exact ⟨by omega, by omega, by simp⟩
  | case3 a b =>
    have ha := a.toNat_lt
    have hb := b.toNat_lt
    simp only [sextets, List.forall_mem_cons]
    exact ⟨by omega, by omega, by omega, by simp⟩
  | case4 a b c t ih =>
    have ha := a.toNat_lt
    have hb := b.toNat_lt
    have hc := c.toNat_lt
    simp only [sextets, List.forall_mem_cons]
    exact ⟨by omega, by omega, by omega, by omega, ih⟩

theorem value_digit {n : ℕ} (h : n < 64) : value (digit n) = some n := by
  have hall : ∀ n < 64, value (digit n) = some n := by decide
  exact hall n h

theorem digit_ne {n : ℕ} (h : n < 64) : digit n ≠ '=' := by
  have hall : ∀ n < 64, digit n ≠ '=' := by decide
  exact hall n h

theorem takeWhile_digits {l : List ℕ} (h : ∀ n ∈ l, n < 64) (k : ℕ) :
    (l.map digit ++ List.replicate k '=').takeWhile (· ≠ '=') = l.map digit := by
  induction l with
  | nil =>
    cases k with
    | zero => rfl
    | succ k => simp [List.replicate_succ]
  | cons n l ih =>
    obtain ⟨hn, hl⟩ := List.forall_mem_cons.mp h
    rw [List.map_cons, List.cons_append, List.takeWhile_cons_of_pos (by simp [digit_ne hn]), ih hl]

theorem filterMap_digits {l : List ℕ} (h : ∀ n ∈ l, n < 64) : (l.map digit).filterMap value = l := by
  induction l with
  | nil => rfl
  | cons n l ih =>
    obtain ⟨hn, hl⟩ := List.forall_mem_cons.mp h
    rw [List.map_cons, List.filterMap_cons_some (value_digit hn), ih hl]

theorem decode_encode (t : List UInt8) : decode (encode t) = t := by
  unfold decode encode
  rw [takeWhile_digits (sextets_lt t), filterMap_digits (sextets_lt t), octets_sextets]

theorem utf8EncodeChar_of_ascii {c : Char} (h : c.toNat < 128) :
    (String.utf8EncodeChar c).map ascii = [c] := by
  have hsmall : c.val.toNat ≤ 127 := Nat.le_of_lt_succ h
  have hbyte : String.utf8EncodeChar c = [c.val.toNat.toUInt8] := by
    unfold String.utf8EncodeChar
    rw [if_pos hsmall]
  have hvalue : c.val.toNat.toUInt8.toNat % 128 = c.toNat := by
    rw [Nat.toUInt8, UInt8.toNat_ofNat']
    show c.toNat % 256 % 128 = c.toNat
    omega
  rw [hbyte, List.map_singleton, ascii, hvalue, Char.ofNat_toNat]

theorem ascii_toNat (b : UInt8) : (ascii b).toNat < 128 := by
  have hsmall : b.toNat % 128 < 128 := Nat.mod_lt _ (by decide)
  have hall : ∀ n < 128, (Char.ofNat n).toNat < 128 := by decide
  exact hall _ hsmall

/-- The bytes of a text stand for the text itself, taken as ASCII, exactly when it is ASCII. -/
theorem ascii_utf8_iff (t : List Char) : (utf8 t).map ascii = t ↔ IsAscii t := by
  constructor
  · intro h c hc
    rw [← h] at hc
    obtain ⟨b, -, rfl⟩ := List.mem_map.mp hc
    exact ascii_toNat b
  · intro h
    induction t with
    | nil => rfl
    | cons c t ih =>
      obtain ⟨hc, ht⟩ := List.forall_mem_cons.mp h
      rw [utf8, List.flatMap_cons, List.map_append, utf8EncodeChar_of_ascii hc]
      show c :: (utf8 t).map ascii = c :: t
      rw [ih ht]

end Base64
