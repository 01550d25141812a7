import Mathlib

/-! The text of a JSON string, and that where it ends is plain from the text. -/

namespace Json

/-- A digit of a hexadecimal number. -/
def hexDigit (n : Nat) : Char := if n < 10 then Char.ofNat (48 + n) else Char.ofNat (87 + n)

def hexValue (c : Char) : Nat := if c.toNat < 58 then c.toNat - 48 else c.toNat - 87

/-- The letters that stand for control characters. -/
def letters : List (Char × Char) :=
  [('b', Char.ofNat 8), ('t', Char.ofNat 9), ('n', Char.ofNat 10), ('f', Char.ofNat 12),
    ('r', Char.ofNat 13)]

def letterOf (c : Char) : Option Char := (letters.find? fun e => e.2 == c).map Prod.fst

def escape (c : Char) : List Char :=
  if c = '"' then ['\\', '"']
  else if c = '\\' then ['\\', '\\']
  else if c.toNat < 32 then
    match letterOf c with
    | some l => ['\\', l]
    | none => ['\\', 'u', '0', '0', hexDigit (c.toNat / 16), hexDigit (c.toNat % 16)]
  else [c]

/-- The characters of a text between quotation marks. -/
def quoteChars (s : List Char) : List Char := '"' :: (s.flatMap escape ++ ['"'])

def quote (s : String) : String := String.ofList (quoteChars s.toList)

/-! The first character of an escaped text is found again. -/

/-- What follows a backslash. -/
def readEscape : List Char → Option (Char × List Char)
  | 'u' :: _ :: _ :: a :: b :: rest => some (Char.ofNat (16 * hexValue a + hexValue b), rest)
  | c :: rest => some (((letters.lookup c).getD c), rest)
  | [] => none

def readChar : List Char → Option (Char × List Char)
  | '\\' :: rest => readEscape rest
  | c :: rest => some (c, rest)
  | [] => none

theorem readChar_control : ∀ n < 32, ∀ rest : List Char,
    readChar (escape (Char.ofNat n) ++ rest) = some (Char.ofNat n, rest) := by
  intro n hn rest
  interval_cases n <;> rfl

theorem readChar_escape (c : Char) (rest : List Char) :
    readChar (escape c ++ rest) = some (c, rest) := by
  by_cases hcontrol : c.toNat < 32
  · have h := readChar_control c.toNat hcontrol rest
    rw [Char.ofNat_toNat] at h
    exact h
  · unfold escape
    by_cases hquote : c = '"'
    · rw [if_pos hquote, hquote]
      rfl
    · by_cases hslash : c = '\\'
      · rw [if_neg hquote, if_pos hslash, hslash]
        rfl
      · rw [if_neg hquote, if_neg hslash, if_neg hcontrol]
        unfold readChar
        split
        · rename_i heq
          injection heq with hc
          exact absurd hc hslash
        · rename_i heq
          injection heq with hc hrest
          rw [hc]
          exact congrArg (fun r => some (_, r)) hrest.symm
        · rename_i heq
          cases heq

theorem escape_append_inj {c c' : Char} {rest rest' : List Char}
    (h : escape c ++ rest = escape c' ++ rest') : c = c' ∧ rest = rest' := by
  have hread := congrArg readChar h
  rw [readChar_escape, readChar_escape] at hread
  cases hread
  exact ⟨rfl, rfl⟩

/-- No escaped character begins with a quotation mark. -/
theorem escape_ne_quote (c : Char) (rest rest' : List Char) : escape c ++ rest ≠ '"' :: rest' := by
  intro h
  unfold escape at h
  split_ifs at h with hquote hslash hcontrol
  · injection h with hc
    exact absurd hc (by decide)
  · injection h with hc
    exact absurd hc (by decide)
  · split at h
    · injection h with hc
      exact absurd hc (by decide)
    · injection h with hc
      exact absurd hc (by decide)
  · injection h with hc
    exact hquote hc

theorem body_append_inj {s s' rest rest' : List Char}
    (h : s.flatMap escape ++ '"' :: rest = s'.flatMap escape ++ '"' :: rest') :
    s = s' ∧ rest = rest' := by
  induction s generalizing s' with
  | nil =>
    cases s' with
    | nil =>
      injection h with _ hrest
      exact ⟨rfl, hrest⟩
    | cons c' s' =>
      rw [List.flatMap_cons, List.append_assoc] at h
      exact absurd h.symm (escape_ne_quote c' _ _)
  | cons c s ih =>
    cases s' with
    | nil =>
      rw [List.flatMap_cons, List.append_assoc] at h
      exact absurd h (escape_ne_quote c _ _)
    | cons c' s' =>
      rw [List.flatMap_cons, List.flatMap_cons, List.append_assoc, List.append_assoc] at h
      obtain ⟨hc, hrest⟩ := escape_append_inj h
      obtain ⟨hs, hrest⟩ := ih hrest
      exact ⟨by rw [hc, hs], hrest⟩

/-- A quoted text and what follows it are found again. -/
theorem quote_append_inj {s s' t t' : String} (h : quote s ++ t = quote s' ++ t') :
    s = s' ∧ t = t' := by
  have hchars := congrArg String.toList h
  rw [String.toList_append, String.toList_append] at hchars
  unfold quote quoteChars at hchars
  rw [String.toList_ofList, String.toList_ofList, List.cons_append, List.cons_append,
    List.append_assoc, List.append_assoc, List.singleton_append, List.singleton_append] at hchars
  injection hchars with _ hchars
  obtain ⟨hs, ht⟩ := body_append_inj hchars
  exact ⟨String.toList_inj.mp hs, String.toList_inj.mp ht⟩

end Json
