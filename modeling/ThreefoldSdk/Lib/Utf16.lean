import Mathlib

/-! Texts by their UTF-16 code units. A character beyond the first 65536 takes two of them, a high
and a low surrogate; where a text may be cut without parting the two. -/

namespace Utf16

def IsHigh (u : UInt16) : Prop := 0xD800 ≤ u.toNat ∧ u.toNat < 0xDC00

def IsLow (u : UInt16) : Prop := 0xDC00 ≤ u.toNat ∧ u.toNat < 0xE000

instance (u : UInt16) : Decidable (IsHigh u) := inferInstanceAs (Decidable (_ ∧ _))

instance (u : UInt16) : Decidable (IsLow u) := inferInstanceAs (Decidable (_ ∧ _))

def units (c : Char) : List UInt16 :=
  if c.toNat < 0x10000 then [UInt16.ofNat c.toNat]
  else [UInt16.ofNat (0xD800 + (c.toNat - 0x10000) / 0x400),
    UInt16.ofNat (0xDC00 + (c.toNat - 0x10000) % 0x400)]

def encode (cs : List Char) : List UInt16 := cs.flatMap units

/-- The character of a unit that is no surrogate. -/
def single (u : UInt16) : Char := Char.ofNat u.toNat

/-- The character of a high and a low surrogate. -/
def pair (u v : UInt16) : Char :=
  Char.ofNat (0x10000 + (u.toNat - 0xD800) * 0x400 + (v.toNat - 0xDC00))

/-- The characters; a surrogate without its other half has none. -/
def decode : List UInt16 → Option (List Char)
  | [] => some []
  | [u] => if IsHigh u ∨ IsLow u then none else some [single u]
  | u :: v :: t =>
    if IsHigh u then
      if IsLow v then (decode t).map (pair u v :: ·) else none
    else if IsLow u then none
    else (decode (v :: t)).map (single u :: ·)

/-- The units are those of a text. -/
def WellFormed (t : List UInt16) : Prop := ∃ cs, encode cs = t

variable {c : Char} {cs : List Char} {u v : UInt16} {s t : List UInt16} {k : ℕ}

theorem toNat_lt (c : Char) : c.toNat < 0x110000 := by
  rcases c.valid with h | h
  · exact lt_trans h (by decide)
  · exact h.2

theorem not_surrogate (c : Char) : c.toNat < 0xD800 ∨ 0xE000 ≤ c.toNat := by
  rcases c.valid with h | h
  · exact .inl h
  · exact .inr h.1

theorem toNat_ofNat {n : ℕ} (h : n < 0x10000) : (UInt16.ofNat n).toNat = n := by
  rw [UInt16.toNat_ofNat']
  exact Nat.mod_eq_of_lt h

theorem charToNat_ofNat {n : ℕ} (h : n.isValidChar) : (Char.ofNat n).toNat = n := by
  unfold Char.ofNat
  rw [dif_pos h]
  simp

/-- A character has one unit, which is no surrogate, or a high and a low surrogate. -/
theorem units_cases (c : Char) :
    (∃ u, units c = [u] ∧ ¬IsHigh u ∧ ¬IsLow u ∧ single u = c) ∨
      ∃ u v, units c = [u, v] ∧ IsHigh u ∧ IsLow v ∧ pair u v = c := by
  have hlt := toNat_lt c
  have hnot := not_surrogate c
  unfold units
  by_cases hsmall : c.toNat < 0x10000
  · have hu := toNat_ofNat hsmall
    rw [if_pos hsmall]
    refine .inl ⟨_, rfl, ?_, ?_, ?_⟩
    · unfold IsHigh
      omega
    · unfold IsLow
      omega
    · rw [single, hu, Char.ofNat_toNat]
  · have hu : (UInt16.ofNat (0xD800 + (c.toNat - 0x10000) / 0x400)).toNat =
        0xD800 + (c.toNat - 0x10000) / 0x400 := toNat_ofNat (by omega)
    have hv : (UInt16.ofNat (0xDC00 + (c.toNat - 0x10000) % 0x400)).toNat =
        0xDC00 + (c.toNat - 0x10000) % 0x400 := toNat_ofNat (by omega)
    rw [if_neg hsmall]
    refine .inr ⟨_, _, rfl, ?_, ?_, ?_⟩
    · unfold IsHigh
      omega
    · unfold IsLow
      omega
    · have hsum : 0x10000 + (0xD800 + (c.toNat - 0x10000) / 0x400 - 0xD800) * 0x400 +
          (0xDC00 + (c.toNat - 0x10000) % 0x400 - 0xDC00) = c.toNat := by omega
      rw [pair, hu, hv, hsum, Char.ofNat_toNat]

theorem not_isLow (h : IsHigh u) : ¬IsLow u := by
  unfold IsHigh at h
  unfold IsLow
  omega

theorem decode_single (hhigh : ¬IsHigh u) (hlow : ¬IsLow u) :
    decode (u :: t) = (decode t).map (single u :: ·) := by
  cases t with
  | nil =>
    have hone : decode [u] = some [single u] := if_neg (not_or.2 ⟨hhigh, hlow⟩)
    exact hone
  | cons v t => rw [decode, if_neg hhigh, if_neg hlow]

theorem decode_pair (hu : IsHigh u) (hv : IsLow v) :
    decode (u :: v :: t) = (decode t).map (pair u v :: ·) := by
  rw [decode, if_pos hu, if_pos hv]

theorem decode_encode (cs : List Char) : decode (encode cs) = some cs := by
  induction cs with
  | nil => rfl
  | cons c cs ih =>
    rw [encode, List.flatMap_cons]
    rcases units_cases c with ⟨u, hunits, hhigh, hlow, hc⟩ | ⟨u, v, hunits, hu, hv, hc⟩
    · rw [hunits, List.singleton_append, decode_single hhigh hlow, ← encode, ih, hc,
        Option.map_some]
    · rw [hunits, List.cons_append, List.singleton_append, decode_pair hu hv, ← encode, ih, hc,
        Option.map_some]

theorem encode_injective : Function.Injective encode := by
  intro cs ds h
  have hdecode := congrArg decode h
  rw [decode_encode, decode_encode] at hdecode
  exact Option.some.inj hdecode

theorem units_single (hhigh : ¬IsHigh u) (hlow : ¬IsLow u) : units (single u) = [u] := by
  have hlt := u.toNat_lt
  unfold IsHigh at hhigh
  unfold IsLow at hlow
  have hvalid : u.toNat.isValidChar := by
    unfold Nat.isValidChar
    omega
  have hnat : (single u).toNat = u.toNat := charToNat_ofNat hvalid
  rw [units, hnat, if_pos hlt, UInt16.ofNat_toNat]

theorem units_pair (hu : IsHigh u) (hv : IsLow v) : units (pair u v) = [u, v] := by
  obtain ⟨hu, hu'⟩ := hu
  obtain ⟨hv, hv'⟩ := hv
  have hvalid : (0x10000 + (u.toNat - 0xD800) * 0x400 + (v.toNat - 0xDC00)).isValidChar := by
    unfold Nat.isValidChar
    omega
  have hnat := charToNat_ofNat hvalid
  have hhigh : 0xD800 + ((pair u v).toNat - 0x10000) / 0x400 = u.toNat := by
    unfold pair
    omega
  have hlow : 0xDC00 + ((pair u v).toNat - 0x10000) % 0x400 = v.toNat := by
    unfold pair
    omega
  have hlarge : ¬(pair u v).toNat < 0x10000 := by
    unfold pair
    omega
  rw [units, if_neg hlarge, hhigh, hlow, UInt16.ofNat_toNat, UInt16.ofNat_toNat]

theorem encode_of_decode (h : decode t = some cs) : encode cs = t := by
  induction t using decode.induct generalizing cs with
  | case1 =>
    cases h
    rfl
  | case2 u hsurrogate =>
    rw [decode, if_pos hsurrogate] at h
    cases h
  | case3 u hnot =>
    rw [not_or] at hnot
    rw [decode_single hnot.1 hnot.2] at h
    cases h
    rw [encode, List.flatMap_singleton, units_single hnot.1 hnot.2]
  | case4 u v t hhigh hlow ih =>
    rw [decode_pair hhigh hlow] at h
    obtain ⟨ds, hds, rfl⟩ := Option.map_eq_some_iff.mp h
    rw [encode, List.flatMap_cons, ← encode, ih hds, units_pair hhigh hlow]
    rfl
  | case5 u v t hhigh hlow =>
    rw [decode, if_pos hhigh, if_neg hlow] at h
    cases h
  | case6 u v t hhigh hlow =>
    rw [decode, if_neg hhigh, if_pos hlow] at h
    cases h
  | case7 u v t hhigh hlow ih =>
    rw [decode_single hhigh hlow] at h
    obtain ⟨ds, hds, rfl⟩ := Option.map_eq_some_iff.mp h
    rw [encode, List.flatMap_cons, ← encode, ih hds, units_single hhigh hlow]
    rfl

theorem decode_eq_some_iff : decode t = some cs ↔ encode cs = t :=
  ⟨encode_of_decode, fun h => h ▸ decode_encode cs⟩

/-- What is sent of a text: a surrogate without its other half becomes U+FFFD. -/
def scalars : List UInt16 → List Char
  | [] => []
  | [u] => [if IsHigh u ∨ IsLow u then '\uFFFD' else single u]
  | u :: v :: t =>
    if IsHigh u ∧ IsLow v then pair u v :: scalars t
    else (if IsHigh u ∨ IsLow u then '\uFFFD' else single u) :: scalars (v :: t)

theorem scalars_single (hhigh : ¬IsHigh u) (hlow : ¬IsLow u) :
    scalars (u :: t) = single u :: scalars t := by
  have hnot : ¬(IsHigh u ∨ IsLow u) := not_or.2 ⟨hhigh, hlow⟩
  cases t with
  | nil =>
    have hone : scalars [u] = [single u] := congrArg (· :: []) (if_neg hnot)
    exact hone
  | cons v t => rw [scalars, if_neg fun h => hhigh h.1, if_neg hnot]

theorem scalars_of_decode (h : decode t = some cs) : scalars t = cs := by
  induction t using decode.induct generalizing cs with
  | case1 => exact Option.some.inj h
  | case2 u hsurrogate =>
    rw [decode, if_pos hsurrogate] at h
    cases h
  | case3 u hnot =>
    rw [not_or] at hnot
    rw [decode_single hnot.1 hnot.2] at h
    rw [scalars_single hnot.1 hnot.2]
    exact Option.some.inj h
  | case4 u v t hhigh hlow ih =>
    rw [decode_pair hhigh hlow] at h
    obtain ⟨ds, hds, rfl⟩ := Option.map_eq_some_iff.mp h
    rw [scalars, if_pos ⟨hhigh, hlow⟩, ih hds]
  | case5 u v t hhigh hlow =>
    rw [decode, if_pos hhigh, if_neg hlow] at h
    cases h
  | case6 u v t hhigh hlow =>
    rw [decode, if_neg hhigh, if_pos hlow] at h
    cases h
  | case7 u v t hhigh hlow ih =>
    rw [decode_single hhigh hlow] at h
    obtain ⟨ds, hds, rfl⟩ := Option.map_eq_some_iff.mp h
    rw [scalars_single hhigh hlow, ih hds]

theorem scalars_encode (cs : List Char) : scalars (encode cs) = cs :=
  scalars_of_decode (decode_encode cs)

/-- A unit that is no surrogate parts what is before it from what is after it. -/
theorem scalars_append_single (s : List UInt16) (hhigh : ¬IsHigh u) (hlow : ¬IsLow u) :
    scalars (s ++ u :: t) = scalars s ++ single u :: scalars t := by
  induction s using scalars.induct with
  | case1 => exact scalars_single hhigh hlow
  | case2 w =>
    have hnot : ¬(IsHigh w ∧ IsLow u) := fun h => hlow h.2
    rw [List.singleton_append, scalars.eq_3, if_neg hnot, scalars_single hhigh hlow]
    rfl
  | case3 w v r hpair ih =>
    rw [List.cons_append, List.cons_append, scalars, if_pos hpair, ih, scalars, if_pos hpair,
      List.cons_append]
  | case4 w v r hpair ih =>
    rw [List.cons_append, List.cons_append, scalars, if_neg hpair, ← List.cons_append, ih, scalars,
      if_neg hpair, List.cons_append]

/-! Well-formed texts, unit by unit. -/

theorem wellFormed_encode (cs : List Char) : WellFormed (encode cs) := ⟨cs, rfl⟩

theorem wellFormed_iff : WellFormed t ↔ (decode t).isSome = true := by
  rw [Option.isSome_iff_exists]
  exact exists_congr fun _ => decode_eq_some_iff.symm

instance (t : List UInt16) : Decidable (WellFormed t) := decidable_of_iff _ wellFormed_iff.symm

theorem wellFormed_nil : WellFormed [] := wellFormed_encode []

theorem wellFormed_single (hhigh : ¬IsHigh u) (hlow : ¬IsLow u) :
    WellFormed (u :: t) ↔ WellFormed t := by
  rw [wellFormed_iff, wellFormed_iff, decode_single hhigh hlow, Option.isSome_map]

theorem wellFormed_pair (hu : IsHigh u) (hv : IsLow v) :
    WellFormed (u :: v :: t) ↔ WellFormed t := by
  rw [wellFormed_iff, wellFormed_iff, decode_pair hu hv, Option.isSome_map]

theorem not_wellFormed_high (hu : IsHigh u) : ¬WellFormed [u] := by
  rw [wellFormed_iff, decode, if_pos (.inl hu)]
  exact Bool.false_ne_true

theorem not_wellFormed_low (hu : IsLow u) : ¬WellFormed (u :: t) := by
  have hhigh : ¬IsHigh u := fun h => not_isLow h hu
  rw [wellFormed_iff]
  cases t with
  | nil =>
    rw [decode, if_pos (.inr hu)]
    exact Bool.false_ne_true
  | cons v t =>
    rw [decode, if_neg hhigh, if_pos hu]
    exact Bool.false_ne_true

/-- The unit at the position is a low surrogate, so that a cut there parts it from the high one. -/
def LowAt (t : List UInt16) (k : ℕ) : Prop := ∃ u, t[k]? = some u ∧ IsLow u

theorem lowAt_zero_cons : LowAt (u :: t) 0 ↔ IsLow u := by simp [LowAt]

theorem lowAt_succ_cons : LowAt (u :: t) (k + 1) ↔ LowAt t k := by simp [LowAt]

theorem lowAt_drop {n : ℕ} : LowAt (t.drop n) k ↔ LowAt t (n + k) := by simp [LowAt]

theorem not_lowAt_of_length_le (h : t.length ≤ k) : ¬LowAt t k := by
  rintro ⟨u, hu, -⟩
  rw [List.getElem?_eq_none h] at hu
  cases hu

/-- Both parts of a cut are texts unless it parts two surrogates, and then neither is one. -/
theorem WellFormed.cut (h : WellFormed t) (k : ℕ) :
    (WellFormed (t.take k) ↔ ¬LowAt t k) ∧ (WellFormed (t.drop k) ↔ ¬LowAt t k) := by
  obtain ⟨cs, rfl⟩ := h
  induction cs generalizing k with
  | nil =>
    have hnot : ¬LowAt (encode []) k := not_lowAt_of_length_le (Nat.zero_le k)
    have htake : (encode []).take k = [] := List.take_nil
    have hdrop : (encode []).drop k = [] := List.drop_nil
    rw [htake, hdrop]
    exact ⟨iff_of_true wellFormed_nil hnot, iff_of_true wellFormed_nil hnot⟩
  | cons c cs ih =>
    have hwhole := wellFormed_encode (c :: cs)
    have hsplit : encode (c :: cs) = units c ++ encode cs := List.flatMap_cons
    rw [hsplit] at hwhole ⊢
    rcases units_cases c with ⟨u, hunits, hhigh, hlow, -⟩ | ⟨u, v, hunits, hu, hv, -⟩
    · rw [hunits, List.singleton_append] at hwhole ⊢
      cases k with
      | zero =>
        rw [lowAt_zero_cons]
        exact ⟨iff_of_true wellFormed_nil hlow, iff_of_true hwhole hlow⟩
      | succ k =>
        rw [List.take_succ_cons, List.drop_succ_cons, wellFormed_single hhigh hlow,
          lowAt_succ_cons]
        exact ih k
    · rw [hunits, List.cons_append, List.singleton_append] at hwhole ⊢
      match k with
      | 0 =>
        rw [lowAt_zero_cons]
        exact ⟨iff_of_true wellFormed_nil (not_isLow hu), iff_of_true hwhole (not_isLow hu)⟩
      | 1 =>
        rw [lowAt_succ_cons, lowAt_zero_cons]
        exact ⟨iff_of_false (not_wellFormed_high hu) (not_not.2 hv),
          iff_of_false (not_wellFormed_low hv) (not_not.2 hv)⟩
      | k + 2 =>
        rw [List.take_succ_cons, List.take_succ_cons, List.drop_succ_cons, List.drop_succ_cons,
          wellFormed_pair hu hv, lowAt_succ_cons, lowAt_succ_cons]
        exact ih k

end Utf16
