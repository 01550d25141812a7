import ThreefoldSdk.Lib.Hex

/-! The texts of hashes and signatures (`Deployment.from_hex`, `Deployment.to_hex`). -/

namespace ThreefoldSdk.Zos.Deployment

open Hex

/-- The bytes of a text; a last character that has no second one is left out. -/
def fromHex : List Char → List UInt8
  | a :: b :: s => toByte (parseInt [a, b]) :: fromHex s
  | _ => []

def toHex (bs : List UInt8) : List Char :=
  bs.flatMap fun b => [digit (b.toNat / 16 % 16), digit (b.toNat % 16)]

section
variable {a b : Char} {s : List Char} {bs : List UInt8}

/-- A byte has two digits. -/
theorem toHex_eq (bs : List UInt8) : toHex bs = encode bs := by
  refine List.flatMap_congr fun b _ => ?_
  have hb := b.toNat_lt
  have hhigh : b.toNat / 16 % 16 = b.toNat / 16 := Nat.mod_eq_of_lt (by omega)
  rw [hhigh]

theorem fromHex_toHex (bs : List UInt8) : fromHex (toHex bs) = bs := by
  rw [toHex_eq]
  induction bs with
  | nil => rfl
  | cons b bs ih =>
    rw [encode_cons, fromHex, toByte_digits, ih]

/-- Two digits in lower case are those of the byte they are read as. -/
theorem digits_toByte (ha : IsLower a) (hb : IsLower b) :
    [digit ((toByte (parseInt [a, b])).toNat / 16), digit ((toByte (parseInt [a, b])).toNat % 16)] =
      [a, b] := by
  obtain ⟨m, hm, rfl⟩ := ha
  obtain ⟨n, hn, rfl⟩ := hb
  rw [parseInt_pair (value_digit hm) (value_digit hn), toByte_pair hm hn]
  have hhigh : (16 * m + n) / 16 = m := by omega
  have hlow : (16 * m + n) % 16 = n := by omega
  rw [hhigh, hlow]

theorem toHex_pair_iff :
    toHex (fromHex (a :: b :: s)) = a :: b :: s ↔
      IsLower a ∧ IsLower b ∧ toHex (fromHex s) = s := by
  have hwritten : toHex (fromHex (a :: b :: s)) =
      [digit ((toByte (parseInt [a, b])).toNat / 16),
        digit ((toByte (parseInt [a, b])).toNat % 16)] ++ toHex (fromHex s) := by
    rw [fromHex, toHex_eq, toHex_eq, encode_cons]
    rfl
  rw [hwritten]
  constructor
  · intro h
    have hparts : _ ++ toHex (fromHex s) = [a, b] ++ s := h
    obtain ⟨hpair, hrest⟩ := List.append_inj hparts rfl
    have hmem : ∀ c ∈ [a, b], IsLower c := by
      intro c hc
      rw [← hpair] at hc
      have hbyte := (toByte (parseInt [a, b])).toNat_lt
      rcases List.mem_pair.mp hc with hc | hc
      · exact ⟨_, by omega, hc⟩
      · exact ⟨_, Nat.mod_lt _ (by decide), hc⟩
    exact ⟨hmem a List.mem_cons_self, hmem b (List.mem_cons_of_mem _ List.mem_cons_self), hrest⟩
  · intro ⟨ha, hb, hrest⟩
    rw [digits_toByte ha hb, hrest]
    rfl

theorem toHex_fromHex_iff (s : List Char) :
    toHex (fromHex s) = s ↔ s.length % 2 = 0 ∧ ∀ c ∈ s, IsLower c := by
  induction s using fromHex.induct with
  | case1 a b s ih =>
    rw [toHex_pair_iff, ih, List.forall_mem_cons, List.forall_mem_cons, List.length_cons,
      List.length_cons]
    have hlength : (s.length + 1 + 1) % 2 = s.length % 2 := by omega
    rw [hlength]
    tauto
  | case2 s hshort =>
    cases s with
    | nil => simp [fromHex, toHex]
    | cons a s =>
      cases s with
      | nil => simp [fromHex, toHex]
      | cons b s => exact absurd rfl (hshort a b s)

/-- Bytes that are written are read back, and a text that is read is written back exactly when it is
one of whole bytes, in lower case. -/
theorem hexTexts :
    (∀ bs, fromHex (toHex bs) = bs) ∧
      ∀ s, toHex (fromHex s) = s ↔ s.length % 2 = 0 ∧ ∀ c ∈ s, IsLower c :=
  ⟨fromHex_toHex, toHex_fromHex_iff⟩

end

end ThreefoldSdk.Zos.Deployment
