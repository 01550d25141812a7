import ThreefoldSdk.Lib.Forall2
import ThreefoldSdk.Lib.Utf16
import ThreefoldSdk.Rmb.Envelope
import ThreefoldSdk.Storage.Fragments

/-! The fragments of a value as texts: `split` cuts between code units, and the encryption of a
fragment (`clients/tf-grid/kvstore.ts`) encodes its characters as UTF-8. -/

namespace ThreefoldSdk.Storage
open Primitives Probe Frame Rmb Utf16

def utf16 (v : String) : Text := encode v.toList

/-- The packages `tweetnacl` and `tweetnacl-util`, with the user's secret. -/
structure Nacl where
  decodeUTF8 : Text → Except GridError Bytes
  secretbox : Bytes → Bytes → Bytes
  encodeBase64 : Bytes → Text
  /-- The nonce that is drawn as the `n`-th. -/
  randomNonce : ℕ → Bytes
  decodeUTF8_utf16 : ∀ v, decodeUTF8 (utf16 v) = .ok (utf8 v)
  /-- `encodeURIComponent` throws at a surrogate without its other half. -/
  decodeUTF8_malformed : ∀ t, ¬WellFormed t → ∃ e, decodeUTF8 t = .error e

section
variable (nacl : Nacl)

/-- `TFKVStore.encrypt`. -/
def encrypt (n : ℕ) (message : Text) : Except GridError Text := do
  let encodedMessage ← nacl.decodeUTF8 message
  let nonce := nacl.randomNonce n
  return nacl.encodeBase64 (nacl.secretbox encodedMessage nonce ++ nonce)

/-- The fragments of a value are texts, each of which can be encrypted, and together they are the
value. -/
structure Storable (key : List Char) (v : String) : Prop where
  wellFormed : ∀ p ∈ split key (utf16 v), WellFormed p.2
  nonempty : ∀ p ∈ split key (utf16 v), p.2 ≠ []
  encrypted : ∀ n, ∃ calls, setSplits (encrypt nacl) n (split key (utf16 v)) = .ok calls
  unaltered : ∃ bytes, List.Forall₂ (fun p b => nacl.decodeUTF8 p.2 = .ok b)
    (split key (utf16 v)) bytes ∧ bytes.flatten = utf8 v
  whole : ((split key (utf16 v)).map Prod.snd).flatten = utf16 v

end

section
variable {nacl : Nacl} {k : List Char} {n : ℕ} {value : Text}
  {splits : List (List Char × Text)}

theorem exists_utf16 (nacl : Nacl) {t : Text} (h : WellFormed t) :
    ∃ v, utf16 v = t ∧ nacl.decodeUTF8 t = .ok (utf8 v) := by
  obtain ⟨cs, rfl⟩ := h
  have hcs : utf16 (String.ofList cs) = encode cs := by rw [utf16, String.toList_ofList]
  refine ⟨String.ofList cs, hcs, ?_⟩
  rw [← hcs]
  exact nacl.decodeUTF8_utf16 _

theorem encrypt_eq_ok_iff (nacl : Nacl) (n : ℕ) {t : Text} : (∃ c, encrypt nacl n t = .ok c) ↔ WellFormed t := by
  constructor
  · rintro ⟨c, hok⟩
    obtain ⟨bytes, hbytes, -⟩ := exceptBind_eq_ok.mp hok
    by_contra hmalformed
    obtain ⟨e, he⟩ := nacl.decodeUTF8_malformed t hmalformed
    rw [hbytes] at he
    cases he
  · intro h
    obtain ⟨v, -, hbytes⟩ := exists_utf16 nacl h
    exact ⟨_, exceptBind_eq_ok.mpr ⟨_, hbytes, rfl⟩⟩

/-- Encrypting the fragments fails at one that is no text. -/
theorem setSplits_eq_ok_iff :
    (∃ calls, setSplits (encrypt nacl) n splits = .ok calls) ↔ ∀ p ∈ splits, WellFormed p.2 := by
  induction splits generalizing n with
  | nil => exact iff_of_true ⟨[], rfl⟩ fun p hp => nomatch hp
  | cons p splits ih =>
    rw [List.forall_mem_cons, ← encrypt_eq_ok_iff nacl n, ← ih (n := n + 1)]
    constructor
    · rintro ⟨calls, hok⟩
      obtain ⟨c, hc, hok⟩ := exceptBind_eq_ok.mp hok
      obtain ⟨rest, hrest, -⟩ := exceptBind_eq_ok.mp hok
      exact ⟨⟨c, hc⟩, rest, hrest⟩
    · rintro ⟨⟨c, hc⟩, rest, hrest⟩
      exact ⟨_, exceptBind_eq_ok.mpr ⟨c, hc, exceptBind_eq_ok.mpr ⟨rest, hrest, rfl⟩⟩⟩

/-- Texts that are a value together are encoded as the value is. -/
theorem utf8_of_flatten {v : String} {vs : List String} (h : (vs.map utf16).flatten = utf16 v) :
    (vs.map utf8).flatten = utf8 v := by
  have hencode : encode (vs.flatMap String.toList) = encode v.toList := by
    rw [encode, List.flatMap_assoc]
    exact h
  unfold utf8
  rw [← encode_injective hencode, List.flatMap_assoc]
  rfl

/-- What the fragments are encoded as is what the value is encoded as. -/
theorem encoded_of_wellFormed {v : String} (h : ∀ p ∈ splits, WellFormed p.2)
    (hwhole : (splits.map Prod.snd).flatten = utf16 v) :
    ∃ bytes, List.Forall₂ (fun p b => nacl.decodeUTF8 p.2 = .ok b) splits bytes ∧
      bytes.flatten = utf8 v := by
  obtain ⟨vs, hvs⟩ := Forall2.exists_of_forall fun p hp => exists_utf16 nacl (h p hp)
  refine ⟨vs.map utf8, List.forall₂_map_right_iff.mpr (hvs.imp fun p v hv => hv.2), ?_⟩
  have hvalues : vs.map utf16 = splits.map Prod.snd := Forall2.map_eq hvs fun p v hv => hv.1
  exact utf8_of_flatten (hvalues ▸ hwhole)

theorem utf16_eq_nil_iff {v : String} : utf16 v = [] ↔ v = "" := by
  have hempty : encode "".toList = [] := rfl
  rw [utf16, ← hempty, encode_injective.eq_iff, String.toList_inj]

/-- The rest follows from what the fragments are. -/
theorem storable_iff {v : String} :
    Storable nacl k v ↔ (∀ f ∈ (split k (utf16 v)).map Prod.snd, WellFormed f ∧ f ≠ []) ∧
      ((split k (utf16 v)).map Prod.snd).flatten = utf16 v := by
  rw [List.forall_mem_map]
  constructor
  · intro h
    exact ⟨fun p hp => ⟨h.wellFormed p hp, h.nonempty p hp⟩, h.whole⟩
  · rintro ⟨hall, hwhole⟩
    have hwell : ∀ p ∈ split k (utf16 v), WellFormed p.2 := fun p hp => (hall p hp).1
    exact {
      wellFormed := hwell
      nonempty := fun p hp => (hall p hp).2
      encrypted := fun n => setSplits_eq_ok_iff.mpr hwell
      unaltered := encoded_of_wellFormed hwell hwhole
      whole := hwhole }

theorem pieces_nil (n : ℕ) : pieces n [] = [[]] := by
  cases n with
  | zero => rfl
  | succ n => exact if_neg (Nat.not_lt_zero SPLIT_SIZE)

theorem storable_proto_iff {v : String} : Storable nacl "__proto__".toList v ↔ v = "" := by
  rw [storable_iff, split_proto_values, ← utf16_eq_nil_iff]
  constructor
  · rintro ⟨-, hwhole⟩
    by_contra hne
    obtain ⟨f, fs, hpieces⟩ :=
      List.exists_cons_of_ne_nil (pieces_ne_nil (utf16 v).length (utf16 v))
    have hf : f ≠ [] :=
      nonempty_of_mem_pieces hne f (hpieces ▸ List.mem_cons_self)
    have hflat := flatten_pieces (utf16 v).length (utf16 v)
    rw [hpieces, List.tail_cons] at hwhole
    rw [hpieces, List.flatten_cons, hwhole] at hflat
    exact hf (List.append_cancel_right (hflat.trans (List.nil_append _).symm))
  · intro hempty
    rw [hempty, pieces_nil]
    exact ⟨fun f hf => (nomatch hf), rfl⟩

theorem storable_of_key {v : String} (hk : k ≠ "__proto__".toList) :
    Storable nacl k v ↔ v ≠ "" ∧ ∀ i, 0 < i → ¬LowAt (utf16 v) (SPLIT_SIZE * i) := by
  have hcuts := wellFormed_pieces_iff (n := (utf16 v).length) (wellFormed_encode v.toList)
    (Nat.le_add_right _ _)
  rw [storable_iff, split_values hk, and_iff_left (flatten_pieces _ _), ne_eq, ← utf16_eq_nil_iff]
  constructor
  · intro hall
    refine ⟨fun hempty => ?_, hcuts.mp fun f hf => (hall f hf).1⟩
    rw [hempty, pieces_nil] at hall
    exact (hall [] List.mem_cons_self).2 rfl
  · rintro ⟨hne, hlow⟩ f hf
    exact ⟨hcuts.mpr hlow f hf, nonempty_of_mem_pieces hne f hf⟩

/-- `set` stores a value when no cut parts two surrogates, and the key is not `__proto__`. -/
theorem split_storable_iff (nacl : Nacl) (key : List Char) (v : String) :
    Storable nacl key v ↔
      (key = "__proto__".toList ∧ v = "") ∨
        (key ≠ "__proto__".toList ∧ v ≠ "" ∧
          ∀ i, 0 < i → ¬LowAt (utf16 v) (SPLIT_SIZE * i)) := by
  by_cases hk : key = "__proto__".toList
  · rw [hk, storable_proto_iff]
    simp
  · rw [storable_of_key hk, or_iff_right fun h => hk h.1, and_iff_right hk]

end

/-- The packages, without the sealing. -/
def unsealed : Nacl where
  decodeUTF8 t :=
    match decode t with
    | some cs => .ok (utf8 (String.ofList cs))
    | none => .error (.base "URIError" "URI malformed")
  secretbox message _ := message
  encodeBase64 bytes := bytes.map UInt8.toUInt16
  randomNonce _ := List.replicate 24 0
  decodeUTF8_utf16 v := by
    rw [utf16, decode_encode]
    exact congrArg (Except.ok ∘ utf8) String.ofList_toList
  decodeUTF8_malformed t ht := by
    rw [wellFormed_iff, Bool.not_eq_true, Option.isSome_eq_false_iff, Option.isNone_iff_eq_none]
      at ht
    rw [ht]
    exact ⟨_, rfl⟩

/-- A character of two code units after others of one. -/
def faceAfter (n : ℕ) : String := String.ofList (List.replicate n 'a' ++ ['😀'])

theorem utf16_faceAfter (n : ℕ) :
    utf16 (faceAfter n) = List.replicate n 97 ++ [0xD83D, 0xDE00] := by
  have hone : units 'a' = [97] := by decide
  have htwo : ['😀'].flatMap units = [0xD83D, 0xDE00] := by decide
  rw [utf16, faceAfter, String.toList_ofList, encode, List.flatMap_append, List.flatMap_replicate,
    hone, List.flatten_replicate_singleton, htwo]

theorem lowAt_faceAfter (n : ℕ) : LowAt (utf16 (faceAfter n)) (n + 1) := by
  refine ⟨0xDE00, ?_, by decide⟩
  rw [utf16_faceAfter, List.getElem?_append_right (by simp), List.length_replicate,
    Nat.add_sub_cancel_left]
  rfl

theorem faceAfter_not_storable : ¬Storable unsealed "notes".toList (faceAfter 1489) :=
  fun h => ((storable_of_key (by decide)).mp h).2 1 Nat.one_pos (lowAt_faceAfter 1489)

end ThreefoldSdk.Storage
