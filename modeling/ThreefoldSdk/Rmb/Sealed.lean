import ThreefoldSdk.Lib.Hex
import ThreefoldSdk.Rmb.Read
import ThreefoldSdk.Rmb.Send

/-! Data that a client seals for a twin (`ClientEnvelope.encrypt`) and that the twin opens
(`ClientEnvelope.decrypt`), with the key that each of them derives from its own secret. -/

namespace ThreefoldSdk.Rmb

open Hex

/-- A private key, as the bytes of a seed or as a text. -/
inductive PrivateKey where
  | seed (bytes : Bytes)
  | text (s : List Char)

/-- What the libraries do with keys; nothing, when they throw. -/
structure Keys where
  validateMnemonic : List Char → Bool
  mnemonicToMiniSecret : List Char → Bytes
  isAddress : List Char → Bool
  getPublicKey : PrivateKey → Option Bytes
  getSharedSecret : PrivateKey → Bytes → Option Bytes
  sha256 : Bytes → Bytes
  /-- With the data, the key and the nonce. -/
  encrypt : Bytes → Bytes → Bytes → Option Bytes
  decrypt : Bytes → Bytes → Bytes → Option Bytes

/-- What the libraries promise. -/
structure Keys.Lawful (keys : Keys) : Prop where
  /-- A text of hexadecimal digits is an address. -/
  hexAddress : ∀ s : List Char, s.length = 64 → s.all isDigit = true →
    keys.isAddress ('0' :: 'x' :: s) = true
  /-- A mnemonic is none. -/
  mnemonicAddress : ∀ s, keys.validateMnemonic s = true →
    keys.isAddress s = false ∧ keys.isAddress ('0' :: 'x' :: s) = false
  miniSecret : ∀ s, keys.validateMnemonic s = true → (keys.mnemonicToMiniSecret s).length = 32
  point : ∀ p, keys.getPublicKey p ≠ some []
  /-- Two keys have one secret. -/
  agreed : ∀ p q pubKey pubKey', keys.getPublicKey p = some pubKey →
    keys.getPublicKey q = some pubKey' →
    keys.getSharedSecret p pubKey' = keys.getSharedSecret q pubKey
  opened : ∀ data key iv encrypted, keys.encrypt data key iv = some encrypted →
    keys.decrypt encrypted key iv = some data

section
variable (keys : Keys)

def isValidSeed (seed : List Char) : Bool := !seed.isEmpty && seed.all isDigit

/-- A public key as its text. -/
def publicKeyText (pubKey : Bytes) : String := String.ofList ('0' :: 'x' :: encode pubKey)

def getPublicKey (privKey : PrivateKey) : Option String :=
  (keys.getPublicKey privKey).map publicKeyText

def generatePublicKey (secret : List Char) : Option String :=
  if keys.validateMnemonic secret then
    getPublicKey keys (.seed (keys.mnemonicToMiniSecret secret))
  else
    let privKey := if ['0', 'x'].isPrefixOf secret then secret.drop 2 else secret
    if isValidSeed privKey && privKey.length = 64 then getPublicKey keys (.text privKey) else none

/-- The private key of `createShared`. -/
def privateKey (hexSeedOrMnemonic : List Char) : Option PrivateKey :=
  if hexSeedOrMnemonic.length = 66 && keys.isAddress hexSeedOrMnemonic then
    some (.text (hexSeedOrMnemonic.drop 2))
  else if hexSeedOrMnemonic.length = 64 && keys.isAddress ('0' :: 'x' :: hexSeedOrMnemonic) then
    some (.text hexSeedOrMnemonic)
  else if keys.validateMnemonic hexSeedOrMnemonic then
    some (.seed ((keys.mnemonicToMiniSecret hexSeedOrMnemonic).take 32))
  else none

def createShared (pubKey : Bytes) (hexSeedOrMnemonic : List Char) : Option Bytes := do
  let privateKey ← privateKey keys hexSeedOrMnemonic
  let pointX ← keys.getSharedSecret privateKey pubKey
  return keys.sha256 ((pointX.drop 1).take 32)

/-- The pairs of digits of a text; what stands between them is skipped. -/
def pairs : List Char → List (Char × Char)
  | a :: b :: s => if isDigit a && isDigit b then (a, b) :: pairs s else pairs (b :: s)
  | _ => []

/-- The bytes of a text; nothing for a text without pairs, for which it throws. -/
def hexStringToArrayBuffer (hexString : List Char) : Option Bytes :=
  let hexString := if ['0', 'x'].isPrefixOf hexString then hexString.drop 2 else hexString
  let ps := pairs hexString
  if ps = [] then none else some (ps.map fun p => toByte (parseInt [p.1, p.2]))

namespace ClientEnvelope

/-- Each entry is a random number below ten, without its fraction. -/
def createNonce (random : ℕ → Fin 10) (size : ℕ) : Bytes :=
  (List.range size).map fun i => UInt8.ofNat (random i)

def encrypt (random : ℕ → Fin 10) (mnemonic : List Char) (destTwinPk : String)
    (requestData : Bytes) : Option Bytes := do
  let pubKey ← hexStringToArrayBuffer destTwinPk.toList
  let sharedKey ← createShared keys pubKey mnemonic
  let nonce := createNonce random 12
  let encryptedArr ← keys.encrypt requestData sharedKey nonce
  return nonce ++ encryptedArr

/-- With the twin that `verify` has set. -/
def decrypt (mnemonic : List Char) (twin : Twin) (cipher : Bytes) : Option Bytes := do
  let pk ← twin.pk
  let pubKey ← hexStringToArrayBuffer pk.toList
  let sharedKey ← createShared keys pubKey mnemonic
  keys.decrypt (cipher.drop 12) sharedKey (cipher.take 12)

end ClientEnvelope

end

section
variable {keys : Keys} {secret secret' : List Char} {pk pk' : String} {pubKey : Bytes}

/-! The keys. -/

theorem pairs_encode (bytes : Bytes) :
    (pairs (encode bytes)).map (fun p => toByte (parseInt [p.1, p.2])) = bytes := by
  induction bytes with
  | nil => rfl
  | cons b bytes ih =>
    have hb := b.toNat_lt
    have hhigh : isDigit (digit (b.toNat / 16)) = true := IsLower.isDigit ⟨_, by omega, rfl⟩
    have hlow : isDigit (digit (b.toNat % 16)) = true :=
      IsLower.isDigit ⟨_, Nat.mod_lt _ (by decide), rfl⟩
    rw [encode_cons, pairs, hhigh, hlow, Bool.and_self, if_pos rfl, List.map_cons, ih, toByte_digits]

theorem read_publicKeyText (h : pubKey ≠ []) :
    hexStringToArrayBuffer (publicKeyText pubKey).toList = some pubKey := by
  have hmap := pairs_encode pubKey
  have hpairs : pairs (encode pubKey) ≠ [] := by
    intro hnil
    rw [hnil] at hmap
    exact h hmap.symm
  unfold hexStringToArrayBuffer publicKeyText
  rw [String.toList_ofList]
  have hprefix : ['0', 'x'].isPrefixOf ('0' :: 'x' :: encode pubKey) = true := rfl
  dsimp only
  rw [if_pos hprefix, List.drop_succ_cons, List.drop_succ_cons, List.drop_zero, if_neg hpairs, hmap]

/-- The secret behind a public key gives `createShared` the same private key. -/
theorem privateKey_of_generated (hlawful : keys.Lawful)
    (h : generatePublicKey keys secret = some pk) :
    ∃ p pubKey, privateKey keys secret = some p ∧ keys.getPublicKey p = some pubKey ∧
      pk = publicKeyText pubKey := by
  unfold generatePublicKey at h
  unfold privateKey
  by_cases hmnemonic : keys.validateMnemonic secret = true
  · rw [if_pos hmnemonic] at h
    obtain ⟨pubKey, hpub, hpk⟩ := Option.map_eq_some_iff.mp h
    obtain ⟨haddress, hmarked⟩ := hlawful.mnemonicAddress secret hmnemonic
    refine ⟨_, pubKey, ?_, hpub, hpk.symm⟩
    rw [haddress, hmarked, Bool.and_false, Bool.and_false, if_neg Bool.false_ne_true,
      if_neg Bool.false_ne_true, if_pos hmnemonic,
      List.take_of_length_le (hlawful.miniSecret secret hmnemonic).le]
  · rw [if_neg hmnemonic] at h
    dsimp only at h
    by_cases hmark : ['0', 'x'].isPrefixOf secret = true
    · obtain ⟨rest, rfl⟩ := List.isPrefixOf_iff_prefix.mp hmark
      have hdrop : (['0', 'x'] ++ rest).drop 2 = rest := rfl
      rw [if_pos hmark, hdrop] at h
      split_ifs at h with hseed
      obtain ⟨hvalid, hlength⟩ := Bool.and_eq_true_iff.mp hseed
      obtain ⟨pubKey, hpub, hpk⟩ := Option.map_eq_some_iff.mp h
      have hlength' := of_decide_eq_true hlength
      have haddress : keys.isAddress (['0', 'x'] ++ rest) = true :=
        hlawful.hexAddress rest hlength' (Bool.and_eq_true_iff.mp hvalid).2
      have hall : (['0', 'x'] ++ rest).length = 66 := by
        rw [List.length_append, hlength']
        rfl
      refine ⟨_, pubKey, ?_, hpub, hpk.symm⟩
      rw [hall, haddress, hdrop]
      rfl
    · rw [if_neg hmark] at h
      split_ifs at h with hseed
      obtain ⟨hvalid, hlength⟩ := Bool.and_eq_true_iff.mp hseed
      obtain ⟨pubKey, hpub, hpk⟩ := Option.map_eq_some_iff.mp h
      have hlength' := of_decide_eq_true hlength
      have haddress : keys.isAddress ('0' :: 'x' :: secret) = true :=
        hlawful.hexAddress secret hlength' (Bool.and_eq_true_iff.mp hvalid).2
      refine ⟨_, pubKey, ?_, hpub, hpk.symm⟩
      rw [hlength', haddress]
      rfl

/-- Two twins derive one key, each from its own secret and the public key of the other. -/
theorem createShared_agreed (hlawful : keys.Lawful) (h : generatePublicKey keys secret = some pk)
    (h' : generatePublicKey keys secret' = some pk') :
    ∃ pubKey pubKey', hexStringToArrayBuffer pk.toList = some pubKey ∧
      hexStringToArrayBuffer pk'.toList = some pubKey' ∧
      createShared keys pubKey' secret = createShared keys pubKey secret' := by
  obtain ⟨p, pubKey, hp, hpub, rfl⟩ := privateKey_of_generated hlawful h
  obtain ⟨p', pubKey', hp', hpub', rfl⟩ := privateKey_of_generated hlawful h'
  have hne : pubKey ≠ [] := fun hnil => hlawful.point p (hnil ▸ hpub)
  have hne' : pubKey' ≠ [] := fun hnil => hlawful.point p' (hnil ▸ hpub')
  refine ⟨pubKey, pubKey', read_publicKeyText hne, read_publicKeyText hne', ?_⟩
  unfold createShared
  rw [hp, hp']
  show (keys.getSharedSecret p pubKey').bind _ = (keys.getSharedSecret p' pubKey).bind _
  rw [hlawful.agreed p p' pubKey pubKey' hpub hpub']

/-! Sealed data. -/

theorem length_createNonce (random : ℕ → Fin 10) (size : ℕ) :
    (ClientEnvelope.createNonce random size).length = size := by
  unfold ClientEnvelope.createNonce
  rw [List.length_map, List.length_range]

/-- What one twin seals for another, the other opens. -/
theorem decrypt_encrypt {random : ℕ → Fin 10} {twin : Twin} {data cipher : Bytes}
    (hlawful : keys.Lawful) (h : generatePublicKey keys secret = some pk)
    (h' : generatePublicKey keys secret' = some pk') (htwin : twin.pk = some pk)
    (hcipher : ClientEnvelope.encrypt keys random secret pk' data = some cipher) :
    ClientEnvelope.decrypt keys secret' twin cipher = some data ∧ 0 < cipher.length := by
  obtain ⟨pubKey, pubKey', hread, hread', hagreed⟩ := createShared_agreed hlawful h h'
  unfold ClientEnvelope.encrypt at hcipher
  obtain ⟨read, hreadPk, hcipher⟩ := Option.bind_eq_some_iff.mp hcipher
  have hsame : read = pubKey' := Option.some.inj (hreadPk.symm.trans hread')
  subst hsame
  obtain ⟨sharedKey, hkey, hcipher⟩ := Option.bind_eq_some_iff.mp hcipher
  obtain ⟨encrypted, hencrypted, hcipher⟩ := Option.bind_eq_some_iff.mp hcipher
  have hparts : ClientEnvelope.createNonce random 12 ++ encrypted = cipher :=
    Option.some.inj hcipher
  have hnonce := length_createNonce random 12
  subst hparts
  constructor
  · unfold ClientEnvelope.decrypt
    rw [htwin]
    show (hexStringToArrayBuffer pk.toList).bind _ = _
    rw [hread]
    show (createShared keys pubKey secret').bind _ = _
    rw [← hagreed, hkey]
    show keys.decrypt _ sharedKey _ = _
    rw [List.drop_left' hnonce, List.take_left' hnonce]
    exact hlawful.opened data sharedKey _ encrypted hencrypted
  · rw [List.length_append, hnonce]
    omega

/-! Requests. -/

section
variable {α : Type} {crypto : Crypto} {twins : ℕ → Option Twin} {client : Client}
  {args : RequestArgs} {e received : Envelope}

/-- What a request carries, and what is read of its sender. -/
theorem payload_of_send {encrypt : String → Bytes → Option Bytes}
    (h : client.send crypto twins encrypt args = some e) :
    ∃ destTwin payload, twins args.destinationTwinId = some destTwin ∧
      client.payload encrypt destTwin args.requestData = some payload ∧
      e.payload = some payload ∧ e.source = some client.source ∧
      e.getSchema = "application/json" := by
  unfold Client.send at h
  obtain ⟨destTwin, hdest, h⟩ := Option.bind_eq_some_iff.mp h
  obtain ⟨payload, hpayload, h⟩ := Option.bind_eq_some_iff.mp h
  obtain ⟨relay, -, h⟩ := Option.bind_eq_some_iff.mp h
  refine ⟨destTwin, payload, hdest, hpayload, ?_⟩
  cases hsigner : client.signer with
  | none =>
    rw [hsigner] at h
    rw [← Option.some.inj h]
    exact ⟨rfl, rfl, rfl⟩
  | some signer =>
    rw [hsigner] at h
    obtain ⟨signature, -, h⟩ := Option.bind_eq_some_iff.mp h
    rw [← Option.some.inj h]
    exact ⟨rfl, rfl, rfl⟩

/-- A client that reads with its own secret. -/
def Context.opening (keys : Keys) (secret : List Char) (crypto : Crypto)
    (twins : ℕ → Option Twin) (parse : Bytes → Option α) : Context α where
  crypto := crypto
  twins := twins
  decrypt := ClientEnvelope.decrypt keys secret
  parse := parse

/-- The sender is found by the address that was received. -/
theorem source_of_received (hsame : SameReading received e) (hsource : e.source = some client.source)
    (htwin : twins client.twin.id = some client.twin) :
    (received.source.bind fun source => twins source.twin) = some client.twin := by
  have hreads := hsame.source
  rw [hsource] at hreads
  obtain ⟨address, haddress, heq⟩ := Option.map_eq_some_iff.mp hreads
  rw [haddress]
  show twins address.twin = some client.twin
  rw [(Prod.mk.inj heq).1]
  exact htwin

/-- The data that a connected client sends are what the twin they are for reads: sealed, where its
key is on the chain, and plain where it has none. -/
theorem sent_opens {random : ℕ → Fin 10} {parse : Bytes → Option α} (hlawful : keys.Lawful)
    (hsender : generatePublicKey keys secret = some pk) (hpk : client.twin.pk = some pk)
    (htwin : twins client.twin.id = some client.twin)
    (hreceiver : ∀ destTwin, twins args.destinationTwinId = some destTwin →
      truthy destTwin.pk = false ∨ destTwin.pk = generatePublicKey keys secret')
    (hdata : args.requestData ≠ some [])
    (hsend : client.send crypto twins (ClientEnvelope.encrypt keys random secret) args = some e)
    (hsame : SameReading received e) :
    readPayload (Context.opening keys secret' crypto twins parse) (ClientEnvelope.new received) =
      args.requestData.map parse := by
  obtain ⟨destTwin, payload, hdest, hpayload, hcarried, hsource, hschema⟩ := payload_of_send hsend
  have hread := (sameReading_new (hsame.schema.trans hschema)).trans hsame
  have hplain : (ClientEnvelope.new received).plain = e.plain := hread.plain
  have hcipher : (ClientEnvelope.new received).cipher = e.cipher := hread.cipher
  have hfound : ((ClientEnvelope.new received).source.bind fun source => twins source.twin) =
      some client.twin := source_of_received hread hsource htwin
  unfold readPayload
  rw [hplain, hcipher]
  unfold Client.payload at hpayload
  cases hrequest : args.requestData with
  | none =>
    rw [hrequest] at hpayload
    have hempty : e.payload = some (.plain []) := by
      rw [hcarried, ← hpayload]
    unfold Envelope.plain Envelope.cipher
    rw [hempty]
    rfl
  | some data =>
    rw [hrequest] at hpayload
    dsimp only at hpayload
    by_cases hkey : (truthy destTwin.pk && truthy client.twin.pk) = true
    · rw [if_pos hkey] at hpayload
      obtain ⟨cipher, hencrypted, hpayload⟩ := Option.map_eq_some_iff.mp hpayload
      have htruthy := (Bool.and_eq_true_iff.mp hkey).1
      have hgenerated : destTwin.pk = generatePublicKey keys secret' := by
        rcases hreceiver destTwin hdest with hnone | hgenerated
        · exact absurd (htruthy.symm.trans hnone) (by decide)
        · exact hgenerated
      obtain ⟨pk', hpk'⟩ : ∃ pk', destTwin.pk = some pk' := by
        cases hnone : destTwin.pk with
        | none =>
          rw [hnone] at htruthy
          cases htruthy
        | some pk' => exact ⟨pk', rfl⟩
      rw [hpk', Option.getD_some] at hencrypted
      obtain ⟨hopened, hpos⟩ := decrypt_encrypt hlawful hsender (hgenerated.symm.trans hpk') hpk
        hencrypted
      have hsealed : e.payload = some (.cipher cipher) := by
        rw [hcarried, hpayload]
      have hnoPlain : e.plain = [] := by
        unfold Envelope.plain
        rw [hsealed]
      have hcarries : e.cipher = cipher := by
        unfold Envelope.cipher
        rw [hsealed]
      have hopens : ((((ClientEnvelope.new received).source.bind fun source =>
          twins source.twin).bind fun twin =>
            ClientEnvelope.decrypt keys secret' twin cipher).bind parse) = parse data := by
        rw [hfound, Option.bind_some, hopened, Option.bind_some]
      rw [hnoPlain, hcarries, List.length_nil, if_neg (Nat.lt_irrefl 0), if_pos hpos]
      exact congrArg some hopens
    · rw [if_neg hkey] at hpayload
      have hsent : e.payload = some (.plain data) := by
        rw [hcarried, hpayload]
      have hcarries : e.plain = data := by
        unfold Envelope.plain
        rw [hsent]
      have hpos : 0 < data.length := by
        apply List.length_pos_iff.mpr
        intro hnil
        rw [hrequest, hnil] at hdata
        exact hdata rfl
      rw [hcarries, if_pos hpos]
      rfl

end

end

/-- The sum of the bytes of a key. -/
def keySum : PrivateKey → UInt8
  | .seed bytes => bytes.foldl (· + ·) 0
  | .text s => s.foldl (fun n c => n + UInt8.ofNat c.toNat) 0

/-- A tag of the key and the nonce stands behind the data. -/
def sampleTag (key iv : Bytes) : UInt8 := (key ++ iv).foldl (· + ·) 0

def sampleKeys : Keys where
  validateMnemonic s := s.contains ' '
  mnemonicToMiniSecret s := ((s.map fun c : Char => UInt8.ofNat c.toNat) ++ List.replicate 32 0).take 32
  isAddress s := ['0', 'x'].isPrefixOf s && (s.drop 2).all isDigit
  getPublicKey p := some [2, keySum p]
  getSharedSecret p pubKey := some [4, keySum p + pubKey.getLastD 0]
  sha256 bytes := bytes
  encrypt data key iv := some (data ++ [sampleTag key iv])
  decrypt encrypted key iv :=
    if encrypted.getLast? = some (sampleTag key iv) then some encrypted.dropLast else none

theorem sampleKeys_noAddress {s : List Char} (h : ' ' ∈ s) : sampleKeys.isAddress s = false := by
  apply Bool.eq_false_iff.mpr
  intro haddress
  obtain ⟨hmark, hdigits⟩ := Bool.and_eq_true_iff.mp haddress
  obtain ⟨rest, rfl⟩ := List.isPrefixOf_iff_prefix.mp hmark
  rcases List.mem_append.mp h with hmem | hmem
  · exact absurd hmem (by decide)
  · exact absurd (List.all_eq_true.mp hdigits ' ' hmem) (by decide)

theorem sampleKeys_lawful : sampleKeys.Lawful where
  hexAddress s _ hdigits := hdigits
  mnemonicAddress s h := by
    have hspace : ' ' ∈ s := List.contains_iff_mem.mp h
    exact ⟨sampleKeys_noAddress hspace, sampleKeys_noAddress
      (List.mem_cons_of_mem _ (List.mem_cons_of_mem _ hspace))⟩
  miniSecret s _ := by
    show (List.take 32 _).length = 32
    rw [List.length_take, List.length_append, List.length_replicate]
    omega
  point p h := by
    have hcons : [2, keySum p] = [] := Option.some.inj h
    cases hcons
  agreed p q pubKey pubKey' h h' := by
    rw [← Option.some.inj h, ← Option.some.inj h']
    show some [4, keySum p + keySum q] = some [4, keySum q + keySum p]
    rw [UInt8.add_comm]
  opened data key iv encrypted h := by
    rw [← Option.some.inj h]
    show (if (data ++ [sampleTag key iv]).getLast? = some (sampleTag key iv) then
      some (data ++ [sampleTag key iv]).dropLast else none) = some data
    rw [List.getLast?_concat, if_pos rfl, List.dropLast_concat]

def sampleSecret : List Char := "word word".toList

def sampleSecret' : List Char := "0x".toList ++ List.replicate 64 '7'

/-- Two twins with their keys on the chain. -/
def sealedTwin (id : ℕ) : Twin :=
  { sampleTwin id with
    pk := generatePublicKey sampleKeys (if id = 1 then sampleSecret else sampleSecret') }

def sealedTwins (id : ℕ) : Option Twin := if id ≤ 2 then some (sealedTwin id) else none

def sealedClient : Client where
  twin := sealedTwin 1
  session := some "s"
  signer := some (sampleSigner 1)

theorem sample_opens : ∃ e,
    sealedClient.send sampleCrypto sealedTwins
      (ClientEnvelope.encrypt sampleKeys (fun _ => 3) sampleSecret) sampleArgs = some e ∧
    e.plain = [] ∧
    readPayload (Context.opening sampleKeys sampleSecret' sampleCrypto sealedTwins some)
      (ClientEnvelope.new e) = some (some [49]) := by
  have hsent : (sealedClient.send sampleCrypto sealedTwins
      (ClientEnvelope.encrypt sampleKeys (fun _ => 3) sampleSecret) sampleArgs).any
        (fun e => e.plain = []) = true := by decide +kernel
  obtain ⟨e, he, hsealed⟩ := (Option.any_eq_true _ _).mp hsent
  have hreceiver : ∀ destTwin, sealedTwins sampleArgs.destinationTwinId = some destTwin →
      truthy destTwin.pk = false ∨ destTwin.pk = generatePublicKey sampleKeys sampleSecret' := by
    intro destTwin hdest
    rw [← Option.some.inj hdest]
    exact Or.inr rfl
  refine ⟨e, he, of_decide_eq_true hsealed, ?_⟩
  exact sent_opens sampleKeys_lawful rfl rfl rfl hreceiver (by decide) he (SameReading.refl e)

end ThreefoldSdk.Rmb
