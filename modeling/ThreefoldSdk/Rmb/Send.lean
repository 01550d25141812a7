import ThreefoldSdk.Rmb.Envelope

/-! Sending a request (`Client.send`), and what the receiver makes of it. -/

namespace ThreefoldSdk.Rmb

/-- The fields of the client that `send` reads. -/
structure Client where
  twin : Twin
  session : Option String
  signer : Option Signer

/-- `updateSource`. -/
def Client.source (client : Client) : Address := ⟨client.twin.id, client.session⟩

/-- A text that is there and not empty. -/
def truthy (s : Option String) : Bool := s.any fun s => s ≠ ""

/-- A request: its uid and time, the command (empty, when there is none), the data (nothing, when
they are falsy), the twin it is for and its seconds. -/
structure RequestArgs where
  uid : String
  timestamp : Nat
  requestCommand : String
  requestData : Option Bytes
  destinationTwinId : Nat
  expiration : Nat
deriving DecidableEq

section
variable (crypto : Crypto) (twins : Nat → Option Twin) (encrypt : String → Bytes → Option Bytes)

/-- The payload that is set for the data; nothing, when the encryption throws. -/
def Client.payload (client : Client) (destTwin : Twin) : Option Bytes → Option Payload
  | some requestData =>
    if truthy destTwin.pk && truthy client.twin.pk then
      (encrypt (destTwin.pk.getD "") requestData).map .cipher
    else some (.plain requestData)
  | none => some (.plain [])

/-- The envelope before its payload is set. -/
def Client.envelope (client : Client) (args : RequestArgs) (destTwin : Twin) : Envelope where
  uid := args.uid
  tags := none
  timestamp := args.timestamp
  expiration := args.expiration
  source := some client.source
  destination := some ⟨destTwin.id, none⟩
  message := if args.requestCommand ≠ "" then some (.request args.requestCommand) else none
  signature := none
  schema := none
  federation := none
  payload := none
  relays := []

/-- What is sent; nothing, when it throws. -/
def Client.send (client : Client) (args : RequestArgs) : Option Envelope := do
  let destTwin ← twins args.destinationTwinId
  let clientEnvelope := ClientEnvelope.new (client.envelope args destTwin)
  let payload ← client.payload encrypt destTwin args.requestData
  let relay ← client.twin.relay
  let clientEnvelope := { clientEnvelope with
    payload := some payload
    relays := (relay.toList.splitOn '_').map String.ofList }
  match client.signer with
  | some signer =>
    let signature ← ClientEnvelope.signEnvelope crypto clientEnvelope signer
    return { clientEnvelope with signature := some signature }
  | none => return clientEnvelope

end

/-! Envelopes that read the same. -/

/-- Equal in all that the getters show. -/
structure SameReading (e e' : Envelope) : Prop where
  uid : e.uid = e'.uid
  tags : e.getTags = e'.getTags
  timestamp : e.timestamp = e'.timestamp
  expiration : e.expiration = e'.expiration
  source : e.source.map (fun a => (a.twin, a.getConnection)) =
    e'.source.map fun a => (a.twin, a.getConnection)
  destination : e.destination.map (fun a => (a.twin, a.getConnection)) =
    e'.destination.map fun a => (a.twin, a.getConnection)
  message : e.message = e'.message
  signature : e.getSignature = e'.getSignature
  schema : e.getSchema = e'.getSchema
  federation : e.getFederation = e'.getFederation
  plain : e.plain = e'.plain
  cipher : e.cipher = e'.cipher
  relays : e.relays = e'.relays

section
variable {e e' e'' : Envelope} {crypto : Crypto}

theorem SameReading.refl (e : Envelope) : SameReading e e where
  uid := rfl
  tags := rfl
  timestamp := rfl
  expiration := rfl
  source := rfl
  destination := rfl
  message := rfl
  signature := rfl
  schema := rfl
  federation := rfl
  plain := rfl
  cipher := rfl
  relays := rfl

theorem SameReading.trans (h : SameReading e e') (h' : SameReading e' e'') : SameReading e e'' where
  uid := h.uid.trans h'.uid
  tags := h.tags.trans h'.tags
  timestamp := h.timestamp.trans h'.timestamp
  expiration := h.expiration.trans h'.expiration
  source := h.source.trans h'.source
  destination := h.destination.trans h'.destination
  message := h.message.trans h'.message
  signature := h.signature.trans h'.signature
  schema := h.schema.trans h'.schema
  federation := h.federation.trans h'.federation
  plain := h.plain.trans h'.plain
  cipher := h.cipher.trans h'.cipher
  relays := h.relays.trans h'.relays

theorem challengeAddress_congr {a b : Address}
    (h : (a.twin, a.getConnection) = (b.twin, b.getConnection)) :
    challengeAddress a = challengeAddress b := by
  obtain ⟨htwin, hconnection⟩ := Prod.mk.inj h
  unfold challengeAddress
  rw [htwin, hconnection]

/-- The challenge reads the getters only. -/
theorem SameReading.challengeInput (h : SameReading e e') : e.challengeInput = e'.challengeInput := by
  have haddress : ∀ a b : Option Address,
      a.map (fun a => (a.twin, a.getConnection)) = b.map (fun a => (a.twin, a.getConnection)) →
      a.map challengeAddress = b.map challengeAddress := by
    intro a b hab
    cases a with
    | none =>
      cases b with
      | none => rfl
      | some b => cases hab
    | some a =>
      cases b with
      | none => cases hab
      | some b => exact congrArg some (challengeAddress_congr (Option.some.inj hab))
  have hupdates : ∀ e : Envelope, e.updates =
      (e.source.map challengeAddress).bind fun source =>
        (e.destination.map challengeAddress).map fun destination =>
          [utf8 e.uid, utf8 e.getTags, utf8 (toString e.timestamp), utf8 (toString e.expiration),
              utf8 source, utf8 destination] ++
            challengeMessage e.message ++
            (if e.getSchema ≠ "" then [utf8 e.getSchema] else []) ++
            (if e.getFederation ≠ "" then [utf8 e.getFederation] else []) ++
            (if 0 < e.plain.length then [e.plain]
              else if 0 < e.cipher.length then [e.cipher] else []) ++
            e.relays.map utf8 := by
    intro e
    unfold Envelope.updates
    cases e.source with
    | none => rfl
    | some source =>
      cases e.destination with
      | none => rfl
      | some destination => rfl
  unfold Envelope.challengeInput
  rw [hupdates e, hupdates e', haddress _ _ h.source, haddress _ _ h.destination, h.uid, h.tags,
    h.timestamp, h.expiration, h.message, h.schema, h.federation, h.plain, h.cipher, h.relays]

theorem SameReading.verifyUnder (h : SameReading e e') (twin : Twin) :
    ClientEnvelope.verifyUnder crypto twin e = ClientEnvelope.verifyUnder crypto twin e' := by
  unfold ClientEnvelope.verifyUnder ClientEnvelope.challenge
  rw [h.challengeInput, h.signature]

/-- The constructor changes nothing that is read, but the schema. -/
theorem sameReading_new (h : e.getSchema = "application/json") :
    SameReading (ClientEnvelope.new e) e where
  uid := rfl
  tags := rfl
  timestamp := rfl
  expiration := rfl
  source := rfl
  destination := rfl
  message := rfl
  signature := rfl
  schema := h.symm
  federation := by
    unfold ClientEnvelope.new
    by_cases hfederation : e.getFederation = ""
    · rw [if_pos hfederation, hfederation]
      rfl
    · rw [if_neg hfederation]
      rfl
  plain := by
    unfold ClientEnvelope.new Envelope.plain Envelope.cipher
    cases e.payload with
    | none => rfl
    | some payload =>
      cases payload with
      | cipher bytes =>
        cases bytes with
        | nil => rfl
        | cons b bytes => rfl
      | plain bytes =>
        cases bytes with
        | nil => rfl
        | cons b bytes => rfl
  cipher := by
    unfold ClientEnvelope.new Envelope.plain Envelope.cipher
    cases e.payload with
    | none => rfl
    | some payload =>
      cases payload with
      | cipher bytes =>
        cases bytes with
        | nil => rfl
        | cons b bytes => rfl
      | plain bytes =>
        cases bytes with
        | nil => rfl
        | cons b bytes => rfl
  relays := rfl

end

/-! The round trip. -/

section
variable {crypto : Crypto} {twins : Nat → Option Twin} {encrypt : String → Bytes → Option Bytes}
  {client : Client} {args : RequestArgs} {signer : Signer} {e e' : Envelope}

/-- A request is signed over the challenge of what is sent. -/
theorem send_ok (h : client.send crypto twins encrypt args = some e)
    (hsigner : client.signer = some signer) :
    e.source = some client.source ∧ e.getSchema = "application/json" ∧
      ∃ c, e.challengeInput = some c ∧ e.getSignature = sign (crypto.md5 c) signer := by
  unfold Client.send at h
  obtain ⟨destTwin, -, h⟩ := Option.bind_eq_some_iff.mp h
  obtain ⟨payload, -, h⟩ := Option.bind_eq_some_iff.mp h
  obtain ⟨relay, -, h⟩ := Option.bind_eq_some_iff.mp h
  rw [hsigner] at h
  obtain ⟨signature, hsignature, h⟩ := Option.bind_eq_some_iff.mp h
  obtain ⟨payloadHash, hhash, hsign⟩ := Option.map_eq_some_iff.mp hsignature
  obtain ⟨c, hc, hmd5⟩ := Option.map_eq_some_iff.mp hhash
  rw [← Option.some.inj h]
  refine ⟨rfl, rfl, c, hc, ?_⟩
  rw [hmd5, hsign]
  rfl

theorem verifyUnder_of_sign {twin : Twin} {c : Bytes} (hc : e.challengeInput = some c)
    (hsignature : e.getSignature = sign (crypto.md5 c) signer)
    (hkey : crypto.verify signer.type twin.accountId (crypto.md5 c)
      (signer.sign (crypto.md5 c)) = true) :
    ClientEnvelope.verifyUnder crypto twin e = true := by
  unfold ClientEnvelope.verifyUnder ClientEnvelope.challenge
  rw [hc, hsignature]
  cases htype : signer.type with
  | sr25519 =>
    rw [htype] at hkey
    unfold sign
    rw [if_pos htype]
    exact hkey
  | ed25519 =>
    rw [htype] at hkey
    unfold sign
    rw [if_neg (by rw [htype]; decide)]
    exact hkey

/-- What the receiver rebuilds from a request that was sent has the challenge that was signed, and
verifies under the key of the sender. -/
theorem sent_verifies {serializeBinary : Envelope → Bytes}
    {deserializeBinary : Bytes → Option Envelope}
    (hsend : client.send crypto twins encrypt args = some e)
    (hsigner : client.signer = some signer) (htwin : twins client.twin.id = some client.twin)
    (haccount : client.twin.accountId = signer.address)
    (hkey : ∀ m, crypto.verify signer.type signer.address m (signer.sign m) = true)
    (hwire : ∃ received, deserializeBinary (serializeBinary e) = some received ∧
      SameReading received e) :
    ∃ received c, deserializeBinary (serializeBinary e) = some received ∧
      e.getSignature = sign (crypto.md5 c) signer ∧
      (ClientEnvelope.new received).challengeInput = some c ∧
      ClientEnvelope.verify crypto twins (ClientEnvelope.new received) = true := by
  obtain ⟨received, hreceived, hreading⟩ := hwire
  obtain ⟨hsource, hschema, c, hc, hsignature⟩ := send_ok hsend hsigner
  have hsame := (sameReading_new (hreading.schema.trans hschema)).trans hreading
  refine ⟨received, c, hreceived, hsignature, hsame.challengeInput.trans hc, ?_⟩
  have hlookup : (ClientEnvelope.new received).source.bind (fun source => twins source.twin) =
      some client.twin := by
    have hreads := hsame.source
    rw [hsource] at hreads
    obtain ⟨address, haddress, heq⟩ := Option.map_eq_some_iff.mp hreads
    rw [haddress]
    show twins address.twin = some client.twin
    rw [(Prod.mk.inj heq).1]
    exact htwin
  unfold ClientEnvelope.verify
  rw [hlookup]
  show ClientEnvelope.verifyUnder crypto client.twin (ClientEnvelope.new received) = true
  rw [hsame.verifyUnder]
  apply verifyUnder_of_sign hc hsignature
  rw [haccount]
  exact hkey _

end

/-- An account signs by its address in front of the bytes. -/
def sampleCrypto : Crypto where
  md5 bytes := bytes.take 16
  verify type address bytes signature :=
    signature = (if type = .sr25519 then 1 else 2) :: (utf8 address ++ bytes)

def sampleTwin (id : Nat) : Twin where
  id := id
  accountId := toString id
  pk := none
  relay := some "r"

def sampleTwins (id : Nat) : Option Twin := if id ≤ 3 then some (sampleTwin id) else none

def sampleSigner (id : Nat) : Signer where
  type := .sr25519
  address := toString id
  sign bytes := 1 :: (utf8 (toString id) ++ bytes)

def sampleClient : Client where
  twin := sampleTwin 1
  session := some "s"
  signer := some (sampleSigner 1)

/-- A request for twin 2. -/
def sampleArgs : RequestArgs where
  uid := "7"
  timestamp := 5
  requestCommand := "c"
  requestData := some [49]
  destinationTwinId := 2
  expiration := 60

/-- What is sent for it. -/
def sampleSent : Envelope where
  uid := "7"
  tags := some ""
  timestamp := 5
  expiration := 60
  source := some ⟨1, some "s"⟩
  destination := some ⟨2, none⟩
  message := some (.request "c")
  signature := some [115, 1, 49, 55, 53, 54, 48, 49, 115, 50, 99, 97, 112, 112, 108, 105, 99, 97, 116]
  schema := some "application/json"
  federation := none
  payload := some (.plain [49])
  relays := ["r"]

/-- Its bytes. -/
def sampleWire : Bytes :=
  [10, 1, 55, 18, 0, 24, 5, 32, 60, 42, 5, 8, 1, 18, 1, 115, 50, 2, 8, 2, 58, 3, 10, 1, 99] ++
    74 :: 19 :: sampleSent.getSignature ++ 82 :: 16 :: utf8 "application/json" ++
    [106, 1, 49, 138, 1, 1, 114]

def sampleSerialize (_ : Envelope) : Bytes := sampleWire

def sampleDeserialize (bytes : Bytes) : Option Envelope :=
  if bytes = sampleWire then some sampleSent else none

theorem sampleSent_verifies :
    ∃ received c, sampleDeserialize (sampleSerialize sampleSent) = some received ∧
      sampleSent.getSignature = sign (sampleCrypto.md5 c) (sampleSigner 1) ∧
      (ClientEnvelope.new received).challengeInput = some c ∧
      ClientEnvelope.verify sampleCrypto sampleTwins (ClientEnvelope.new received) = true := by
  have hsend : sampleClient.send sampleCrypto sampleTwins (fun _ _ => none) sampleArgs =
      some sampleSent := by decide
  have hkey : ∀ m, sampleCrypto.verify (sampleSigner 1).type (sampleSigner 1).address m
      ((sampleSigner 1).sign m) = true := by
    intro m
    exact decide_eq_true rfl
  have hwire : ∃ received, sampleDeserialize (sampleSerialize sampleSent) = some received ∧
      SameReading received sampleSent := ⟨sampleSent, if_pos rfl, SameReading.refl _⟩
  exact sent_verifies hsend rfl rfl rfl hkey hwire

end ThreefoldSdk.Rmb
