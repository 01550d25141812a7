import Mathlib

/-! The envelopes of the message bus (`rmb_direct_client/lib/envelope.ts` over the generated
`types/lib/types.ts`): what is hashed, signed and verified. -/

namespace ThreefoldSdk.Rmb

abbrev Bytes := List UInt8

/-- The bytes that a hash takes for a text. -/
def utf8 (s : String) : Bytes := s.toList.flatMap String.utf8EncodeChar

structure Address where
  twin : Nat
  connection : Option String
deriving DecidableEq

/-- The members of the oneof `message`. -/
inductive Message where
  | request (command : String)
  | response
  | error (code : Nat) (message : String)
  | ping
  | pong
deriving DecidableEq

/-- The members of the oneof `payload`. -/
inductive Payload where
  | plain (bytes : Bytes)
  | cipher (bytes : Bytes)
deriving DecidableEq

structure Envelope where
  uid : String
  tags : Option String
  timestamp : Nat
  expiration : Nat
  source : Option Address
  destination : Option Address
  message : Option Message
  signature : Option Bytes
  schema : Option String
  federation : Option String
  payload : Option Payload
  relays : List String
deriving DecidableEq

def Address.getConnection (a : Address) : String := a.connection.getD ""

namespace Envelope

/-! A field that is not set reads as its default. -/

def getTags (e : Envelope) : String := e.tags.getD ""

def getSignature (e : Envelope) : Bytes := e.signature.getD []

def getSchema (e : Envelope) : String := e.schema.getD ""

def getFederation (e : Envelope) : String := e.federation.getD ""

def plain (e : Envelope) : Bytes :=
  match e.payload with
  | some (.plain bytes) => bytes
  | _ => []

def cipher (e : Envelope) : Bytes :=
  match e.payload with
  | some (.cipher bytes) => bytes
  | _ => []

end Envelope

/-! The challenge. -/

def challengeAddress (address : Address) : String :=
  toString address.twin ++ address.getConnection

/-- A response adds nothing. -/
def challengeMessage : Option Message → List Bytes
  | some (.request command) => [utf8 command]
  | some .response => []
  | some (.error code message) => [utf8 (toString code ++ message)]
  | _ => []

/-- What the hash is updated with, one after the other; nothing when an address is not set, which
throws. -/
def Envelope.updates (e : Envelope) : Option (List Bytes) := do
  let source ← e.source
  let destination ← e.destination
  return [utf8 e.uid, utf8 e.getTags, utf8 (toString e.timestamp), utf8 (toString e.expiration),
      utf8 (challengeAddress source), utf8 (challengeAddress destination)] ++
    challengeMessage e.message ++
    (if e.getSchema ≠ "" then [utf8 e.getSchema] else []) ++
    (if e.getFederation ≠ "" then [utf8 e.getFederation] else []) ++
    (if 0 < e.plain.length then [e.plain] else if 0 < e.cipher.length then [e.cipher] else []) ++
    e.relays.map utf8

/-- The input of the hash. -/
def Envelope.challengeInput (e : Envelope) : Option Bytes := e.updates.map List.flatten

/-! Signatures. -/

inductive KPType where
  | sr25519
  | ed25519
deriving DecidableEq

structure Twin where
  id : Nat
  accountId : String
  pk : Option String
  relay : Option String
deriving DecidableEq

structure Signer where
  type : KPType
  address : String
  sign : Bytes → Bytes

/-- What the libraries do. -/
structure Crypto where
  md5 : Bytes → Bytes
  /-- Whether the account's key of this type signed the bytes. -/
  verify : KPType → String → Bytes → Bytes → Bool

/-- The signature behind the letter of its type. -/
def sign (payload : Bytes) (signer : Signer) : Bytes :=
  (if signer.type = .sr25519 then 115 else 101) :: signer.sign payload

namespace ClientEnvelope

/-- The constructor. An empty payload or federation is left out. -/
def new (envelope : Envelope) : Envelope where
  uid := envelope.uid
  tags := some envelope.getTags
  timestamp := envelope.timestamp
  expiration := envelope.expiration
  source := envelope.source
  destination := envelope.destination
  message := envelope.message
  signature := some envelope.getSignature
  schema := some "application/json"
  federation := if envelope.getFederation = "" then none else some envelope.getFederation
  payload :=
    if envelope.plain.length ≠ 0 then some (.plain envelope.plain)
    else if envelope.cipher.length ≠ 0 then some (.cipher envelope.cipher)
    else none
  relays := envelope.relays

section
variable (crypto : Crypto)

def challenge (e : Envelope) : Option Bytes := e.challengeInput.map crypto.md5

def signEnvelope (e : Envelope) (signer : Signer) : Option Bytes :=
  (challenge crypto e).map fun toSign => sign toSign signer

/-- Whether the signature is one of the twin's key. -/
def verifyUnder (twin : Twin) (e : Envelope) : Bool :=
  let check (sigType : KPType) : Bool :=
    match challenge crypto e with
    | some dataHashed => crypto.verify sigType twin.accountId dataHashed (e.getSignature.drop 1)
    | none => false
  match e.getSignature.head? with
  | some 101 => check .ed25519
  | some 115 => check .sr25519
  | _ => false

/-- `twins` are the twins on the chain. What throws is caught, and gives nothing. -/
def verify (twins : Nat → Option Twin) (e : Envelope) : Bool :=
  match e.source.bind fun source => twins source.twin with
  | some twin => verifyUnder crypto twin e
  | none => false

end

end ClientEnvelope

end ThreefoldSdk.Rmb
