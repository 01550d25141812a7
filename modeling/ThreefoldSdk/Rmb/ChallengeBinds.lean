import ThreefoldSdk.Lib.Pieces
import ThreefoldSdk.Rmb.Envelope

/-! What two envelopes with the same challenge have in common. -/

namespace ThreefoldSdk.Rmb
open Pieces

theorem utf8_inj {s t : String} (h : utf8 s = utf8 t) : s = t := by
  have hencode : s.toList.utf8Encode = t.toList.utf8Encode := by
    unfold List.utf8Encode
    exact congrArg List.toByteArray h
  apply String.toByteArray_inj.mp
  simpa using hencode

theorem utf8_append (s t : String) : utf8 (s ++ t) = utf8 s ++ utf8 t := by
  unfold utf8
  rw [String.toList_append, List.flatMap_append]

theorem utf8_nat_inj {m n : Nat} (h : utf8 (toString m) = utf8 (toString n)) : m = n :=
  Nat.repr_inj.mp (utf8_inj h)

theorem map_utf8_inj {ss ts : List String} (h : ss.map utf8 = ts.map utf8) : ss = ts :=
  List.map_injective_iff.mpr (fun _ _ heq => utf8_inj heq) h

/-! The pieces of the challenge. -/

def addressPieces : Option Address → List Bytes
  | some address => [utf8 (toString address.twin), utf8 address.getConnection]
  | none => [[], []]

def messagePieces : Option Message → List Bytes
  | some (.request command) => [utf8 command]
  | some (.error code message) => [utf8 (toString code), utf8 message]
  | _ => []

namespace Envelope

/-- The payload, whether it is plain or not. -/
def payloadBytes (e : Envelope) : Bytes :=
  match e.payload with
  | some (.plain bytes) => bytes
  | some (.cipher bytes) => bytes
  | none => []

def pieces (e : Envelope) : List Bytes :=
  [utf8 e.uid, utf8 e.getTags, utf8 (toString e.timestamp), utf8 (toString e.expiration)] ++
    (addressPieces e.source ++ (addressPieces e.destination ++ (messagePieces e.message ++
      ([utf8 e.getSchema, utf8 e.getFederation, e.payloadBytes] ++ e.relays.map utf8))))

end Envelope

theorem flatten_challengeMessage (m : Option Message) :
    (challengeMessage m).flatten = (messagePieces m).flatten := by
  match m with
  | none => rfl
  | some (.request command) => rfl
  | some .response => rfl
  | some (.error code message) =>
    show utf8 (toString code ++ message) ++ [] = utf8 (toString code) ++ (utf8 message ++ [])
    rw [utf8_append, List.append_nil, List.append_nil]
  | some .ping => rfl
  | some .pong => rfl

theorem utf8_challengeAddress (address : Address) :
    utf8 (challengeAddress address) = (addressPieces (some address)).flatten := by
  unfold challengeAddress
  rw [utf8_append]
  show _ = utf8 _ ++ (utf8 _ ++ [])
  rw [List.append_nil]

/-- An update with an empty text adds nothing, whether it is made or not. -/
theorem flatten_optional (s : String) : (if s ≠ "" then [utf8 s] else []).flatten = utf8 s := by
  by_cases hs : s = ""
  · rw [hs]
    rfl
  · rw [if_pos hs]
    exact List.append_nil _

theorem flatten_payload (e : Envelope) :
    (if 0 < e.plain.length then [e.plain]
      else if 0 < e.cipher.length then [e.cipher] else []).flatten = e.payloadBytes := by
  have hbytes : ∀ bytes : Bytes, (if 0 < bytes.length then [bytes] else []).flatten = bytes := by
    intro bytes
    cases bytes with
    | nil => rfl
    | cons b bytes => exact List.append_nil _
  unfold Envelope.plain Envelope.cipher Envelope.payloadBytes
  cases e.payload with
  | none => rfl
  | some payload =>
    cases payload with
    | cipher bytes => exact hbytes bytes
    | plain bytes => exact hbytes bytes

theorem challengeInput_eq {e : Envelope} {c : Bytes} (h : e.challengeInput = some c) :
    (∃ source destination, e.source = some source ∧ e.destination = some destination) ∧
      e.pieces.flatten = c := by
  unfold Envelope.challengeInput Envelope.updates at h
  cases hsource : e.source with
  | none =>
    rw [hsource] at h
    cases h
  | some source =>
    cases hdestination : e.destination with
    | none =>
      rw [hsource, hdestination] at h
      cases h
    | some destination =>
      rw [hsource, hdestination] at h
      refine ⟨⟨_, _, rfl, rfl⟩, ?_⟩
      rw [← Option.some.inj h]
      unfold Envelope.pieces
      rw [hsource, hdestination]
      simp only [List.flatten_append, List.flatten_cons, List.flatten_nil, List.append_nil,
        List.append_assoc, flatten_challengeMessage, flatten_optional, flatten_payload,
        utf8_challengeAddress]

/-! What the pieces fix. -/

/-- The two messages are of the same kind. -/
def SameKind : Option Message → Option Message → Prop
  | some (.request _), some (.request _) => True
  | some .response, some .response => True
  | some (.error _ _), some (.error _ _) => True
  | some .ping, some .ping => True
  | some .pong, some .pong => True
  | none, none => True
  | _, _ => False

/-- Equal in all that the challenge reads; whether the payload is plain is left out. -/
structure SameChallenged (e e' : Envelope) : Prop where
  uid : e.uid = e'.uid
  tags : e.getTags = e'.getTags
  timestamp : e.timestamp = e'.timestamp
  expiration : e.expiration = e'.expiration
  source : e.source.map (fun a => (a.twin, a.getConnection)) =
    e'.source.map fun a => (a.twin, a.getConnection)
  destination : e.destination.map (fun a => (a.twin, a.getConnection)) =
    e'.destination.map fun a => (a.twin, a.getConnection)
  message : e.message = e'.message
  schema : e.getSchema = e'.getSchema
  federation : e.getFederation = e'.getFederation
  payload : e.payloadBytes = e'.payloadBytes
  relays : e.relays = e'.relays

theorem length_addressPieces (a : Option Address) : (addressPieces a).length = 2 := by
  cases a with
  | none => rfl
  | some a => rfl

theorem addressPieces_inj {a b : Address} (h : addressPieces (some a) = addressPieces (some b)) :
    (a.twin, a.getConnection) = (b.twin, b.getConnection) := by
  obtain ⟨htwin, hconnection⟩ := List.cons_eq_cons.mp h
  rw [utf8_nat_inj htwin, utf8_inj (List.cons_eq_cons.mp hconnection).1]

theorem messagePieces_inj {m m' : Option Message} (hkind : SameKind m m')
    (h : messagePieces m = messagePieces m') : m = m' := by
  match m, m', hkind with
  | some (.request command), some (.request command'), _ =>
    rw [utf8_inj (List.cons_eq_cons.mp h).1]
  | some (.error code message), some (.error code' message'), _ =>
    obtain ⟨hcode, hrest⟩ := List.cons_eq_cons.mp h
    rw [utf8_nat_inj hcode, utf8_inj (List.cons_eq_cons.mp hrest).1]
  | some .response, some .response, _ => rfl
  | some .ping, some .ping, _ => rfl
  | some .pong, some .pong, _ => rfl
  | none, none, _ => rfl

theorem length_messagePieces {m m' : Option Message} (hkind : SameKind m m') :
    (messagePieces m).length = (messagePieces m').length := by
  match m, m', hkind with
  | some (.request command), some (.request command'), _ => rfl
  | some (.error code message), some (.error code' message'), _ => rfl
  | some .response, some .response, _ => rfl
  | some .ping, some .ping, _ => rfl
  | some .pong, some .pong, _ => rfl
  | none, none, _ => rfl

/-- The same input is hashed for two envelopes of one kind whose pieces have, all but at most one,
the same lengths: then all that is hashed is equal. -/
theorem challenge_binds {e e' : Envelope} {c : Bytes} (h : e.challengeInput = some c)
    (h' : e'.challengeInput = some c) (hkind : SameKind e.message e'.message)
    (hrelays : e.relays.length = e'.relays.length) (hshift : shifts e.pieces e'.pieces ≤ 1) :
    SameChallenged e e' := by
  obtain ⟨⟨source, destination, hsource, hdestination⟩, hinput⟩ := challengeInput_eq h
  obtain ⟨⟨source', destination', hsource', hdestination'⟩, hinput'⟩ := challengeInput_eq h'
  have hcount : e.pieces.length = e'.pieces.length := by
    unfold Envelope.pieces
    simp only [List.length_append, length_addressPieces, length_messagePieces hkind,
      List.length_map, hrelays, List.length_cons]
  have hpieces := eq_of_flatten_eq hcount hshift (hinput.trans hinput'.symm)
  unfold Envelope.pieces at hpieces
  obtain ⟨hhead, hpieces⟩ := List.append_inj hpieces rfl
  obtain ⟨hfrom, hpieces⟩ := List.append_inj hpieces
    (by rw [length_addressPieces, length_addressPieces])
  obtain ⟨hto, hpieces⟩ := List.append_inj hpieces
    (by rw [length_addressPieces, length_addressPieces])
  obtain ⟨hmessage, hpieces⟩ := List.append_inj hpieces (length_messagePieces hkind)
  obtain ⟨htail, hlast⟩ := List.append_inj hpieces rfl
  simp only [List.cons.injEq, and_true] at hhead htail
  rw [hsource, hsource'] at hfrom
  rw [hdestination, hdestination'] at hto
  constructor
  · exact utf8_inj hhead.1
  · exact utf8_inj hhead.2.1
  · exact utf8_nat_inj hhead.2.2.1
  · exact utf8_nat_inj hhead.2.2.2
  · rw [hsource, hsource']
    exact congrArg some (addressPieces_inj hfrom)
  · rw [hdestination, hdestination']
    exact congrArg some (addressPieces_inj hto)
  · exact messagePieces_inj hkind hmessage
  · exact utf8_inj htail.1
  · exact utf8_inj htail.2.1
  · exact htail.2.2
  · exact map_utf8_inj hlast

/-- A request of twin 1 to twin 2. -/
def sampleRequest : Envelope where
  uid := "7"
  tags := none
  timestamp := 5
  expiration := 60
  source := some ⟨1, some "23"⟩
  destination := some ⟨2, none⟩
  message := some (.request "zos.stats")
  signature := none
  schema := some "application/json"
  federation := none
  payload := some (.plain [1, 2])
  relays := ["a"]

theorem sampleRequest_binds :
    SameChallenged sampleRequest { sampleRequest with payload := some (.cipher [1, 2]) } :=
  challenge_binds rfl rfl trivial rfl (by decide)

/-- A digit of the twin can go into the connection, a response counts as no message, and a cipher as
a plain payload. -/
theorem sampleRequest_not_binding :
    ({ sampleRequest with source := some ⟨12, some "3"⟩ }.challengeInput =
        sampleRequest.challengeInput ∧ sampleRequest.source ≠ some ⟨12, some "3"⟩) ∧
    { sampleRequest with message := some .response }.challengeInput =
      { sampleRequest with message := none }.challengeInput ∧
    { sampleRequest with payload := some (.cipher [1, 2]) }.challengeInput =
      sampleRequest.challengeInput := by
  refine ⟨⟨?_, by decide⟩, ?_, ?_⟩
  · rfl
  · rfl
  · rfl

end ThreefoldSdk.Rmb
