import ThreefoldSdk.Rmb.Envelope

/-! Reading the response to a request (`Client.read`), while envelopes arrive
(`Client.createConnection`) and the client may be disconnected. -/

namespace ThreefoldSdk.Rmb

/-- What stands under the uid of a request: the request itself, until something arrives. -/
abbrev Responses := String → Option Envelope

/-- What may happen while `read` waits. -/
inductive Event where
  /-- An envelope arrives. -/
  | message (received : Envelope)
  /-- A request or a ping is sent. -/
  | sent (clientEnvelope : Envelope)
  /-- Another `read` is over. -/
  | answered (requestID : String)
  | dropPingEnvelope
  /-- `waitForResponses` gives up. -/
  | clear

def Event.apply (responses : Responses) : Event → Responses
  | message received =>
    if (responses received.uid).isSome then
      Function.update responses received.uid (some (ClientEnvelope.new received))
    else responses
  | sent clientEnvelope => Function.update responses clientEnvelope.uid (some clientEnvelope)
  | answered requestID => Function.update responses requestID none
  | dropPingEnvelope => fun id => (responses id).filter fun e => e.message ≠ some .ping
  | clear => fun _ => none

def happen (responses : Responses) (events : List Event) : Responses :=
  events.foldl Event.apply responses

/-- How a promise is settled. -/
inductive Outcome (α : Type) where
  | resolved (value : α)
  | pong
  | rejected (name message : String)
deriving DecidableEq

def invalidSignature {α : Type} : Outcome α :=
  .rejected "InvalidResponse" "invalid signature, discarding response"

def rmbError {α : Type} (code : Nat) (message : String) : Outcome α :=
  .rejected "RMBError" s!"{code} {message}"

def timeout {α : Type} (seconds : Nat) : Outcome α :=
  .rejected "TimeoutError" s!"Didn't get a response after {seconds} seconds"

/-- One round of the loop: the milliseconds since its start, and what happens while it waits. -/
structure Round where
  elapsed : Nat
  verifying : List Event
  decrypting : List Event
  pausing : List Event

/-- The loop goes on, with the envelope it saw last; or control has left it, and the promise is
settled from an envelope, or not. -/
inductive ReadState (α : Type) where
  | reading (envelope : Option Envelope) (responses : Responses)
  | left (outcome : Option (Outcome α × Envelope)) (responses : Responses)

/-- What the libraries and the chain answer. -/
structure Context (α : Type) where
  crypto : Crypto
  twins : Nat → Option Twin
  /-- With the key of the twin; nothing, when it throws. -/
  decrypt : Twin → Bytes → Option Bytes
  /-- `JSON.parse` of the decoded text; nothing, when it throws. -/
  parse : Bytes → Option α

section
variable {α : Type} (ctx : Context α) (requestID : String)

/-- The payload of a response that was verified: what it parses to, or that something throws;
nothing for an empty payload. -/
def readPayload (e : Envelope) : Option (Option α) :=
  if 0 < e.plain.length then some (ctx.parse e.plain)
  else if 0 < e.cipher.length then
    some (((e.source.bind fun source => ctx.twins source.twin).bind fun twin =>
      ctx.decrypt twin e.cipher).bind ctx.parse)
  else none

/-- The body of the loop. -/
def readBody (responses : Responses) (r : Round) : ReadState α :=
  match responses requestID with
  | none => .reading none (happen responses r.pausing)
  | some e =>
    match e.message with
    | some .response =>
      let responses := happen responses r.verifying
      if ClientEnvelope.verify ctx.crypto ctx.twins e then
        match readPayload ctx e with
        | none => .reading (some e) (happen responses r.pausing)
        | some value =>
          let responses := if 0 < e.plain.length then responses else happen responses r.decrypting
          match value with
          | some value =>
            .left (some (.resolved value, e)) (Function.update responses requestID none)
          -- the executor throws, and nothing settles the promise
          | none => .left none responses
      else .left (some (invalidSignature, e)) (Function.update responses requestID none)
    | some (.error code message) =>
      .left (some (rmbError code message, e)) (Function.update responses requestID none)
    | some .pong => .left (some (.pong, e)) (Function.update responses requestID none)
    | _ => .reading (some e) (happen responses r.pausing)

/-- `envelope && new Date().getTime() < now + envelope.expiration * 1000`. -/
def inTime (envelope : Option Envelope) (r : Round) : Bool :=
  envelope.any fun e => r.elapsed < e.expiration * 1000

def readRound : ReadState α → Round → ReadState α
  | .left outcome responses, _ => .left outcome responses
  | .reading envelope responses, r =>
    if inTime envelope r then readBody ctx requestID responses r
    else
      match envelope with
      | none => .left none responses
      | some e =>
        if e.expiration ≠ 0 then
          .left (some (timeout e.expiration, e)) (Function.update responses requestID none)
        else .left none responses

/-- `read`, over the rounds of its loop. -/
def read (responses : Responses) (rounds : List Round) : ReadState α :=
  rounds.foldl (readRound ctx requestID) (.reading (responses requestID) responses)

end

end ThreefoldSdk.Rmb
