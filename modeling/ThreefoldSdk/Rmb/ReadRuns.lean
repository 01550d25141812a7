import ThreefoldSdk.Lib.Runs
import ThreefoldSdk.Rmb.Read
import ThreefoldSdk.Rmb.Send

/-! Runs of `read`: when its promise is settled, and with whose content. -/

namespace ThreefoldSdk.Rmb
open Runs

/-! What a round does. -/

/-- All that may happen in the round. -/
def Round.events (r : Round) : List Event := r.verifying ++ (r.decrypting ++ r.pausing)

theorem happen_append (responses : Responses) (events events' : List Event) :
    happen responses (events ++ events') = happen (happen responses events) events' :=
  List.foldl_append

section
variable {α : Type} (ctx : Context α)

/-- What the loop makes of an envelope: nothing, so that it goes on; or it throws, or settles. -/
def answer (e : Envelope) : Option (Option (Outcome α)) :=
  match e.message with
  | some .response =>
    if ClientEnvelope.verify ctx.crypto ctx.twins e then
      (readPayload ctx e).map fun value => value.map .resolved
    else some (some invalidSignature)
  | some (.error code message) => some (some (rmbError code message))
  | some .pong => some (some .pong)
  | _ => none

/-- The state in which a round ends that found the envelope `e`. -/
def found (requestID : String) (e : Envelope) (responses : Responses) :
    Option (Option (Outcome α)) → ReadState α
  | none => .reading (some e) responses
  | some none => .left none responses
  | some (some outcome) => .left (some (outcome, e)) (Function.update responses requestID none)

variable {ctx} {requestID : String}

theorem readBody_missing {responses : Responses} (h : responses requestID = none) (r : Round) :
    readBody ctx requestID responses r = .reading none (happen responses r.pausing) := by
  unfold readBody
  rw [h]

theorem readBody_found {responses : Responses} {e : Envelope} (h : responses requestID = some e)
    (r : Round) : ∃ events, (∀ event ∈ events, event ∈ r.events) ∧
      readBody ctx requestID responses r =
        found requestID e (happen responses events) (answer ctx e) := by
  have hpausing : ∀ event ∈ r.pausing, event ∈ r.events := fun event hevent =>
    List.mem_append_right _ (List.mem_append_right _ hevent)
  have hverifying : ∀ event ∈ r.verifying, event ∈ r.events := fun event hevent =>
    List.mem_append_left _ hevent
  unfold readBody answer
  rw [h]
  cases hmessage : e.message with
  | none => exact ⟨r.pausing, hpausing, by simp only [hmessage]; rfl⟩
  | some message =>
    cases message with
    | request command => exact ⟨r.pausing, hpausing, by simp only [hmessage]; rfl⟩
    | ping => exact ⟨r.pausing, hpausing, by simp only [hmessage]; rfl⟩
    | pong => exact ⟨[], by simp, by simp only [hmessage]; rfl⟩
    | error code text => exact ⟨[], by simp, by simp only [hmessage]; rfl⟩
    | response =>
      simp only [hmessage]
      by_cases hverified : ClientEnvelope.verify ctx.crypto ctx.twins e = true
      · rw [if_pos hverified, if_pos hverified]
        cases hpayload : readPayload ctx e with
        | none =>
          refine ⟨r.verifying ++ r.pausing, ?_, ?_⟩
          · intro event hevent
            rcases List.mem_append.mp hevent with hevent | hevent
            · exact hverifying event hevent
            · exact hpausing event hevent
          · rw [happen_append]
            rfl
        | some value =>
          -- a plain payload is parsed at once, a cipher is awaited
          by_cases hplain : 0 < e.plain.length
          · refine ⟨r.verifying, hverifying, ?_⟩
            cases value with
            | none => simp only [if_pos hplain]; rfl
            | some value => simp only [if_pos hplain]; rfl
          · refine ⟨r.verifying ++ r.decrypting, ?_, ?_⟩
            · intro event hevent
              rcases List.mem_append.mp hevent with hevent | hevent
              · exact hverifying event hevent
              · exact List.mem_append_right _ (List.mem_append_left _ hevent)
            · rw [happen_append]
              cases value with
              | none => simp only [if_neg hplain]; rfl
              | some value => simp only [if_neg hplain]; rfl
      · rw [if_neg hverified, if_neg hverified]
        exact ⟨r.verifying, hverifying, rfl⟩

theorem readRound_body {envelope : Option Envelope} {r : Round} (h : inTime envelope r = true)
    (responses : Responses) : readRound ctx requestID (.reading envelope responses) r =
      readBody ctx requestID responses r := if_pos h

theorem readRound_over {e : Envelope} {r : Round} (h : ¬inTime (some e) r = true)
    (responses : Responses) : readRound ctx requestID (.reading (some e) responses) r =
      if e.expiration ≠ 0 then
        .left (some (timeout e.expiration, e)) (Function.update responses requestID none)
      else .left none responses := if_neg h

end

/-! The loop ends. -/

/-- The envelope is not waited for longer than this. -/
def Within (limit : Nat) (e : Envelope) : Prop := e.expiration * 1000 ≤ limit

def Event.Within (limit : Nat) : Event → Prop
  | .message received => Rmb.Within limit received
  | .sent clientEnvelope => Rmb.Within limit clientEnvelope
  | _ => True

def Responses.Within (limit : Nat) (responses : Responses) : Prop :=
  ∀ id e, responses id = some e → Rmb.Within limit e

/-- As long as the loop goes on, all that it may wait for is within the limit. -/
def ReadState.Within {α : Type} (limit : Nat) : ReadState α → Prop
  | .left _ _ => True
  | .reading envelope responses =>
    (∀ e, envelope = some e → Rmb.Within limit e) ∧ responses.Within limit

/-- Control has left the loop. -/
def ReadState.Left {α : Type} : ReadState α → Prop
  | .left _ _ => True
  | .reading _ _ => False

section
variable {α : Type} {ctx : Context α} {requestID : String} {limit : Nat} {responses : Responses}

theorem within_update (h : responses.Within limit) {id : String} {entry : Option Envelope}
    (hentry : ∀ e, entry = some e → Within limit e) :
    Responses.Within limit (Function.update responses id entry) := by
  intro id' e he
  rw [Function.update_apply] at he
  split at he
  · exact hentry e he
  · exact h id' e he

theorem within_apply (h : responses.Within limit) {event : Event} (hevent : event.Within limit) :
    Responses.Within limit (event.apply responses) := by
  cases event with
  | message received =>
    show Responses.Within limit (if (responses received.uid).isSome then
      Function.update responses received.uid (some (ClientEnvelope.new received)) else responses)
    split
    · apply within_update h
      intro e he
      rw [← Option.some.inj he]
      exact hevent
    · exact h
  | sent clientEnvelope =>
    apply within_update h
    intro e he
    rw [← Option.some.inj he]
    exact hevent
  | answered id =>
    apply within_update h
    intro e he
    cases he
  | dropPingEnvelope =>
    intro id e he
    exact h id e (Option.filter_eq_some_iff.mp he).1
  | clear =>
    intro id e he
    cases he

theorem within_happen (h : responses.Within limit) {events : List Event}
    (hevents : ∀ event ∈ events, event.Within limit) :
    Responses.Within limit (happen responses events) := by
  induction events generalizing responses with
  | nil => exact h
  | cons event events ih =>
    apply ih (within_apply h (hevents event List.mem_cons_self))
    exact fun event' hevent' => hevents event' (List.mem_cons_of_mem _ hevent')

theorem within_readRound {s : ReadState α} (h : s.Within limit) {r : Round}
    (hr : ∀ event ∈ r.events, event.Within limit) :
    (readRound ctx requestID s r).Within limit := by
  cases s with
  | left outcome responses => trivial
  | reading envelope responses =>
    by_cases htime : inTime envelope r
    · rw [readRound_body htime]
      cases hentry : responses requestID with
      | none =>
        rw [readBody_missing hentry]
        refine ⟨(fun e he => nomatch he), within_happen h.2 fun event hevent => hr event ?_⟩
        exact List.mem_append_right _ (List.mem_append_right _ hevent)
      | some e =>
        obtain ⟨events, hevents, hbody⟩ := @readBody_found α ctx requestID _ _ hentry r
        have hafter := within_happen h.2 fun event hevent => hr event (hevents event hevent)
        rw [hbody]
        cases answer ctx e with
        | none =>
          refine ⟨?_, hafter⟩
          intro e' he'
          rw [← Option.some.inj he']
          exact h.2 _ _ hentry
        | some answered =>
          cases answered with
          | none => trivial
          | some outcome => trivial
    · cases envelope with
      | none => trivial
      | some e =>
        rw [readRound_over htime]
        split
        · trivial
        · trivial

/-- When the time of every envelope that occurred is over, control has left the loop. -/
theorem read_left (hresponses : responses.Within limit) {rounds : List Round} {last : Round}
    (hrounds : ∀ r ∈ rounds, ∀ event ∈ r.events, event.Within limit)
    (hlast : limit ≤ last.elapsed) : (read ctx requestID responses (rounds ++ [last])).Left := by
  have hwithin : ∀ (rounds : List Round) (s : ReadState α), s.Within limit →
      (∀ r ∈ rounds, ∀ event ∈ r.events, event.Within limit) →
      (rounds.foldl (readRound ctx requestID) s).Within limit := by
    intro rounds
    induction rounds with
    | nil => exact fun s hs _ => hs
    | cons r rounds ih =>
      intro s hs hall
      apply ih _ (within_readRound hs (hall r List.mem_cons_self))
      exact fun r' hr' => hall r' (List.mem_cons_of_mem _ hr')
  have hstate := hwithin rounds (.reading (responses requestID) responses)
    ⟨fun e he => hresponses _ _ he, hresponses⟩ hrounds
  unfold read
  rw [List.foldl_append]
  show (readRound ctx requestID _ last).Left
  cases hs : rounds.foldl (readRound ctx requestID) (.reading (responses requestID) responses) with
  | left outcome responses => trivial
  | reading envelope responses =>
    rw [hs] at hstate
    cases envelope with
    | none => trivial
    | some e =>
      have hover : ¬inTime (some e) last = true := by
        have hwithin : e.expiration * 1000 ≤ limit := hstate.1 e rfl
        show ¬decide (last.elapsed < e.expiration * 1000) = true
        rw [decide_eq_true_eq]
        omega
      rw [readRound_over hover]
      split
      · trivial
      · trivial

end

/-! Settling. -/

/-- The promise is settled, and nothing stands under the request any more. -/
def ReadState.Settled {α : Type} (requestID : String) : ReadState α → Prop
  | .left (some _) responses => responses requestID = none
  | _ => False

/-- Before the time is over, the loop does not find an envelope that makes it throw; when it is
over, there is an envelope, and it has an expiration. -/
def Undisturbed {α : Type} (ctx : Context α) (requestID : String) : ReadState α → Round → Prop
  | .left _ _, _ => True
  | .reading envelope responses, r =>
    if inTime envelope r then ∀ e, responses requestID = some e → answer ctx e ≠ some none
    else ∃ e, envelope = some e ∧ e.expiration ≠ 0

section
variable {α : Type} {ctx : Context α} {requestID : String}

/-- Control has not left the loop, or has left it as it should. -/
def Fine (requestID : String) (s : ReadState α) : Prop := s.Left → s.Settled requestID

theorem fine_readRound_iff (s : ReadState α) (r : Round) (h : Fine requestID s) :
    Fine requestID (readRound ctx requestID s r) ↔ Undisturbed ctx requestID s r := by
  cases s with
  | left outcome responses => exact iff_of_true h trivial
  | reading envelope responses =>
    show _ ↔ if inTime envelope r then _ else _
    by_cases htime : inTime envelope r
    · rw [readRound_body htime, if_pos htime]
      cases hentry : responses requestID with
      | none =>
        rw [readBody_missing hentry]
        exact iff_of_true (fun hleft => hleft.elim) fun e he => nomatch he
      | some e =>
        obtain ⟨events, -, hbody⟩ := @readBody_found α ctx requestID _ _ hentry r
        rw [hbody]
        have hentry' : (∀ e', some e = some e' → answer ctx e' ≠ some none) ↔
            answer ctx e ≠ some none := by
          constructor
          · exact fun hall => hall e rfl
          · intro hne e' he'
            rw [← Option.some.inj he']
            exact hne
        rw [hentry']
        cases answer ctx e with
        | none => exact iff_of_true (fun hleft => hleft.elim) (by simp)
        | some answered =>
          cases answered with
          | none => exact iff_of_false (fun hfine => (hfine trivial).elim) fun hne => hne rfl
          | some outcome =>
            exact iff_of_true (fun _ => Function.update_self ..) (by simp)
    · rw [if_neg htime]
      cases envelope with
      | none =>
        apply iff_of_false
        · exact fun hfine => (hfine trivial).elim
        · intro hsome
          obtain ⟨e, he, -⟩ := hsome
          cases he
      | some e =>
        rw [readRound_over htime]
        by_cases hexpiration : e.expiration ≠ 0
        · apply iff_of_true
          · rw [if_pos hexpiration]
            exact fun _ => Function.update_self ..
          · exact ⟨e, rfl, hexpiration⟩
        · apply iff_of_false
          · rw [if_neg hexpiration]
            exact fun hfine => (hfine trivial).elim
          · intro hsome
            obtain ⟨e', he', hne⟩ := hsome
            rw [← Option.some.inj he'] at hne
            exact hexpiration hne

theorem readRound_of_left {s : ReadState α} (h : s.Left) (r : Round) :
    readRound ctx requestID s r = s := by
  cases s with
  | left outcome responses => rfl
  | reading envelope responses => exact h.elim

/-- Once the time of all that occurred is over, control has left the loop, and it has settled the
promise and cleaned up exactly when no round was disturbed. -/
theorem read_settles_iff {limit : Nat} {responses : Responses} (hresponses : responses.Within limit)
    {rounds : List Round} {last : Round}
    (hrounds : ∀ r ∈ rounds, ∀ event ∈ r.events, event.Within limit)
    (hlast : limit ≤ last.elapsed) :
    (read ctx requestID responses (rounds ++ [last])).Left ∧
      ((read ctx requestID responses (rounds ++ [last])).Settled requestID ↔
        EachMeets (readRound ctx requestID) (Undisturbed ctx requestID)
          (.reading (responses requestID) responses) (rounds ++ [last])) := by
  have hleft := @read_left α ctx requestID _ _ hresponses _ _ hrounds hlast
  have hlost : ∀ (s : ReadState α) r, ¬Fine requestID s →
      ¬Fine requestID (readRound ctx requestID s r) := by
    intro s r hs
    have hin : s.Left := by
      by_contra hreading
      exact hs fun h => absurd h hreading
    rw [readRound_of_left hin]
    exact hs
  have hstart : Fine requestID (.reading (responses requestID) responses : ReadState α) :=
    fun h => h.elim
  refine ⟨hleft, ?_⟩
  rw [← last_iff_eachMeets fine_readRound_iff hlost hstart (rounds ++ [last])]
  exact ⟨fun hsettled _ => hsettled, fun hfine => hfine hleft⟩

end

/-! Whose content is read. -/

/-- Whether the envelope is signed by the twin to which the request was addressed. -/
def verifiesFor {α : Type} (ctx : Context α) (request e : Envelope) : Bool :=
  match request.destination.bind fun destination => ctx.twins destination.twin with
  | some twin => ClientEnvelope.verifyUnder ctx.crypto twin e
  | none => false

/-- The promise is settled with the content of an envelope that the addressed twin signed, or with
nothing but what the request says. -/
def ReadState.Authentic {α : Type} (ctx : Context α) (request : Envelope) : ReadState α → Prop
  | .left (some (outcome, e)) _ =>
    verifiesFor ctx request e = true ∨ outcome = invalidSignature ∨
      outcome = timeout request.expiration
  | _ => True

/-- An error, a pong or a response that its source signed and that can be read, when the loop finds
it, is signed by the addressed twin; so is what stands there when the time is over, or it has the
expiration of the request. -/
def Trusted {α : Type} (ctx : Context α) (request : Envelope) : ReadState α → Round → Prop
  | .left _ _, _ => True
  | .reading envelope responses, r =>
    if inTime envelope r then ∀ e, responses request.uid = some e →
      match e.message with
      | some .response => ClientEnvelope.verify ctx.crypto ctx.twins e = true →
        (∃ value, readPayload ctx e = some (some value)) → verifiesFor ctx request e = true
      | some (.error _ _) => verifiesFor ctx request e = true
      | some .pong => verifiesFor ctx request e = true
      | _ => True
    else ∀ e, envelope = some e → e.expiration ≠ 0 →
      e.expiration = request.expiration ∨ verifiesFor ctx request e = true

section
variable {α : Type} {ctx : Context α} {request : Envelope}

theorem timeout_inj {m n : Nat} : (timeout m : Outcome α) = timeout n ↔ m = n := by
  constructor
  · intro h
    have htext := (Outcome.rejected.inj h).2
    have hlists := congrArg String.toList htext
    simp only [toString, String.toList_append, List.append_assoc, List.append_cancel_left_eq,
      List.append_cancel_right_eq] at hlists
    exact Nat.repr_inj.mp (String.toList_injective hlists)
  · intro h
    rw [h]

theorem authentic_answer (e : Envelope) (responses : Responses) :
    (found request.uid e responses (answer ctx e)).Authentic ctx request ↔
      match e.message with
      | some .response => ClientEnvelope.verify ctx.crypto ctx.twins e = true →
        (∃ value, readPayload ctx e = some (some value)) → verifiesFor ctx request e = true
      | some (.error _ _) => verifiesFor ctx request e = true
      | some .pong => verifiesFor ctx request e = true
      | _ => True := by
  unfold answer
  cases hmessage : e.message with
  | none => exact Iff.rfl
  | some message =>
    cases message with
    | request command => exact Iff.rfl
    | ping => exact Iff.rfl
    | pong =>
      constructor
      · intro h
        rcases h with h | h | h
        · exact h
        · cases h
        · cases h
      · exact Or.inl
    | error code text =>
      constructor
      · intro h
        rcases h with h | h | h
        · exact h
        · exact absurd (Outcome.rejected.inj h).1 (by decide)
        · exact absurd (Outcome.rejected.inj h).1 (by decide)
      · exact Or.inl
    | response =>
      show (found request.uid e responses (if ClientEnvelope.verify ctx.crypto ctx.twins e then _
        else _)).Authentic ctx request ↔ _
      by_cases hverified : ClientEnvelope.verify ctx.crypto ctx.twins e = true
      · rw [if_pos hverified]
        cases hpayload : readPayload ctx e with
        | none =>
          refine iff_of_true trivial fun _ hvalue => ?_
          obtain ⟨value, hvalue⟩ := hvalue
          cases hvalue
        | some value =>
          cases value with
          | none =>
            refine iff_of_true trivial fun _ hvalue => ?_
            obtain ⟨value, hvalue⟩ := hvalue
            cases hvalue
          | some value =>
            constructor
            · intro h _ _
              rcases h with h | h | h
              · exact h
              · cases h
              · cases h
            · exact fun h => Or.inl (h hverified ⟨value, rfl⟩)
      · rw [if_neg hverified]
        exact iff_of_true (Or.inr (Or.inl rfl)) fun h => absurd h hverified

theorem authentic_readRound_iff (s : ReadState α) (r : Round) (h : s.Authentic ctx request) :
    (readRound ctx request.uid s r).Authentic ctx request ↔ Trusted ctx request s r := by
  cases s with
  | left outcome responses => exact iff_of_true h trivial
  | reading envelope responses =>
    show _ ↔ if inTime envelope r then _ else _
    by_cases htime : inTime envelope r
    · rw [readRound_body htime, if_pos htime]
      cases hentry : responses request.uid with
      | none =>
        rw [readBody_missing hentry]
        exact iff_of_true trivial fun e he => nomatch he
      | some e =>
        obtain ⟨events, -, hbody⟩ := @readBody_found α ctx request.uid _ _ hentry r
        rw [hbody, authentic_answer]
        constructor
        · intro hanswer e' he'
          rw [← Option.some.inj he']
          exact hanswer
        · exact fun hall => hall e rfl
    · rw [if_neg htime]
      cases envelope with
      | none => exact iff_of_true trivial fun e he => nomatch he
      | some e =>
        rw [readRound_over htime]
        have hentry : (∀ e', some e = some e' → e'.expiration ≠ 0 →
            e'.expiration = request.expiration ∨ verifiesFor ctx request e' = true) ↔
            (e.expiration ≠ 0 →
              e.expiration = request.expiration ∨ verifiesFor ctx request e = true) := by
          constructor
          · exact fun hall => hall e rfl
          · intro hone e' he'
            rw [← Option.some.inj he']
            exact hone
        rw [hentry]
        by_cases hexpiration : e.expiration ≠ 0
        · rw [if_pos hexpiration]
          constructor
          · intro hauthentic _
            rcases hauthentic with h | h | h
            · exact Or.inr h
            · exact absurd (Outcome.rejected.inj h).1 (by decide)
            · exact Or.inl (timeout_inj.mp h)
          · intro htrusted
            rcases htrusted hexpiration with h | h
            · exact Or.inr (Or.inr (timeout_inj.mpr h))
            · exact Or.inl h
        · rw [if_neg hexpiration]
          exact iff_of_true trivial fun hne => absurd hne hexpiration

/-- However envelopes arrive after the request is sent, the promise is settled with authentic
content exactly when every round finds trusted envelopes. -/
theorem read_authentic_iff (responses : Responses) (arrived : List Event) (rounds : List Round) :
    (read ctx request.uid (happen responses (.sent request :: arrived)) rounds).Authentic
        ctx request ↔
      EachMeets (readRound ctx request.uid) (Trusted ctx request)
        (.reading (happen responses (.sent request :: arrived) request.uid)
          (happen responses (.sent request :: arrived))) rounds := by
  apply last_iff_eachMeets authentic_readRound_iff
  · intro s r hs
    have hleft : s.Left := by
      cases s with
      | left outcome responses => trivial
      | reading envelope responses => exact absurd trivial hs
    rw [readRound_of_left hleft]
    exact hs
  · trivial

end

/-! A client that expects the text `1`. -/

def sampleContext : Context Nat where
  crypto := sampleCrypto
  twins := sampleTwins
  decrypt _ _ := none
  parse bytes := if bytes = [49] then some 1 else none

/-- A response to twin 1, signed by its source. -/
def sampleResponse (twin : Nat) (data : Bytes) : Envelope :=
  let unsigned : Envelope := {
    uid := "7"
    tags := none
    timestamp := 6
    expiration := 60
    source := some ⟨twin, none⟩
    destination := some ⟨1, some "s"⟩
    message := some .response
    signature := none
    schema := some "application/json"
    federation := none
    payload := some (.plain data)
    relays := [] }
  { unsigned with
    signature := ClientEnvelope.signEnvelope sampleCrypto unsigned (sampleSigner twin) }

/-- The request of `sampleSent` is answered by a twin. -/
def answeredBy (twin : Nat) (data : Bytes) : Responses :=
  happen (fun _ => none) [.sent sampleSent, .message (sampleResponse twin data)]

def quietRound (elapsed : Nat) : Round := ⟨elapsed, [], [], []⟩

theorem answeredBy_within (twin : Nat) (data : Bytes) :
    (answeredBy twin data).Within 60000 := by
  apply within_happen
  · intro id e he
    cases he
  · intro event hevent
    rcases List.mem_cons.mp hevent with rfl | hevent
    · show 60 * 1000 ≤ 60000
      omega
    · rw [List.mem_singleton.mp hevent]
      show 60 * 1000 ≤ 60000
      omega

theorem answeredBy_settles :
    EachMeets (readRound sampleContext "7") (Undisturbed sampleContext "7")
      (.reading (answeredBy 2 [49] "7") (answeredBy 2 [49]))
        ([quietRound 0] ++ [quietRound 60000]) := by
  have hquiet : ∀ r ∈ [quietRound 0], ∀ event ∈ r.events, event.Within 60000 := by
    intro r hr event hevent
    rw [List.mem_singleton.mp hr] at hevent
    cases hevent
  have hlast : 60000 ≤ (quietRound 60000).elapsed := by
    show 60000 ≤ 60000
    omega
  have hsettled : ∃ p responses, read sampleContext "7" (answeredBy 2 [49])
      ([quietRound 0] ++ [quietRound 60000]) = .left (some p) (Function.update responses "7" none) :=
    ⟨_, _, rfl⟩
  have hread := @read_settles_iff _ sampleContext "7" _ _ (answeredBy_within 2 [49]) _ _ hquiet hlast
  apply hread.2.mp
  obtain ⟨p, responses, hleft⟩ := hsettled
  rw [hleft]
  exact Function.update_self ..

/-- A response that does not parse, and a client that is disconnected, leave the promise as it
is. -/
theorem promise_left_pending :
    (∃ responses e, read sampleContext "7" (answeredBy 2 [123]) [quietRound 0] =
      .left none responses ∧ responses "7" = some e) ∧
    ∃ responses, read sampleContext "7" (happen (fun _ => none) [.sent sampleSent])
      [⟨0, [], [], [.clear]⟩, quietRound 1000, quietRound 2000] = .left none responses :=
  ⟨⟨_, _, rfl, rfl⟩, _, rfl⟩

/-- Twin 3 answers a request to twin 2, or sends an error that nobody signed. -/
theorem foreign_answer_read :
    (∃ responses e, read sampleContext "7" (answeredBy 3 [49]) [quietRound 0] =
      .left (some (.resolved 1, e)) responses ∧ verifiesFor sampleContext sampleSent e = false) ∧
    ¬(read sampleContext "7" (answeredBy 3 [49]) [quietRound 0]).Authentic sampleContext
      sampleSent ∧
    ¬(read sampleContext "7" (happen (fun _ => none) [.sent sampleSent,
      .message { sampleResponse 3 [] with message := some (.error 1 "no"), signature := none }])
      [quietRound 0]).Authentic sampleContext sampleSent := by
  refine ⟨⟨_, _, rfl, rfl⟩, ?_, ?_⟩
  · intro h
    rcases h with h | h | h
    · exact absurd h (by decide)
    · cases h
    · cases h
  · intro h
    rcases h with h | h | h
    · exact absurd h (by decide)
    · exact absurd h (by decide)
    · exact absurd h (by decide)

end ThreefoldSdk.Rmb
