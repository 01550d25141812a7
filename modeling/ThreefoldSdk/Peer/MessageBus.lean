import ThreefoldSdk.Lib.Base64

/-! The message bus of a peer: requests and responses in the lists of a Redis server, the server
that answers them and the client that reads the answers. -/

namespace ThreefoldSdk.Peer

open Base64

structure OutgoingRequest where
  ver : Nat
  ref : String
  cmd : String
  exp : Nat
  dat : List Char
  tag : String
  dst : List Nat
  ret : String
  shm : String
  now : Nat

structure IncomingRequest where
  ver : Nat
  ref : String
  src : String
  cmd : String
  exp : Nat
  dat : List Char
  tag : String
  ret : String
  shm : String
  now : Nat

structure Error where
  code : Nat
  message : String

structure OutgoingResponse where
  ver : Nat
  ref : String
  dat : List Char
  dst : String
  shm : String
  now : Nat
  err : Option Error

/-- `Buffer.from(data).toString("base64")`. -/
def writeData (data : List Char) : List Char := encode (utf8 data)

/-- `Buffer.from(dat, "base64").toString("ascii")`. -/
def readData (dat : List Char) : List Char := (decode dat).map ascii

namespace MessageBusClient

def send (uuid requestCommand : String) (requestData : List Char) (destinationTwinId : Nat)
    (expirationMinutes now : Nat) : OutgoingRequest where
  ver := 1
  ref := uuid
  cmd := requestCommand
  exp := expirationMinutes * 60
  dat := writeData requestData
  tag := ""
  dst := [destinationTwinId]
  ret := uuid
  shm := "application/json"
  now := now

/-- The text that `read` parses, or the message of what it throws. -/
def read (incomingResponse : OutgoingResponse) : Except String (List Char) :=
  match incomingResponse.err with
  | some err => .error ("Failed to read response due to: " ++ err.message)
  | none => .ok (readData incomingResponse.dat)

end MessageBusClient

namespace MessageBusServer

/-- `payload` is the text that `JSON.stringify` makes of what the handler returns. -/
def reply (message : IncomingRequest) (payload : List Char) (now : Nat) : OutgoingResponse where
  dat := writeData payload
  dst := message.src
  now := now
  ref := message.ref
  shm := message.shm
  ver := message.ver
  err := none

def error (message : IncomingRequest) (reason : String) (now : Nat) : OutgoingResponse where
  dat := []
  dst := message.src
  now := now
  ref := message.ref
  shm := message.shm
  ver := message.ver
  err := some ⟨500, reason⟩

end MessageBusServer

/-- Data and answers are read as they were written exactly when they are ASCII; the reason of an
error always is. -/
theorem data_intact_iff (uuid cmd : String) (data payload : List Char) (dst exp now : Nat)
    (message : IncomingRequest) (reason : String) :
    (readData (MessageBusClient.send uuid cmd data dst exp now).dat = data ↔ IsAscii data) ∧
    (MessageBusClient.read (MessageBusServer.reply message payload now) = .ok payload ↔
      IsAscii payload) ∧
    MessageBusClient.read (MessageBusServer.error message reason now) =
      .error ("Failed to read response due to: " ++ reason) := by
  have hread : ∀ t, readData (writeData t) = t ↔ IsAscii t := by
    intro t
    rw [readData, writeData, decode_encode]
    exact ascii_utf8_iff t
  refine ⟨hread data, ?_, rfl⟩
  rw [← hread payload]
  show Except.ok (readData (writeData payload)) = Except.ok payload ↔ _
  exact ⟨Except.ok.inj, fun h => congrArg Except.ok h⟩

/-- What a list holds, as `JSON.parse` reads it. -/
inductive Element where
  | request (message : IncomingRequest)
  | response (message : OutgoingResponse)
  | other (text : String)

/-- What became of a request: the text of the data of its handler, or what was thrown on the way to
it. -/
inductive Outcome where
  | data (payload : List Char)
  | thrown (reason : String)

/-- How a push ends. One that is rejected may have been executed before the connection was lost. -/
inductive Pushed where
  | returned
  | rejected (executed : Bool) (reason : String)

def Pushed.executed : Pushed → Bool
  | returned => true
  | rejected executed _ => executed

/-- A push of an answer. -/
structure Call where
  key : String
  response : OutgoingResponse
  result : Pushed

/-- Where `run` is: it waits for `blPop`, for a handler, or for a push, or has ended: behind an
element that it cannot read, a rejected `blPop`, or a rejected error answer. -/
inductive Loop where
  | waiting
  | handling (message : IncomingRequest)
  | replying (message : IncomingRequest) (response : OutgoingResponse)
  | failing (message : IncomingRequest) (response : OutgoingResponse)
  | unread
  | lost
  | broken (message : IncomingRequest)

/-- The lists, the server, and what went through them so far. -/
structure Bus where
  lists : String → List Element
  loop : Loop
  pushed : List (String × Element)
  popped : List (String × Element)
  taken : List IncomingRequest
  calls : List Call

def initial : Bus where
  lists := fun _ => []
  loop := .waiting
  pushed := []
  popped := []
  taken := []
  calls := []

def lPush (s : Bus) (key : String) (element : Element) : Bus :=
  { s with
    lists := Function.update s.lists key (element :: s.lists key)
    pushed := s.pushed ++ [(key, element)] }

/-- The first element of the first list that has one. -/
def first (lists : String → List Element) : List String → Option (String × Element)
  | [] => none
  | key :: keys =>
    match lists key with
    | [] => first lists keys
    | element :: _ => some (key, element)

def pop (s : Bus) (key : String) (element : Element) : Bus :=
  { s with
    lists := Function.update s.lists key (s.lists key).tail
    popped := s.popped ++ [(key, element)] }

/-- What is pushed, by clients and by the relay, what a client pops from its own list, and the steps
of `run`. -/
inductive Event where
  | push (key : String) (element : Element)
  | read (key : String)
  | run
  | rejected (executed : Bool)
  | handled (outcome : Outcome) (now : Nat)
  | pushed (result : Pushed) (now : Nat)

/-- `run` up to its handler. A text that is no JSON, an object without data and a message without a
list to answer on make it throw, which ends the loop. -/
def run (channels : List String) (s : Bus) : Bus :=
  match first s.lists channels with
  | none => s
  | some (key, element) =>
    match element with
    | .request message =>
      { pop s key element with loop := .handling message, taken := s.taken ++ [message] }
    | _ => { pop s key element with loop := .unread }

/-- `blPop` is rejected, maybe after it was executed. -/
def runRejected (channels : List String) (s : Bus) (executed : Bool) : Bus :=
  match first s.lists channels with
  | some (key, element) =>
    if executed then { pop s key element with loop := .lost } else { s with loop := .lost }
  | none => { s with loop := .lost }

/-- `run` behind its handler, up to a push. -/
def handled (s : Bus) (message : IncomingRequest) (now : Nat) : Outcome → Bus
  | .data payload => { s with loop := .replying message (MessageBusServer.reply message payload now) }
  | .thrown reason => { s with loop := .failing message (MessageBusServer.error message reason now) }

/-- The push ends, and `run` goes on to `loop`. -/
def called (s : Bus) (call : Call) (loop : Loop) : Bus :=
  let s' := if call.result.executed then lPush s call.key (.response call.response) else s
  { s' with loop := loop, calls := s.calls ++ [call] }

/-- `run` behind a push. The `catch` is around the handler and `reply`, so that a reply whose push is
rejected is followed by an error. -/
def afterPush (s : Bus) (result : Pushed) (now : Nat) : Bus :=
  match s.loop with
  | .replying message response =>
    called s ⟨message.ret, response, result⟩ <|
      match result with
      | .returned => .waiting
      | .rejected _ reason => .failing message (MessageBusServer.error message reason now)
  | .failing message response =>
    called s ⟨message.ret, response, result⟩ <|
      match result with
      | .returned => .waiting
      | .rejected _ _ => .broken message
  | _ => s

/-- A step beside `channels`, the lists that the server watches. -/
def step (channels : List String) (s : Bus) : Event → Bus
  | .push key element => lPush s key element
  | .read key =>
    if key ∈ channels then s
    else
      match s.lists key with
      | [] => s
      | element :: _ => pop s key element
  | .run =>
    match s.loop with
    | .waiting => run channels s
    | _ => s
  | .rejected executed =>
    match s.loop with
    | .waiting => runRejected channels s executed
    | _ => s
  | .handled outcome now =>
    match s.loop with
    | .handling message => handled s message now outcome
    | _ => s
  | .pushed result now => afterPush s result now

def exec (channels : List String) (es : List Event) : Bus :=
  es.foldl (step channels) initial

/-- The elements of a log for one list. -/
def ofList (key : String) (log : List (String × Element)) : List Element :=
  (log.filter fun p => decide (p.1 = key)).map Prod.snd

/-- The elements of a log for the lists that are watched. -/
def ofLists (channels : List String) (log : List (String × Element)) : List Element :=
  (log.filter fun p => decide (p.1 ∈ channels)).map Prod.snd

def Loop.inHand : Loop → List IncomingRequest
  | .handling message | .replying message _ | .failing message _ | .broken message => [message]
  | _ => []

/-- What was popped and is no request that was taken. -/
def Loop.Left : Loop → List Element → Prop
  | .unread, left => ∃ e, left = [e] ∧ ∀ message, e ≠ .request message
  | .lost, left => left.length ≤ 1
  | _, left => left = []

/-- What comes before an error answer: nothing when the handler threw its reason, else the reply
whose push was rejected with it. -/
inductive Tried (message : IncomingRequest) (reason : String) : List Call → Prop where
  | thrown : Tried message reason []
  | rejected (payload : List Char) (now : Nat) (executed : Bool) : Tried message reason
      [⟨message.ret, MessageBusServer.reply message payload now, .rejected executed reason⟩]

/-- The pushes for a request that `run` is done with. -/
inductive Served (message : IncomingRequest) : List Call → Prop where
  | replied (payload : List Char) (now : Nat) :
      Served message [⟨message.ret, MessageBusServer.reply message payload now, .returned⟩]
  | failed {reason : String} {before : List Call} (tried : Tried message reason before) (now : Nat) :
      Served message
        (before ++ [⟨message.ret, MessageBusServer.error message reason now, .returned⟩])

/-- The pushes for the request in hand. -/
def Loop.Made : Loop → List Call → Prop
  | .replying message response, calls =>
    calls = [] ∧ ∃ payload now, response = MessageBusServer.reply message payload now
  | .failing message response, calls =>
    ∃ reason now, Tried message reason calls ∧ response = MessageBusServer.error message reason now
  | .broken message, calls => ∃ reason now before executed reason', Tried message reason before ∧
      calls = before ++
        [⟨message.ret, MessageBusServer.error message reason now, .rejected executed reason'⟩]
  | _, calls => calls = []

/-- The answers to a request: on the list that it names and under its own `ref`. There is one, or two
when the push of the reply was rejected though the list had it. -/
structure Answered (message : IncomingRequest) (calls : List Call) : Prop where
  served : Served message calls
  own : ∀ c ∈ calls, c.key = message.ret ∧ c.response.ref = message.ref ∧
    c.response.dst = message.src
  once : calls.countP (fun c => c.result.executed) = 1 ∨
    calls.countP (fun c => c.result.executed) = 2 ∧
      ∃ payload now reason, (calls.head?.map fun c => (c.response, c.result)) =
        some (MessageBusServer.reply message payload now, .rejected true reason)

/-- Nothing is lost on the way. What is pushed to a list stays in it until it is popped; what the
server takes are requests, up to an element that ends it; the requests that it took are answered one
after the other, but for the one in its hands. -/
structure Accounts (channels : List String) (s : Bus) : Prop where
  kept : ∀ key, (ofList key s.pushed).Perm (ofList key s.popped ++ s.lists key)
  taken : ∃ left, ofLists channels s.popped = s.taken.map .request ++ left ∧ s.loop.Left left
  answered : ∃ done parts calls, s.taken = done ++ s.loop.inHand ∧
    List.Forall₂ Answered done parts ∧ s.loop.Made calls ∧ s.calls = parts.flatten ++ calls
  pushed : ((s.calls.filter fun c => c.result.executed).map
    fun c => (c.key, Element.response c.response)).Sublist s.pushed

variable {channels : List String} {s : Bus} {key : String} {element : Element}

theorem ofList_concat (k : String) (log : List (String × Element)) :
    ofList k (log ++ [(key, element)]) =
      ofList k log ++ if key = k then [element] else [] := by
  unfold ofList
  rw [List.filter_append, List.map_append]
  congr 1
  split_ifs with h
  · simp [h]
  · simp [h]

theorem ofLists_concat (log : List (String × Element)) :
    ofLists channels (log ++ [(key, element)]) =
      ofLists channels log ++ if key ∈ channels then [element] else [] := by
  unfold ofLists
  rw [List.filter_append, List.map_append]
  congr 1
  split_ifs with h
  · simp [h]
  · simp [h]

theorem kept_lPush (h : ∀ k, (ofList k s.pushed).Perm (ofList k s.popped ++ s.lists k)) (k : String) :
    (ofList k (lPush s key element).pushed).Perm
      (ofList k (lPush s key element).popped ++ (lPush s key element).lists k) := by
  show (ofList k (s.pushed ++ [(key, element)])).Perm
    (ofList k s.popped ++ Function.update s.lists key (element :: s.lists key) k)
  rw [ofList_concat]
  by_cases heq : k = key
  · rw [heq, if_pos rfl, Function.update_self]
    have hfront : (ofList key s.pushed ++ [element]).Perm (element :: ofList key s.pushed) :=
      List.perm_append_singleton _ _
    exact (hfront.trans ((h key).cons element)).trans List.perm_middle.symm
  · rw [if_neg fun hsame => heq hsame.symm, Function.update_of_ne heq, List.append_nil]
    exact h k

theorem kept_pop (h : ∀ k, (ofList k s.pushed).Perm (ofList k s.popped ++ s.lists k))
    {rest : List Element} (hlist : s.lists key = element :: rest) (k : String) :
    (ofList k (pop s key element).pushed).Perm
      (ofList k (pop s key element).popped ++ (pop s key element).lists k) := by
  show (ofList k s.pushed).Perm (ofList k (s.popped ++ [(key, element)]) ++
    Function.update s.lists key (s.lists key).tail k)
  rw [ofList_concat]
  by_cases heq : k = key
  · rw [heq, if_pos rfl, Function.update_self, hlist, List.append_assoc]
    have hkey := h key
    rw [hlist] at hkey
    exact hkey
  · rw [if_neg fun hsame => heq hsame.symm, Function.update_of_ne heq, List.append_nil]
    exact h k

theorem first_eq_some {lists : String → List Element} {keys : List String}
    (h : first lists keys = some (key, element)) :
    key ∈ keys ∧ ∃ rest, lists key = element :: rest := by
  induction keys with
  | nil => cases h
  | cons k keys ih =>
    unfold first at h
    cases hlist : lists k with
    | nil =>
      rw [hlist] at h
      obtain ⟨hmem, hrest⟩ := ih h
      exact ⟨List.mem_cons_of_mem k hmem, hrest⟩
    | cons e rest =>
      rw [hlist] at h
      obtain ⟨rfl, rfl⟩ := Prod.mk.inj (Option.some.inj h)
      exact ⟨List.mem_cons_self, rest, hlist⟩

theorem Tried.own {message : IncomingRequest} {reason : String} {calls : List Call}
    (h : Tried message reason calls) : ∀ c ∈ calls, c.key = message.ret ∧
      c.response.ref = message.ref ∧ c.response.dst = message.src := by
  cases h with
  | thrown => exact List.forall_mem_nil _
  | rejected payload now executed => exact List.forall_mem_singleton.mpr ⟨rfl, rfl, rfl⟩

theorem Served.answered {message : IncomingRequest} {calls : List Call}
    (h : Served message calls) : Answered message calls where
  served := h
  own := by
    cases h with
    | replied payload now => exact List.forall_mem_singleton.mpr ⟨rfl, rfl, rfl⟩
    | failed tried now =>
      exact List.forall_mem_append.mpr
        ⟨tried.own, List.forall_mem_singleton.mpr ⟨rfl, rfl, rfl⟩⟩
  once := by
    cases h with
    | replied payload now => exact .inl rfl
    | failed tried now =>
      cases tried with
      | thrown => exact .inl rfl
      | rejected payload now' executed =>
        cases executed with
        | false => exact .inl rfl
        | true => exact .inr ⟨rfl, payload, now', _, rfl⟩

theorem accounts_initial (channels : List String) : Accounts channels initial where
  kept _ := List.Perm.refl _
  taken := ⟨[], rfl, rfl⟩
  answered := ⟨[], [], [], rfl, .nil, rfl, rfl⟩
  pushed := List.Sublist.refl _

theorem Accounts.push (h : Accounts channels s) (key : String) (element : Element) :
    Accounts channels (lPush s key element) where
  kept := kept_lPush h.kept
  taken := h.taken
  answered := h.answered
  pushed := h.pushed.trans (List.sublist_append_left _ _)

theorem Accounts.read (h : Accounts channels s) (hkey : key ∉ channels) {rest : List Element}
    (hlist : s.lists key = element :: rest) : Accounts channels (pop s key element) where
  kept := kept_pop h.kept hlist
  taken := by
    show ∃ left, ofLists channels (s.popped ++ [(key, element)]) = _ ∧ _
    rw [ofLists_concat, if_neg hkey, List.append_nil]
    exact h.taken
  answered := h.answered
  pushed := h.pushed

/-- While `run` waits, everything that was popped for it was taken, and all of it is answered. -/
theorem Accounts.of_waiting (h : Accounts channels s) (hwaiting : s.loop = .waiting) :
    ofLists channels s.popped = s.taken.map .request ∧
      ∃ parts, List.Forall₂ Answered s.taken parts ∧ s.calls = parts.flatten := by
  obtain ⟨left, hleft, hnone⟩ := h.taken
  obtain ⟨done, parts, calls, htaken, hanswered, hmade, hcalls⟩ := h.answered
  rw [hwaiting] at hnone htaken hmade
  obtain rfl : left = [] := hnone
  obtain rfl : calls = [] := hmade
  rw [List.append_nil] at hleft hcalls
  have htaken : s.taken = done := htaken.trans (List.append_nil done)
  exact ⟨hleft, parts, htaken ▸ hanswered, hcalls⟩

/-- The server pops an element. -/
theorem Accounts.pop (h : Accounts channels s) (hwaiting : s.loop = .waiting) {rest : List Element}
    (hkey : key ∈ channels) (hlist : s.lists key = element :: rest) {loop : Loop}
    (hleft : loop.Left [element]) (hinHand : loop.inHand = []) (hmade : loop.Made []) :
    Accounts channels { pop s key element with loop := loop } where
  kept := kept_pop h.kept hlist
  taken := by
    refine ⟨[element], ?_, hleft⟩
    show ofLists channels (s.popped ++ [(key, element)]) = s.taken.map .request ++ [element]
    rw [ofLists_concat, if_pos hkey, (h.of_waiting hwaiting).1]
  answered := by
    obtain ⟨-, parts, hanswered, hcalls⟩ := h.of_waiting hwaiting
    refine ⟨s.taken, parts, [], ?_, hanswered, hmade, hcalls.trans (List.append_nil _).symm⟩
    show s.taken = s.taken ++ loop.inHand
    rw [hinHand, List.append_nil]
  pushed := h.pushed

theorem Accounts.run (h : Accounts channels s) (hwaiting : s.loop = .waiting) :
    Accounts channels (run channels s) := by
  unfold Peer.run
  cases hfirst : first s.lists channels with
  | none => exact h
  | some p =>
    obtain ⟨key, element⟩ := p
    obtain ⟨hkey, rest, hlist⟩ := first_eq_some hfirst
    obtain ⟨hpopped, parts, hanswered, hcalls⟩ := h.of_waiting hwaiting
    cases element with
    | request message =>
      exact
        { kept := kept_pop h.kept hlist
          taken := by
            refine ⟨[], ?_, rfl⟩
            show ofLists channels (s.popped ++ [(key, .request message)]) =
              (s.taken ++ [message]).map .request ++ []
            rw [ofLists_concat, if_pos hkey, hpopped, List.map_append, List.append_nil]
            rfl
          answered := ⟨s.taken, parts, [], rfl, hanswered, rfl,
            hcalls.trans (List.append_nil _).symm⟩
          pushed := h.pushed }
    | response message =>
      exact h.pop hwaiting hkey hlist ⟨_, rfl, fun m hm => Element.noConfusion hm⟩ rfl rfl
    | other text =>
      exact h.pop hwaiting hkey hlist ⟨_, rfl, fun m hm => Element.noConfusion hm⟩ rfl rfl

theorem Accounts.lost (h : Accounts channels s) (hwaiting : s.loop = .waiting) :
    Accounts channels { s with loop := .lost } where
  kept := h.kept
  taken := ⟨[], (h.of_waiting hwaiting).1.trans (List.append_nil _).symm, Nat.zero_le 1⟩
  answered := by
    obtain ⟨-, parts, hanswered, hcalls⟩ := h.of_waiting hwaiting
    exact ⟨s.taken, parts, [], (List.append_nil _).symm, hanswered, rfl,
      hcalls.trans (List.append_nil _).symm⟩
  pushed := h.pushed

theorem Accounts.runRejected (h : Accounts channels s) (hwaiting : s.loop = .waiting)
    (executed : Bool) : Accounts channels (runRejected channels s executed) := by
  unfold Peer.runRejected
  cases hfirst : first s.lists channels with
  | none => exact h.lost hwaiting
  | some p =>
    obtain ⟨key, element⟩ := p
    obtain ⟨hkey, rest, hlist⟩ := first_eq_some hfirst
    dsimp only
    split_ifs
    · exact h.pop hwaiting hkey hlist (le_refl 1) rfl rfl
    · exact h.lost hwaiting

theorem Accounts.handled (h : Accounts channels s) {message : IncomingRequest}
    (hloop : s.loop = .handling message) (outcome : Outcome) (now : Nat) :
    Accounts channels (handled s message now outcome) := by
  obtain ⟨left, hleft, hnone⟩ := h.taken
  obtain ⟨done, parts, calls, htaken, hanswered, hmade, hcalls⟩ := h.answered
  rw [hloop] at hnone htaken hmade
  obtain rfl : calls = [] := hmade
  cases outcome with
  | data payload =>
    exact ⟨h.kept, ⟨left, hleft, hnone⟩,
      ⟨done, parts, [], htaken, hanswered, ⟨rfl, payload, now, rfl⟩, hcalls⟩, h.pushed⟩
  | thrown reason =>
    exact ⟨h.kept, ⟨left, hleft, hnone⟩,
      ⟨done, parts, [], htaken, hanswered, ⟨reason, now, .thrown, rfl⟩, hcalls⟩, h.pushed⟩

/-- A push that ends, with what it means for the request in hand. -/
theorem Accounts.called (h : Accounts channels s) (call : Call) {loop : Loop}
    (hleft : ∀ left, s.loop.Left left → loop.Left left)
    (hanswered : ∃ done parts calls, s.taken = done ++ loop.inHand ∧
      List.Forall₂ Answered done parts ∧ loop.Made calls ∧
        s.calls ++ [call] = parts.flatten ++ calls) :
    Accounts channels (called s call loop) := by
  have htaken : ∃ left, ofLists channels s.popped = s.taken.map .request ++ left ∧ loop.Left left := by
    obtain ⟨left, hpopped, hs⟩ := h.taken
    exact ⟨left, hpopped, hleft left hs⟩
  unfold Peer.called
  cases hexecuted : call.result.executed with
  | false =>
    refine ⟨h.kept, htaken, hanswered, ?_⟩
    show (((s.calls ++ [call]).filter _).map _).Sublist s.pushed
    rw [List.filter_append, List.filter_cons_of_neg (by rw [hexecuted]; decide), List.filter_nil,
      List.append_nil]
    exact h.pushed
  | true =>
    refine ⟨kept_lPush h.kept, htaken, hanswered, ?_⟩
    show (((s.calls ++ [call]).filter _).map _).Sublist
      (s.pushed ++ [(call.key, .response call.response)])
    have hone : [call].filter (fun c => c.result.executed) = [call] :=
      List.filter_cons_of_pos hexecuted
    rw [List.filter_append, hone, List.map_append]
    exact h.pushed.append (List.Sublist.refl _)

/-- The last push for a request returns. -/
theorem Accounts.served (h : Accounts channels s) {message : IncomingRequest} {call : Call}
    (hleft : ∀ left, s.loop.Left left → left = []) (hinHand : s.loop.inHand = [message])
    (hserved : ∀ calls, s.loop.Made calls → Served message (calls ++ [call])) :
    Accounts channels (Peer.called s call .waiting) := by
  obtain ⟨done, parts, calls, htaken, hanswered, hmade, hcalls⟩ := h.answered
  refine h.called call hleft ⟨done ++ [message], parts ++ [calls ++ [call]], [], ?_, ?_, rfl, ?_⟩
  · rw [htaken, hinHand]
    exact (List.append_nil _).symm
  · exact List.rel_append hanswered (.cons (hserved calls hmade).answered .nil)
  · rw [hcalls, List.flatten_append, List.flatten_singleton, List.append_nil, List.append_assoc]

theorem Accounts.afterPush (h : Accounts channels s) (result : Pushed) (now : Nat) :
    Accounts channels (afterPush s result now) := by
  unfold Peer.afterPush
  cases hloop : s.loop with
  | replying message response =>
    cases result with
    | returned =>
      have hinHand : s.loop.inHand = [message] := by
        rw [hloop]
        rfl
      refine h.served ?_ hinHand ?_
      · rw [hloop]
        exact fun left hleft => hleft
      · rw [hloop]
        rintro calls ⟨rfl, payload, now, rfl⟩
        exact .replied payload now
    | rejected executed reason =>
      obtain ⟨done, parts, calls, htaken, hanswered, hmade, hcalls⟩ := h.answered
      rw [hloop] at htaken hmade
      obtain ⟨rfl, payload, now', rfl⟩ := hmade
      refine h.called _ ?_ ⟨done, parts, _, htaken, hanswered,
        ⟨reason, now, .rejected payload now' executed, rfl⟩, ?_⟩
      · rw [hloop]
        exact fun left hleft => hleft
      · rw [hcalls, List.append_nil]
  | failing message response =>
    cases result with
    | returned =>
      have hinHand : s.loop.inHand = [message] := by
        rw [hloop]
        rfl
      refine h.served ?_ hinHand ?_
      · rw [hloop]
        exact fun left hleft => hleft
      · rw [hloop]
        rintro calls ⟨reason, now, htried, rfl⟩
        exact .failed htried now
    | rejected executed reason =>
      obtain ⟨done, parts, calls, htaken, hanswered, hmade, hcalls⟩ := h.answered
      rw [hloop] at htaken hmade
      obtain ⟨reason', now', htried, rfl⟩ := hmade
      refine h.called _ ?_ ⟨done, parts, _, htaken, hanswered,
        ⟨reason', now', calls, executed, reason, htried, rfl⟩, ?_⟩
      · rw [hloop]
        exact fun left hleft => hleft
      · rw [hcalls, List.append_assoc]
  | _ => exact h

theorem Accounts.step (h : Accounts channels s) (e : Event) : Accounts channels (step channels s e) := by
  cases e with
  | push key element => exact h.push key element
  | read key =>
    dsimp only [Peer.step]
    split_ifs with hkey
    · exact h
    · cases hlist : s.lists key with
      | nil => exact h
      | cons element rest => exact h.read hkey hlist
  | run =>
    dsimp only [Peer.step]
    cases hloop : s.loop with
    | waiting => exact h.run hloop
    | _ => exact h
  | rejected executed =>
    dsimp only [Peer.step]
    cases hloop : s.loop with
    | waiting => exact h.runRejected hloop executed
    | _ => exact h
  | handled outcome now =>
    dsimp only [Peer.step]
    cases hloop : s.loop with
    | handling message => exact h.handled hloop outcome now
    | _ => exact h
  | pushed result now => exact h.afterPush result now

/-- However the clients, the relay and the server take turns. -/
theorem bus_accounts (channels : List String) (es : List Event) :
    Accounts channels (exec channels es) := by
  unfold exec
  induction es using List.reverseRecOn with
  | nil => exact accounts_initial channels
  | append_singleton es e ih =>
    rw [List.foldl_append]
    exact ih.step e

end ThreefoldSdk.Peer
