import ThreefoldSdk.TfChain.Utility

/-! Waiting for an event of the chain (`QueryClient.listenForEvent`). -/

namespace ThreefoldSdk.TfChain

variable {P : Type}

/-- How the promise is settled. -/
inductive Answer (P : Type) where
  | resolved (data : List P)
  | rejected (message : String)
  /-- A `ValidationError`, before anything is subscribed. -/
  | invalid (message : String)
deriving DecidableEq

/-- What is listened for. An error of the validator is the text of what it throws. -/
structure Listener (P : Type) where
  pallet : String
  method : String
  validator : List P → Except String Bool
  timeoutInMinutes : Nat

/-- The events of a block, and the milliseconds at which they arrive. -/
structure Batch (P : Type) where
  time : Nat
  events : List (Event P)

/-- The subscription, the deadlines of the timers that run, and the promise. -/
structure Waiting (P : Type) where
  subscribed : Bool
  timers : List Nat
  settled : Option (Answer P)

/-- The keys of `api.events`, and of each of them. -/
abbrev ApiEvents := List (String × List String)

namespace ApiEvents

def checkSection (api : ApiEvents) (pallet : String) : Bool := (api.map Prod.fst).contains pallet

def checkMethod (api : ApiEvents) (pallet method : String) : Bool :=
  ((api.lookup pallet).getD []).contains method

end ApiEvents

namespace Listener
variable (l : Listener P)

def timeout : Answer P := .rejected s!"Timeout: No response within {l.timeoutInMinutes} minutes"

/-- The event is of the section and the method. -/
def Matches (event : Event P) : Prop := event.pallet = l.pallet ∧ event.method = l.method

instance : DecidablePred l.Matches := fun _ => inferInstanceAs (Decidable (_ ∧ _))

/-- The loop over the events of a batch: whether it unsubscribes, and how it settles the promise. -/
def scan : List (Event P) → Bool × Option (Answer P)
  | [] => (false, none)
  | event :: events =>
    if l.Matches event then
      match l.validator event.data with
      | .error error => (true, some (.rejected s!"Cannot reach the key with error:\n\t{error}"))
      | .ok true => (true, some (.resolved event.data))
      | .ok false => (true, (scan events).2)
    else scan events

/-- The timers that are due: they unsubscribe, and reject the promise if it is not settled. -/
def expire (now : Nat) (w : Waiting P) : Waiting P :=
  if ∃ deadline ∈ w.timers, deadline ≤ now then
    { subscribed := false
      timers := w.timers.filter fun deadline => now < deadline
      settled := w.settled.or (some l.timeout) }
  else w

/-- The callback; the timer of the batch is cleared when the promise is resolved. -/
def onEvents (w : Waiting P) (batch : Batch P) : Waiting P :=
  if w.subscribed then
    match l.scan batch.events with
    | (unsubscribed, some (.resolved data)) =>
      { subscribed := !unsubscribed
        timers := w.timers
        settled := w.settled.or (some (.resolved data)) }
    | (unsubscribed, answer) =>
      { subscribed := !unsubscribed
        timers := w.timers ++ [batch.time + l.timeoutInMinutes * 60000]
        settled := w.settled.or answer }
  else w

def wait (w : Waiting P) (batch : Batch P) : Waiting P := l.onEvents (l.expire batch.time w) batch

/-- The promise, when all batches have arrived and all timers have run out. -/
def listenForEvent (api : ApiEvents) (batches : List (Batch P)) : Option (Answer P) :=
  if ¬api.checkSection l.pallet then some (.invalid s!"<{l.pallet}> is not defined on the chain")
  else if ¬api.checkMethod l.pallet l.method then
    some (.invalid s!"<{l.method}> is not defined on the chain under {l.pallet}")
  else
    let w := batches.foldl l.wait ⟨true, [], none⟩
    if w.timers = [] then w.settled else w.settled.or (some l.timeout)

end Listener

/-! What settles the promise. -/

namespace Listener
variable (l : Listener P)

/-- The validator accepts the event. -/
def Accepts (event : Event P) : Prop := l.Matches event ∧ l.validator event.data = .ok true

/-- The validator throws on the event. -/
def Throws (event : Event P) : Prop := l.Matches event ∧
    ∃ error, l.validator event.data = .error error

/-- The event is the first one that the validator accepts: `earlier` are the batches before its
own. -/
structure First (batches : List (Batch P)) (event : Event P) (earlier : List (Batch P))
    (before : List (Event P)) : Prop where
  split : ∃ after batch later, batches = earlier ++ batch :: later ∧
    batch.events = before ++ event :: after
  accepts : l.Accepts event
  earlier_not : ∀ batch ∈ earlier, ∀ e ∈ batch.events, ¬l.Accepts e
  before_not : ∀ e ∈ before, ¬l.Accepts e

/-- Whatever arrives late, the promise is resolved with the first event that is accepted in time,
and it times out only if there is none. -/
def Independent (api : ApiEvents) (batches late : List (Batch P)) : Prop :=
  (∀ event earlier before, l.First batches event earlier before →
    l.listenForEvent api (batches ++ late) = some (.resolved event.data)) ∧
  (l.listenForEvent api (batches ++ late) = some l.timeout →
    ∀ batch ∈ batches, ∀ event ∈ batch.events, ¬l.Accepts event)

/-- Before the first event that is accepted, no earlier batch has an event of the section and the
method, and the validator throws on none of its own batch. -/
def Unhindered (batches : List (Batch P)) : Prop :=
  ∀ event earlier before, l.First batches event earlier before →
    (∀ batch ∈ earlier, ∀ e ∈ batch.events, ¬l.Matches e) ∧ ∀ e ∈ before, ¬l.Throws e

/-- The time after which a batch is late. -/
def deadline (first : Batch P) : Nat := first.time + l.timeoutInMinutes * 60000

/-- All batches arrive before the first timer is due, the later ones not before that. -/
def InTime : List (Batch P) → List (Batch P) → Prop
  | [], _ => True
  | first :: rest, late =>
    (∀ batch ∈ first :: rest, first.time ≤ batch.time ∧ batch.time < l.deadline first) ∧
      ∀ batch ∈ late, l.deadline first ≤ batch.time

/-! One batch. -/

variable {l}

theorem scan_fst (events : List (Event P)) :
    (l.scan events).1 = true ↔ ∃ e ∈ events, l.Matches e := by
  induction events with
  | nil => simp [scan]
  | cons e events ih =>
    unfold scan
    by_cases hmatches : l.Matches e
    · rw [if_pos hmatches]
      refine iff_of_true ?_ ⟨e, List.mem_cons_self, hmatches⟩
      cases l.validator e.data with
      | error error => rfl
      | ok accepted => cases accepted <;> rfl
    · rw [if_neg hmatches, ih]
      simp [hmatches]

theorem scan_none {events : List (Event P)} (h : ∀ e ∈ events, ¬l.Accepts e) (data : List P) :
    (l.scan events).2 ≠ some (.resolved data) := by
  induction events with
  | nil => simp [scan]
  | cons e events ih =>
    have hrest := ih fun e' he' => h e' (List.mem_cons_of_mem _ he')
    unfold scan
    by_cases hmatches : l.Matches e
    · rw [if_pos hmatches]
      cases hvalidator : l.validator e.data with
      | error error => simp
      | ok accepted =>
        cases accepted with
        | false => exact hrest
        | true => exact absurd ⟨hmatches, hvalidator⟩ (h e List.mem_cons_self)
    · rw [if_neg hmatches]
      exact hrest

theorem scan_first {before after : List (Event P)} {event : Event P} (haccepts : l.Accepts event)
    (hbefore : ∀ e ∈ before, ¬l.Accepts e) :
    (l.scan (before ++ event :: after)).2 = some (.resolved event.data) ↔
      ∀ e ∈ before, ¬l.Throws e := by
  induction before with
  | nil =>
    refine iff_of_true ?_ (by simp)
    show (l.scan (event :: after)).2 = _
    unfold scan
    rw [if_pos haccepts.1, haccepts.2]
  | cons e before ih =>
    have hrest := ih fun e' he' => hbefore e' (List.mem_cons_of_mem _ he')
    rw [List.forall_mem_cons, ← hrest]
    show (l.scan (e :: (before ++ event :: after))).2 = _ ↔ _
    rw [scan]
    by_cases hmatches : l.Matches e
    · rw [if_pos hmatches]
      cases hvalidator : l.validator e.data with
      | error error =>
        apply iff_of_false
        · simp
        · exact fun h => h.1 ⟨hmatches, error, hvalidator⟩
      | ok accepted =>
        cases accepted with
        | false =>
          refine (and_iff_right ?_).symm
          intro hthrows
          obtain ⟨error, herror⟩ := hthrows.2
          rw [hvalidator] at herror
          cases herror
        | true => exact absurd ⟨hmatches, hvalidator⟩ (hbefore e List.mem_cons_self)
    · rw [if_neg hmatches]
      exact (and_iff_right fun hthrows => hmatches hthrows.1).symm

/-! All batches. -/

/-- What the batches make of the promise: the first one that unsubscribes decides. -/
def decided (l : Listener P) : List (Batch P) → Option (Answer P)
  | [] => none
  | batch :: batches =>
    if (l.scan batch.events).1 then (l.scan batch.events).2 else l.decided batches

theorem decided_first {batches : List (Batch P)} {event : Event P} {earlier : List (Batch P)}
    {before : List (Event P)} (h : l.First batches event earlier before) :
    l.decided batches = some (.resolved event.data) ↔
      (∀ batch ∈ earlier, ∀ e ∈ batch.events, ¬l.Matches e) ∧ ∀ e ∈ before, ¬l.Throws e := by
  obtain ⟨⟨after, batch, later, rfl, hevents⟩, haccepts, hearlier, hbefore⟩ := h
  induction earlier with
  | nil =>
    have hunsubscribes : (l.scan batch.events).1 = true := by
      rw [scan_fst, hevents]
      exact ⟨event, List.mem_append_right _ List.mem_cons_self, haccepts.1⟩
    show (if (l.scan batch.events).1 then (l.scan batch.events).2 else _) = _ ↔ _
    rw [if_pos hunsubscribes, hevents, scan_first haccepts hbefore]
    exact (and_iff_right (by simp)).symm
  | cons first earlier ih =>
    have hrest := ih fun b hb => hearlier b (List.mem_cons_of_mem _ hb)
    show (if (l.scan first.events).1 then (l.scan first.events).2
      else l.decided (earlier ++ batch :: later)) = _ ↔ _
    by_cases hunsubscribes : (l.scan first.events).1 = true
    · -- the first batch unsubscribes, but accepts nothing
      rw [if_pos hunsubscribes]
      apply iff_of_false
      · exact scan_none (hearlier first List.mem_cons_self) event.data
      · intro hcond
        obtain ⟨e, he, hmatches⟩ := scan_fst _ |>.mp hunsubscribes
        exact hcond.1 first List.mem_cons_self e he hmatches
    · rw [if_neg hunsubscribes, hrest, List.forall_mem_cons]
      have hnone : ∀ e ∈ first.events, ¬l.Matches e := fun e he hmatches =>
        hunsubscribes ((scan_fst _).mpr ⟨e, he, hmatches⟩)
      exact and_congr_left' (and_iff_right hnone).symm

/-! The subscription and its timers. -/

/-- The subscription has ended, and the promise has its answer, or a timer that runs gives it. -/
def Over (l : Listener P) (answer : Answer P) (w : Waiting P) : Prop :=
  w.subscribed = false ∧
    (w.settled = some answer ∨ (w.settled.getD l.timeout = answer ∧ w.timers ≠ []))

/-- The promise when the timers have run out. -/
def finish (l : Listener P) (w : Waiting P) : Option (Answer P) :=
  if w.timers = [] then w.settled else w.settled.or (some l.timeout)

theorem or_timeout (settled : Option (Answer P)) :
    settled.or (some l.timeout) = some (settled.getD l.timeout) := by
  cases settled with
  | none => rfl
  | some answer => rfl

theorem over_finish {answer : Answer P} {w : Waiting P} (h : l.Over answer w) :
    l.finish w = some answer := by
  obtain ⟨-, hsettled | ⟨hsettled, htimers⟩⟩ := h
  · unfold finish
    split
    · exact hsettled
    · rw [hsettled]
      rfl
  · unfold finish
    rw [if_neg htimers, or_timeout, hsettled]

theorem onEvents_unsubscribed {w : Waiting P} (h : w.subscribed = false) (batch : Batch P) :
    l.onEvents w batch = w := by
  unfold onEvents
  rw [if_neg]
  rw [h]
  decide

theorem expire_due {w : Waiting P} {now : Nat} (h : ∃ d ∈ w.timers, d ≤ now) :
    l.Over (w.settled.getD l.timeout) (l.expire now w) := by
  unfold expire
  rw [if_pos h]
  exact ⟨rfl, Or.inl (or_timeout _)⟩

theorem expire_not_due {w : Waiting P} {now : Nat} (h : ¬∃ d ∈ w.timers, d ≤ now) :
    l.expire now w = w := if_neg h

/-- What has ended stays as it is. -/
theorem over_wait {answer : Answer P} {w : Waiting P} (h : l.Over answer w) (batch : Batch P) :
    l.Over answer (l.wait w batch) := by
  have hexpired : l.Over answer (l.expire batch.time w) := by
    by_cases hdue : ∃ d ∈ w.timers, d ≤ batch.time
    · have hover := expire_due (l := l) hdue
      obtain ⟨-, hsettled | ⟨hsettled, -⟩⟩ := h
      · rw [hsettled] at hover
        exact hover
      · rw [hsettled] at hover
        exact hover
    · rw [expire_not_due hdue]
      exact h
  unfold wait
  rw [onEvents_unsubscribed hexpired.1]
  exact hexpired

theorem over_waits {answer : Answer P} {w : Waiting P} (h : l.Over answer w)
    (batches : List (Batch P)) : l.Over answer (batches.foldl l.wait w) := by
  induction batches generalizing w with
  | nil => exact h
  | cons batch batches ih => exact ih (over_wait h batch)

theorem scan_snd {events : List (Event P)} (h : (l.scan events).1 = false) :
    (l.scan events).2 = none := by
  induction events with
  | nil => rfl
  | cons e events ih =>
    by_cases hmatches : l.Matches e
    · have hunsubscribes := (scan_fst (l := l) (e :: events)).mpr ⟨e, List.mem_cons_self, hmatches⟩
      rw [hunsubscribes] at h
      cases h
    · unfold scan at h ⊢
      rw [if_neg hmatches] at h ⊢
      exact ih h

/-- A batch in time either ends the subscription or leaves it with one more timer. -/
theorem wait_subscribed (timers : List Nat) (batch : Batch P)
    (hearly : ∀ d ∈ timers, batch.time < d) :
    ((l.scan batch.events).1 = true ∧
        l.Over ((l.scan batch.events).2.getD l.timeout) (l.wait ⟨true, timers, none⟩ batch)) ∨
      ((l.scan batch.events).1 = false ∧ l.wait ⟨true, timers, none⟩ batch =
        ⟨true, timers ++ [batch.time + l.timeoutInMinutes * 60000], none⟩) := by
  have hnot : ¬∃ d ∈ timers, d ≤ batch.time := by
    intro h
    obtain ⟨d, hd, hle⟩ := h
    exact absurd (hearly d hd) (Nat.not_lt.mpr hle)
  have hwait : l.wait ⟨true, timers, none⟩ batch = l.onEvents ⟨true, timers, none⟩ batch := by
    unfold wait
    rw [expire_not_due hnot]
  rw [hwait]
  unfold onEvents
  rw [if_pos rfl]
  cases hscan : l.scan batch.events with
  | mk unsubscribed answer =>
    cases unsubscribed with
    | true =>
      left
      cases answer with
      | none => exact ⟨rfl, rfl, Or.inr ⟨rfl, by simp⟩⟩
      | some answer =>
        cases answer with
        | resolved data => exact ⟨rfl, rfl, Or.inl rfl⟩
        | rejected message => exact ⟨rfl, rfl, Or.inl rfl⟩
        | invalid message => exact ⟨rfl, rfl, Or.inl rfl⟩
    | false =>
      right
      have hnone : (l.scan batch.events).2 = none := scan_snd (by rw [hscan])
      rw [hscan] at hnone
      have hanswer : answer = none := hnone
      rw [hanswer]
      exact ⟨rfl, rfl⟩

/-- Batches in time, while a timer runs that is due later. -/
theorem waits_subscribed {limit : Nat} {batches : List (Batch P)}
    (hbatches : ∀ batch ∈ batches, batch.time < limit ∧
      limit ≤ batch.time + l.timeoutInMinutes * 60000) {timers : List Nat}
    (htimers : ∀ d ∈ timers, limit ≤ d) (hlimit : limit ∈ timers) :
    l.Over ((l.decided batches).getD l.timeout) (batches.foldl l.wait ⟨true, timers, none⟩) ∨
      (l.decided batches = none ∧ ∃ timers', limit ∈ timers' ∧
        batches.foldl l.wait ⟨true, timers, none⟩ = ⟨true, timers', none⟩) := by
  induction batches generalizing timers with
  | nil => exact Or.inr ⟨rfl, timers, hlimit, rfl⟩
  | cons batch batches ih =>
    obtain ⟨hearly, hlater⟩ := hbatches batch List.mem_cons_self
    show l.Over (Option.getD (if (l.scan batch.events).1 then (l.scan batch.events).2
        else l.decided batches) _) (batches.foldl l.wait (l.wait _ batch)) ∨
      ((if (l.scan batch.events).1 then (l.scan batch.events).2 else l.decided batches) = none ∧
        ∃ timers', limit ∈ timers' ∧ batches.foldl l.wait (l.wait _ batch) = _)
    rcases wait_subscribed (l := l) timers batch
        (fun d hd => Nat.lt_of_lt_of_le hearly (htimers d hd)) with ⟨hscan, hover⟩ | ⟨hscan, heq⟩
    · left
      rw [if_pos hscan]
      exact over_waits hover batches
    · rw [hscan, heq, if_neg Bool.false_ne_true]
      apply ih fun b hb => hbatches b (List.mem_cons_of_mem _ hb)
      · intro d hd
        rcases List.mem_append.mp hd with hd | hd
        · exact htimers d hd
        · rw [List.mem_singleton.mp hd]
          exact hlater
      · exact List.mem_append_left _ hlimit

/-- The promise is what the batches in time make of it, and a timeout where they decide nothing. -/
theorem waits_eq {first : Batch P} {rest late : List (Batch P)}
    (hintime : l.InTime (first :: rest) late) :
    l.finish ((first :: rest ++ late).foldl l.wait ⟨true, [], none⟩) =
      some ((l.decided (first :: rest)).getD l.timeout) := by
  obtain ⟨hearly, hlate⟩ := hintime
  rw [List.foldl_append]
  show l.finish (late.foldl l.wait (rest.foldl l.wait (l.wait ⟨true, [], none⟩ first))) =
    some (Option.getD (if (l.scan first.events).1 then (l.scan first.events).2
      else l.decided rest) l.timeout)
  rcases wait_subscribed (l := l) [] first
      (fun d hd => absurd hd List.not_mem_nil) with ⟨hscan, hover⟩ | ⟨hscan, heq⟩
  · rw [if_pos hscan]
    exact over_finish (over_waits (over_waits hover rest) late)
  · rw [hscan, heq, if_neg Bool.false_ne_true]
    have hrest : ∀ batch ∈ rest, batch.time < l.deadline first ∧
        l.deadline first ≤ batch.time + l.timeoutInMinutes * 60000 := by
      intro batch hbatch
      obtain ⟨hafter, hbefore⟩ := hearly batch (List.mem_cons_of_mem _ hbatch)
      exact ⟨hbefore, Nat.add_le_add_right hafter _⟩
    have htimers : ∀ d ∈ [] ++ [l.deadline first], l.deadline first ≤ d := by
      intro d hd
      rw [List.mem_singleton.mp hd]
    rcases waits_subscribed hrest htimers List.mem_cons_self with
      hover | ⟨hnone, timers, hlimit, heq⟩
    · exact over_finish (over_waits hover late)
    · show l.finish (late.foldl l.wait (rest.foldl l.wait ⟨true, [] ++ [l.deadline first], none⟩)) = _
      rw [heq, hnone]
      -- the first late batch, or the end, finds a timer that is due
      cases late with
      | nil =>
        unfold finish
        rw [List.foldl_nil, if_neg (List.ne_nil_of_mem hlimit)]
        rfl
      | cons batch late =>
        have hover : l.Over l.timeout (l.wait ⟨true, timers, none⟩ batch) := by
          have hdue : ∃ d ∈ timers, d ≤ batch.time :=
            ⟨l.deadline first, hlimit, hlate batch List.mem_cons_self⟩
          have hexpired := expire_due (l := l) (w := ⟨true, timers, none⟩) hdue
          unfold wait
          rw [onEvents_unsubscribed hexpired.1]
          exact hexpired
        exact over_finish (over_waits hover late)

/-! Which traffic hinders. -/

/-- Where something holds of an element, there is a first element of which it holds. -/
theorem split_first {α : Type} {p : α → Prop} {xs : List α} (h : ∃ x ∈ xs, p x) :
    ∃ before x after, xs = before ++ x :: after ∧ p x ∧ ∀ y ∈ before, ¬p y := by
  classical
  obtain ⟨x, hx, hp⟩ := h
  cases hfind : xs.find? (fun x => decide (p x)) with
  | none => exact absurd (decide_eq_true hp) (List.find?_eq_none.mp hfind x hx)
  | some first =>
    obtain ⟨hfirst, before, after, hsplit, hbefore⟩ := List.find?_eq_some_iff_append.mp hfind
    refine ⟨before, first, after, hsplit, of_decide_eq_true hfirst, ?_⟩
    intro y hy hpy
    have hnot := hbefore y hy
    rw [decide_eq_true hpy] at hnot
    cases hnot

theorem exists_first {batches : List (Batch P)}
    (h : ∃ batch ∈ batches, ∃ event ∈ batch.events, l.Accepts event) :
    ∃ event earlier before, l.First batches event earlier before := by
  obtain ⟨earlier, batch, later, hbatches, hbatch, hearlier⟩ := split_first h
  obtain ⟨before, event, after, hevents, haccepts, hbefore⟩ := split_first hbatch
  refine ⟨event, earlier, before, ⟨after, batch, later, hbatches, hevents⟩, haccepts, ?_, hbefore⟩
  intro b hb e he hacceptsE
  exact hearlier b hb ⟨e, he, hacceptsE⟩

theorem listenForEvent_defined {api : ApiEvents} (hsection : api.checkSection l.pallet = true)
    (hmethod : api.checkMethod l.pallet l.method = true) (batches : List (Batch P)) :
    l.listenForEvent api batches = l.finish (batches.foldl l.wait ⟨true, [], none⟩) := by
  unfold listenForEvent
  rw [if_neg (not_not.mpr hsection), if_neg (not_not.mpr hmethod)]
  rfl

variable (l)

/-- Waiting is independent of what else arrives exactly where nothing hinders the first event that
is accepted. -/
theorem listen_independent_iff {api : ApiEvents} (hsection : api.checkSection l.pallet = true)
    (hmethod : api.checkMethod l.pallet l.method = true) {batches late : List (Batch P)}
    (hintime : l.InTime batches late) :
    l.Independent api batches late ↔ l.Unhindered batches := by
  have hresolves : ∀ event earlier before, l.First batches event earlier before →
      (l.listenForEvent api (batches ++ late) = some (.resolved event.data) ↔
        (∀ batch ∈ earlier, ∀ e ∈ batch.events, ¬l.Matches e) ∧ ∀ e ∈ before, ¬l.Throws e) := by
    intro event earlier before hfirst
    rw [listenForEvent_defined hsection hmethod, ← decided_first hfirst]
    cases batches with
    | nil =>
      obtain ⟨after, batch, later, hbatches, -⟩ := hfirst.split
      exact absurd hbatches (List.append_ne_nil_of_right_ne_nil _ (List.cons_ne_nil _ _)).symm
    | cons first rest =>
      rw [waits_eq hintime, Option.some_inj]
      cases l.decided (first :: rest) with
      | none =>
        apply iff_of_false
        · intro h
          cases h
        · intro h
          cases h
      | some answer => exact Option.some_inj.symm
  constructor
  · intro hindependent event earlier before hfirst
    exact (hresolves event earlier before hfirst).mp (hindependent.1 event earlier before hfirst)
  · intro hunhindered
    have hfirst_resolves : ∀ event earlier before, l.First batches event earlier before →
        l.listenForEvent api (batches ++ late) =
          some (.resolved event.data) := by
      intro event earlier before hfirst
      apply (hresolves event earlier before hfirst).mpr
      exact hunhindered event earlier before hfirst
    refine ⟨hfirst_resolves, ?_⟩
    intro htimeout batch hbatch event hevent haccepts
    obtain ⟨first, earlier, before, hfirst⟩ := exists_first ⟨batch, hbatch, event, hevent, haccepts⟩
    have hresolved := hfirst_resolves first earlier before hfirst
    rw [htimeout] at hresolved
    cases hresolved

end Listener

/-! `listenToMintCompleted` of the bridge. -/

/-- The data of a `MintCompleted` event. -/
structure Mint where
  target : String
  amount : Nat

def mintCheck (address : String) : List Mint → Except String Bool
  | [] => .error "TypeError: Cannot read properties of undefined (reading 'target')"
  | mint :: _ => .ok (mint.target == address)

def mintCompleted (address : String) (timeoutInMinutes : Nat) : Listener Mint where
  pallet := "tftBridgeModule"
  method := "MintCompleted"
  validator := mintCheck address
  timeoutInMinutes := timeoutInMinutes

/-- The amount that has been minted, or the text of the error. -/
def listenToMintCompleted (address : String) (timeoutInMinutes : Nat) (api : ApiEvents)
    (batches : List (Batch Mint)) : Option (Except String Nat) :=
  ((mintCompleted address timeoutInMinutes).listenForEvent api batches).map fun answer =>
    match answer with
    | .resolved (mint :: _) => .ok mint.amount
    | .resolved [] => .error "TypeError: Cannot read properties of undefined (reading 'amount')"
    | .rejected message => .error message
    | .invalid message => .error message

def bridgeEvents : ApiEvents :=
  [("system", ["ExtrinsicSuccess"]), ("tftBridgeModule", ["MintCompleted"])]

def mintTo (address : String) (amount : Nat) : Event Mint :=
  ⟨"tftBridgeModule", "MintCompleted", [⟨address, amount⟩]⟩

theorem mintTo_accepted (address : String) (timeoutInMinutes amount : Nat) :
    (mintCompleted address timeoutInMinutes).Accepts (mintTo address amount) := by
  refine ⟨⟨rfl, rfl⟩, ?_⟩
  show Except.ok (address == address) = _
  rw [beq_self_eq_true]

theorem mintTo_not_throws (address target : String) (timeoutInMinutes amount : Nat) :
    ¬(mintCompleted address timeoutInMinutes).Throws (mintTo target amount) := by
  intro hthrows
  obtain ⟨error, herror⟩ := hthrows.2
  cases herror

example : listenToMintCompleted "5Alice" 2 bridgeEvents [⟨6000, [mintTo "5Bob" 1, mintTo "5Alice" 7]⟩] =
    some (.ok 7) := rfl

/-- The second block has the mint that is waited for, after that of another account. -/
theorem sameBlock_independent :
    (mintCompleted "5Alice" 2).Independent bridgeEvents
      [⟨0, [extrinsicSuccess]⟩, ⟨6000, [mintTo "5Bob" 1, mintTo "5Alice" 7]⟩] [] := by
  have hintime : (mintCompleted "5Alice" 2).InTime
      [⟨0, [extrinsicSuccess]⟩, ⟨6000, [mintTo "5Bob" 1, mintTo "5Alice" 7]⟩] [] :=
    And.intro (by decide) (by decide)
  apply ((mintCompleted "5Alice" 2).listen_independent_iff (by decide) (by decide) hintime).mpr
  have hother : ¬(mintCompleted "5Alice" 2).Matches extrinsicSuccess := by decide
  intro event earlier before hfirst
  obtain ⟨after, batch, later, hbatches, hevents⟩ := hfirst.split
  constructor
  · intro b hb
    have hmem : b ∈ earlier ++ batch :: later := List.mem_append_left _ hb
    rw [← hbatches] at hmem
    rcases List.mem_pair.mp hmem with rfl | rfl
    · exact List.forall_mem_singleton.mpr hother
    · have haccepts := mintTo_accepted "5Alice" 2 7
      exact absurd haccepts (hfirst.earlier_not _ hb (mintTo "5Alice" 7) (by simp))
  · intro e he
    have hmem : batch ∈ earlier ++ batch :: later :=
      List.mem_append_right _ List.mem_cons_self
    have hevent : e ∈ batch.events := by
      rw [hevents]
      exact List.mem_append_left _ he
    rw [← hbatches] at hmem
    rcases List.mem_pair.mp hmem with rfl | rfl
    · rw [List.mem_singleton.mp hevent]
      exact fun hthrows => hother hthrows.1
    · rcases List.mem_pair.mp hevent with rfl | rfl
      · exact mintTo_not_throws "5Alice" "5Bob" 2 1
      · exact mintTo_not_throws "5Alice" "5Alice" 2 7

/-- The first block has a mint of another account, the second the one that is waited for. -/
theorem otherMint_times_out :
    ¬(mintCompleted "5Alice" 2).Independent bridgeEvents
      [⟨0, [mintTo "5Bob" 1]⟩, ⟨6000, [mintTo "5Alice" 7]⟩] [] := by
  intro hindependent
  have htimeout : (mintCompleted "5Alice" 2).listenForEvent bridgeEvents
      ([⟨0, [mintTo "5Bob" 1]⟩, ⟨6000, [mintTo "5Alice" 7]⟩] ++ []) =
        some (mintCompleted "5Alice" 2).timeout := by
    rfl
  have hnone := hindependent.2 htimeout ⟨6000, [mintTo "5Alice" 7]⟩
  apply hnone (List.mem_cons_of_mem _ List.mem_cons_self) (mintTo "5Alice" 7)
  · exact List.mem_cons_self
  · exact mintTo_accepted "5Alice" 2 7

end ThreefoldSdk.TfChain
