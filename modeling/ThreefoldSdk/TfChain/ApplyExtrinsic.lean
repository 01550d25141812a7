import ThreefoldSdk.TfChain.Utility

/-! Calls of `Client.applyExtrinsic` by any clients of a process: the lock that all of them share, and
the nonces that the chain gives for their accounts. -/

namespace ThreefoldSdk.TfChain.ApplyExtrinsic

/-- The account of a client and whether it has a key pair or a signer, with the extrinsic and its
options. -/
structure Request (P : Type) where
  address : String
  signs : Bool
  pallet : String
  isBatch : Bool
  resultSections : List String
  resultEvents : List String
  map : Option (List P → P)

inductive Result (P : Type) where
  | one (value : Option P)
  | many (values : List (Option P))

/-- What a call throws: the chain gives no nonce, the node does not take the transaction, or not with
this nonce, the callback is given an error, or the extrinsic failed. -/
inductive Failure (P E : Type) where
  | index (error : E)
  | refused (error : E)
  | stale
  | status (error : E)
  | dispatch (error : Option P)

/-- What the callback is called with. -/
inductive Update (P E : Type) where
  | error (error : E)
  | status (isInBlock : Bool) (events : List (Event P))

section
variable {P E : Type}

namespace Request
variable (x : Request P)

def value (e : Event P) : Option P :=
  match x.map with
  | some f => some (f e.data)
  | none => e.data.head?

/-- The extrinsic's own section is pushed to the ones asked for, but for a batch. -/
def sections : List String := if x.isBatch then x.resultSections else x.resultSections ++ [x.pallet]

/-- The events of a block: what is collected, and how the promise was settled first; nothing for the
array of a batch, which is filled further. -/
def see (seen : List (Option P) × Option (Except (Failure P E) (Option (Option P)))) (e : Event P) :
    List (Option P) × Option (Except (Failure P E) (Option (Option P))) :=
  if e.pallet = "system" ∧ e.method = "ExtrinsicFailed" then
    (seen.1, seen.2.or (some (.error (.dispatch e.data.head?))))
  else if x.sections.contains e.pallet &&
      (x.resultEvents.isEmpty || x.resultEvents.contains e.method) then
    (seen.1 ++ [x.value e], seen.2)
  else if e.pallet = "system" ∧ e.method = "ExtrinsicSuccess" then
    (seen.1, seen.2.or (some (.ok (if x.isBatch then none else some seen.1.head?.join))))
  else seen

/-- How the callback settles the promise, if it does. -/
def callback : Update P E → Option (Except (Failure P E) (Result P))
  | .error error => some (.error (.status error))
  | .status isInBlock events =>
    if isInBlock then
      let seen := events.foldl x.see ([], none)
      seen.2.map fun settled => settled.map fun value => value.elim (.many seen.1) .one
    else none

end Request

/-- Where a call is. `silent` is the one whose client can not sign: its promise is never settled. -/
inductive Stage (P E : Type) where
  | idle
  | waiting
  | asking
  | signing (nonce : ℕ)
  | silent
  | watching (nonce : ℕ)
  | done (outcome : Except (Failure P E) (Result P))

/-- Between the two ends of the lock. -/
def Stage.inFlight : Stage P E → Bool
  | asking | signing _ | silent | watching _ => true
  | _ => false

structure Sent where
  call : ℕ
  address : String
  nonce : ℕ

structure State (P E : Type) where
  stage : ℕ → Stage P E
  locked : Bool
  /-- The next index of an account, with the transactions that wait for a block. -/
  index : String → ℕ
  sent : List Sent

inductive Event (P E : Type) where
  | call (r : ℕ)
  | acquired (r : ℕ)
  | indexed (r : ℕ)
  | indexFailed (r : ℕ) (error : E)
  | taken (r : ℕ)
  | refused (r : ℕ) (error : E)
  | updated (r : ℕ) (update : Update P E)
  /-- Another process sends a transaction of the account. -/
  | elsewhere (address : String)

def State.set (s : State P E) (r : ℕ) (stage : Stage P E) : State P E :=
  { s with stage := Function.update s.stage r stage }

/-- The promise is settled, and the lock is released. -/
def State.finish (s : State P E) (r : ℕ) (outcome : Except (Failure P E) (Result P)) : State P E :=
  { s.set r (.done outcome) with locked := false }

def State.count (s : State P E) (address : String) : State P E :=
  { s with index := Function.update s.index address (s.index address + 1) }

def State.send (s : State P E) (r : ℕ) (address : String) (nonce : ℕ) : State P E :=
  { (s.set r (.watching nonce)).count address with sent := s.sent ++ [⟨r, address, nonce⟩] }

section
variable (x : ℕ → Request P)

def step (s : State P E) : Event P E → State P E
  | .call r =>
    match s.stage r with
    | .idle => s.set r .waiting
    | _ => s
  | .acquired r =>
    match s.stage r with
    | .waiting => if s.locked then s else { s.set r .asking with locked := true }
    | _ => s
  | .indexed r =>
    match s.stage r with
    | .asking => s.set r (if (x r).signs then .signing (s.index (x r).address) else .silent)
    | _ => s
  | .indexFailed r error =>
    match s.stage r with
    | .asking => s.finish r (.error (.index error))
    | _ => s
  | .taken r =>
    match s.stage r with
    | .signing nonce =>
      if nonce = s.index (x r).address then s.send r (x r).address nonce
      else s.finish r (.error .stale)
    | _ => s
  | .refused r error =>
    match s.stage r with
    | .signing _ => s.finish r (.error (.refused error))
    | _ => s
  | .updated r update =>
    match s.stage r with
    | .watching _ =>
      match (x r).callback update with
      | some outcome => s.finish r outcome
      | none => s
    | _ => s
  | .elsewhere address => s.count address

def start (index : String → ℕ) : State P E := ⟨fun _ => .idle, false, index, []⟩

def exec (index : String → ℕ) (es : List (Event P E)) : State P E := es.foldl (step x) (start index)

/-- What an event does to the calls, where it does anything. -/
inductive Move (s : State P E) : State P E → Prop where
  | called (r : ℕ) (h : s.stage r = .idle) : Move s (s.set r .waiting)
  | acquired (r : ℕ) (h : s.stage r = .waiting) (hfree : s.locked = false) :
    Move s { s.set r .asking with locked := true }
  | signing (r : ℕ) (h : s.stage r = .asking) : Move s (s.set r (.signing (s.index (x r).address)))
  | silent (r : ℕ) (h : s.stage r = .asking) : Move s (s.set r .silent)
  | sent (r : ℕ) (h : s.stage r = .signing (s.index (x r).address)) :
    Move s (s.send r (x r).address (s.index (x r).address))
  | stale (r nonce : ℕ) (h : s.stage r = .signing nonce) (hne : nonce ≠ s.index (x r).address) :
    Move s (s.finish r (.error .stale))
  | failed (r : ℕ) (f : Failure P E) (h : (s.stage r).inFlight = true) (hsilent : s.stage r ≠ .silent)
    (hf : f ≠ .stale) : Move s (s.finish r (.error f))
  | returned (r nonce : ℕ) (result : Result P) (h : s.stage r = .watching nonce) :
    Move s (s.finish r (.ok result))

end

section
variable {x : ℕ → Request P} {s : State P E}

theorem callback_ne_stale (y : Request P) (u : Update P E) :
    y.callback u ≠ some (.error .stale) := by
  have hsee : ∀ (events : List (TfChain.Event P))
      (seen : List (Option P) × Option (Except (Failure P E) (Option (Option P)))),
      seen.2 ≠ some (.error .stale) → (events.foldl y.see seen).2 ≠ some (.error .stale) := by
    intro events
    induction events with
    | nil => exact fun seen h => h
    | cons e events ih =>
      intro seen h
      refine ih (y.see seen e) ?_
      unfold Request.see
      cases hseen : seen.2 with
      | none => split_ifs <;> simp [hseen]
      | some settled =>
        rw [hseen] at h
        split_ifs <;> simpa [hseen] using h
  cases u with
  | error error => simp [Request.callback]
  | status isInBlock events =>
    have hfold := hsee events ([], none) (by simp)
    unfold Request.callback
    dsimp only
    cases isInBlock with
    | false => exact (Option.some_ne_none _).symm
    | true =>
      rw [if_pos rfl]
      intro h
      obtain ⟨settled, hsettled, hmap⟩ := Option.map_eq_some_iff.mp h
      cases settled with
      | ok value => cases hmap
      | error f =>
        have hf : f = .stale := by
          have heq : (Except.error f : Except (Failure P E) (Result P)) = .error .stale := hmap
          exact Except.error.inj heq
        rw [hf] at hsettled
        exact hfold hsettled

theorem step_moves (e : Event P E) (he : ∀ address, e ≠ .elsewhere address) :
    step x s e = s ∨ Move x s (step x s e) := by
  cases e with
  | call r =>
    cases h : s.stage r with
    | idle =>
      have hstep : step x s (.call r) = s.set r .waiting := by simp only [step, h]
      rw [hstep]
      exact Or.inr (.called r h)
    | _ => exact Or.inl (by simp only [step, h])
  | acquired r =>
    cases h : s.stage r with
    | waiting =>
      cases hlocked : s.locked with
      | true => exact Or.inl (by simp only [step, h, hlocked, if_true])
      | false =>
        have hstep : step x s (.acquired r) = { s.set r .asking with locked := true } := by
          simp only [step, h, hlocked, Bool.false_eq_true, if_false]
        rw [hstep]
        exact Or.inr (.acquired r h hlocked)
    | _ => exact Or.inl (by simp only [step, h])
  | indexed r =>
    cases h : s.stage r with
    | asking =>
      cases hsigns : (x r).signs with
      | true =>
        have hstep : step x s (.indexed r) = s.set r (.signing (s.index (x r).address)) := by
          simp only [step, h, hsigns, if_true]
        rw [hstep]
        exact Or.inr (.signing r h)
      | false =>
        have hstep : step x s (.indexed r) = s.set r .silent := by
          simp only [step, h, hsigns, Bool.false_eq_true, if_false]
        rw [hstep]
        exact Or.inr (.silent r h)
    | _ => exact Or.inl (by simp only [step, h])
  | indexFailed r error =>
    cases h : s.stage r with
    | asking =>
      have hstep : step x s (.indexFailed r error) = s.finish r (.error (.index error)) := by
        simp only [step, h]
      rw [hstep]
      exact Or.inr (.failed r _ (by rw [h]; rfl) (by simp [h]) (by simp))
    | _ => exact Or.inl (by simp only [step, h])
  | taken r =>
    cases h : s.stage r with
    | signing nonce =>
      by_cases hnonce : nonce = s.index (x r).address
      · have hstep : step x s (.taken r) = s.send r (x r).address (s.index (x r).address) := by
          simp only [step, h, hnonce, if_true]
        rw [hstep]
        exact Or.inr (.sent r (by rw [h, hnonce]))
      · have hstep : step x s (.taken r) = s.finish r (.error .stale) := by
          simp only [step, h, hnonce, if_false]
        rw [hstep]
        exact Or.inr (.stale r nonce h hnonce)
    | _ => exact Or.inl (by simp only [step, h])
  | refused r error =>
    cases h : s.stage r with
    | signing nonce =>
      have hstep : step x s (.refused r error) = s.finish r (.error (.refused error)) := by
        simp only [step, h]
      rw [hstep]
      exact Or.inr (.failed r _ (by rw [h]; rfl) (by simp [h]) (by simp))
    | _ => exact Or.inl (by simp only [step, h])
  | updated r update =>
    cases h : s.stage r with
    | watching nonce =>
      cases hcallback : (x r).callback update with
      | none => exact Or.inl (by simp only [step, h, hcallback])
      | some outcome =>
        have hstep : step x s (.updated r update) = s.finish r outcome := by
          simp only [step, h, hcallback]
        rw [hstep]
        cases outcome with
        | ok result => exact Or.inr (.returned r nonce result h)
        | error f =>
          have hf : f ≠ .stale := by
            intro heq
            rw [heq] at hcallback
            exact callback_ne_stale (x r) update hcallback
          exact Or.inr (.failed r f (by rw [h]; rfl) (by simp [h]) hf)
    | _ => exact Or.inl (by simp only [step, h])
  | elsewhere address => exact absurd rfl (he address)

/-! One call at a time. -/

/-- The lock is held exactly while a call is between its ends, and by this one only. -/
structure Exclusive (s : State P E) : Prop where
  one : ∀ r r', (s.stage r).inFlight = true → (s.stage r').inFlight = true → r = r'
  locked : ∀ r, (s.stage r).inFlight = true → s.locked = true

theorem exclusive_start (index : String → ℕ) : Exclusive (start index : State P E) where
  one _ _ h := absurd h Bool.false_ne_true
  locked _ h := absurd h Bool.false_ne_true

/-- A stage of a call before it, or one in which it held the lock already. -/
theorem Exclusive.set (h : Exclusive s) (r : ℕ) (stage : Stage P E)
    (hstage : stage.inFlight = true → (s.stage r).inFlight = true) : Exclusive (s.set r stage) := by
  have hwas : ∀ r', ((s.set r stage).stage r').inFlight = true → (s.stage r').inFlight = true := by
    intro r' hr'
    by_cases heq : r' = r
    · subst heq
      exact hstage (by simpa [State.set] using hr')
    · simpa [State.set, Function.update_of_ne heq] using hr'
  exact ⟨fun r' r'' h' h'' => h.one r' r'' (hwas r' h') (hwas r'' h''),
    fun r' h' => h.locked r' (hwas r' h')⟩

/-- The call that holds the lock is over, and none is in flight. -/
theorem Exclusive.finish (h : Exclusive s) (r : ℕ) (hr : (s.stage r).inFlight = true)
    (outcome : Except (Failure P E) (Result P)) :
    ∀ r', ((s.finish r outcome).stage r').inFlight = false := by
  intro r'
  by_cases heq : r' = r
  · subst heq
    show (Function.update s.stage r' (.done outcome) r').inFlight = false
    rw [Function.update_self]
    rfl
  · show (Function.update s.stage r (.done outcome) r').inFlight = false
    rw [Function.update_of_ne heq]
    apply Bool.eq_false_iff.mpr
    intro hr'
    exact heq (h.one r' r hr' hr)

theorem exclusive_of_none (h : ∀ r, (s.stage r).inFlight = false) : Exclusive s where
  one r _ hr := absurd (hr.symm.trans (h r)) (by decide)
  locked r hr := absurd (hr.symm.trans (h r)) (by decide)

theorem Exclusive.move {s' : State P E} (h : Exclusive s) (hmove : Move x s s') : Exclusive s' := by
  cases hmove with
  | called r _ => exact h.set r .waiting fun hin => absurd hin Bool.false_ne_true
  | acquired r hr hfree =>
    have hnone : ∀ r', (s.stage r').inFlight = false := by
      intro r'
      apply Bool.eq_false_iff.mpr
      intro hin
      have hlocked := h.locked r' hin
      rw [hfree] at hlocked
      exact Bool.false_ne_true hlocked
    have honly : ∀ r', ((s.set r .asking).stage r').inFlight = true → r' = r := by
      intro r' hin
      by_contra hne
      have hsame : (s.set r .asking).stage r' = s.stage r' := Function.update_of_ne hne _ _
      rw [hsame, hnone r'] at hin
      exact Bool.false_ne_true hin
    exact ⟨fun r' r'' hr' hr'' => (honly r' hr').trans (honly r'' hr'').symm, fun _ _ => rfl⟩
  | signing r hr => exact h.set r _ fun _ => by rw [hr]; rfl
  | silent r hr => exact h.set r _ fun _ => by rw [hr]; rfl
  | sent r hr =>
    have hset := h.set r (.watching (s.index (x r).address)) fun _ => by rw [hr]; rfl
    exact ⟨hset.one, hset.locked⟩
  | stale r nonce hr _ => exact exclusive_of_none (h.finish r (by rw [hr]; rfl) _)
  | failed r f hr _ _ => exact exclusive_of_none (h.finish r hr _)
  | returned r nonce result hr => exact exclusive_of_none (h.finish r (by rw [hr]; rfl) _)

/-! The nonces of an account. -/

def State.nonces (s : State P E) (address : String) : List ℕ :=
  (s.sent.filter fun t => t.address = address).map Sent.nonce

/-- What has been sent for an account that no other process uses. -/
structure InOrder (x : ℕ → Request P) (index : String → ℕ) (address : String) (s : State P E) :
    Prop where
  nonces : s.nonces address =
    List.range' (index address) (s.index address - index address)
  le : index address ≤ s.index address
  signing : ∀ r nonce, s.stage r = .signing nonce → (x r).address = address →
    nonce = s.index address
  fresh : ∀ r, (x r).address = address → s.stage r ≠ .done (.error .stale)

variable {index : String → ℕ} {address : String}

/-- A call changes its own stage only. -/
theorem InOrder.set (h : InOrder x index address s) (r : ℕ) (stage : Stage P E)
    (hsigning : ∀ nonce, stage = .signing nonce → (x r).address = address → nonce = s.index address)
    (hfresh : (x r).address = address → stage ≠ .done (.error .stale)) :
    InOrder x index address (s.set r stage) where
  nonces := h.nonces
  le := h.le
  signing r' nonce hr' haddress := by
    by_cases heq : r' = r
    · subst heq
      have hstage : (s.set r' stage).stage r' = stage := Function.update_self ..
      exact hsigning nonce (hstage.symm.trans hr') haddress
    · have hstage : (s.set r stage).stage r' = s.stage r' := Function.update_of_ne heq _ _
      exact h.signing r' nonce (hstage.symm.trans hr') haddress
  fresh r' haddress := by
    by_cases heq : r' = r
    · subst heq
      have hstage : (s.set r' stage).stage r' = stage := Function.update_self ..
      rw [hstage]
      exact hfresh haddress
    · have hstage : (s.set r stage).stage r' = s.stage r' := Function.update_of_ne heq _ _
      rw [hstage]
      exact h.fresh r' haddress

theorem InOrder.send (h : InOrder x index address s) (hone : Exclusive s) (r : ℕ)
    (hr : s.stage r = .signing (s.index (x r).address)) :
    InOrder x index address (s.send r (x r).address (s.index (x r).address)) := by
  have hset := h.set r (.watching (s.index (x r).address)) (fun _ heq => by cases heq)
    fun _ heq => by cases heq
  by_cases haddress : (x r).address = address
  · subst haddress
    have hindex : (s.send r (x r).address (s.index (x r).address)).index (x r).address =
        s.index (x r).address + 1 := Function.update_self ..
    have hle := h.le
    constructor
    · have hnonces : (s.send r (x r).address (s.index (x r).address)).nonces (x r).address =
          s.nonces (x r).address ++ [s.index (x r).address] := by
        unfold State.nonces
        show (List.filter _ (s.sent ++ [_])).map Sent.nonce = _
        rw [List.filter_append, List.map_append]
        congr 1
        simp
      have hsucc : s.index (x r).address + 1 - index (x r).address =
          s.index (x r).address - index (x r).address + 1 := by omega
      have hlast : index (x r).address + 1 * (s.index (x r).address - index (x r).address) =
          s.index (x r).address := by omega
      rw [hnonces, hindex, h.nonces, hsucc, List.range'_concat, hlast]
    · rw [hindex]
      omega
    · intro r' nonce hr' _
      by_cases heq : r' = r
      · subst heq
        have hstage : (s.send r' (x r').address (s.index (x r').address)).stage r' =
            .watching (s.index (x r').address) := Function.update_self ..
        rw [hstage] at hr'
        cases hr'
      · have hstage : (s.send r (x r).address (s.index (x r).address)).stage r' = s.stage r' :=
          Function.update_of_ne heq _ _
        rw [hstage] at hr'
        exact absurd (hone.one r' r (by rw [hr']; rfl) (by rw [hr]; rfl)) heq
    · exact hset.fresh
  · have hindex : (s.send r (x r).address (s.index (x r).address)).index address =
        s.index address := Function.update_of_ne (fun heq => haddress heq.symm) _ _
    constructor
    · have hnonces : (s.send r (x r).address (s.index (x r).address)).nonces address =
          s.nonces address := by
        unfold State.nonces
        show (List.filter _ (s.sent ++ [_])).map Sent.nonce = _
        rw [List.filter_append]
        simp [haddress]
      rw [hnonces, hindex]
      exact h.nonces
    · rw [hindex]
      exact h.le
    · intro r' nonce hr' hr'address
      rw [hindex]
      exact hset.signing r' nonce hr' hr'address
    · exact hset.fresh

theorem InOrder.finish (h : InOrder x index address s) (r : ℕ)
    (outcome : Except (Failure P E) (Result P))
    (hfresh : (x r).address = address → outcome ≠ .error .stale) :
    InOrder x index address (s.finish r outcome) := by
  have hset := h.set r (.done outcome) (fun _ heq => by cases heq)
    fun haddress heq => hfresh haddress (Stage.done.inj heq)
  exact ⟨hset.nonces, hset.le, hset.signing, hset.fresh⟩

theorem InOrder.move {s' : State P E} (h : InOrder x index address s) (hone : Exclusive s)
    (hmove : Move x s s') : InOrder x index address s' := by
  cases hmove with
  | called r _ => exact h.set r _ (fun _ heq => by cases heq) fun _ heq => by cases heq
  | acquired r _ _ =>
    have hset := h.set r .asking (fun _ heq => by cases heq) fun _ heq => by cases heq
    exact ⟨hset.nonces, hset.le, hset.signing, hset.fresh⟩
  | signing r _ =>
    refine h.set r _ (fun nonce heq haddress => ?_) fun _ heq => by cases heq
    rw [← haddress]
    exact (Stage.signing.inj heq).symm
  | silent r _ => exact h.set r _ (fun _ heq => by cases heq) fun _ heq => by cases heq
  | sent r hr => exact h.send hone r hr
  | stale r nonce hr hne =>
    refine h.finish r _ fun haddress _ => hne ?_
    rw [haddress]
    exact h.signing r nonce hr haddress
  | failed r f _ _ hf => exact h.finish r _ fun _ heq => hf (Except.error.inj heq)
  | returned r nonce result _ => exact h.finish r _ fun _ heq => by cases heq

/-! Every extrinsic is sent once. -/

/-- The node has the extrinsic of the call, or the call is over. -/
def Stage.late : Stage P E → Bool
  | watching _ | done _ => true
  | _ => false

structure SentOnce (s : State P E) : Prop where
  nodup : (s.sent.map Sent.call).Nodup
  late : ∀ r ∈ s.sent.map Sent.call, (s.stage r).late = true
  watching : ∀ r nonce, s.stage r = .watching nonce → r ∈ s.sent.map Sent.call
  returned : ∀ r result, s.stage r = .done (.ok result) → r ∈ s.sent.map Sent.call

/-- A call whose extrinsic is not with the node goes on, or one is over. -/
theorem SentOnce.set (h : SentOnce s) (r : ℕ) (stage : Stage P E)
    (hlate : (s.stage r).late = true → stage.late = true)
    (hwatching : ∀ nonce, stage ≠ .watching nonce)
    (hreturned : ∀ result, stage = .done (.ok result) → r ∈ s.sent.map Sent.call) :
    SentOnce (s.set r stage) where
  nodup := h.nodup
  late r' hr' := by
    by_cases heq : r' = r
    · subst heq
      have hstage : (s.set r' stage).stage r' = stage := Function.update_self ..
      rw [hstage]
      exact hlate (h.late r' hr')
    · have hstage : (s.set r stage).stage r' = s.stage r' := Function.update_of_ne heq _ _
      rw [hstage]
      exact h.late r' hr'
  watching r' nonce hr' := by
    by_cases heq : r' = r
    · subst heq
      have hstage : (s.set r' stage).stage r' = stage := Function.update_self ..
      exact absurd (hstage.symm.trans hr') (hwatching nonce)
    · have hstage : (s.set r stage).stage r' = s.stage r' := Function.update_of_ne heq _ _
      exact h.watching r' nonce (hstage.symm.trans hr')
  returned r' result hr' := by
    by_cases heq : r' = r
    · subst heq
      have hstage : (s.set r' stage).stage r' = stage := Function.update_self ..
      exact hreturned result (hstage.symm.trans hr')
    · have hstage : (s.set r stage).stage r' = s.stage r' := Function.update_of_ne heq _ _
      exact h.returned r' result (hstage.symm.trans hr')

theorem SentOnce.move {s' : State P E} (h : SentOnce s) (hmove : Move x s s') : SentOnce s' := by
  cases hmove with
  | called r hr =>
    exact h.set r _ (fun hlate => by rw [hr] at hlate; exact hlate) (fun _ heq => by cases heq)
      fun _ heq => by cases heq
  | acquired r hr _ =>
    have hset := h.set r .asking (fun hlate => by rw [hr] at hlate; exact hlate)
      (fun _ heq => by cases heq) fun _ heq => by cases heq
    exact ⟨hset.nodup, hset.late, hset.watching, hset.returned⟩
  | signing r hr =>
    exact h.set r _ (fun hlate => by rw [hr] at hlate; exact hlate) (fun _ heq => by cases heq)
      fun _ heq => by cases heq
  | silent r hr =>
    exact h.set r _ (fun hlate => by rw [hr] at hlate; exact hlate) (fun _ heq => by cases heq)
      fun _ heq => by cases heq
  | sent r hr =>
    have hnew : r ∉ s.sent.map Sent.call := by
      intro hmem
      have hlate := h.late r hmem
      rw [hr] at hlate
      exact Bool.false_ne_true hlate
    have hsent : (s.send r (x r).address (s.index (x r).address)).sent.map Sent.call =
        s.sent.map Sent.call ++ [r] := List.map_append
    have hself : (s.send r (x r).address (s.index (x r).address)).stage r =
        .watching (s.index (x r).address) := Function.update_self ..
    have hother : ∀ r', r' ≠ r →
        (s.send r (x r).address (s.index (x r).address)).stage r' = s.stage r' :=
      fun r' hne => Function.update_of_ne hne _ _
    constructor
    · rw [hsent]
      exact List.nodup_append.mpr ⟨h.nodup, List.nodup_singleton r, fun a ha b hb hab =>
        hnew (List.mem_singleton.mp hb ▸ hab ▸ ha)⟩
    · intro r' hr'
      by_cases heq : r' = r
      · rw [heq, hself]
        rfl
      · rw [hother r' heq]
        rw [hsent] at hr'
        rcases List.mem_append.mp hr' with hr' | hr'
        · exact h.late r' hr'
        · exact absurd (List.mem_singleton.mp hr') heq
    · intro r' nonce hr'
      rw [hsent]
      by_cases heq : r' = r
      · exact List.mem_append_right _ (List.mem_singleton.mpr heq)
      · rw [hother r' heq] at hr'
        exact List.mem_append_left _ (h.watching r' nonce hr')
    · intro r' result hr'
      rw [hsent]
      by_cases heq : r' = r
      · exact List.mem_append_right _ (List.mem_singleton.mpr heq)
      · rw [hother r' heq] at hr'
        exact List.mem_append_left _ (h.returned r' result hr')
  | stale r nonce hr _ =>
    have hset := h.set r (.done (.error .stale)) (fun _ => rfl) (fun _ heq => by cases heq)
      fun _ heq => by cases heq
    exact ⟨hset.nodup, hset.late, hset.watching, hset.returned⟩
  | failed r f _ _ _ =>
    have hset := h.set r (.done (.error f)) (fun _ => rfl) (fun _ heq => by cases heq)
      fun _ heq => by cases heq
    exact ⟨hset.nodup, hset.late, hset.watching, hset.returned⟩
  | returned r nonce result hr =>
    have hset := h.set r (.done (.ok result)) (fun _ => rfl) (fun _ heq => by cases heq)
      fun _ _ => h.watching r nonce hr
    exact ⟨hset.nodup, hset.late, hset.watching, hset.returned⟩

/-! Runs. -/

theorem exec_concat (es : List (Event P E)) (e : Event P E) :
    exec x index (es ++ [e]) = step x (exec x index es) e := List.foldl_concat ..

theorem exclusive_exec (es : List (Event P E)) :
    Exclusive (exec x index es) ∧ SentOnce (exec x index es) := by
  induction es using List.reverseRecOn with
  | nil =>
    exact ⟨exclusive_start index, List.nodup_nil, fun r hr => absurd hr List.not_mem_nil,
      fun _ _ hr => (by cases hr), fun _ _ hr => (by cases hr)⟩
  | append_singleton es e ih =>
    obtain ⟨hone, honce⟩ := ih
    rw [exec_concat]
    by_cases he : ∃ address, e = .elsewhere address
    · obtain ⟨address, rfl⟩ := he
      exact ⟨⟨hone.one, hone.locked⟩, honce.nodup, honce.late, honce.watching, honce.returned⟩
    · rcases step_moves (x := x) e fun address heq => he ⟨address, heq⟩ with hsame | hmove
      · rw [hsame]
        exact ⟨hone, honce⟩
      · exact ⟨hone.move hmove, honce.move hmove⟩

theorem inOrder_exec (es : List (Event P E)) (hes : .elsewhere address ∉ es) :
    InOrder x index address (exec x index es) := by
  induction es using List.reverseRecOn with
  | nil =>
    refine ⟨?_, le_refl _, fun _ _ hr => (by cases hr), fun _ _ hr => (by cases hr)⟩
    show [] = List.range' (index address) (index address - index address)
    rw [Nat.sub_self]
    rfl
  | append_singleton es e ih =>
    have hold := ih fun hmem => hes (List.mem_append_left _ hmem)
    rw [exec_concat]
    by_cases he : ∃ address', e = .elsewhere address'
    · obtain ⟨address', rfl⟩ := he
      have hne : address ≠ address' := by
        intro heq
        subst heq
        exact hes (List.mem_append_right _ List.mem_cons_self)
      have hindex : (step x (exec x index es) (.elsewhere address')).index address =
          (exec x index es).index address := Function.update_of_ne hne _ _
      refine ⟨?_, ?_, fun r nonce hr haddress => ?_, hold.fresh⟩
      · rw [hindex]
        exact hold.nonces
      · rw [hindex]
        exact hold.le
      · rw [hindex]
        exact hold.signing r nonce hr haddress
    · rcases step_moves (x := x) e fun address heq => he ⟨address, heq⟩ with hsame | hmove
      · rw [hsame]
        exact hold
      · exact hold.move (exclusive_exec es).1 hmove

/-- However the calls of all clients are interleaved: one of them at most is between the question for
its nonce and the end of its extrinsic, every extrinsic is sent once, and before its call returns.
The transactions of an account that no other process uses have nonces one after the other, and none
of them is refused for its nonce. -/
theorem applyExtrinsic_serial (x : ℕ → Request P) (index : String → ℕ) (es : List (Event P E)) :
    (∀ r r', ((exec x index es).stage r).inFlight = true →
      ((exec x index es).stage r').inFlight = true → r = r') ∧
    ((exec x index es).sent.map Sent.call).Nodup ∧
    (∀ r result, (exec x index es).stage r = .done (.ok result) →
      r ∈ (exec x index es).sent.map Sent.call) ∧
    ∀ address, .elsewhere address ∉ es →
      (exec x index es).nonces address =
        List.range' (index address) ((exec x index es).index address - index address) ∧
      ∀ r, (x r).address = address → (exec x index es).stage r ≠ .done (.error .stale) := by
  obtain ⟨hone, honce⟩ : Exclusive (exec x index es) ∧ SentOnce (exec x index es) :=
    exclusive_exec es
  refine ⟨hone.one, honce.nodup, honce.returned, fun address hes => ?_⟩
  have hold : InOrder x index address (exec x index es) := inOrder_exec es hes
  exact ⟨hold.nonces, hold.fresh⟩

/-- A call of `s` is where it was, or has begun to wait. -/
def Kept (s s' : State P E) (r : ℕ) : Prop :=
  s'.stage r = s.stage r ∨ s.stage r = .idle ∧ s'.stage r = .waiting

theorem kept_move {s' : State P E} (hone : Exclusive s) {r : ℕ} (hr : s.stage r = .silent)
    (hmove : Move x s s') (r' : ℕ) : Kept s s' r' := by
  have hflight : (s.stage r).inFlight = true := by
    rw [hr]
    rfl
  have hself : ∀ q, (s.stage q).inFlight = true → s.stage q = .silent := by
    intro q hq
    rw [hone.one q r hq hflight]
    exact hr
  cases hmove with
  | called q hq =>
    by_cases heq : r' = q
    · subst heq
      exact Or.inr ⟨hq, Function.update_self ..⟩
    · exact Or.inl (Function.update_of_ne heq _ _)
  | acquired q _ hfree =>
    have hlocked := hone.locked r hflight
    rw [hfree] at hlocked
    exact absurd hlocked Bool.false_ne_true
  | signing q hq => exact absurd ((hself q (by rw [hq]; rfl)).symm.trans hq) (by simp)
  | silent q hq => exact absurd ((hself q (by rw [hq]; rfl)).symm.trans hq) (by simp)
  | sent q hq => exact absurd ((hself q (by rw [hq]; rfl)).symm.trans hq) (by simp)
  | stale q nonce hq _ => exact absurd ((hself q (by rw [hq]; rfl)).symm.trans hq) (by simp)
  | failed q f hq hsilent _ => exact absurd (hself q hq) hsilent
  | returned q nonce result hq => exact absurd ((hself q (by rw [hq]; rfl)).symm.trans hq) (by simp)

/-- A client without a key pair and without a signer keeps the lock once it has a nonce: from then on
no call of any client gets further than to wait. -/
theorem silent_blocks (x : ℕ → Request P) (index : String → ℕ) (es later : List (Event P E)) (r : ℕ)
    (hasked : (exec x index es).stage r = .asking) (hsigns : (x r).signs = false) :
    (exec x index (es ++ .indexed r :: later)).stage r = .silent ∧
      ∀ r', r' ≠ r → Kept (exec x index es) (exec x index (es ++ .indexed r :: later)) r' := by
  have hnow : exec x index (es ++ [.indexed r]) = (exec x index es).set r .silent := by
    rw [exec_concat]
    simp only [step, hasked, hsigns, Bool.false_eq_true, if_false]
  induction later using List.reverseRecOn with
  | nil =>
    rw [hnow]
    exact ⟨Function.update_self .., fun r' hne => Or.inl (Function.update_of_ne hne _ _)⟩
  | append_singleton later e ih =>
    obtain ⟨hsilent, hkept⟩ := ih
    have hone : Exclusive (exec x index (es ++ .indexed r :: later)) := (exclusive_exec _).1
    have hassoc : es ++ .indexed r :: (later ++ [e]) = es ++ .indexed r :: later ++ [e] := by
      rw [List.append_assoc, List.cons_append]
    rw [hassoc, exec_concat]
    have hstep : ∀ r', Kept (exec x index (es ++ .indexed r :: later))
        (step x (exec x index (es ++ .indexed r :: later)) e) r' := by
      intro r'
      by_cases he : ∃ address, e = .elsewhere address
      · obtain ⟨address, rfl⟩ := he
        exact Or.inl rfl
      · rcases step_moves (x := x) e fun address heq => he ⟨address, heq⟩ with hsame | hmove
        · rw [hsame]
          exact Or.inl rfl
        · exact kept_move hone hsilent hmove r'
    constructor
    · rcases hstep r with hsame | ⟨hidle, -⟩
      · exact hsame.trans hsilent
      · rw [hsilent] at hidle
        cases hidle
    · intro r' hne
      rcases hstep r' with hsame | ⟨hidle, hwaiting⟩
      · rcases hkept r' hne with hkept | ⟨hidle, hwaiting⟩
        · exact Or.inl (hsame.trans hkept)
        · exact Or.inr ⟨hidle, hsame.trans hwaiting⟩
      · rcases hkept r' hne with hkept | ⟨-, hwaited⟩
        · exact Or.inr ⟨hkept ▸ hidle, hwaiting⟩
        · rw [hwaited] at hidle
          cases hidle

/-- A client that can not sign. -/
def unsignedRequest : Request ℕ := ⟨"5", false, "balances", false, [""], [], none⟩

theorem sample_blocked :
    (exec (fun _ => unsignedRequest) (fun _ => 0) (([.call 0, .acquired 0] : List (Event ℕ ℕ)) ++
      .indexed 0 :: [.call 1, .acquired 1])).stage 0 = .silent ∧
    ∀ r', r' ≠ 0 →
      Kept (exec (fun _ => unsignedRequest) (fun _ => 0) ([.call 0, .acquired 0] : List (Event ℕ ℕ)))
        (exec (fun _ => unsignedRequest) (fun _ => 0)
          (([.call 0, .acquired 0] : List (Event ℕ ℕ)) ++ .indexed 0 :: [.call 1, .acquired 1])) r' :=
  silent_blocks _ _ _ _ 0 rfl rfl

end

end

end ThreefoldSdk.TfChain.ApplyExtrinsic
