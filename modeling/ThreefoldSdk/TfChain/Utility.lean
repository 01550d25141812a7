import ThreefoldSdk.Lib.Staged

/-! The batches of the chain client (`tfchain_client/src/utility.ts` and the callback of
`Client._applyExtrinsic`), over a runtime whose `batch_all` is atomic. -/

namespace ThreefoldSdk.TfChain
open Staged

/-- An event of a block; `pallet` is its `section`, `data` its decoded arguments. -/
structure Event (P : Type*) where
  pallet : String
  method : String
  data : List P

def extrinsicSuccess {P : Type*} : Event P := ⟨"system", "ExtrinsicSuccess", []⟩

def extrinsicFailed {P : Type*} : Event P := ⟨"system", "ExtrinsicFailed", []⟩

/-- What `patchExtrinsic` returns; an empty list stands for an option left out. No extrinsic of the
client is of the pallet system, and none asks for its events. -/
structure ExtrinsicResult (C P : Type*) where
  call : C
  pallet : String
  resultSections : List String
  resultEvents : List String
  map : Option (List P → P)
  not_system : "system" ∉ pallet :: resultSections

/-- The chain: what one call does to its state and the events it emits, or nothing when the call
is refused. How an extrinsic ended is said by no call. -/
structure Runtime (S C P : Type*) where
  exec : C → S → Option (S × List (Event P))
  quiet : ∀ c s s' evs, exec c s = some (s', evs) → ∀ e ∈ evs, e.pallet = "system" →
    e.method ≠ "ExtrinsicFailed" ∧ e.method ≠ "ExtrinsicSuccess"

variable {S C P : Type*}

/-- `batch_all`: every call takes effect, or none. -/
def Runtime.execAll (R : Runtime S C P) : List C → S → Option (S × List (Event P))
  | [], s => some (s, [])
  | c :: cs, s =>
    match R.exec c s with
    | none => none
    | some (s', evs) => (R.execAll cs s').map fun p => (p.1, evs ++ p.2)

/-- The variables `resultSections`, `resultEvents` and `map` shared by a batch. -/
structure Extracted (P : Type*) where
  resultSections : List String
  resultEvents : List String
  map : Option (List P → P)

def extractStep (acc : Extracted P) (x : ExtrinsicResult C P) : Extracted P where
  resultSections := acc.resultSections ++ x.resultSections ++ [x.pallet]
  resultEvents := acc.resultEvents ++ x.resultEvents
  map := x.map.or acc.map

def extractResultSectionsAndEvents (xs : List (ExtrinsicResult C P)) : Extracted P :=
  xs.foldl extractStep ⟨[], [], none⟩

namespace Extracted

/-- The test on an event of the batch that is not about its end. -/
def isResult (ex : Extracted P) (e : Event P) : Bool :=
  ex.resultSections.contains e.pallet &&
    (ex.resultEvents.isEmpty || ex.resultEvents.contains e.method)

/-- `map(data.toPrimitive())`, or the first argument; `none` is `undefined`. -/
def value (ex : Extracted P) (e : Event P) : Option P :=
  match ex.map with
  | some f => some (f e.data)
  | none => e.data.head?

end Extracted

/-- The array `resultData` and how the promise was settled first, if it was. -/
structure Callback (P : Type*) where
  resultData : List (Option P)
  settled : Option Bool

/-- One event of the block in the callback of a batch. The array is the one the promise was
resolved with, so what is pushed later is in it as well. -/
def callbackStep (ex : Extracted P) (cb : Callback P) (e : Event P) : Callback P :=
  if e.pallet = "system" ∧ e.method = "ExtrinsicFailed" then
    { cb with settled := cb.settled.or (some false) }
  else if ex.isResult e then
    { cb with resultData := cb.resultData ++ [ex.value e] }
  else if e.pallet = "system" ∧ e.method = "ExtrinsicSuccess" then
    { cb with settled := cb.settled.or (some true) }
  else cb

inductive ChainError where
  /-- The node did not take the transaction. -/
  | rejected
  | dispatch
  /-- The promise is never settled. -/
  | pending
deriving DecidableEq, Repr

def callback (ex : Extracted P) (evs : List (Event P)) : Except ChainError (List (Option P)) :=
  let cb := evs.foldl (callbackStep ex) ⟨[], none⟩
  match cb.settled with
  | some true => .ok cb.resultData
  | some false => .error .dispatch
  | none => .error .pending

/-- One `batchAll` extrinsic, the `j`-th this call submits. -/
def submit (R : Runtime S C P) (rejects : Nat → Bool) (j : Nat) (batch : List (ExtrinsicResult C P))
    (s : S) : Except ChainError (List (Option P) × S) :=
  let ex := extractResultSectionsAndEvents batch
  if rejects j then .error .rejected
  else
    match R.execAll (batch.map (·.call)) s with
    | none => (callback ex [extrinsicFailed]).map fun rs => (rs, s)
    | some (s', evs) => (callback ex (evs ++ [extrinsicSuccess])).map fun rs => (rs, s')

def batchSize : Nat := 400

/-- `Utility.batchAll`, which `Client.applyAllExtrinsics` calls; `filter(Boolean)` first drops what
is undefined. -/
def batchAll (R : Runtime S C P) (rejects : Nat → Bool)
    (extrinsics : List (Option (ExtrinsicResult C P))) (s : S) :
    Outcome (ExtrinsicResult C P) (Option P) S ChainError :=
  run (submit R rejects) 0 (slices (batchSize - 1) (extrinsics.filterMap id)) s

/-! The variables of a batch. -/

theorem foldl_extractStep (xs : List (ExtrinsicResult C P)) (acc : Extracted P) :
    (xs.foldl extractStep acc).resultSections =
        acc.resultSections ++ xs.flatMap (fun x => x.resultSections ++ [x.pallet]) ∧
      (xs.foldl extractStep acc).resultEvents =
        acc.resultEvents ++ xs.flatMap (·.resultEvents) := by
  induction xs generalizing acc with
  | nil => simp
  | cons x xs ih =>
    obtain ⟨hsec, hev⟩ := ih (extractStep acc x)
    rw [List.foldl_cons, hsec, hev]
    simp [extractStep, List.append_assoc]

theorem extract_resultSections (xs : List (ExtrinsicResult C P)) :
    (extractResultSectionsAndEvents xs).resultSections =
      xs.flatMap fun x => x.resultSections ++ [x.pallet] := by
  simpa [extractResultSectionsAndEvents] using (foldl_extractStep xs ⟨[], [], none⟩).1

theorem extract_resultEvents (xs : List (ExtrinsicResult C P)) :
    (extractResultSectionsAndEvents xs).resultEvents = xs.flatMap (·.resultEvents) := by
  simpa [extractResultSectionsAndEvents] using (foldl_extractStep xs ⟨[], [], none⟩).2

/-- The last extrinsic that has a map decides for all. -/
theorem extract_map_append (xs : List (ExtrinsicResult C P)) (x : ExtrinsicResult C P) :
    (extractResultSectionsAndEvents (xs ++ [x])).map =
      x.map.or (extractResultSectionsAndEvents xs).map := by
  simp [extractResultSectionsAndEvents, extractStep]

theorem system_not_mem_sections (xs : List (ExtrinsicResult C P)) :
    "system" ∉ (extractResultSectionsAndEvents xs).resultSections := by
  rw [extract_resultSections]
  simp only [List.mem_flatMap, List.mem_append, List.mem_singleton, not_exists, not_and]
  intro x _ h
  apply x.not_system
  rcases h with h | h
  · exact List.mem_cons_of_mem _ h
  · rw [h]
    exact List.mem_cons_self

/-! The callback collects the results of the block and settles at its last event. -/

theorem foldl_callbackStep {ex : Extracted P} {evs : List (Event P)} (cb : Callback P)
    (hq : ∀ e ∈ evs, e.pallet = "system" →
      e.method ≠ "ExtrinsicFailed" ∧ e.method ≠ "ExtrinsicSuccess") :
    evs.foldl (callbackStep ex) cb =
      { cb with resultData := cb.resultData ++ (evs.filter ex.isResult).map ex.value } := by
  induction evs generalizing cb with
  | nil => simp
  | cons e evs ih =>
    have he := hq e List.mem_cons_self
    have hfail : ¬ (e.pallet = "system" ∧ e.method = "ExtrinsicFailed") :=
      fun h => (he h.1).1 h.2
    have hsucc : ¬ (e.pallet = "system" ∧ e.method = "ExtrinsicSuccess") :=
      fun h => (he h.1).2 h.2
    rw [List.foldl_cons, ih _ fun e' he' => hq e' (List.mem_cons_of_mem _ he')]
    by_cases hr : ex.isResult e
    · simp [callbackStep, hfail, hr]
    · simp [callbackStep, hfail, hsucc, hr]

theorem execAll_quiet {R : Runtime S C P} {cs : List C} {s s' : S} {evs : List (Event P)}
    (h : R.execAll cs s = some (s', evs)) :
    ∀ e ∈ evs, e.pallet = "system" →
      e.method ≠ "ExtrinsicFailed" ∧ e.method ≠ "ExtrinsicSuccess" := by
  induction cs generalizing s s' evs with
  | nil =>
    cases h
    simp
  | cons c cs ih =>
    cases hc : R.exec c s with
    | none => simp [Runtime.execAll, hc] at h
    | some p =>
      cases hcs : R.execAll cs p.1 with
      | none => simp [Runtime.execAll, hc, hcs] at h
      | some q =>
        simp only [Runtime.execAll, hc, hcs, Option.map_some, Option.some.injEq,
          Prod.mk.injEq] at h
        obtain ⟨-, rfl⟩ := h
        intro e he
        rcases List.mem_append.mp he with he | he
        · exact R.quiet c s p.1 p.2 hc e he
        · exact ih hcs e he

/-- A submission is refused, fails on the chain, or takes effect and yields the values of those
events of the batch that pass the common test. -/
theorem submit_eq (R : Runtime S C P) (rejects : Nat → Bool) (j : Nat)
    (batch : List (ExtrinsicResult C P)) (s : S) :
    submit R rejects j batch s =
      if rejects j then .error .rejected
      else
        match R.execAll (batch.map (·.call)) s with
        | none => .error .dispatch
        | some (s', evs) =>
          .ok ((evs.filter (extractResultSectionsAndEvents batch).isResult).map
            (extractResultSectionsAndEvents batch).value, s') := by
  unfold submit
  split_ifs with hrej
  · rfl
  · cases h : R.execAll (batch.map (·.call)) s with
    | none => rfl
    | some p =>
      have hsys : (extractResultSectionsAndEvents batch).isResult extrinsicSuccess = false := by
        simp [Extracted.isResult, extrinsicSuccess, system_not_mem_sections]
      simp only [callback, List.foldl_append, foldl_callbackStep _ (execAll_quiet h),
        List.foldl_cons, List.foldl_nil, callbackStep, hsys]
      simp [extrinsicSuccess, Except.map]

/-- Batch `k` fails although the batches before it went through. -/
def FailsAt (R : Runtime S C P) (rejects : Nat → Bool) (bs : List (List (ExtrinsicResult C P)))
    (s : S) (k : Nat) : Prop :=
  (∀ i < k, rejects i = false) ∧ ∃ b s' evs, bs[k]? = some b ∧
    R.execAll ((bs.take k).flatten.map (·.call)) s = some (s', evs) ∧
    (rejects k = true ∨ R.execAll (b.map (·.call)) s' = none)

theorem execAll_append_eq (R : Runtime S C P) (cs ds : List C) (s : S) :
    R.execAll (cs ++ ds) s =
      (R.execAll cs s).bind fun p => (R.execAll ds p.1).map fun q => (q.1, p.2 ++ q.2) := by
  induction cs generalizing s with
  | nil => simp [Runtime.execAll]
  | cons c cs ih =>
    rw [List.cons_append, Runtime.execAll, Runtime.execAll]
    cases R.exec c s with
    | none => rfl
    | some p =>
      simp only [ih]
      cases R.execAll cs p.1 with
      | none => rfl
      | some q => cases h : R.execAll ds q.1 <;> simp [h, List.append_assoc]

theorem failsAt_zero {R : Runtime S C P} {rejects : Nat → Bool}
    {b : List (ExtrinsicResult C P)} {bs : List (List (ExtrinsicResult C P))} {s : S} :
    FailsAt R rejects (b :: bs) s 0 ↔ ∃ e, submit R rejects 0 b s = .error e := by
  rw [submit_eq]
  cases hrej : rejects 0 <;> cases hx : R.execAll (b.map (·.call)) s <;>
    simp [FailsAt, Runtime.execAll, hrej, hx]

theorem not_failsAt_succ {R : Runtime S C P} {rejects : Nat → Bool}
    {b : List (ExtrinsicResult C P)} {bs : List (List (ExtrinsicResult C P))} {s : S}
    {e : ChainError} (h : submit R rejects 0 b s = .error e) (k : Nat) :
    ¬ FailsAt R rejects (b :: bs) s (k + 1) := by
  rintro ⟨hrej, c, s', evs, -, hexec, -⟩
  rw [submit_eq, hrej 0 k.succ_pos] at h
  rw [List.take_succ_cons, List.flatten_cons, List.map_append, execAll_append_eq] at hexec
  cases hx : R.execAll (b.map (·.call)) s with
  | none => simp [hx] at hexec
  | some p => simp [hx] at h

/-- Once the first batch went through, the next one is the first of the rest. -/
theorem failsAt_succ {R : Runtime S C P} {rejects : Nat → Bool}
    {b : List (ExtrinsicResult C P)} {bs : List (List (ExtrinsicResult C P))} {s s' : S}
    {rs : List (Option P)} (h : submit R rejects 0 b s = .ok (rs, s')) (k : Nat) :
    FailsAt R rejects (b :: bs) s (k + 1) ↔ FailsAt R (fun i => rejects (i + 1)) bs s' k := by
  rw [submit_eq] at h
  split_ifs at h with hrej
  cases hx : R.execAll (b.map (·.call)) s with
  | none => simp [hx] at h
  | some p =>
    simp only [hx, Except.ok.injEq, Prod.mk.injEq] at h
    obtain ⟨-, rfl⟩ := h
    have hnow : (∀ i < k + 1, rejects i = false) ↔ ∀ i < k, rejects (i + 1) = false := by
      constructor
      · intro hall i hi
        exact hall (i + 1) (by omega)
      · intro hall i hi
        cases i with
        | zero => exact Bool.eq_false_iff.mpr hrej
        | succ i => exact hall i (by omega)
    unfold FailsAt
    rw [hnow]
    simp only [List.getElem?_cons_succ, List.take_succ_cons, List.flatten_cons, List.map_append,
      execAll_append_eq, hx, Option.bind_some, Option.map_eq_some_iff]
    refine and_congr_right fun _ => ?_
    constructor
    · rintro ⟨c, t, evs, hc, ⟨q, hq, hqt⟩, hfail⟩
      cases hqt
      exact ⟨c, q.1, q.2, hc, hq, hfail⟩
    · rintro ⟨c, t, evs, hc, ht, hfail⟩
      exact ⟨c, t, p.2 ++ evs, hc, ⟨(t, evs), ht, rfl⟩, hfail⟩

theorem submit_succ (R : Runtime S C P) (rejects : Nat → Bool) :
    (fun i => submit R rejects (i + 1)) = submit R fun i => rejects (i + 1) := by
  funext i b s
  rw [submit_eq, submit_eq]

theorem fails_iff {R : Runtime S C P} {rejects : Nat → Bool}
    {bs : List (List (ExtrinsicResult C P))} {s : S} :
    Fails (submit R rejects) 0 bs s ↔ ∃ k, FailsAt R rejects bs s k := by
  induction bs generalizing rejects s with
  | nil => simp [Fails, FailsAt]
  | cons b bs ih =>
    cases h : submit R rejects 0 b s with
    | error e =>
      simp only [Fails, h, true_iff]
      exact ⟨0, failsAt_zero.mpr ⟨e, h⟩⟩
    | ok p =>
      have hzero : ¬ FailsAt R rejects (b :: bs) s 0 := by
        rw [failsAt_zero, h]
        simp
      simp only [Fails, h, fails_succ, submit_succ, ih]
      constructor
      · rintro ⟨k, hk⟩
        exact ⟨k + 1, (failsAt_succ h k).mpr hk⟩
      · rintro ⟨k, hk⟩
        cases k with
        | zero => exact absurd hk hzero
        | succ k => exact ⟨k, (failsAt_succ h k).mp hk⟩

theorem firstFails_iff {R : Runtime S C P} {rejects : Nat → Bool}
    {bs : List (List (ExtrinsicResult C P))} {s : S} :
    FirstFails (submit R rejects) 0 bs s ↔ FailsAt R rejects bs s 0 := by
  cases bs with
  | nil => simp [FirstFails, FailsAt]
  | cons b bs => exact failsAt_zero.symm

/-- What has taken effect when a batch fails: the batches before it. -/
theorem done_of_failsAt {R : Runtime S C P} {rejects : Nat → Bool}
    {bs : List (List (ExtrinsicResult C P))} {s : S} {k : Nat} (h : FailsAt R rejects bs s k) :
    (run (submit R rejects) 0 bs s).done = (bs.take k).flatten := by
  induction bs generalizing rejects s k with
  | nil =>
    rw [List.take_nil]
    rfl
  | cons b bs ih =>
    cases hb : submit R rejects 0 b s with
    | error e =>
      rw [run_cons_error hb]
      cases k with
      | zero => rfl
      | succ k => exact absurd h (not_failsAt_succ hb k)
    | ok p =>
      rw [run_cons_ok hb, run_succ, submit_succ]
      cases k with
      | zero =>
        obtain ⟨e, he⟩ := failsAt_zero.mp h
        rw [hb] at he
        cases he
      | succ k => rw [ih ((failsAt_succ hb k).mp h), List.take_succ_cons, List.flatten_cons]

/-- All the extrinsics given are on the chain and the call returns, or none is and it throws,
exactly when no batch of 400 but the first one fails. -/
theorem batchAll_allOrNothing_iff (R : Runtime S C P) (rejects : Nat → Bool)
    (extrinsics : List (Option (ExtrinsicResult C P))) (s : S) :
    AllOrNothing (batchAll R rejects extrinsics s) (extrinsics.filterMap id) ↔
      ∀ k, 0 < k →
        ¬ FailsAt R rejects (slices (batchSize - 1) (extrinsics.filterMap id)) s k := by
  have h := @allOrNothing_iff _ _ _ _ (submit R rejects) 0
    (slices (batchSize - 1) (extrinsics.filterMap id)) s fun _ hb => ne_nil_of_mem_slices hb
  rw [slices_flatten, fails_iff, firstFails_iff] at h
  refine h.trans ⟨fun hfirst k hk hfail => ?_, fun hlate hfail => ?_⟩
  · -- a batch that fails later has the first one behind it
    have hzero := hfirst ⟨k, hfail⟩
    obtain ⟨k, rfl⟩ : ∃ m, k = m + 1 := ⟨k - 1, by omega⟩
    cases hbs : slices (batchSize - 1) (extrinsics.filterMap id) with
    | nil =>
      obtain ⟨-, b, -, -, hb, -⟩ := hfail
      rw [hbs] at hb
      cases hb
    | cons b bs =>
      rw [hbs] at hzero hfail
      obtain ⟨e, he⟩ := failsAt_zero.mp hzero
      exact not_failsAt_succ he k hfail
  · obtain ⟨k, hk⟩ := hfail
    cases k with
    | zero => exact hk
    | succ k => exact absurd hk (hlate (k + 1) k.succ_pos)

/-- Calls that the chain takes one after another fail in no batch. -/
theorem batchAll_ok_of_execAll {R : Runtime S C P} {rejects : Nat → Bool}
    {extrinsics : List (Option (ExtrinsicResult C P))} {s s' : S} {evs : List (Event P)}
    (hrej : ∀ j, rejects j = false)
    (h : R.execAll ((extrinsics.filterMap id).map (·.call)) s = some (s', evs)) :
    ∃ rs, (batchAll R rejects extrinsics s).result = .ok rs := by
  cases hres : (batchAll R rejects extrinsics s).result with
  | ok rs => exact ⟨rs, rfl⟩
  | error e =>
    obtain ⟨k, -, b, s₁, evs₁, hb, hexec, hfail⟩ := fails_iff.mp (error_iff_fails.mp ⟨e, hres⟩)
    rcases hfail with hr | hnone
    · rw [hrej k] at hr
      cases hr
    · -- the batch that fails is a part of the whole list
      let bs := slices (batchSize - 1) (extrinsics.filterMap id)
      have hsplit : extrinsics.filterMap id =
          (bs.take k).flatten ++ (b ++ (bs.drop (k + 1)).flatten) := by
        obtain ⟨hk, rfl⟩ := List.getElem?_eq_some_iff.mp hb
        rw [← List.flatten_cons, ← List.drop_eq_getElem_cons hk, ← List.flatten_append,
          List.take_append_drop, slices_flatten]
      rw [hsplit, List.map_append, List.map_append, execAll_append_eq, hexec, Option.bind_some,
        execAll_append_eq, hnone] at h
      cases h

/-- One batch is all-or-nothing. -/
theorem batchAll_allOrNothing_of_length_le {R : Runtime S C P} {rejects : Nat → Bool}
    {extrinsics : List (Option (ExtrinsicResult C P))} {s : S}
    (h : (extrinsics.filterMap id).length ≤ batchSize) :
    AllOrNothing (batchAll R rejects extrinsics s) (extrinsics.filterMap id) := by
  rw [batchAll_allOrNothing_iff]
  rintro k hk ⟨-, b, -, -, hb, -⟩
  by_cases hne : extrinsics.filterMap id = []
  · rw [hne, slices_nil] at hb
    simp at hb
  · rw [slices_of_length_le hne (by simpa [batchSize] using h), List.getElem?_singleton,
      if_neg (Nat.ne_of_gt hk)] at hb
    cases hb

end ThreefoldSdk.TfChain
