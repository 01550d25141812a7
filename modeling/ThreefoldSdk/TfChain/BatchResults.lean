import ThreefoldSdk.TfChain.Utility

/-! Which values a batch hands back. The client folds the maps and the event names of all
extrinsics of a batch into one, so a value is the extrinsic's own only where they agree. -/

namespace ThreefoldSdk.TfChain
open Staged

variable {S C P : Type*}

namespace ExtrinsicResult

/-- The extrinsic's own map on an event, or the event's first argument. -/
def value (x : ExtrinsicResult C P) (e : Event P) : Option P :=
  match x.map with
  | some f => some (f e.data)
  | none => e.data.head?

def isOwn (x : ExtrinsicResult C P) (e : Event P) : Bool :=
  (x.pallet :: x.resultSections).contains e.pallet &&
    (x.resultEvents.isEmpty || x.resultEvents.contains e.method)

end ExtrinsicResult

/-- The call emits one event, and it is one the extrinsic asks for. -/
def OneMatchingEvent (R : Runtime S C P) (x : ExtrinsicResult C P) : Prop :=
  ∀ s s' evs, R.exec x.call s = some (s', evs) → ∃ e, evs = [e] ∧ x.isOwn e

/-- In a batch of extrinsics and their events, the names of result events given by some do not
leave out an event of another, and the last map given does to every event what the extrinsic's own
map does. -/
def Agrees (b : List (ExtrinsicResult C P × Event P)) : Prop :=
  ∀ p ∈ b,
    ((∀ q ∈ b, q.1.resultEvents = []) ∨ ∃ q ∈ b, p.2.method ∈ q.1.resultEvents) ∧
      (extractResultSectionsAndEvents (b.map Prod.fst)).value p.2 = p.1.value p.2

/-- The values of the extrinsics, each by its own map from its own event. -/
def ownValues (b : List (ExtrinsicResult C P × Event P)) : List (Option P) :=
  b.map fun p => p.1.value p.2

theorem isResult_iff {b : List (ExtrinsicResult C P × Event P)} {p : ExtrinsicResult C P × Event P}
    (hp : p ∈ b) (hown : p.1.isOwn p.2) :
    (extractResultSectionsAndEvents (b.map Prod.fst)).isResult p.2 ↔
      (∀ q ∈ b, q.1.resultEvents = []) ∨ ∃ q ∈ b, p.2.method ∈ q.1.resultEvents := by
  have hsec : p.2.pallet ∈ (extractResultSectionsAndEvents (b.map Prod.fst)).resultSections := by
    rw [extract_resultSections, List.mem_flatMap]
    refine ⟨p.1, List.mem_map_of_mem hp, ?_⟩
    simp only [ExtrinsicResult.isOwn, Bool.and_eq_true, List.contains_iff_mem,
      List.mem_cons] at hown
    rw [List.mem_append, List.mem_singleton]
    exact hown.1.symm
  simp only [Extracted.isResult, Bool.and_eq_true, List.contains_iff_mem, hsec, true_and,
    Bool.or_eq_true, List.isEmpty_iff, extract_resultEvents, List.flatMap_eq_nil_iff,
    List.mem_flatMap, List.forall_mem_map]
  have hex : (∃ x ∈ b.map Prod.fst, p.2.method ∈ x.resultEvents) ↔
      ∃ q ∈ b, p.2.method ∈ q.1.resultEvents := by
    constructor
    · rintro ⟨x, hx, hm⟩
      obtain ⟨q, hq, rfl⟩ := List.mem_map.mp hx
      exact ⟨q, hq, hm⟩
    · rintro ⟨q, hq, hm⟩
      exact ⟨q.1, List.mem_map_of_mem hq, hm⟩
  rw [hex]

theorem filter_map_eq_iff {α β : Type*} {keep : α → Bool} {f g : α → β} {xs : List α} :
    (xs.filter keep).map f = xs.map g ↔ ∀ x ∈ xs, keep x ∧ f x = g x := by
  induction xs with
  | nil => simp
  | cons x xs ih =>
    by_cases hx : keep x
    · simp [hx, ih]
    · have hlen : ((xs.filter keep).map f).length ≤ xs.length := by
        rw [List.length_map]
        exact List.length_filter_le keep xs
      simp only [hx, List.filter_cons, Bool.false_eq_true, ↓reduceIte, List.mem_cons,
        forall_eq_or_imp, false_and, iff_false]
      intro h
      have := congrArg List.length h
      simp only [List.length_map, List.length_cons] at this hlen
      omega

/-- The values of one batch, as the callback collects them. -/
def batchValues (b : List (ExtrinsicResult C P × Event P)) : List (Option P) :=
  let ex := extractResultSectionsAndEvents (b.map Prod.fst)
  ((b.map Prod.snd).filter ex.isResult).map ex.value

theorem batchValues_length_le (b : List (ExtrinsicResult C P × Event P)) :
    (batchValues b).length ≤ b.length := by
  simp only [batchValues, List.length_map]
  exact (List.length_filter_le _ _).trans_eq (List.length_map _)

theorem batchValues_eq_iff {b : List (ExtrinsicResult C P × Event P)}
    (hown : ∀ p ∈ b, p.1.isOwn p.2) : batchValues b = ownValues b ↔ Agrees b := by
  simp only [batchValues, ownValues, List.filter_map, List.map_map]
  rw [filter_map_eq_iff]
  constructor
  · intro h p hp
    exact ⟨(isResult_iff hp (hown p hp)).mp (h p hp).1, (h p hp).2⟩
  · intro h p hp
    exact ⟨(isResult_iff hp (hown p hp)).mpr (h p hp).1, (h p hp).2⟩

/-- Under the assumption on events, a list of calls emits one event for each, in order. -/
theorem execAll_events {R : Runtime S C P} {xs : List (ExtrinsicResult C P)} {s s' : S}
    {evs : List (Event P)} (hone : ∀ x ∈ xs, OneMatchingEvent R x)
    (h : R.execAll (xs.map (·.call)) s = some (s', evs)) :
    ∃ b : List (ExtrinsicResult C P × Event P),
      b.map Prod.fst = xs ∧ b.map Prod.snd = evs ∧ ∀ p ∈ b, p.1.isOwn p.2 := by
  induction xs generalizing s s' evs with
  | nil =>
    cases h
    exact ⟨[], rfl, rfl, by simp⟩
  | cons x xs ih =>
    cases hx : R.exec x.call s with
    | none => simp [Runtime.execAll, hx] at h
    | some q =>
      cases hxs : R.execAll (xs.map (·.call)) q.1 with
      | none => simp [Runtime.execAll, hx, hxs] at h
      | some r =>
        simp only [List.map_cons, Runtime.execAll, hx, hxs, Option.map_some, Option.some.injEq,
          Prod.mk.injEq] at h
        obtain ⟨-, rfl⟩ := h
        obtain ⟨e, he, hown⟩ := hone x List.mem_cons_self s q.1 q.2 hx
        obtain ⟨b, hb, hev, hb'⟩ := ih (fun y hy => hone y (List.mem_cons_of_mem _ hy)) hxs
        refine ⟨(x, e) :: b, by simp [hb], by simp [hev, he], ?_⟩
        intro p hp
        rcases List.mem_cons.mp hp with rfl | hp
        · exact hown
        · exact hb' p hp

theorem execAll_append {R : Runtime S C P} {cs ds : List C} {s s' s'' : S}
    {evs evs' : List (Event P)} (h : R.execAll cs s = some (s', evs))
    (h' : R.execAll ds s' = some (s'', evs')) :
    R.execAll (cs ++ ds) s = some (s'', evs ++ evs') := by
  induction cs generalizing s evs with
  | nil =>
    cases h
    simpa using h'
  | cons c cs ih =>
    cases hc : R.exec c s with
    | none => simp [Runtime.execAll, hc] at h
    | some q =>
      cases hcs : R.execAll cs q.1 with
      | none => simp [Runtime.execAll, hc, hcs] at h
      | some r =>
        simp only [Runtime.execAll, hc, hcs, Option.map_some, Option.some.injEq,
          Prod.mk.injEq] at h
        obtain ⟨rfl, rfl⟩ := h
        simp [Runtime.execAll, hc, ih hcs, List.append_assoc]

theorem submit_ok {R : Runtime S C P} {rejects : Nat → Bool} {j : Nat}
    {batch : List (ExtrinsicResult C P)} {s s' : S} {rs : List (Option P)}
    (hone : ∀ x ∈ batch, OneMatchingEvent R x)
    (h : submit R rejects j batch s = .ok (rs, s')) :
    ∃ b : List (ExtrinsicResult C P × Event P), b.map Prod.fst = batch ∧
      R.execAll (batch.map (·.call)) s = some (s', b.map Prod.snd) ∧
      rs = batchValues b ∧ ∀ p ∈ b, p.1.isOwn p.2 := by
  rw [submit_eq] at h
  split_ifs at h
  cases hx : R.execAll (batch.map (·.call)) s with
  | none => simp [hx] at h
  | some q =>
    obtain ⟨b, hb, hev, hown⟩ := execAll_events hone hx
    simp only [hx, Except.ok.injEq, Prod.mk.injEq] at h
    obtain ⟨rfl, rfl⟩ := h
    exact ⟨b, hb, by rw [hev], by rw [batchValues, hb, hev], hown⟩

/-- The values of a run are its own exactly when every batch agrees. -/
theorem run_values {R : Runtime S C P} {rejects : Nat → Bool} {j : Nat}
    {bs : List (List (ExtrinsicResult C P))} {s : S} {rs : List (Option P)}
    (hone : ∀ b ∈ bs, ∀ x ∈ b, OneMatchingEvent R x)
    (h : (run (submit R rejects) j bs s).result = .ok rs) :
    ∃ ps : List (List (ExtrinsicResult C P × Event P)), ps.map (List.map Prod.fst) = bs ∧
      R.execAll (bs.flatten.map (·.call)) s =
        some ((run (submit R rejects) j bs s).state, ps.flatten.map Prod.snd) ∧
      rs.length ≤ ps.flatten.length ∧ (∀ p ∈ ps.flatten, p.1.isOwn p.2) ∧
      (rs = ownValues ps.flatten ↔ ∀ b ∈ ps, Agrees b) := by
  induction bs generalizing j s rs with
  | nil =>
    cases h
    exact ⟨[], rfl, rfl, Nat.zero_le _, by simp, by simp [ownValues]⟩
  | cons batch bs ih =>
    cases hb : submit R rejects j batch s with
    | error e =>
      rw [run_cons_error hb] at h
      cases h
    | ok q =>
      obtain ⟨rs₁, s'⟩ := q
      rw [run_cons_ok hb] at h ⊢
      cases hrest : (run (submit R rejects) (j + 1) bs s').result with
      | error e => simp [hrest, Except.map] at h
      | ok rs₂ =>
        simp only [hrest, Except.map, Except.ok.injEq] at h
        obtain ⟨b, hb₁, hexec, rfl, hown⟩ :=
          submit_ok (hone batch List.mem_cons_self) hb
        obtain ⟨ps, hps, hexecs, hlen, howns, hiff⟩ :=
          ih (fun c hc => hone c (List.mem_cons_of_mem _ hc)) hrest
        have hle := batchValues_length_le b
        refine ⟨b :: ps, by rw [List.map_cons, hb₁, hps], ?_, ?_, ?_, ?_⟩
        · rw [List.flatten_cons, List.map_append, List.flatten_cons, List.map_append]
          exact execAll_append hexec hexecs
        · rw [← h, List.length_append, List.flatten_cons, List.length_append]
          omega
        · intro p hp
          rw [List.flatten_cons, List.mem_append] at hp
          exact hp.elim (hown p) (howns p)
        · have hsplit : ownValues (b :: ps).flatten = ownValues b ++ ownValues ps.flatten := by
            simp [ownValues]
          rw [hsplit, ← h, List.forall_mem_cons, ← hiff, ← batchValues_eq_iff hown]
          constructor
          · intro heq
            have hlens := congrArg List.length heq
            simp only [List.length_append, ownValues, List.length_map] at hlens
            exact List.append_inj heq (by rw [ownValues, List.length_map]; omega)
          · rintro ⟨h₁, h₂⟩
            rw [h₁, h₂]

theorem slices_flatten_of_map {α β : Type*} {f : α → β} {k : Nat} {xs : List β}
    {ps : List (List α)} (h : ps.map (List.map f) = slices k xs) : slices k ps.flatten = ps := by
  induction xs using slices.induct k generalizing ps with
  | case1 =>
    rw [slices_nil, List.map_eq_nil_iff] at h
    rw [h, List.flatten_nil, slices_nil]
  | case2 x xs ih =>
    cases ps with
    | nil => simp [slices_cons] at h
    | cons p ps =>
      rw [slices_cons, List.map_cons, List.cons.injEq] at h
      obtain ⟨hp, hps⟩ := h
      cases p with
      | nil => simp at hp
      | cons a p =>
        have hlen : p.length = min k xs.length := by
          have := congrArg List.length hp
          simpa using this
        have htake : (p ++ ps.flatten).take k = p ∧ (p ++ ps.flatten).drop k = ps.flatten := by
          by_cases hk : k ≤ xs.length
          · have hpk : p.length = k := by omega
            exact ⟨List.take_left' hpk, List.drop_left' hpk⟩
          · have hnil : ps = [] := by
              rw [List.drop_of_length_le (by omega), slices_nil, List.map_eq_nil_iff] at hps
              exact hps
            subst hnil
            have hpk : p.length ≤ k := by omega
            simp [List.take_of_length_le hpk, List.drop_of_length_le hpk]
        rw [List.flatten_cons, List.cons_append, slices_cons, htake.1, htake.2, ih hps]

/-- A batch call that returns hands every extrinsic its own value exactly when in every batch of
400 the shared map and the shared event names agree with the extrinsics' own. -/
theorem batchAll_values {R : Runtime S C P} {rejects : Nat → Bool}
    {extrinsics : List (Option (ExtrinsicResult C P))} {s : S} {rs : List (Option P)}
    (hone : ∀ x ∈ extrinsics.filterMap id, OneMatchingEvent R x)
    (h : (batchAll R rejects extrinsics s).result = .ok rs) :
    ∃ ps : List (ExtrinsicResult C P × Event P), ps.map Prod.fst = extrinsics.filterMap id ∧
      R.execAll (ps.map (·.1.call)) s =
        some ((batchAll R rejects extrinsics s).state, ps.map Prod.snd) ∧
      (∀ p ∈ ps, p.1.isOwn p.2) ∧ (rs = ownValues ps ↔ ∀ b ∈ slices (batchSize - 1) ps, Agrees b) := by
  have hmem : ∀ b ∈ slices (batchSize - 1) (extrinsics.filterMap id), ∀ x ∈ b,
      OneMatchingEvent R x := by
    intro b hb x hx
    apply hone
    rw [← slices_flatten (batchSize - 1) (extrinsics.filterMap id)]
    exact List.mem_flatten.mpr ⟨b, hb, hx⟩
  obtain ⟨ps, hps, hexec, -, hown, hiff⟩ := run_values hmem h
  have hfst : ps.flatten.map Prod.fst = extrinsics.filterMap id := by
    rw [List.map_flatten, hps, slices_flatten]
  refine ⟨ps.flatten, hfst, ?_, hown, ?_⟩
  · have hcalls : ps.flatten.map (·.1.call) = (extrinsics.filterMap id).map (·.call) := by
      rw [← hfst, List.map_map]
      rfl
    rw [slices_flatten, ← hcalls] at hexec
    exact hexec
  · rw [slices_flatten_of_map hps, hiff]

end ThreefoldSdk.TfChain
