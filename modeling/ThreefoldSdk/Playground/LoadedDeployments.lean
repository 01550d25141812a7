import ThreefoldSdk.Lib.KeepFirst

/-! The loaded deployments of the playground and how several of them are put into one
(`mergeLoadedDeployments` in `utils/load_deployment.ts`). -/

namespace ThreefoldSdk.Playground
open KeepFirst

universe u v w

structure FailedDeployment (C : Type u) where
  name : String
  nodes : List ℕ
  contracts : List C
deriving DecidableEq

structure LoadedDeployments (T : Type u) (C : Type v) where
  count : ℤ
  items : List T
  failedDeployments : List (FailedDeployment C)
deriving DecidableEq

def LoadedDeployments.size {T : Type u} {C : Type v} (d : LoadedDeployments T C) : ℕ :=
  d.items.length + d.failedDeployments.length

/-- One of the loops of `insertIfNotFound`: for every old element of the name the count of the new
ones goes down. -/
def insertEach {α : Type u} {N : Type v} [DecidableEq N] (name : α → N) :
    List α → ℤ × List α → ℤ × List α
  | [], s => s
  | item :: rest, (count, old) =>
    let found := (old.map name).count (name item)
    insertEach name rest (count - found, if found = 0 then old ++ [item] else old)

section
variable {T : Type u} {C : Type v} {N : Type w} {ι : Type} [DecidableEq N] [DecidableEq ι]
  (name : T → N) (store : ι → LoadedDeployments T C)

/-- A round of `reduce`. The results are objects of `store`, and of them `insertIfNotFound` writes
the counts. -/
def mergeStep (s : (ι → ℤ) × LoadedDeployments T C) (current : ι) :
    (ι → ℤ) × LoadedDeployments T C :=
  let (counts, res) := s
  let (count, items) := insertEach name (store current).items (counts current, res.items)
  let (count, failedDeployments) := insertEach FailedDeployment.name
    (store current).failedDeployments (count, res.failedDeployments)
  (Function.update counts current count, ⟨res.count + count, items, failedDeployments⟩)

def mergeLoadedDeployments (deployments : List ι) : LoadedDeployments T C :=
  (deployments.foldl (mergeStep name store) (fun r => (store r).count, ⟨0, [], []⟩)).2

/-- The count is that of the items and failed deployments, each name is there once, and for each name
the first of all. -/
structure Balanced (deployments : List ι) (res : LoadedDeployments T C) : Prop where
  count : res.count = res.size
  items : (res.items.map name).Nodup
  failed : (res.failedDeployments.map (·.name)).Nodup
  firstItem : ∀ n, res.items.find? (fun x => decide (name x = n)) =
    (deployments.flatMap fun r => (store r).items).find? fun x => decide (name x = n)
  firstFailed : ∀ n, res.failedDeployments.find? (fun x => decide (x.name = n)) =
    (deployments.flatMap fun r => (store r).failedDeployments).find? fun x => decide (x.name = n)

/-- The names in a result are distinct, and in none of the results before. -/
structure AllNew (before : List ι) (r : ι) : Prop where
  items : ((store r).items.map name).Nodup
  failed : ((store r).failedDeployments.map (·.name)).Nodup
  newItems : ∀ x ∈ (store r).items,
    name x ∉ (before.flatMap fun b => (store b).items).map name
  newFailed : ∀ x ∈ (store r).failedDeployments,
    x.name ∉ (before.flatMap fun b => (store b).failedDeployments).map (·.name)

/-- Whenever a result is passed once more, its names were new at the time before. -/
def NewUntilLast (deployments : List ι) : Prop :=
  ∀ before r after, deployments = before ++ r :: after → r ∈ after → AllNew name store before r

end

section
variable {α : Type u} {N : Type v} [DecidableEq N] {name : α → N} {xs old : List α} {count : ℤ}

theorem insertEach_eq (h : (old.map name).Nodup) :
    insertEach name xs (count, old) = (count - repeats name old xs, insertAll name old xs) := by
  induction xs generalizing count old with
  | nil => exact Prod.ext (sub_zero count).symm rfl
  | cons x xs ih =>
    have hfound : (old.map name).count (name x) = if name x ∈ old.map name then 1 else 0 := h.count
    have hkept : (if (old.map name).count (name x) = 0 then old ++ [x] else old) =
        insertNew name old x := by
      rw [hfound, insertNew]
      by_cases hin : name x ∈ old.map name
      · rw [if_pos hin, if_pos hin, if_neg Nat.one_ne_zero]
      · rw [if_neg hin, if_neg hin, if_pos rfl]
    rw [insertEach, hkept, ih (nodup_insertNew h), hfound, repeats, insertAll_cons]
    push_cast
    rw [sub_sub]

end

section
variable {T : Type u} {C : Type v} {N : Type w} {ι : Type} [DecidableEq N] [DecidableEq ι]
  {name : T → N} {store : ι → LoadedDeployments T C} {before deployments : List ι} {r : ι}
  {counts : ι → ℤ} {res : LoadedDeployments T C}

/-- The first of each name that the results so far have. -/
structure MergedFrom (name : T → N) (store : ι → LoadedDeployments T C) (before : List ι)
    (res : LoadedDeployments T C) : Prop where
  items : res.items = insertAll name [] (before.flatMap fun r => (store r).items)
  failed : res.failedDeployments =
    insertAll FailedDeployment.name [] (before.flatMap fun r => (store r).failedDeployments)

omit [DecidableEq ι] in
theorem MergedFrom.nodup (h : MergedFrom name store before res) :
    (res.items.map name).Nodup ∧ (res.failedDeployments.map (·.name)).Nodup := by
  rw [h.items, h.failed]
  exact ⟨nodup_insertAll List.nodup_nil, nodup_insertAll List.nodup_nil⟩

def repeated (name : T → N) (store : ι → LoadedDeployments T C) (res : LoadedDeployments T C)
    (r : ι) : ℕ :=
  repeats name res.items (store r).items +
    repeats FailedDeployment.name res.failedDeployments (store r).failedDeployments

theorem mergeStep_eq (h : MergedFrom name store before res) :
    mergeStep name store (counts, res) r =
      (Function.update counts r (counts r - repeated name store res r),
        ⟨res.count + (counts r - repeated name store res r),
          insertAll name res.items (store r).items,
          insertAll FailedDeployment.name res.failedDeployments (store r).failedDeployments⟩) := by
  unfold mergeStep repeated
  simp only [insertEach_eq h.nodup.1, insertEach_eq h.nodup.2, sub_sub, Nat.cast_add]

theorem mergedFrom_step (h : MergedFrom name store before res) :
    MergedFrom name store (before ++ [r]) (mergeStep name store (counts, res) r).2 := by
  rw [mergeStep_eq h]
  constructor
  · change insertAll name res.items (store r).items = _
    rw [List.flatMap_append, List.flatMap_singleton, insertAll_append, ← h.items]
  · change insertAll FailedDeployment.name res.failedDeployments (store r).failedDeployments = _
    rw [List.flatMap_append, List.flatMap_singleton, insertAll_append, ← h.failed]

omit [DecidableEq ι] in
theorem repeated_eq_zero_iff (h : MergedFrom name store before res) :
    repeated name store res r = 0 ↔ AllNew name store before r := by
  have hitems : ∀ n, n ∈ res.items.map name ↔
      n ∈ (before.flatMap fun b => (store b).items).map name := fun n => by
    rw [h.items, mem_keys_insertAll]
    exact or_iff_right List.not_mem_nil
  have hfailed : ∀ n, n ∈ res.failedDeployments.map FailedDeployment.name ↔
      n ∈ (before.flatMap fun b => (store b).failedDeployments).map FailedDeployment.name :=
    fun n => by
      rw [h.failed, mem_keys_insertAll]
      exact or_iff_right List.not_mem_nil
  unfold repeated
  rw [Nat.add_eq_zero_iff, repeats_eq_zero_iff, repeats_eq_zero_iff]
  simp only [hitems, hfailed]
  constructor
  · rintro ⟨⟨hitem, hnewItem⟩, hfail, hnewFail⟩
    exact ⟨hitem, hfail, hnewItem, hnewFail⟩
  · intro hall
    exact ⟨⟨hall.items, hall.newItems⟩, hall.failed, hall.newFailed⟩

/-- A result adds its size but for what is found, and its count as it stands but for the same. -/
theorem mergeStep_size (h : MergedFrom name store before res) :
    (mergeStep name store (counts, res) r).2.size + repeated name store res r =
      res.size + (store r).size := by
  have hitems : (insertAll name res.items (store r).items).length +
      repeats name res.items (store r).items = res.items.length + (store r).items.length :=
    length_insertAll
  have hfailed : (insertAll FailedDeployment.name res.failedDeployments
        (store r).failedDeployments).length +
      repeats FailedDeployment.name res.failedDeployments (store r).failedDeployments =
        res.failedDeployments.length + (store r).failedDeployments.length :=
    length_insertAll
  rw [mergeStep_eq h]
  simp only [LoadedDeployments.size, repeated]
  omega

omit [DecidableEq N] [DecidableEq ι] in
theorem newUntilLast_cons {done : List ι} :
    (∀ before x after, r :: deployments = before ++ x :: after → x ∈ after →
        AllNew name store (done ++ before) x) ↔
      (r ∈ deployments → AllNew name store done r) ∧
        ∀ before x after, deployments = before ++ x :: after → x ∈ after →
          AllNew name store (done ++ [r] ++ before) x := by
  constructor
  · intro h
    refine ⟨fun hr => ?_, fun before x after hsplit hx => ?_⟩
    · exact List.append_nil done ▸ h [] r deployments rfl hr
    · rw [List.append_assoc]
      exact h (r :: before) x after (congrArg (r :: ·) hsplit) hx
  · rintro ⟨hfirst, hrest⟩ before x after hsplit hx
    cases before with
    | nil =>
      obtain ⟨rfl, rfl⟩ := List.cons.inj hsplit
      rw [List.append_nil]
      exact hfirst hx
    | cons b before =>
      obtain ⟨rfl, htail⟩ := List.cons.inj hsplit
      rw [List.append_cons]
      exact hrest before x after htail hx

/-- The count falls short of the size by what each object lacks when its turn comes; it lacks what
was found of it at its turns before. -/
theorem mergeRun_count_iff {done : List ι} (hmerged : MergedFrom name store done res)
    (hcounts : ∀ r ∈ deployments, counts r ≤ (store r).size) (hres : res.count ≤ res.size) :
    ((deployments.foldl (mergeStep name store) (counts, res)).2.count =
        (deployments.foldl (mergeStep name store) (counts, res)).2.size) ↔
      res.count = res.size ∧ (∀ r ∈ deployments, counts r = (store r).size) ∧
        ∀ before r after, deployments = before ++ r :: after → r ∈ after →
          AllNew name store (done ++ before) r := by
  induction deployments generalizing done counts res with
  | nil =>
    refine ⟨fun h => ⟨h, fun r hr => absurd hr List.not_mem_nil, fun before r after hsplit => ?_⟩,
      fun h => h.1⟩
    exact absurd hsplit
      (List.append_ne_nil_of_right_ne_nil before (List.cons_ne_nil r after)).symm
  | cons r deployments ih =>
    have hsize : (mergeStep name store (counts, res) r).2.size + repeated name store res r =
        res.size + (store r).size := mergeStep_size hmerged
    have hnew := repeated_eq_zero_iff (r := r) hmerged
    have hcount : (mergeStep name store (counts, res) r).2.count =
        res.count + (counts r - repeated name store res r) := by
      rw [mergeStep_eq hmerged]
    have hupdate : (mergeStep name store (counts, res) r).1 =
        Function.update counts r (counts r - repeated name store res r) := by
      rw [mergeStep_eq hmerged]
    have hr := hcounts r List.mem_cons_self
    have hnext : ∀ x ∈ deployments, (mergeStep name store (counts, res) r).1 x ≤ (store x).size := by
      intro x hx
      rw [hupdate]
      by_cases hxr : x = r
      · subst hxr
        rw [Function.update_self]
        omega
      · rw [Function.update_of_ne hxr]
        exact hcounts x (List.mem_cons_of_mem _ hx)
    have hsum : (mergeStep name store (counts, res) r).2.count =
        (mergeStep name store (counts, res) r).2.size ↔
          res.count = res.size ∧ counts r = (store r).size := by
      rw [hcount]
      omega
    rw [List.foldl_cons, ih (mergedFrom_step hmerged) hnext (by rw [hcount]; omega), hsum,
      newUntilLast_cons, ← hnew, List.forall_mem_cons]
    constructor
    · rintro ⟨⟨hbase, hown⟩, hlater, hsplits⟩
      refine ⟨hbase, ⟨hown, fun x hx => ?_⟩, fun hagain => ?_, hsplits⟩
      -- only the count of `r` went down, by what was found of it
      · have hxcount := hlater x hx
        rw [hupdate] at hxcount
        by_cases hxr : x = r
        · exact hxr ▸ hown
        · rwa [Function.update_of_ne hxr] at hxcount
      · have hxcount := hlater r hagain
        rw [hupdate, Function.update_self] at hxcount
        omega
    · rintro ⟨hbase, ⟨hown, hlater⟩, hagain, hsplits⟩
      refine ⟨⟨hbase, hown⟩, fun x hx => ?_, hsplits⟩
      rw [hupdate]
      by_cases hxr : x = r
      · subst hxr
        rw [Function.update_self, hagain hx]
        omega
      · rw [Function.update_of_ne hxr]
        exact hlater x hx

theorem mergedFrom_run {done : List ι} (h : MergedFrom name store done res) :
    MergedFrom name store (done ++ deployments)
      (deployments.foldl (mergeStep name store) (counts, res)).2 := by
  induction deployments generalizing done counts res with
  | nil => rwa [List.append_nil]
  | cons r deployments ih =>
    rw [List.append_cons]
    exact ih (mergedFrom_step h)

/-- Merging balanced results is balanced exactly when no result is passed again after a name of it
was found. -/
theorem mergeLoadedDeployments_balanced_iff
    (hinputs : ∀ r ∈ deployments, (store r).count = (store r).size) :
    Balanced name store deployments (mergeLoadedDeployments name store deployments) ↔
      NewUntilLast name store deployments := by
  have hempty : MergedFrom name store [] (⟨0, [], []⟩ : LoadedDeployments T C) := ⟨rfl, rfl⟩
  have hmerged : MergedFrom name store deployments (mergeLoadedDeployments name store deployments) :=
    mergedFrom_run hempty
  have hcount : (mergeLoadedDeployments name store deployments).count =
      (mergeLoadedDeployments name store deployments).size ↔
        NewUntilLast name store deployments := by
    refine (mergeRun_count_iff hempty (fun r hr => (hinputs r hr).le) le_rfl).trans ?_
    exact ⟨fun h => h.2.2, fun h => ⟨rfl, hinputs, h⟩⟩
  refine ⟨fun h => hcount.mp h.count, fun h =>
    ⟨hcount.mpr h, hmerged.nodup.1, hmerged.nodup.2, ?_, ?_⟩⟩
  · intro n
    rw [hmerged.items, find_insertAll, List.nil_append]
  · intro n
    rw [hmerged.failed, find_insertAll, List.nil_append]

end

/-- Two results that share the name `b`. -/
def twoResults (r : Bool) : LoadedDeployments String ℕ :=
  if r then ⟨2, ["b", "c"], []⟩ else ⟨3, ["a", "b"], [⟨"d", [], []⟩]⟩

theorem twoResults_balanced :
    Balanced id twoResults [false, true] (mergeLoadedDeployments id twoResults [false, true]) := by
  refine (mergeLoadedDeployments_balanced_iff (by decide)).mpr fun before r after hsplit hr => ?_
  have hnodup : (before ++ r :: after).Nodup := hsplit ▸ by decide
  exact absurd hr (List.nodup_cons.mp hnodup.of_append_right).1

/-- A result with a name twice. -/
def sameNames (_ : Unit) : LoadedDeployments String ℕ := ⟨2, ["a", "a"], []⟩

/-- Passed twice, the result that is returned has one item and the count zero. -/
theorem sameNames_not_balanced : (∀ r, (sameNames r).count = (sameNames r).size) ∧
    ¬Balanced id sameNames [(), ()] (mergeLoadedDeployments id sameNames [(), ()]) := by
  refine ⟨by decide, fun h => ?_⟩
  have hcount := h.count
  revert hcount
  decide

end ThreefoldSdk.Playground
