import Mathlib

/-! Objects used as maps. An object lists its entries in the order of their insertion, each key
once; its keys are read with the array indices first, in ascending order. -/

universe u v w

structure ObjectMap (κ : Type u) (β : Type v) where
  entries : List (κ × β)
  keys_nodup : (entries.map Prod.fst).Nodup

namespace ObjectMap
variable {κ : Type u} {β : Type v} {α : Type w} [DecidableEq κ]

def empty : ObjectMap κ β := ⟨[], List.nodup_nil⟩

def get (o : ObjectMap κ β) (k : κ) : Option β := (o.entries.find? fun e => e.1 = k).map Prod.snd

theorem get_eq_some_iff {o : ObjectMap κ β} {k : κ} {b : β} :
    o.get k = some b ↔ (k, b) ∈ o.entries := by
  rw [get, Option.map_eq_some_iff]
  constructor
  · rintro ⟨⟨k', b'⟩, h, rfl⟩
    have hk : k' = k := by simpa using List.find?_some h
    exact hk ▸ List.mem_of_find?_eq_some h
  · intro h
    cases hf : o.entries.find? fun e => e.1 = k with
    | none => exact absurd (List.find?_eq_none.mp hf (k, b) h) (by simp)
    | some e =>
      have hk : e.1 = k := by simpa using List.find?_some hf
      have heq := List.inj_on_of_nodup_map o.keys_nodup (List.mem_of_find?_eq_some hf) h hk
      exact ⟨e, rfl, by rw [heq]⟩

theorem get_eq_none_iff {o : ObjectMap κ β} {k : κ} :
    o.get k = none ↔ k ∉ o.entries.map Prod.fst := by
  simp only [get, Option.map_eq_none_iff, List.find?_eq_none, decide_eq_true_eq, List.mem_map,
    not_exists, not_and]

theorem keys_map_if (entries : List (κ × β)) (k : κ) (f : κ × β → β) :
    (entries.map fun e => if e.1 = k then (e.1, f e) else e).map Prod.fst =
      entries.map Prod.fst := by
  rw [List.map_map]
  apply List.map_congr_left
  intro e _
  simp only [Function.comp_apply]
  split <;> rfl

/-- Writes the value of a key, computed from the one it had. -/
def upsert (o : ObjectMap κ β) (k : κ) (f : Option β → β) : ObjectMap κ β :=
  if h : k ∈ o.entries.map Prod.fst then
    { entries := o.entries.map fun e => if e.1 = k then (e.1, f (some e.2)) else e
      keys_nodup := by
        rw [keys_map_if o.entries k fun e => f (some e.2)]
        exact o.keys_nodup }
  else
    { entries := o.entries ++ [(k, f none)]
      keys_nodup := by
        rw [List.map_append, List.map_cons, List.map_nil, List.nodup_append]
        refine ⟨o.keys_nodup, List.nodup_singleton _, ?_⟩
        intro a ha b hb hab
        have hbk : b = k := List.mem_singleton.mp hb
        exact h (hbk ▸ hab ▸ ha) }

theorem get_upsert (o : ObjectMap κ β) (k k' : κ) (f : Option β → β) :
    (o.upsert k f).get k' = if k' = k then some (f (o.get k)) else o.get k' := by
  by_cases h : k ∈ o.entries.map Prod.fst
  · have hmap : ∀ entries : List (κ × β),
        (entries.map fun e => if e.1 = k then (e.1, f (some e.2)) else e).find?
            (fun e => e.1 = k') =
          (entries.find? fun e => e.1 = k').map fun e =>
            if e.1 = k then (e.1, f (some e.2)) else e := by
      intro entries
      rw [List.find?_map]
      congr 2
      funext e
      simp only [Function.comp_apply]
      split <;> rfl
    simp only [upsert, h, ↓reduceDIte, get, hmap]
    cases hf : o.entries.find? fun e => e.1 = k' with
    | none =>
      have hne : k' ≠ k := by
        rintro rfl
        obtain ⟨e, he, hek⟩ := List.mem_map.mp h
        exact absurd (List.find?_eq_none.mp hf e he) (by simp [hek])
      simp [hne]
    | some e =>
      have hk : e.1 = k' := by simpa using List.find?_some hf
      by_cases hkk : k' = k
      · subst hkk
        simp [hf, hk]
      · simp [hkk, hk]
  · have hnone : o.get k = none := get_eq_none_iff.mpr h
    simp only [upsert, h, ↓reduceDIte, hnone]
    simp only [get, List.find?_append, List.find?_cons, List.find?_nil]
    by_cases hkk : k' = k
    · subst hkk
      have hfind : o.entries.find? (fun e => e.1 = k') = none := by
        simpa [get] using hnone
      simp [hfind]
    · have hkk' : ¬ k = k' := fun hc => hkk hc.symm
      simp [hkk, hkk']

/-- The object without a key. -/
def erase (o : ObjectMap κ β) (k : κ) : ObjectMap κ β where
  entries := o.entries.filter fun e => e.1 ≠ k
  keys_nodup := o.keys_nodup.sublist (List.filter_sublist.map Prod.fst)

theorem get_erase (o : ObjectMap κ β) (k k' : κ) :
    (o.erase k).get k' = if k' = k then none else o.get k' := by
  by_cases hk : k' = k
  · rw [if_pos hk, get_eq_none_iff, hk]
    intro hin
    obtain ⟨e, he, hek⟩ := List.mem_map.mp hin
    have hne := of_decide_eq_true (List.mem_filter.mp he).2
    exact hne hek
  · rw [if_neg hk, erase, get, get, List.find?_filter]
    congr 2
    funext e
    by_cases he : e.1 = k'
    · simp [he, hk]
    · simp [he]

/-- Runs through a list and collects its elements under their keys. -/
def collect (key : α → κ) (first : α → β) (add : β → α → β) (xs : List α) : ObjectMap κ β :=
  xs.foldl (fun o x => o.upsert (key x) fun b => b.elim (first x) fun b => add b x) empty

/-- What is collected under a key: the elements of that key, in their order. -/
theorem get_collect (key : α → κ) (first : α → β) (add : β → α → β) (xs : List α) (k : κ) :
    (collect key first add xs).get k =
      match xs.filter fun x => key x = k with
      | [] => none
      | x :: ys => some (ys.foldl add (first x)) := by
  induction xs using List.reverseRecOn with
  | nil => rfl
  | append_singleton xs x ih =>
    have hstep : collect key first add (xs ++ [x]) = (collect key first add xs).upsert (key x)
        fun b => b.elim (first x) fun b => add b x := by
      simp [collect]
    rw [hstep, get_upsert, List.filter_append]
    by_cases hk : k = key x
    · subst hk
      rw [if_pos rfl, ih]
      cases xs.filter fun y => key y = key x with
      | nil => simp
      | cons y ys => simp
    · have hk' : ¬ key x = k := fun hc => hk hc.symm
      rw [if_neg hk, ih]
      simp [hk']

theorem mem_keys_collect {key : α → κ} {first : α → β} {add : β → α → β} {xs : List α} {k : κ} :
    k ∈ (collect key first add xs).entries.map Prod.fst ↔ ∃ x ∈ xs, key x = k := by
  rw [← not_iff_not, ← get_eq_none_iff, get_collect]
  cases hf : xs.filter fun x => key x = k with
  | nil =>
    rw [List.filter_eq_nil_iff] at hf
    simpa using hf
  | cons y ys =>
    have hy : y ∈ xs.filter fun x => key x = k := hf ▸ List.mem_cons_self
    rw [List.mem_filter] at hy
    simp only [reduceCtorEq, not_exists, not_and, false_iff, not_forall, not_not]
    exact ⟨y, hy.1, of_decide_eq_true hy.2⟩

/-- The entries in the order of `Object.keys`; `index` gives the keys that are array indices. -/
def ordered (index : κ → Option Nat) (o : ObjectMap κ β) : List (κ × β) :=
  ((o.entries.filter fun e => (index e.1).isSome).insertionSort
      fun a b => (index a.1).getD 0 ≤ (index b.1).getD 0) ++
    o.entries.filter fun e => !(index e.1).isSome

omit [DecidableEq κ] in
theorem ordered_perm (index : κ → Option Nat) (o : ObjectMap κ β) :
    (o.ordered index).Perm o.entries :=
  ((List.perm_insertionSort _ _).append_right _).trans (List.filter_append_perm _ _)

theorem mem_ordered {index : κ → Option Nat} {o : ObjectMap κ β} {e : κ × β} :
    e ∈ o.ordered index ↔ o.get e.1 = some e.2 := by
  rw [get_eq_some_iff]
  exact (ordered_perm index o).mem_iff

omit [DecidableEq κ] in
theorem nodup_ordered_keys (index : κ → Option Nat) (o : ObjectMap κ β) :
    ((o.ordered index).map Prod.fst).Nodup :=
  ((ordered_perm index o).map Prod.fst).nodup_iff.mpr o.keys_nodup

/-- Under one key there is one entry, or none. -/
theorem filter_ordered (index : κ → Option Nat) (o : ObjectMap κ β) (k : κ) :
    ((o.ordered index).filter fun e => e.1 = k) = ((o.get k).map fun b => (k, b)).toList := by
  have hmem : ∀ e, e ∈ ((o.ordered index).filter fun e => e.1 = k) ↔ o.get k = some e.2 ∧ e.1 = k := by
    intro e
    rw [List.mem_filter, mem_ordered, decide_eq_true_eq]
    constructor
    · rintro ⟨h, rfl⟩
      exact ⟨h, rfl⟩
    · rintro ⟨h, rfl⟩
      exact ⟨h, rfl⟩
  have hnodup : ((o.ordered index).filter fun e => e.1 = k).Nodup :=
    (List.Nodup.of_map _ (nodup_ordered_keys index o)).filter _
  cases hg : o.get k with
  | none =>
    rw [Option.map_none, Option.toList_none, List.eq_nil_iff_forall_not_mem]
    intro e he
    rw [hmem, hg] at he
    cases he.1
  | some b =>
    rw [Option.map_some, Option.toList_some]
    apply List.perm_singleton.mp
    rw [List.perm_ext_iff_of_nodup hnodup (List.nodup_singleton _)]
    intro e
    rw [hmem, hg, List.mem_singleton, Option.some.injEq, Prod.ext_iff]
    exact ⟨fun h => ⟨h.2, h.1.symm⟩, fun h => ⟨h.2.symm, h.1⟩⟩

/-- Elements with keys of their own are collected one by one. -/
theorem entries_collect (key : α → κ) (first : α → β) (add : β → α → β) {xs : List α}
    (h : (xs.map key).Nodup) :
    (collect key first add xs).entries = xs.map fun x => (key x, first x) := by
  induction xs using List.reverseRecOn with
  | nil => rfl
  | append_singleton xs x ih =>
    rw [List.map_append, List.map_singleton, List.nodup_append] at h
    obtain ⟨hxs, -, hapart⟩ := h
    have hnew : key x ∉ (collect key first add xs).entries.map Prod.fst := by
      intro hin
      obtain ⟨y, hy, hkey⟩ := mem_keys_collect.mp hin
      exact hapart (key y) (List.mem_map_of_mem hy) (key x) (List.mem_singleton_self _) hkey
    have hstep : collect key first add (xs ++ [x]) = (collect key first add xs).upsert (key x)
        fun b => b.elim (first x) fun b => add b x := by
      simp [collect]
    rw [hstep, upsert, dif_neg hnew, List.map_append, ← ih hxs]
    rfl

omit [DecidableEq κ] in
theorem filter_append_left {p : α → Bool} {xs ys : List α} (hxs : ∀ x ∈ xs, p x = true)
    (hys : ∀ y ∈ ys, p y = false) : (xs ++ ys).filter p = xs := by
  have hnone : ys.filter p = [] := by
    rw [List.filter_eq_nil_iff]
    intro y hy hp
    rw [hys y hy] at hp
    cases hp
  rw [List.filter_append, List.filter_eq_self.mpr hxs, hnone, List.append_nil]

omit [DecidableEq κ] in
theorem filter_append_right {p : α → Bool} {xs ys : List α} (hxs : ∀ x ∈ xs, p x = false)
    (hys : ∀ y ∈ ys, p y = true) : (xs ++ ys).filter p = ys := by
  have hnone : xs.filter p = [] := by
    rw [List.filter_eq_nil_iff]
    intro x hx hp
    rw [hxs x hx] at hp
    cases hp
  rw [List.filter_append, List.filter_eq_self.mpr hys, hnone, List.nil_append]

omit [DecidableEq κ] in
/-- What stands in the order of `Object.keys` keeps it. -/
theorem ordered_of_ordered {index : κ → Option Nat} {o o' : ObjectMap κ β}
    (h : o'.entries = o.ordered index) : o'.ordered index = o.ordered index := by
  have hindexed : ∀ e ∈ (o.entries.filter fun e => (index e.1).isSome).insertionSort
      (fun a b => (index a.1).getD 0 ≤ (index b.1).getD 0), (index e.1).isSome = true := by
    intro e he
    have hmem := (List.perm_insertionSort _ _).mem_iff.mp he
    exact (List.mem_filter.mp hmem).2
  have hothers : ∀ e ∈ o.entries.filter fun e => !(index e.1).isSome,
      (index e.1).isSome = false := by
    intro e he
    exact Bool.not_eq_true' _ ▸ (List.mem_filter.mp he).2
  have hleft := filter_append_left hindexed hothers
  have hright := filter_append_right (p := fun e : κ × β => !(index e.1).isSome)
    (fun e he => by rw [hindexed e he]; rfl) (fun e he => by rw [hothers e he]; rfl)
  have hpairwise := List.pairwise_insertionSort
    (fun a b : κ × β => (index a.1).getD 0 ≤ (index b.1).getD 0)
    (o.entries.filter fun e => (index e.1).isSome)
  show (o'.entries.filter _).insertionSort _ ++ o'.entries.filter _ = _
  rw [h]
  unfold ordered
  rw [hleft, hright, hpairwise.insertionSort_eq]

end ObjectMap
