import ThreefoldSdk.Lib.Frame
import ThreefoldSdk.Lib.Ipv4
import ThreefoldSdk.Lib.Utf16
import ThreefoldSdk.Storage.TFKVStore

/-! The fragments of a value: what `set` and `remove` leave under the key, and under other keys. -/

namespace ThreefoldSdk.Storage
open Primitives Probe Frame Utf16

/-! Keys. -/

/-- Different fragments have different keys, except that a fragment of one key may be another
key. -/
theorem fragment_eq_iff {k k' : List Char} {i j : Nat} (hj : j ≠ 0) :
    fragment k i = fragment k' j ↔ (i ≠ 0 ∧ k = k' ∧ i = j) ∨ (i = 0 ∧ k = fragment k' j) := by
  by_cases hi : i = 0
  · subst hi
    simp [fragment]
  · have hdigits : ∀ n : Nat, '.' ∉ (toString n).toList := Ipv4.not_mem_toString (by decide)
    simp only [fragment, hi, hj, ↓reduceIte, ne_eq, not_false_eq_true, true_and, false_and, or_false]
    constructor
    · intro h
      have hrev := congrArg List.reverse h
      simp only [List.reverse_append, List.reverse_cons, List.append_assoc, List.singleton_append]
        at hrev
      obtain ⟨hnumber, hkey⟩ := Cut.append_cons_inj
        (fun hin => hdigits i (List.mem_reverse.mp hin))
        (fun hin => hdigits j (List.mem_reverse.mp hin)) hrev
      refine ⟨List.reverse_inj.mp hkey, ?_⟩
      exact Nat.repr_inj.mp (String.toList_injective (List.reverse_inj.mp hnumber))
    · intro h
      rw [h.1, h.2]

theorem fragment_ne_self (k : List Char) {i : Nat} (hi : i ≠ 0) : k ≠ fragment k i := by
  intro heq
  have hlength := congrArg List.length heq
  simp [fragment, hi] at hlength

theorem fragment_injective {k : List Char} {i j : Nat} (h : fragment k i = fragment k j) : i = j := by
  by_cases hj : j = 0
  · by_contra hne
    rw [hj] at h hne
    exact fragment_ne_self k hne h.symm
  · rcases (fragment_eq_iff hj).mp h with h | h
    · exact h.2.2
    · exact absurd h.2 (fragment_ne_self k hj)

/-! What a list of extrinsics leaves. -/

namespace StoreCall

def key : StoreCall → List Char
  | set key _ => key
  | delete key => key

/-- What is under the key afterwards. -/
def value : StoreCall → Text
  | set _ value => value
  | delete _ => []

theorem apply_value (c : StoreCall) (s : Store) (k : List Char) :
    (c.apply s).value k = if k = c.key then c.value else s.value k := by
  cases c with
  | set key value =>
    unfold apply Store.value
    rw [ObjectMap.get_upsert]
    show (if k = key then some value else s.get k).getD [] = if k = key then value else _
    split <;> rfl
  | delete key =>
    unfold apply Store.value
    rw [ObjectMap.get_erase]
    show (if k = key then none else s.get k).getD [] = if k = key then [] else _
    split <;> rfl

end StoreCall

section
variable {s : Store} {calls : List StoreCall} {k : List Char}

theorem applyAll_of_not_mem (h : ∀ c ∈ calls, c.key ≠ k) : (applyAll s calls).value k = s.value k := by
  induction calls generalizing s with
  | nil => rfl
  | cons c calls ih =>
    have hne : ¬ k = c.key := fun heq => h c List.mem_cons_self heq.symm
    show (applyAll (c.apply s) calls).value k = _
    rw [ih fun c' hc' => h c' (List.mem_cons_of_mem _ hc'), c.apply_value, if_neg hne]

theorem applyAll_of_mem {v : Text} {c : StoreCall} (hc : c ∈ calls) (hkey : c.key = k)
    (h : ∀ c ∈ calls, c.key = k → c.value = v) : (applyAll s calls).value k = v := by
  induction calls generalizing s c with
  | nil => cases hc
  | cons c' calls ih =>
    show (applyAll (c'.apply s) calls).value k = v
    by_cases hlater : ∃ c ∈ calls, c.key = k
    · obtain ⟨c, hc, hkey⟩ := hlater
      exact ih hc hkey fun c hc => h c (List.mem_cons_of_mem _ hc)
    · have hnone : ∀ c ∈ calls, c.key ≠ k := fun c hc hkey => hlater ⟨c, hc, hkey⟩
      have hfirst : c'.key = k := by
        rcases List.mem_cons.mp hc with rfl | hc
        · exact hkey
        · exact absurd hkey (hnone c hc)
      rw [applyAll_of_not_mem hnone, c'.apply_value, if_pos hfirst.symm]
      exact h c' List.mem_cons_self hfirst

/-- A key that was missing or is deleted is missing, when it is only deleted. -/
theorem applyAll_missing (hempty : ∀ c ∈ calls, c.key = k → c.value = [])
    (h : .delete k ∈ calls ∨ s.value k = []) : (applyAll s calls).value k = [] := by
  by_cases hin : ∃ c ∈ calls, c.key = k
  · obtain ⟨c, hc, hkey⟩ := hin
    exact applyAll_of_mem hc hkey hempty
  · rcases h with h | h
    · exact absurd ⟨_, h, rfl⟩ hin
    · rw [applyAll_of_not_mem fun c hc hkey => hin ⟨c, hc, hkey⟩]
      exact h

end

/-! Reading. -/

section
variable {box : Secretbox} {s s' : Store} {k : List Char}

theorem kvGet_of_value (h : s'.value k = s.value k) : kvGet box s' k = kvGet box s k := by
  unfold kvGet
  rw [h]

theorem kvGet_of_missing (h : s.value k = []) : kvGet box s k = .ok [] := if_pos h

theorem kvGet_of_decrypt {v : Text} (hne : s.value k ≠ []) (h : box.decrypt (s.value k) = some v) :
    kvGet box s k = .ok v := by
  unfold kvGet
  rw [if_neg hne, h]

/-- Among as many fragments as the store has keys, and one more, one is missing. -/
theorem exists_missing (s : Store) (k : List Char) (i : Nat) :
    ∃ m ≤ s.entries.length, s.value (fragment k (i + m)) = [] := by
  by_contra hnone
  have hstored : ∀ m ≤ s.entries.length, fragment k (i + m) ∈ s.entries.map Prod.fst := by
    intro m hm
    by_contra hnot
    refine hnone ⟨m, hm, ?_⟩
    unfold Store.value
    rw [ObjectMap.get_eq_none_iff.mpr hnot]
    rfl
  have hnodup : ((List.range (s.entries.length + 1)).map fun m => fragment k (i + m)).Nodup := by
    refine List.Nodup.map ?_ List.nodup_range
    intro m n h
    exact Nat.add_left_cancel (fragment_injective h)
  have hsub : (List.range (s.entries.length + 1)).map (fun m => fragment k (i + m)) ⊆
      s.entries.map Prod.fst := by
    intro x hx
    obtain ⟨m, hm, rfl⟩ := List.mem_map.mp hx
    exact hstored m (Nat.le_of_lt_succ (List.mem_range.mp hm))
  have hlength := (hnodup.subperm hsub).length_le
  simp at hlength

theorem readFragments_of_chain {β : Type} {emit : Nat → Text → β} {start : Nat} {fs : List Text}
    (h : Chain (fun i => kvGet box s (fragment k i)) start fs) :
    readFragments box s k emit start = .ok (emitAll emit start fs) := by
  obtain ⟨m, hm, hmissing⟩ := exists_missing s k start
  have hfuel : probe (fun i => kvGet box s (fragment k i)) emit (s.entries.length + 1) start =
      probe (fun i => kvGet box s (fragment k i)) emit (fs.length + m + 1) start :=
    probe_stable (kvGet_of_missing hmissing) (by omega) (by omega)
  unfold readFragments
  rw [hfuel]
  exact probe_of_chain h (by omega)

theorem readFragments_congr {β : Type} {emit : Nat → Text → β} {start : Nat}
    (h : ∀ i, start ≤ i → s'.value (fragment k i) = s.value (fragment k i)) :
    readFragments box s' k emit start = readFragments box s k emit start := by
  obtain ⟨m, hm, hmissing⟩ := exists_missing s k start
  obtain ⟨m', hm', hmissing'⟩ := exists_missing s' k start
  let fuel := s.entries.length + s'.entries.length + 1
  have hleft : readFragments box s' k emit start =
      probe (fun i => kvGet box s' (fragment k i)) emit fuel start :=
    probe_stable (kvGet_of_missing hmissing') (by omega) (by omega)
  have hright : readFragments box s k emit start =
      probe (fun i => kvGet box s (fragment k i)) emit fuel start :=
    probe_stable (kvGet_of_missing hmissing) (by omega) (by omega)
  rw [hleft, hright]
  exact probe_congr (fun j hj => kvGet_of_value (h j hj)) fuel

/-- What is stored under the key and its derived keys can be read. -/
def Readable (box : Secretbox) (s : Store) (k : List Char) : Prop :=
  ∀ i, s.value (fragment k i) ≠ [] →
    ∃ v, v ≠ [] ∧ box.decrypt (s.value (fragment k i)) = some v

namespace Readable

theorem kvGet_ok (h : Readable box s k) (i : Nat) :
    ∃ v, kvGet box s (fragment k i) = .ok v ∧ (v = [] ↔ s.value (fragment k i) = []) := by
  by_cases hmissing : s.value (fragment k i) = []
  · exact ⟨[], kvGet_of_missing hmissing, iff_of_true rfl hmissing⟩
  · obtain ⟨v, hne, hv⟩ := h i hmissing
    exact ⟨v, kvGet_of_decrypt hmissing hv, iff_of_false hne hmissing⟩

theorem exists_chain (h : Readable box s k) (start : Nat) :
    ∃ fs, Chain (fun i => kvGet box s (fragment k i)) start fs := by
  obtain ⟨m, -, hmissing⟩ := exists_missing s k start
  obtain ⟨fs, -, hchain⟩ := Probe.exists_chain
    (fun j => (h.kvGet_ok j).imp fun _ hv => hv.1)
    (kvGet_of_missing hmissing : kvGet box s (fragment k (start + m)) = .ok [])
  exact ⟨fs, hchain⟩

end Readable

/-- Moreover, what is stored stops at the first derived key that is missing. -/
structure Fragmented (box : Secretbox) (s : Store) (k : List Char) : Prop where
  contiguous : ∀ i, s.value (fragment k i) = [] → s.value (fragment k (i + 1)) = []
  readable : Readable box s k

namespace Fragmented

theorem missing_of_le (h : Fragmented box s k) {i j : Nat} (hi : s.value (fragment k i) = [])
    (hle : i ≤ j) : s.value (fragment k j) = [] := by
  induction j, hle using Nat.le_induction with
  | base => exact hi
  | succ j _ ih => exact h.contiguous j ih

/-- Behind the fragments that are read nothing is stored. -/
theorem missing_after (h : Fragmented box s k) {start : Nat} {fs : List Text}
    (hchain : Chain (fun i => kvGet box s (fragment k i)) start fs) {j : Nat}
    (hj : start + fs.length ≤ j) : s.value (fragment k j) = [] := by
  obtain ⟨v, hv, hiff⟩ := h.readable.kvGet_ok (start + fs.length)
  rw [hchain.read_length, Except.ok.injEq] at hv
  exact h.missing_of_le (hiff.mp hv.symm) hj

/-- `cleanFragments` deletes all fragments from its start on. -/
theorem cleanFragments_ok (h : Fragmented box s k) (start : Nat) :
    ∃ calls, cleanFragments box s k start = .ok calls ∧
      (∀ c ∈ calls, ∃ i, start ≤ i ∧ c = .delete (fragment k i)) ∧
      ∀ i, start ≤ i → .delete (fragment k i) ∈ calls ∨ s.value (fragment k i) = [] := by
  obtain ⟨fs, hchain⟩ := h.readable.exists_chain start
  refine ⟨_, readFragments_of_chain hchain, ?_, ?_⟩
  · intro c hc
    obtain ⟨j, f, -, rfl⟩ := mem_emitAll.mp hc
    exact ⟨start + j, Nat.le_add_right _ _, rfl⟩
  · intro i hi
    by_cases hlt : i < start + fs.length
    · have hindex : i - start < fs.length := by omega
      refine Or.inl (mem_emitAll.mpr ⟨i - start, fs[i - start], List.getElem?_eq_getElem hindex, ?_⟩)
      show StoreCall.delete (fragment k (start + (i - start))) = _
      rw [Nat.add_sub_cancel' hi]
    · exact Or.inr (h.missing_after hchain (Nat.le_of_not_lt hlt))

end Fragmented

end

section
variable {box : Secretbox} {s s' : Store} {key : List Char}

namespace TFKVStoreBackend

theorem get_of_missing (h : s.value (cropKey key) = []) : get box s key = .ok quotes := by
  unfold get
  rw [kvGet_of_missing h]
  rfl

theorem get_of_chain {f : Text} {fs : List Text}
    (h : Chain (fun i => kvGet box s (fragment (cropKey key) i)) 0 (f :: fs)) :
    get box s key = .ok (f :: fs).flatten := by
  obtain ⟨hfirst, hne, hrest⟩ := h
  have hvalue : kvGet box s (cropKey key) = .ok f := hfirst
  have hrest' : readFragments box s (cropKey key) (fun _ val => val) 1 = .ok fs := by
    rw [readFragments_of_chain hrest, emitAll_value]
  unfold get
  rw [hvalue]
  refine exceptBind_eq_ok.mpr ⟨f, rfl, ?_⟩
  rw [if_neg hne, hrest']
  rfl

theorem get_congr (h : ∀ i, s'.value (fragment (cropKey key) i) = s.value (fragment (cropKey key) i)) :
    get box s' key = get box s key := by
  have hfirst : kvGet box s' (cropKey key) = kvGet box s (cropKey key) := kvGet_of_value (h 0)
  unfold get
  rw [hfirst, readFragments_congr fun i _ => h i]

/-- Other keys read as before, when only fragments of `k` change and no other stored key has `k` as
a fragment of its own. -/
theorem get_other {k : List Char}
    (hsame : ∀ k', (∀ i, k' ≠ fragment k i) → s'.value k' = s.value k')
    (hparent : ∀ k' i, i ≠ 0 → k = fragment k' i → s.value k' = [])
    (hother : ∀ i, cropKey key ≠ fragment k i) : get box s' key = get box s key := by
  by_cases hk : ∃ i, i ≠ 0 ∧ k = fragment (cropKey key) i
  · obtain ⟨i, hi, hk⟩ := hk
    have hmissing := hparent _ i hi hk
    rw [get_of_missing hmissing, get_of_missing ((hsame _ hother).trans hmissing)]
  · apply get_congr
    intro j
    apply hsame
    intro i heq
    by_cases hj : j = 0
    · rw [hj] at heq
      exact hother i heq
    · rcases (fragment_eq_iff hj).mp heq.symm with ⟨-, hsame, -⟩ | ⟨-, hfragment⟩
      · exact hother 0 hsame.symm
      · exact hk ⟨j, hj, hfragment⟩

/-- `remove` leaves no fragment of the key, and all other keys. -/
theorem remove_ok (h : Fragmented box s (cropKey key)) :
    ∃ calls, remove box s key = .ok calls ∧
      (∀ i, (applyAll s (calls.getD [])).value (fragment (cropKey key) i) = []) ∧
      ∀ k', (∀ i, k' ≠ fragment (cropKey key) i) →
        (applyAll s (calls.getD [])).value k' = s.value k' := by
  by_cases hmissing : s.value (cropKey key) = []
  · refine ⟨none, ?_, ?_, fun _ _ => rfl⟩
    · unfold remove
      rw [kvGet_of_missing hmissing]
      rfl
    · exact fun i => h.missing_of_le (i := 0) hmissing (Nat.zero_le i)
  · obtain ⟨v, hne, hv⟩ := h.readable 0 hmissing
    have hvalue : kvGet box s (cropKey key) = .ok v := kvGet_of_decrypt hmissing hv
    obtain ⟨cleaned, hcleaned, hdelete, hall⟩ := h.cleanFragments_ok 1
    refine ⟨some (cleaned ++ [.delete (cropKey key)]), ?_, ?_, ?_⟩
    · unfold remove
      rw [hvalue]
      refine exceptBind_eq_ok.mpr ⟨v, rfl, ?_⟩
      rw [if_neg hne, hcleaned]
      rfl
    · have hempty : ∀ c ∈ cleaned ++ [StoreCall.delete (cropKey key)], c.value = [] := by
        intro c hc
        rcases List.mem_append.mp hc with hc | hc
        · obtain ⟨i, -, rfl⟩ := hdelete c hc
          rfl
        · rw [List.mem_singleton.mp hc]
          rfl
      intro i
      apply applyAll_missing fun c hc _ => hempty c hc
      rcases Nat.eq_zero_or_pos i with rfl | hi
      · exact Or.inl (List.mem_append_right _ (List.mem_singleton_self _))
      · exact (hall i hi).imp_left (List.mem_append_left _)
    · intro k' hother
      apply applyAll_of_not_mem
      intro c hc hkey
      rcases List.mem_append.mp hc with hc | hc
      · obtain ⟨i, -, rfl⟩ := hdelete c hc
        exact hother i hkey.symm
      · rw [List.mem_singleton.mp hc] at hkey
        exact hother 0 hkey.symm

end TFKVStoreBackend

end

/-! Splitting. -/

theorem dot_mem_fragment (k : List Char) {i : Nat} (hi : i ≠ 0) : '.' ∈ fragment k i := by
  simp [fragment, hi]

theorem fragment_ne_proto {k : List Char} (hk : k ≠ "__proto__".toList) (i : Nat) :
    fragment k i ≠ "__proto__".toList := by
  by_cases hi : i = 0
  · rw [hi]
    exact hk
  · intro heq
    have hdot := dot_mem_fragment k hi
    rw [heq] at hdot
    exact absurd hdot (by decide)

/-- The fragments of `split`, without their keys. -/
def pieces : ℕ → Text → List Text
  | 0, value => [value]
  | n + 1, value =>
    if SPLIT_SIZE < value.length then
      value.take SPLIT_SIZE :: pieces n (value.drop SPLIT_SIZE)
    else [value]

section
variable {k : List Char} {n i : ℕ} {value : Text} {splits : List (List Char × Text)}

theorem flatten_pieces (n : ℕ) (value : Text) : (pieces n value).flatten = value := by
  induction n generalizing value with
  | zero => exact List.flatten_singleton
  | succ n ih =>
    unfold pieces
    split_ifs with hlong
    · rw [List.flatten_cons, ih, List.take_append_drop]
    · exact List.flatten_singleton

theorem pieces_ne_nil (n : ℕ) (value : Text) : pieces n value ≠ [] := by
  cases n with
  | zero => exact List.cons_ne_nil _ _
  | succ n =>
    unfold pieces
    split_ifs with hlong
    · exact List.cons_ne_nil _ _
    · exact List.cons_ne_nil _ _

theorem nonempty_of_mem_pieces (hne : value ≠ []) : ∀ f ∈ pieces n value, f ≠ [] := by
  induction n generalizing value with
  | zero =>
    intro f hf
    rw [List.mem_singleton.mp hf]
    exact hne
  | succ n ih =>
    intro f hf
    unfold pieces at hf
    split_ifs at hf with hlong
    · have hsize : 0 < SPLIT_SIZE := by decide
      rcases List.mem_cons.mp hf with rfl | hf
      · apply List.ne_nil_of_length_pos
        rw [List.length_take]
        omega
      · refine ih ?_ f hf
        apply List.ne_nil_of_length_pos
        rw [List.length_drop]
        omega
    · rw [List.mem_singleton.mp hf]
      exact hne

theorem one_le_of_length_le (hne : value ≠ []) {m : Nat} (hm : value.length ≤ SPLIT_SIZE * m) :
    1 ≤ m := by
  by_contra hzero
  rw [Nat.lt_one_iff.mp (Nat.lt_of_not_le hzero), Nat.mul_zero, Nat.le_zero,
    List.length_eq_zero_iff] at hm
  exact hne hm

/-- There are no more fragments than the value needs. -/
theorem length_pieces_le (hne : value ≠ []) {m : Nat} (hm : value.length ≤ SPLIT_SIZE * m) :
    (pieces n value).length ≤ m := by
  have hsize : 0 < SPLIT_SIZE := by decide
  induction n generalizing value m with
  | zero => exact one_le_of_length_le hne hm
  | succ n ih =>
    have hpos := one_le_of_length_le hne hm
    unfold pieces
    split_ifs with hlong
    · have hlength : (value.drop SPLIT_SIZE).length = value.length - SPLIT_SIZE := List.length_drop
      have hrest : value.drop SPLIT_SIZE ≠ [] := by
        apply List.ne_nil_of_length_pos
        omega
      have hless : (pieces n (value.drop SPLIT_SIZE)).length ≤ m - 1 := by
        apply ih hrest
        rw [hlength, Nat.mul_sub_one]
        omega
      rw [List.length_cons]
      omega
    · exact hpos

/-- Every fragment is a text when no cut parts two surrogates. -/
theorem wellFormed_pieces_iff (h : WellFormed value) (hn : value.length ≤ n + SPLIT_SIZE) :
    (∀ f ∈ pieces n value, WellFormed f) ↔ ∀ i, 0 < i → ¬LowAt value (SPLIT_SIZE * i) := by
  have hshort : ∀ {value : Text}, value.length ≤ SPLIT_SIZE →
      ∀ i, 0 < i → ¬LowAt value (SPLIT_SIZE * i) := by
    intro value hlength i hi
    exact not_lowAt_of_length_le (hlength.trans (Nat.le_mul_of_pos_right SPLIT_SIZE hi))
  have hone : ∀ {value : Text}, WellFormed value → ∀ f ∈ [value], WellFormed f := by
    intro value h f hf
    rw [List.mem_singleton.mp hf]
    exact h
  induction n generalizing value with
  | zero => exact iff_of_true (hone h) (hshort (by omega))
  | succ n ih =>
    unfold pieces
    split_ifs with hlong
    · rw [List.forall_mem_cons, (h.cut SPLIT_SIZE).1]
      by_cases hcut : LowAt value SPLIT_SIZE
      · refine iff_of_false (fun hall => hall.1 hcut) fun hall => hall 1 Nat.one_pos ?_
        rw [Nat.mul_one]
        exact hcut
      · have hrest : WellFormed (value.drop SPLIT_SIZE) := (h.cut SPLIT_SIZE).2.mpr hcut
        have hsize : 0 < SPLIT_SIZE := by decide
        have hlength : (value.drop SPLIT_SIZE).length ≤ n + SPLIT_SIZE := by
          rw [List.length_drop]
          omega
        have hnext : ∀ i, SPLIT_SIZE + SPLIT_SIZE * i = SPLIT_SIZE * (i + 1) := by
          intro i
          rw [Nat.mul_succ, Nat.add_comm]
        refine (and_congr_right fun _ => ih hrest hlength).trans ?_
        constructor
        · rintro ⟨-, hall⟩ i hi
          match i, hi with
          | 1, _ =>
            rw [Nat.mul_one]
            exact hcut
          | i + 2, _ =>
            have hlow := hall (i + 1) (Nat.succ_pos i)
            rw [lowAt_drop, hnext] at hlow
            exact hlow
        · intro hall
          refine ⟨hcut, fun i _ => ?_⟩
          rw [lowAt_drop, hnext]
          exact hall (i + 1) (Nat.succ_pos i)
    · exact iff_of_true (hone h) (hshort (Nat.le_of_not_lt hlong))

/-- A key that takes a text. -/
def takesText (p : List Char × Text) : Bool := decide (p.1 ≠ "__proto__".toList)

theorem assign_eq (splits : List (List Char × Text)) (k : List Char) (f : Text) :
    assign splits k f = splits ++ [(k, f)].filter takesText := by
  unfold assign
  by_cases hk : k = "__proto__".toList
  · have hno : ¬takesText (k, f) = true := fun h => of_decide_eq_true h hk
    rw [if_pos hk, List.filter_cons_of_neg hno, List.filter_nil, List.append_nil]
  · have hyes : takesText (k, f) = true := decide_eq_true hk
    rw [if_neg hk, List.filter_cons_of_pos hyes, List.filter_nil]

/-- The loop assigns every fragment under its key. -/
theorem splitFrom_eq : splitFrom k n i splits value =
    splits ++ (emitAll (fun j f => (fragment k j, f)) i (pieces n value)).filter takesText := by
  induction n generalizing i splits value with
  | zero => exact assign_eq splits (fragment k i) value
  | succ n ih =>
    unfold splitFrom pieces
    split_ifs with hlong
    · rw [ih, assign_eq, List.append_assoc, ← List.filter_append]
      rfl
    · exact assign_eq splits (fragment k i) value

theorem snd_emitAll (k : List Char) (i : ℕ) (fs : List Text) :
    (emitAll (fun j f => (fragment k j, f)) i fs).map Prod.snd = fs := by
  induction fs generalizing i with
  | nil => rfl
  | cons f fs ih => rw [emitAll, List.map_cons, ih]

theorem filter_takesText (h : k ≠ "__proto__".toList ∨ i ≠ 0) (fs : List Text) :
    (emitAll (fun j f => (fragment k j, f)) i fs).filter takesText =
      emitAll (fun j f => (fragment k j, f)) i fs := by
  rw [List.filter_eq_self]
  intro p hp
  obtain ⟨j, f, -, rfl⟩ := mem_emitAll.mp hp
  refine decide_eq_true ?_
  rcases h with hk | hi
  · exact fragment_ne_proto hk (i + j)
  · intro heq
    have hdot : '.' ∈ (fragment k (i + j), f).1 := dot_mem_fragment k (by omega)
    rw [heq] at hdot
    exact absurd hdot (by decide)

theorem split_eq (hk : k ≠ "__proto__".toList) :
    split k value = emitAll (fun j f => (fragment k j, f)) 0 (pieces value.length value) := by
  unfold split
  rw [splitFrom_eq, List.nil_append, filter_takesText (.inl hk)]

theorem split_values (hk : k ≠ "__proto__".toList) :
    (split k value).map Prod.snd = pieces value.length value := by
  rw [split_eq hk, snd_emitAll]

/-- The key `__proto__` loses the first fragment. -/
theorem split_proto_values :
    (split "__proto__".toList value).map Prod.snd = (pieces value.length value).tail := by
  obtain ⟨f, fs, hpieces⟩ := List.exists_cons_of_ne_nil (pieces_ne_nil value.length value)
  have hno : ¬takesText (fragment "__proto__".toList 0, f) = true :=
    fun h => of_decide_eq_true h rfl
  unfold split
  rw [splitFrom_eq, List.nil_append, hpieces, emitAll, List.filter_cons_of_neg hno,
    filter_takesText (.inr (Nat.succ_ne_zero 0)), snd_emitAll, List.tail_cons]

end

/-! The round trip. -/

section
variable {box : Secretbox} {s : Store} {key : List Char}

/-- Texts can be encrypted, and no others; what is encrypted decrypts to itself. -/
structure Secretbox.Lawful (box : Secretbox) : Prop where
  encrypt_ok_iff : ∀ n f, (∃ c, box.encrypt n f = .ok c) ↔ WellFormed f
  decrypt_encrypt : ∀ n f c, box.encrypt n f = .ok c → f ≠ [] → box.decrypt c = some f
  encrypt_ne_nil : ∀ n f c, box.encrypt n f = .ok c → c ≠ []

theorem setSplits_ok {encrypt : Nat → Text → Except GridError Text} {n : Nat}
    {splits : List (List Char × Text)} (h : ∀ p ∈ splits, ∀ n, ∃ c, encrypt n p.2 = .ok c) :
    ∃ calls, setSplits encrypt n splits = .ok calls ∧
      ∀ call, call ∈ calls ↔ ∃ j p c, splits[j]? = some p ∧ encrypt (n + j) p.2 = .ok c ∧
        call = .set p.1 c := by
  induction splits generalizing n with
  | nil => exact ⟨[], rfl, by simp⟩
  | cons p splits ih =>
    obtain ⟨hp, hsplits⟩ := List.forall_mem_cons.mp h
    obtain ⟨c, hc⟩ := hp n
    obtain ⟨calls, hcalls, hmem⟩ := ih (n := n + 1) hsplits
    refine ⟨.set p.1 c :: calls, ?_, fun call => ?_⟩
    · exact exceptBind_eq_ok.mpr ⟨c, hc, exceptBind_eq_ok.mpr ⟨calls, hcalls, rfl⟩⟩
    · rw [List.mem_cons, hmem]
      constructor
      · rintro (rfl | ⟨j, q, c', hq, hc', rfl⟩)
        · exact ⟨0, p, c, rfl, hc, rfl⟩
        · refine ⟨j + 1, q, c', hq, ?_, rfl⟩
          rwa [Nat.add_assoc, Nat.add_comm 1 j] at hc'
      · rintro ⟨j, q, c', hq, hc', rfl⟩
        cases j with
        | zero =>
          cases hq
          obtain rfl : c = c' := Except.ok.inj (hc.symm.trans hc')
          exact Or.inl rfl
        | succ j =>
          refine Or.inr ⟨j, q, c', hq, ?_, rfl⟩
          rwa [Nat.add_assoc, Nat.add_comm 1 j]

/-- `set` leaves the encrypted fragments of the value under the key, no others, and all other
keys. -/
theorem set_ok (hbox : box.Lawful) (h : Fragmented box s (cropKey key))
    (hkey : cropKey key ≠ "__proto__".toList) (n : Nat) {value : Text} (hne : value ≠ [])
    (hquotes : value ≠ quotes) (hwell : ∀ f ∈ pieces value.length value, WellFormed f) :
    ∃ calls, TFKVStoreBackend.set box n s key value = .ok (some calls) ∧
      (∀ j f, (pieces value.length value)[j]? = some f → ∃ c, box.encrypt (n + j) f = .ok c ∧
        (applyAll s calls).value (fragment (cropKey key) j) = c) ∧
      (∀ j, (pieces value.length value).length ≤ j →
        (applyAll s calls).value (fragment (cropKey key) j) = []) ∧
      ∀ k', (∀ i, k' ≠ fragment (cropKey key) i) → (applyAll s calls).value k' = s.value k' := by
  have hencrypt : ∀ f ∈ pieces value.length value, ∀ n, ∃ c, box.encrypt n f = .ok c :=
    fun f hf n => (hbox.encrypt_ok_iff n f).mpr (hwell f hf)
  generalize hpieces : pieces value.length value = pieces at hencrypt
  have hsplit : split (cropKey key) value =
      emitAll (fun j f => (fragment (cropKey key) j, f)) 0 pieces := hpieces ▸ split_eq hkey
  have hlength : (split (cropKey key) value).length = pieces.length := by
    rw [hsplit, length_emitAll]
  obtain ⟨cleaned, hcleaned, hdelete, hall⟩ := h.cleanFragments_ok pieces.length
  have hencryptAll : ∀ p ∈ split (cropKey key) value, ∀ n, ∃ c, box.encrypt n p.2 = .ok c := by
    rw [hsplit]
    intro p hp
    obtain ⟨j, f, hf, rfl⟩ := mem_emitAll.mp hp
    exact hencrypt f (List.mem_of_getElem? hf)
  obtain ⟨sets, hsetsOk, hmem⟩ := setSplits_ok (n := n) hencryptAll
  have hsets : ∀ call, call ∈ sets ↔ ∃ j f c, pieces[j]? = some f ∧
      box.encrypt (n + j) f = .ok c ∧ call = .set (fragment (cropKey key) j) c := by
    intro call
    rw [hmem]
    constructor
    · rintro ⟨j, p, c, hp, hc, rfl⟩
      rw [hsplit, getElem?_emitAll, Option.map_eq_some_iff] at hp
      obtain ⟨f, hf, rfl⟩ := hp
      rw [Nat.zero_add]
      exact ⟨j, f, c, hf, hc, rfl⟩
    · rintro ⟨j, f, c, hf, hc, rfl⟩
      refine ⟨j, (fragment (cropKey key) j, f), c, ?_, hc, rfl⟩
      rw [hsplit, getElem?_emitAll, hf, Nat.zero_add]
      rfl
  refine ⟨sets ++ cleaned, ?_, ?_, ?_, ?_⟩
  · unfold TFKVStoreBackend.set
    rw [if_neg (not_or.mpr ⟨hne, hquotes⟩)]
    refine exceptBind_eq_ok.mpr ⟨sets, hsetsOk, exceptBind_eq_ok.mpr ⟨cleaned, ?_, rfl⟩⟩
    show cleanFragments box s (cropKey key) (split (cropKey key) value).length = .ok cleaned
    rw [hlength]
    exact hcleaned
  · intro j f hf
    obtain ⟨c, hc⟩ := hencrypt f (List.mem_of_getElem? hf) (n + j)
    refine ⟨c, hc, ?_⟩
    apply applyAll_of_mem (List.mem_append_left _ ((hsets _).mpr ⟨j, f, c, hf, hc, rfl⟩)) rfl
    intro call hcall hkey
    rcases List.mem_append.mp hcall with hcall | hcall
    · obtain ⟨j', f', c', hf', hc', rfl⟩ := (hsets call).mp hcall
      obtain rfl : j' = j := fragment_injective hkey
      obtain rfl : f = f' := Option.some.inj (hf.symm.trans hf')
      exact Except.ok.inj (hc'.symm.trans hc)
    · obtain ⟨i, hi, rfl⟩ := hdelete call hcall
      have hindex : i = j := fragment_injective hkey
      have hlt := (List.getElem?_eq_some_iff.mp hf).1
      omega
  · intro j hj
    have hempty : ∀ call ∈ sets ++ cleaned, call.key = fragment (cropKey key) j →
        call.value = [] := by
      intro call hcall hkey
      rcases List.mem_append.mp hcall with hcall | hcall
      · obtain ⟨j', f', c', hf', -, rfl⟩ := (hsets call).mp hcall
        have hindex : j' = j := fragment_injective hkey
        have hlt := (List.getElem?_eq_some_iff.mp hf').1
        omega
      · obtain ⟨i, -, rfl⟩ := hdelete call hcall
        rfl
    exact applyAll_missing hempty ((hall j hj).imp_left (List.mem_append_right _))
  · intro k' hother
    apply applyAll_of_not_mem
    intro call hcall hkey
    rcases List.mem_append.mp hcall with hcall | hcall
    · obtain ⟨j, f, c, -, -, rfl⟩ := (hsets call).mp hcall
      exact hother j hkey.symm
    · obtain ⟨i, -, rfl⟩ := hdelete call hcall
      exact hother i hkey.symm

/-- After `set` the key reads as the value, no fragment that the value does not need is left, and
the other keys read as before, when the value is a text and no cut parts two of its surrogates; after
`remove` nothing is left of the key, and the other keys read as before. -/
theorem fragments_round_trip (hbox : box.Lawful) (h : Fragmented box s (cropKey key))
    (hkey : cropKey key ≠ "__proto__".toList)
    (hparent : ∀ k' i, i ≠ 0 → cropKey key = fragment k' i → s.value k' = []) (n : Nat)
    {value : Text} (hne : value ≠ []) (hquotes : value ≠ quotes) (hwell : WellFormed value)
    (hcuts : ∀ i, 0 < i → ¬LowAt value (SPLIT_SIZE * i)) :
    (∃ calls, TFKVStoreBackend.set box n s key value = .ok (some calls) ∧
      TFKVStoreBackend.get box (applyAll s calls) key = .ok value ∧
      (∀ key', (∀ i, cropKey key' ≠ fragment (cropKey key) i) →
        TFKVStoreBackend.get box (applyAll s calls) key' = TFKVStoreBackend.get box s key') ∧
      ∀ i, value.length ≤ SPLIT_SIZE * i →
        (applyAll s calls).value (fragment (cropKey key) i) = []) ∧
    ∃ calls, TFKVStoreBackend.remove box s key = .ok calls ∧
      TFKVStoreBackend.get box (applyAll s (calls.getD [])) key = .ok quotes ∧
      (∀ key', (∀ i, cropKey key' ≠ fragment (cropKey key) i) →
        TFKVStoreBackend.get box (applyAll s (calls.getD [])) key' =
          TFKVStoreBackend.get box s key') ∧
      ∀ i, (applyAll s (calls.getD [])).value (fragment (cropKey key) i) = [] := by
  constructor
  · have hall := (wellFormed_pieces_iff hwell (Nat.le_add_right _ _)).mpr hcuts
    obtain ⟨calls, hset, hstored, hnone, hsame⟩ := set_ok hbox h hkey n hne hquotes hall
    refine ⟨calls, hset, ?_, ?_, fun i hi => hnone i (length_pieces_le hne hi)⟩
    · have hnonempty : ∀ f ∈ pieces value.length value, f ≠ [] := nonempty_of_mem_pieces hne
      have hflat := flatten_pieces value.length value
      generalize pieces value.length value = pieces at hstored hnone hnonempty hflat
      have hchain : Chain (fun i => kvGet box (applyAll s calls) (fragment (cropKey key) i)) 0
          pieces := by
        apply Chain.of_reads hnonempty
        · intro j f hf
          obtain ⟨c, hc, hvalue⟩ := hstored j f hf
          rw [Nat.zero_add]
          apply kvGet_of_decrypt
          · rw [hvalue]
            exact hbox.encrypt_ne_nil _ f c hc
          · rw [hvalue]
            exact hbox.decrypt_encrypt _ f c hc (hnonempty f (List.mem_of_getElem? hf))
        · rw [Nat.zero_add]
          exact kvGet_of_missing (hnone _ le_rfl)
      cases pieces with
      | nil => exact absurd hflat.symm hne
      | cons f fs =>
        rw [TFKVStoreBackend.get_of_chain hchain]
        exact congrArg Except.ok hflat
    · intro key' hother
      exact TFKVStoreBackend.get_other hsame hparent hother
  · obtain ⟨calls, hremove, hnone, hsame⟩ := TFKVStoreBackend.remove_ok h
    refine ⟨calls, hremove, TFKVStoreBackend.get_of_missing (hnone 0), ?_, hnone⟩
    intro key' hother
    exact TFKVStoreBackend.get_other hsame hparent hother

end

/-- A box that opens what it closed. -/
def sampleBox : Secretbox where
  encrypt n f :=
    if WellFormed f then .ok ([UInt16.ofNat n] ++ f)
    else .error (.base "URIError" "URI malformed")
  decrypt
    | [] => none
    | _ :: f => some f

theorem sampleBox_ok {n : Nat} {f c : Text} (h : sampleBox.encrypt n f = .ok c) :
    c = [UInt16.ofNat n] ++ f := by
  unfold sampleBox at h
  dsimp only at h
  split at h
  · exact (Except.ok.inj h).symm
  · cases h

theorem sampleBox_lawful : sampleBox.Lawful where
  encrypt_ok_iff n f := by
    constructor
    · rintro ⟨c, hc⟩
      by_contra hmalformed
      have hthrow : sampleBox.encrypt n f = .error _ := if_neg hmalformed
      rw [hthrow] at hc
      cases hc
    · exact fun hwell => ⟨_, if_pos hwell⟩
  decrypt_encrypt n f c h _ := by
    rw [sampleBox_ok h]
    rfl
  encrypt_ne_nil n f c h := by
    rw [sampleBox_ok h]
    exact List.cons_ne_nil _ _

/-- One entry, of the key `a`. -/
def oneEntry : Store := ⟨[("a".toList, [0, 120])], by decide⟩

theorem oneEntry_fragmented {k : List Char} (hk : k ≠ ['a']) : Fragmented sampleBox oneEntry k := by
  have hnone : ∀ i, oneEntry.value (fragment k i) = [] := by
    intro i
    have hne : ¬ ['a'] = fragment k i := by
      intro heq
      by_cases hi : i = 0
      · rw [hi] at heq
        exact hk heq.symm
      · have hdot := dot_mem_fragment k hi
        rw [← heq] at hdot
        exact absurd hdot (by decide)
    simp [Store.value, ObjectMap.get, oneEntry, hne]
  exact ⟨fun i _ => hnone (i + 1), fun i hi => absurd (hnone i) hi⟩

theorem oneEntry_round_trip :
    (∃ calls, TFKVStoreBackend.set sampleBox 7 oneEntry "grid3_client/b".toList [121] =
        .ok (some calls) ∧
      TFKVStoreBackend.get sampleBox (applyAll oneEntry calls) "grid3_client/b".toList = .ok [121] ∧
      (∀ key', (∀ i, cropKey key' ≠ fragment (cropKey "grid3_client/b".toList) i) →
        TFKVStoreBackend.get sampleBox (applyAll oneEntry calls) key' =
          TFKVStoreBackend.get sampleBox oneEntry key') ∧
      ∀ i, 1 ≤ SPLIT_SIZE * i →
        (applyAll oneEntry calls).value (fragment (cropKey "grid3_client/b".toList) i) = []) ∧
    ∃ calls, TFKVStoreBackend.remove sampleBox oneEntry "grid3_client/b".toList = .ok calls ∧
      TFKVStoreBackend.get sampleBox (applyAll oneEntry (calls.getD []))
        "grid3_client/b".toList = .ok quotes ∧
      (∀ key', (∀ i, cropKey key' ≠ fragment (cropKey "grid3_client/b".toList) i) →
        TFKVStoreBackend.get sampleBox (applyAll oneEntry (calls.getD [])) key' =
          TFKVStoreBackend.get sampleBox oneEntry key') ∧
      ∀ i, (applyAll oneEntry (calls.getD [])).value
        (fragment (cropKey "grid3_client/b".toList) i) = [] := by
  have hcrop : cropKey "grid3_client/b".toList = ['b'] := by decide
  refine fragments_round_trip sampleBox_lawful ?_ (by decide) ?_ 7 (by decide) (by decide) (by decide)
    fun i hi => not_lowAt_of_length_le ((show 1 ≤ SPLIT_SIZE by decide).trans
      (Nat.le_mul_of_pos_right SPLIT_SIZE hi))
  · exact oneEntry_fragmented (by decide)
  · intro k' i hi heq
    have hdot := dot_mem_fragment k' hi
    rw [← heq, hcrop] at hdot
    exact absurd hdot (by decide)

/-- The key `a.1` is the first fragment of the key `a`, and an object takes no text as its
`__proto__`. -/
theorem fragments_of_other_key :
    Fragmented sampleBox oneEntry "a.1".toList ∧
    (∃ calls, TFKVStoreBackend.set sampleBox 7 oneEntry "a.1".toList [121] = .ok (some calls) ∧
      TFKVStoreBackend.get sampleBox oneEntry "a".toList = .ok [120] ∧
      TFKVStoreBackend.get sampleBox (applyAll oneEntry calls) "a".toList = .ok [120, 121]) ∧
    TFKVStoreBackend.set sampleBox 7 oneEntry "__proto__".toList [121] = .ok (some []) := by
  refine ⟨oneEntry_fragmented (by decide), ⟨[.set "a.1".toList [7, 121]], ?_, ?_, ?_⟩, ?_⟩
  · rfl
  · rfl
  · rfl
  · rfl

end ThreefoldSdk.Storage
