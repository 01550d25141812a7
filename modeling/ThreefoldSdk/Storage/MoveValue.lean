import ThreefoldSdk.Storage.Fragments

/-! Moving a value to another key (`TFKVStoreBackend.moveValue`), and the migration that does so for
the deployments of a project (`BaseModule._migrateListKeys`). -/

namespace ThreefoldSdk.Storage
open Primitives Probe Frame

/-- One round: every fragment is written under the new key itself. -/
def moveStep (fromKey toKey : List Char) (i : Nat) (value : Text) : List StoreCall :=
  .set toKey value :: if fromKey ≠ toKey then [.delete (fragment fromKey i)] else []

def TFKVStoreBackend.moveValue (s : Store) (fromKey toKey : List Char) :
    Except GridError (List StoreCall) :=
  (probe (fun i => .ok (s.value (fragment (cropKey fromKey) i)))
    (moveStep (cropKey fromKey) (cropKey toKey)) (s.entries.length + 1) 0).map List.flatten

/-- The paths of the contracts under the old and the new path of a module, for the names listed. -/
def migrateListKeys (s : Store) (oldPath newPath : List Char) (keys : List (List Char)) :
    Except GridError (List StoreCall) := do
  let calls ← keys.mapM fun key => TFKVStoreBackend.moveValue s
    (oldPath ++ '/' :: key ++ "/contracts.json".toList)
    (newPath ++ '/' :: key ++ "/contracts.json".toList)
  return calls.flatten

/-- The new key reads as the old one did, and the old one as missing if it is another one. -/
def Moves (box : Secretbox) (s : Store) (fromKey toKey : List Char) : Prop :=
  ∃ calls, TFKVStoreBackend.moveValue s fromKey toKey = .ok calls ∧
    TFKVStoreBackend.get box (applyAll s calls) toKey = TFKVStoreBackend.get box s fromKey ∧
    (cropKey fromKey ≠ cropKey toKey →
      TFKVStoreBackend.get box (applyAll s calls) fromKey = .ok quotes)

/-- The fragments under the derived keys of `k`, when the key `gone` is taken away. -/
def leftUnder (box : Secretbox) (s : Store) (gone k : List Char) : Except GridError (List Text) :=
  probe (fun i => if fragment k i = gone then .ok [] else kvGet box s (fragment k i))
    (fun _ v => v) (s.entries.length + 1) 1

/-- The last fragment happens to stand for all of them: it is also the first one, or the fragments
left under the new key complete it, or the new key was its own and the value reads as a missing
one. -/
def LastIsEnough (box : Secretbox) (s : Store) (k k' : List Char) (fs : List Text) : Prop :=
  (k = k' ∧ fs.head? = fs.getLast?) ∨
    (k ≠ k' ∧ k' ≠ fragment k (fs.length - 1) ∧
      ∃ rest, leftUnder box s k k' = .ok rest ∧ fs.getLast?.getD [] ++ rest.flatten = fs.flatten) ∨
    (k' = fragment k (fs.length - 1) ∧ fs.flatten = quotes)

/-- The value is one fragment, and under the derived keys of another key nothing is left; or its
last fragment is enough. -/
def MovesWhole (box : Secretbox) (s : Store) (k k' : List Char) (fs : List Text) : Prop :=
  (fs.length = 1 ∧ (k = k' ∨ leftUnder box s k k' = .ok [])) ∨
    (1 < fs.length ∧ LastIsEnough box s k k' fs)

/-- The key holds these fragments, and none behind them. -/
structure Stored (box : Secretbox) (s : Store) (k : List Char) (fs : List Text) : Prop where
  chain : Chain (fun i => kvGet box s (fragment k i)) 0 fs
  ne_nil : fs ≠ []
  ends : s.value (fragment k fs.length) = []

section
variable {box : Secretbox} {s : Store} {k k' x : List Char}

/-! The store after the move. -/

theorem applyAll_append (s : Store) (calls calls' : List StoreCall) :
    applyAll s (calls ++ calls') = applyAll (applyAll s calls) calls' := List.foldl_append

theorem applyAll_moveStep (s : Store) (k k' : List Char) (i : Nat) (r : Text) (x : List Char) :
    (applyAll s (moveStep k k' i r)).value x =
      if k ≠ k' ∧ x = fragment k i then [] else if x = k' then r else s.value x := by
  by_cases hsame : k = k'
  · have hstep : moveStep k k' i r = [.set k' r] := by
      unfold moveStep
      rw [if_neg fun h => h hsame]
    rw [hstep, if_neg fun h => h.1 hsame]
    show ((StoreCall.set k' r).apply s).value x = _
    rw [StoreCall.apply_value]
    rfl
  · have hstep : moveStep k k' i r = [.set k' r, .delete (fragment k i)] := by
      unfold moveStep
      rw [if_pos hsame]
    rw [hstep]
    show ((StoreCall.delete (fragment k i)).apply ((StoreCall.set k' r).apply s)).value x = _
    rw [StoreCall.apply_value, StoreCall.apply_value]
    show (if x = fragment k i then [] else if x = k' then r else s.value x) = _
    by_cases hx : x = fragment k i
    · rw [if_pos hx, if_pos ⟨hsame, hx⟩]
    · rw [if_neg hx, if_neg (show ¬(k ≠ k' ∧ x = fragment k i) from fun h => hx h.2)]

theorem applyAll_moves (raws : List Text) (r : Text) :
    (applyAll s (emitAll (moveStep k k') 0 (raws ++ [r])).flatten).value x =
      if k ≠ k' ∧ x = fragment k raws.length then [] else if x = k' then r
      else (applyAll s (emitAll (moveStep k k') 0 raws).flatten).value x := by
  rw [emitAll_append, List.flatten_append, applyAll_append, Nat.zero_add]
  show (applyAll _ (moveStep k k' raws.length r ++ [])).value x = _
  rw [List.append_nil, applyAll_moveStep]

/-- All keys but the new one lose the fragments, when it is another one. -/
theorem moved_other (hx : x ≠ k') (raws : List Text) :
    (applyAll s (emitAll (moveStep k k') 0 raws).flatten).value x =
      if k ≠ k' ∧ ∃ j < raws.length, x = fragment k j then [] else s.value x := by
  induction raws using List.reverseRecOn with
  | nil => simp [emitAll, applyAll]
  | append_singleton raws r ih =>
    rw [applyAll_moves, if_neg hx, ih]
    have hiff : (k ≠ k' ∧ ∃ j < (raws ++ [r]).length, x = fragment k j) ↔
        (k ≠ k' ∧ x = fragment k raws.length) ∨ (k ≠ k' ∧ ∃ j < raws.length, x = fragment k j) := by
      rw [← and_or_left]
      refine and_congr_right fun _ => ?_
      rw [List.length_append, List.length_singleton]
      constructor
      · intro h
        obtain ⟨j, hj, hxj⟩ := h
        rcases Nat.lt_succ_iff_lt_or_eq.mp hj with hlt | heq
        · exact Or.inr ⟨j, hlt, hxj⟩
        · exact Or.inl (heq ▸ hxj)
      · intro h
        rcases h with h | ⟨j, hj, hxj⟩
        · exact ⟨raws.length, Nat.lt_succ_self _, h⟩
        · exact ⟨j, Nat.lt_succ_of_lt hj, hxj⟩
    by_cases hlast : k ≠ k' ∧ x = fragment k raws.length
    · rw [if_pos hlast, if_pos (hiff.mpr (Or.inl hlast))]
    · rw [if_neg hlast]
      simp only [hiff, hlast, false_or]

/-- The new key holds the last fragment, unless that fragment was its own. -/
theorem moved_target (raws : List Text) (r : Text) :
    (applyAll s (emitAll (moveStep k k') 0 (raws ++ [r])).flatten).value k' =
      if k ≠ k' ∧ k' = fragment k raws.length then [] else r := by
  rw [applyAll_moves, if_pos (rfl : k' = k')]

/-- The derived keys of the new key are as before, except that the old key may be one of them. -/
theorem moved_derived {raws : List Text} (hraws : raws ≠ []) {i : Nat} (hi : i ≠ 0) :
    (applyAll s (emitAll (moveStep k k') 0 raws).flatten).value (fragment k' i) =
      if k ≠ k' ∧ fragment k' i = k then [] else s.value (fragment k' i) := by
  rw [moved_other (fragment_ne_self k' hi).symm]
  have hiff : (k ≠ k' ∧ ∃ j < raws.length, fragment k' i = fragment k j) ↔
      (k ≠ k' ∧ fragment k' i = k) := by
    refine and_congr_right fun hne => ?_
    constructor
    · intro h
      obtain ⟨j, -, hj⟩ := h
      rcases (fragment_eq_iff hi).mp hj.symm with ⟨-, hsame, -⟩ | ⟨-, heq⟩
      · exact absurd hsame hne
      · exact heq.symm
    · intro h
      exact ⟨0, List.length_pos_iff.mpr hraws, h⟩
  simp only [hiff]

end

/-! What is read after the move. -/

section
variable {box : Secretbox} {s s' : Store} {k k' : List Char} {fs : List Text}

theorem kvGet_moved {f : Text} (h : kvGet box s k = .ok f) (hvalue : s'.value k' = s.value k) :
    kvGet box s' k' = .ok f := by
  unfold kvGet at h ⊢
  rw [hvalue]
  split at h
  · rename_i hmissing
    rw [if_pos hmissing]
    exact h
  · rename_i hstored
    rw [if_neg hstored]
    cases hopen : box.decrypt (s.value k) with
    | none =>
      rw [hopen] at h
      cases h
    | some v =>
      rw [hopen] at h
      exact h

theorem TFKVStoreBackend.get_of_first {key : List Char} {f : Text}
    (h : kvGet box s (cropKey key) = .ok f) (hne : f ≠ []) :
    TFKVStoreBackend.get box s key =
      (readFragments box s (cropKey key) (fun _ val => val) 1).map fun rest => f ++ rest.flatten := by
  unfold TFKVStoreBackend.get
  rw [h]
  show (if f = [] then _ else _) = _
  rw [if_neg hne]
  cases readFragments box s (cropKey key) (fun _ val => val) 1 with
  | error e => rfl
  | ok rest => rfl

/-- The raw values of the fragments. -/
def rawValues (s : Store) (k : List Char) (n : Nat) : List Text :=
  (List.range n).map fun i => s.value (fragment k i)

namespace Stored

theorem value_ne_nil (h : Stored box s k fs) {j : Nat} (hj : j < fs.length) :
    s.value (fragment k j) ≠ [] := by
  intro hmissing
  have hread := h.chain.read_add (List.getElem?_eq_getElem hj)
  have hne := h.chain.ne_nil _ (List.getElem_mem hj)
  rw [Nat.zero_add, kvGet_of_missing hmissing] at hread
  exact hne (Except.ok.inj hread).symm

theorem raw_chain (h : Stored box s k fs) :
    Chain (ε := GridError) (fun i => .ok (s.value (fragment k i))) 0 (rawValues s k fs.length) := by
  apply Chain.of_reads
  · intro r hr
    obtain ⟨j, hj, rfl⟩ := List.mem_map.mp hr
    exact h.value_ne_nil (List.mem_range.mp hj)
  · intro j r hr
    rw [Nat.zero_add]
    unfold rawValues at hr
    rw [List.getElem?_map, Option.map_eq_some_iff] at hr
    obtain ⟨i, hi, rfl⟩ := hr
    obtain ⟨hlt, rfl⟩ := List.getElem?_eq_some_iff.mp hi
    rw [List.getElem_range]
  · rw [Nat.zero_add]
    unfold rawValues
    rw [List.length_map, List.length_range]
    exact congrArg Except.ok h.ends

theorem exists_last (h : Stored box s k fs) : ∃ init last, fs = init ++ [last] ∧ last ≠ [] := by
  refine ⟨fs.dropLast, fs.getLast h.ne_nil, (List.dropLast_append_getLast h.ne_nil).symm, ?_⟩
  exact h.chain.ne_nil _ (List.getLast_mem h.ne_nil)

end Stored

theorem rawValues_succ (s : Store) (k : List Char) (n : Nat) :
    rawValues s k (n + 1) = rawValues s k n ++ [s.value (fragment k n)] := by
  unfold rawValues
  rw [List.range_succ, List.map_append]
  rfl

theorem length_rawValues (s : Store) (k : List Char) (n : Nat) : (rawValues s k n).length = n := by
  unfold rawValues
  rw [List.length_map, List.length_range]

variable {fromKey toKey : List Char}

/-- The extrinsics of the move. -/
def moves (s : Store) (k k' : List Char) (n : Nat) : List StoreCall :=
  (emitAll (moveStep k k') 0 (rawValues s k n)).flatten

theorem moveValue_ok (h : Stored box s (cropKey fromKey) fs) :
    TFKVStoreBackend.moveValue s fromKey toKey =
      .ok (moves s (cropKey fromKey) (cropKey toKey) fs.length) := by
  obtain ⟨m, hm, hmissing⟩ := exists_missing s (cropKey fromKey) 0
  have hlength := length_rawValues s (cropKey fromKey) fs.length
  have hfuel : probe (ε := GridError) (fun i => .ok (s.value (fragment (cropKey fromKey) i)))
        (moveStep (cropKey fromKey) (cropKey toKey)) (s.entries.length + 1) 0 =
      probe (fun i => .ok (s.value (fragment (cropKey fromKey) i)))
        (moveStep (cropKey fromKey) (cropKey toKey)) (fs.length + m + 1) 0 :=
    probe_stable (congrArg Except.ok hmissing) (by omega) (by omega)
  unfold TFKVStoreBackend.moveValue moves
  rw [hfuel, probe_of_chain h.raw_chain (by omega)]
  rfl

/-- The old key is gone. -/
theorem get_from_moved (h : Stored box s (cropKey fromKey) fs)
    (hne : cropKey fromKey ≠ cropKey toKey) :
    TFKVStoreBackend.get box
      (applyAll s (moves s (cropKey fromKey) (cropKey toKey) fs.length)) fromKey = .ok quotes := by
  apply TFKVStoreBackend.get_of_missing
  unfold moves
  rw [moved_other hne, if_pos]
  refine ⟨hne, 0, ?_, rfl⟩
  rw [length_rawValues]
  exact List.length_pos_iff.mpr h.ne_nil

theorem readFragments_moved {n : Nat} (hraws : rawValues s k n ≠ []) (hne : k ≠ k') :
    readFragments box (applyAll s (moves s k k' n)) k' (fun _ val => val) 1 =
      leftUnder box s k k' := by
  obtain ⟨m, hm, hmissing⟩ := exists_missing s k' 1
  obtain ⟨m', hm', hmissing'⟩ := exists_missing (applyAll s (moves s k k' n)) k' 1
  let fuel := s.entries.length + (applyAll s (moves s k k' n)).entries.length + 1
  let left := fun i => if fragment k' i = k then .ok [] else kvGet box s (fragment k' i)
  have hempty : left (1 + m) = .ok [] := by
    show (if fragment k' (1 + m) = k then _ else _) = _
    rw [kvGet_of_missing hmissing, ite_self]
  have hread : readFragments box (applyAll s (moves s k k' n)) k' (fun _ val => val) 1 =
      probe (fun i => kvGet box (applyAll s (moves s k k' n)) (fragment k' i)) (fun _ val => val)
        fuel 1 :=
    probe_stable (kvGet_of_missing hmissing') (by omega) (by omega)
  have hleft : leftUnder box s k k' = probe left (fun _ val => val) fuel 1 :=
    probe_stable hempty (by omega) (by omega)
  rw [hread, hleft]
  apply probe_congr
  intro i hi
  have hvalue := @moved_derived s k k' _ hraws i (Nat.ne_of_gt hi)
  show kvGet box _ _ = if fragment k' i = k then _ else _
  by_cases hgone : fragment k' i = k
  · rw [if_pos ⟨hne, hgone⟩] at hvalue
    rw [if_pos hgone]
    exact kvGet_of_missing hvalue
  · rw [if_neg fun hboth => hgone hboth.2] at hvalue
    rw [if_neg hgone]
    exact kvGet_of_value hvalue

/-- The new key has the last fragment, unless that was its own, and what is left under its derived
keys. -/
theorem get_to_moved {init : List Text} {last : Text}
    (h : Stored box s (cropKey fromKey) (init ++ [last])) (hlast : last ≠ [])
    (hown : ¬(cropKey fromKey ≠ cropKey toKey ∧ cropKey toKey = fragment (cropKey fromKey) init.length)) :
    TFKVStoreBackend.get box
        (applyAll s (moves s (cropKey fromKey) (cropKey toKey) (init ++ [last]).length)) toKey =
      (if cropKey fromKey = cropKey toKey then .ok (init ++ [last]).tail
        else leftUnder box s (cropKey fromKey) (cropKey toKey)).map
          fun rest => last ++ rest.flatten := by
  have hraws : rawValues s (cropKey fromKey) (init ++ [last]).length ≠ [] := by
    apply List.ne_nil_of_length_pos
    rw [length_rawValues, List.length_append]
    exact Nat.succ_pos _
  have hfirst : kvGet box (applyAll s (moves s (cropKey fromKey) (cropKey toKey)
      (init ++ [last]).length)) (cropKey toKey) = .ok last := by
    have hread := h.chain.read_add (j := init.length) List.getElem?_concat_length
    rw [Nat.zero_add] at hread
    apply kvGet_moved hread
    unfold moves
    rw [List.length_append, List.length_singleton, rawValues_succ, moved_target, length_rawValues,
      if_neg hown]
  rw [TFKVStoreBackend.get_of_first hfirst hlast]
  congr 1
  by_cases hsame : cropKey fromKey = cropKey toKey
  · rw [if_pos hsame, ← hsame]
    have hsecond : Chain (fun i => kvGet box s (fragment (cropKey fromKey) i)) 1
        (init ++ [last]).tail := by
      have hchain := h.chain
      cases hfs : init ++ [last] with
      | nil => simp at hfs
      | cons f fs =>
        rw [hfs] at hchain
        exact hchain.2.2
    rw [readFragments_congr, readFragments_of_chain hsecond, emitAll_value]
    intro i hi
    unfold moves
    rw [moved_derived (hsame ▸ hraws) (Nat.ne_of_gt hi), if_neg fun hboth => hboth.1 rfl]
  · rw [if_neg hsame]
    exact readFragments_moved hraws hsame

theorem Stored.get_ok (h : Stored box s (cropKey fromKey) fs) :
    TFKVStoreBackend.get box s fromKey = .ok fs.flatten := by
  cases fs with
  | nil => exact absurd rfl h.ne_nil
  | cons f fs => exact TFKVStoreBackend.get_of_chain h.chain

theorem moves_iff_get (h : Stored box s (cropKey fromKey) fs) :
    Moves box s fromKey toKey ↔
      TFKVStoreBackend.get box
        (applyAll s (moves s (cropKey fromKey) (cropKey toKey) fs.length)) toKey =
          .ok fs.flatten := by
  unfold Moves
  rw [h.get_ok, moveValue_ok h]
  constructor
  · intro hmoves
    obtain ⟨calls, hcalls, hget, -⟩ := hmoves
    rw [Except.ok.inj hcalls]
    exact hget
  · intro hget
    exact ⟨_, rfl, hget, get_from_moved h⟩

/-- Under its own key the value is whole when its last fragment is its first one as well. -/
theorem last_with_tail {init : List Text} {last : Text} :
    last ++ (init ++ [last]).tail.flatten = (init ++ [last]).flatten ↔
      init = [] ∨ (init ++ [last]).head? = (init ++ [last]).getLast? := by
  cases init with
  | nil => simp
  | cons f fs =>
    rw [List.cons_append, List.tail_cons, List.flatten_cons, List.append_left_inj, List.head?_cons,
      ← List.cons_append, List.getLast?_concat, Option.some.injEq]
    constructor
    · exact fun heq => Or.inr heq.symm
    · intro h
      rcases h with h | heq
      · exact absurd h (List.cons_ne_nil _ _)
      · exact heq.symm

theorem movesWhole_same {init : List Text} {last : Text} :
    MovesWhole box s k k (init ++ [last]) ↔
      init = [] ∨ (init ++ [last]).head? = (init ++ [last]).getLast? := by
  have hlength : (init ++ [last]).length = init.length + 1 := by simp
  unfold MovesWhole LastIsEnough
  constructor
  · intro h
    rcases h with ⟨hone, -⟩ | ⟨hlong, ⟨-, hfirst⟩ | ⟨hne, -⟩ | ⟨hown, -⟩⟩
    · exact Or.inl (List.length_eq_zero_iff.mp (by omega))
    · exact Or.inr hfirst
    · exact absurd rfl hne
    · exact absurd hown (fragment_ne_self k (by omega))
  · intro h
    by_cases hinit : init = []
    · rw [hinit]
      exact Or.inl ⟨rfl, Or.inl rfl⟩
    · have hpos := List.length_pos_iff.mpr hinit
      exact Or.inr ⟨by omega, Or.inl ⟨rfl, h.resolve_left hinit⟩⟩

theorem movesWhole_other {init : List Text} {last : Text} (hne : k ≠ k')
    (hother : k' ≠ fragment k init.length) :
    MovesWhole box s k k' (init ++ [last]) ↔
      ∃ rest, leftUnder box s k k' = .ok rest ∧ last ++ rest.flatten = (init ++ [last]).flatten := by
  have hlength : (init ++ [last]).length - 1 = init.length := by simp
  unfold MovesWhole LastIsEnough
  rw [hlength, List.getLast?_concat]
  by_cases hinit : init = []
  · subst hinit
    constructor
    · intro h
      rcases h with ⟨-, hsame | hnone⟩ | ⟨hlong, -⟩
      · exact absurd hsame hne
      · exact ⟨[], hnone, by simp⟩
      · exact absurd hlong (lt_irrefl 1)
    · intro h
      obtain ⟨rest, hrest, hwhole⟩ := h
      have hflat : rest.flatten = [] := by simpa using hwhole
      have hnil : rest = [] := by
        apply List.eq_nil_iff_forall_not_mem.mpr
        intro f hf
        exact ne_nil_of_probe hrest f hf (List.flatten_eq_nil_iff.mp hflat f hf)
      rw [hnil] at hrest
      exact Or.inl ⟨rfl, Or.inr hrest⟩
  · have hpos := List.length_pos_iff.mpr hinit
    constructor
    · intro h
      rcases h with ⟨hone, -⟩ | ⟨-, ⟨hsame, -⟩ | ⟨-, -, hrest⟩ | ⟨hown, -⟩⟩
      · omega
      · exact absurd hsame hne
      · exact hrest
      · exact absurd hown hother
    · intro hrest
      exact Or.inr ⟨by omega, Or.inr (Or.inl ⟨hne, hother, hrest⟩)⟩

theorem movesWhole_own {init : List Text} {last : Text} (hinit : init ≠ [])
    (hown : k' = fragment k init.length) (hne : k ≠ k') :
    MovesWhole box s k k' (init ++ [last]) ↔ (init ++ [last]).flatten = quotes := by
  have hlength : (init ++ [last]).length - 1 = init.length := by simp
  have hpos := List.length_pos_iff.mpr hinit
  have hlong : 1 < (init ++ [last]).length := by
    rw [List.length_append, List.length_singleton]
    omega
  unfold MovesWhole LastIsEnough
  rw [hlength]
  constructor
  · intro h
    rcases h with ⟨hone, -⟩ | ⟨-, ⟨hsame, -⟩ | ⟨-, hother, -⟩ | ⟨-, hquotes⟩⟩
    · omega
    · exact absurd hsame hne
    · exact absurd hown hother
    · exact hquotes
  · intro hquotes
    exact Or.inr ⟨hlong, Or.inr (Or.inr ⟨hown, hquotes⟩)⟩

/-- The whole value is moved exactly when it is one fragment and nothing else is left under the new
key, or its last fragment is enough. -/
theorem moves_iff (h : Stored box s (cropKey fromKey) fs) :
    Moves box s fromKey toKey ↔ MovesWhole box s (cropKey fromKey) (cropKey toKey) fs := by
  rw [moves_iff_get h]
  obtain ⟨init, last, rfl, hlast⟩ := h.exists_last
  by_cases hown : cropKey fromKey ≠ cropKey toKey ∧
      cropKey toKey = fragment (cropKey fromKey) init.length
  · have hinit : init ≠ [] := by
      intro hnil
      rw [hnil] at hown
      exact hown.1 hown.2.symm
    have hmissing : (applyAll s (moves s (cropKey fromKey) (cropKey toKey)
        (init ++ [last]).length)).value (cropKey toKey) = [] := by
      unfold moves
      rw [List.length_append, List.length_singleton, rawValues_succ, moved_target, length_rawValues,
        if_pos hown]
    rw [TFKVStoreBackend.get_of_missing hmissing, movesWhole_own hinit hown.2 hown.1,
      Except.ok.injEq]
    exact eq_comm
  · rw [get_to_moved h hlast hown]
    by_cases hsame : cropKey fromKey = cropKey toKey
    · rw [if_pos hsame, ← hsame, movesWhole_same, ← last_with_tail]
      exact ⟨fun heq => Except.ok.inj heq, congrArg Except.ok⟩
    · rw [if_neg hsame, movesWhole_other hsame fun heq => hown ⟨hsame, heq⟩]
      cases leftUnder box s (cropKey fromKey) (cropKey toKey) with
      | error e =>
        constructor
        · intro heq
          cases heq
        · intro hrest
          obtain ⟨rest, hrest, -⟩ := hrest
          cases hrest
      | ok rest =>
        constructor
        · exact fun heq => ⟨rest, rfl, Except.ok.inj heq⟩
        · intro hrest
          obtain ⟨rest', hrest', hwhole⟩ := hrest
          rw [← Except.ok.inj hrest'] at hwhole
          exact congrArg Except.ok hwhole

end

theorem oneEntry_stored : Stored sampleBox oneEntry "a".toList [[120]] where
  chain := ⟨rfl, List.cons_ne_nil _ _, rfl⟩
  ne_nil := List.cons_ne_nil _ _
  ends := rfl

theorem oneEntry_moved :
    Moves sampleBox oneEntry "grid3_client/a".toList "grid3_client/b".toList :=
  (@moves_iff _ _ _ "grid3_client/a".toList _ oneEntry_stored).mpr (Or.inl ⟨rfl, Or.inr rfl⟩)

/-- The contracts of `w`, in two fragments, under the old path of the project `p`. -/
def twoFragments : Store :=
  ⟨[("p/machines/w/contracts.json".toList, [0, 120]),
    ("p/machines/w/contracts.json.1".toList, [1, 121])], by decide⟩

/-- The migration keeps the second fragment only. -/
theorem twoFragments_not_moved :
    TFKVStoreBackend.get sampleBox twoFragments
        "grid3_client/p/machines/w/contracts.json".toList = .ok [120, 121] ∧
    ∃ calls, migrateListKeys twoFragments "grid3_client/p/machines".toList
        "grid3_client/machines/p".toList ["w".toList] = .ok calls ∧
      TFKVStoreBackend.get sampleBox (applyAll twoFragments calls)
        "grid3_client/p/machines/w/contracts.json".toList = .ok quotes ∧
      TFKVStoreBackend.get sampleBox (applyAll twoFragments calls)
        "grid3_client/machines/p/w/contracts.json".toList = .ok [121] := by
  refine ⟨rfl, _, rfl, ?_, ?_⟩
  · rfl
  · rfl

end ThreefoldSdk.Storage
