import ThreefoldSdk.Lib.Forall2

/-! Packings of items into bins: each bin gets a share of the items that it has room for. -/

namespace Packing

variable {α : Type*} [AddCommGroup α] [LinearOrder α]
  {bins bins' items items' : List α}

/-- The items are shared out so that each bin that gets any has room for all it gets. -/
def Packs (bins items : List α) : Prop :=
  ∃ shares : List (List α),
    List.Forall₂ (fun bin share => share ≠ [] → share.sum ≤ bin) bins shares ∧
      shares.flatten.Perm items

theorem packs_nil (bins : List α) : Packs bins [] := by
  refine ⟨bins.map fun _ => [], ?_, ?_⟩
  · exact List.forall₂_map_right_iff.mpr (List.forall₂_same.mpr fun bin _ hne => absurd rfl hne)
  · refine List.Perm.of_eq (List.flatten_eq_nil_iff.mpr fun share hshare => ?_)
    obtain ⟨bin, -, rfl⟩ := List.mem_map.mp hshare
    rfl

theorem Packs.perm_items (h : Packs bins items) (hperm : items.Perm items') : Packs bins items' := by
  obtain ⟨shares, hshares, hflat⟩ := h
  exact ⟨shares, hshares, hflat.trans hperm⟩

/-- The order of the bins does not matter. -/
theorem Packs.perm_bins (h : Packs bins items) (hperm : bins'.Perm bins) : Packs bins' items := by
  obtain ⟨shares, hshares, hflat⟩ := h
  obtain ⟨shares', hshares', hperm'⟩ := List.perm_comp_forall₂ hperm hshares
  exact ⟨shares', hshares', hperm'.flatten.trans hflat⟩

/-- An item that fits into a bin is added to what fits into the rest of it. -/
theorem Packs.place [IsOrderedAddMonoid α] {front rest : List α} {bin item : α}
    (h : Packs (front ++ (bin - item) :: rest) items) (hfits : item ≤ bin) :
    Packs (front ++ bin :: rest) (item :: items) := by
  obtain ⟨shares, hshares, hflat⟩ := h
  obtain ⟨before, others, rfl, hbefore, hothers⟩ := Forall2.split_append hshares
  obtain ⟨share, after, hshare, hafter, rfl⟩ := List.forall₂_cons_left_iff.mp hothers
  refine ⟨before ++ (item :: share) :: after, ?_, ?_⟩
  · refine List.rel_append hbefore (List.Forall₂.cons (fun _ => ?_) hafter)
    rw [List.sum_cons]
    by_cases hempty : share = []
    · rw [hempty, List.sum_nil, add_zero]
      exact hfits
    · rw [add_comm]
      exact le_sub_iff_add_le.mp (hshare hempty)
  · rw [List.flatten_append, List.flatten_cons, List.cons_append]
    rw [List.flatten_append, List.flatten_cons] at hflat
    exact List.perm_middle.trans (hflat.cons item)

theorem sum_le_of_packed [IsOrderedAddMonoid α] {shares : List (List α)}
    (h : List.Forall₂ (fun bin share => share ≠ [] → share.sum ≤ bin) bins shares)
    (hbins : ∀ bin ∈ bins, 0 ≤ bin) : shares.flatten.sum ≤ bins.sum := by
  induction h with
  | nil => exact le_rfl
  | @cons bin share bins shares hshare _ ih =>
    obtain ⟨hbin, hbins⟩ := List.forall_mem_cons.mp hbins
    rw [List.flatten_cons, List.sum_append, List.sum_cons]
    refine add_le_add ?_ (ih hbins)
    by_cases hempty : share = []
    · rw [hempty, List.sum_nil]
      exact hbin
    · exact hshare hempty

/-- What packs is no more than the bins together. -/
theorem Packs.sum_le [IsOrderedAddMonoid α] (h : Packs bins items) (hbins : ∀ bin ∈ bins, 0 ≤ bin) :
    items.sum ≤ bins.sum := by
  obtain ⟨shares, hshares, hflat⟩ := h
  rw [← hflat.sum_eq]
  exact sum_le_of_packed hshares hbins

end Packing
