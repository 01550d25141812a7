import ThreefoldSdk.HighLevel.CreateBatch
import ThreefoldSdk.HighLevel.MergePlan

/-! Several updates of one contract, merged into one: which workloads it has, and when the order of
the updates does not matter. -/

namespace ThreefoldSdk.HighLevel
open Zos Primitives TfChain Frame

/-- A fetched deployment: each workload has a name of its own, and is not newer than the
deployment. -/
structure Fetched (base : Deployment) : Prop where
  names : (base.workloads.map (·.name)).Nodup
  versions : ∀ w ∈ base.workloads, w.version ≤ base.version

/-- An update that starts from the deployment: what it changed or added has the next version. -/
structure StartsFrom (base : Deployment) (t : TwinDeployment) : Prop where
  deployment : t.deployment = { base with workloads := t.workloads }
  names : (t.workloads.map (·.name)).Nodup
  versions : ∀ w ∈ t.workloads, w ∉ base.workloads → w.version = base.version + 1

/-- The update has a workload of the name. -/
def Names (t : TwinDeployment) (name : String) : Prop := ∃ w ∈ t.workloads, w.name = name

/-- The copies of a workload, in the order of the updates. -/
def copies (name : String) (ts : List TwinDeployment) : List Workload :=
  (ts.flatMap (·.workloads)).filter fun w => decide (w.name = name)

theorem mem_copies {name : String} {ts : List TwinDeployment} {w : Workload} :
    w ∈ copies name ts ↔ (∃ t ∈ ts, w ∈ t.workloads) ∧ w.name = name := by
  unfold copies
  rw [List.mem_filter, List.mem_flatMap, decide_eq_true_eq]

theorem foldl_snoc (ws us : List Workload) :
    us.foldl (fun ws w => ws ++ [w]) ws = ws ++ us := by
  induction us generalizing ws with
  | nil => exact (List.append_nil ws).symm
  | cons u us ih => rw [List.foldl_cons, ih, List.append_assoc, List.singleton_append]

theorem filter_isEntry {name : String} (hname : name ≠ "__proto__") (ts : List TwinDeployment) :
    ((ts.flatMap (·.workloads)).filter isEntry).filter (fun w => decide (w.name = name)) =
      copies name ts := by
  unfold copies
  rw [List.filter_filter]
  apply List.filter_congr
  intro w _
  rw [Bool.and_eq_left_iff_imp]
  intro hw
  unfold isEntry
  rw [of_decide_eq_true hw]
  exact decide_eq_true hname

theorem workloadMap_get {name : String} (hname : name ≠ "__proto__") (ts : List TwinDeployment) :
    (ObjectMap.collect Workload.name (fun w => [w]) (fun ws w => ws ++ [w])
        ((ts.flatMap (·.workloads)).filter isEntry)).get name =
      if copies name ts = [] then none else some (copies name ts) := by
  rw [ObjectMap.get_collect, filter_isEntry hname]
  cases copies name ts with
  | nil => rfl
  | cons w ws => exact congrArg some (foldl_snoc [w] ws)

theorem workloadMap_proto (ts : List TwinDeployment) :
    (ObjectMap.collect Workload.name (fun w => [w]) (fun ws w => ws ++ [w])
        ((ts.flatMap (·.workloads)).filter isEntry)).get "__proto__" = none := by
  have hnone : ((ts.flatMap (·.workloads)).filter isEntry).filter
      (fun w => decide (w.name = "__proto__")) = [] := by
    rw [List.filter_eq_nil_iff]
    intro w hw
    have hentry := of_decide_eq_true (List.mem_filter.mp hw).2
    rw [decide_eq_true_eq]
    exact hentry
  rw [ObjectMap.get_collect, hnone]

/-- The latest of some copies is one of them. -/
theorem latest_mem (w : Workload) (ws : List Workload) : latest w ws = w ∨ latest w ws ∈ ws := by
  unfold latest
  induction ws generalizing w with
  | nil => exact Or.inl rfl
  | cons u us ih =>
    rw [List.foldl_cons]
    rcases ih (if w.version < u.version then u else w) with h | h
    · rw [h]
      split
      · exact Or.inr List.mem_cons_self
      · exact Or.inl rfl
    · exact Or.inr (List.mem_cons_of_mem _ h)

/-- None of the copies is newer than the latest. -/
theorem le_latest (w : Workload) (ws : List Workload) :
    w.version ≤ (latest w ws).version ∧ ∀ u ∈ ws, u.version ≤ (latest w ws).version := by
  unfold latest
  induction ws generalizing w with
  | nil => exact ⟨Nat.le_refl _, fun u hu => absurd hu List.not_mem_nil⟩
  | cons u us ih =>
    obtain ⟨hfirst, hrest⟩ := ih (if w.version < u.version then u else w)
    rw [List.foldl_cons]
    have hboth : w.version ≤ (if w.version < u.version then u else w).version ∧
        u.version ≤ (if w.version < u.version then u else w).version := by
      split
      · rename_i hlt
        exact ⟨Nat.le_of_lt hlt, Nat.le_refl _⟩
      · rename_i hnot
        exact ⟨Nat.le_refl _, Nat.le_of_not_lt hnot⟩
    refine ⟨Nat.le_trans hboth.1 hfirst, ?_⟩
    intro x hx
    rcases List.mem_cons.mp hx with rfl | hx
    · exact Nat.le_trans hboth.2 hfirst
    · exact hrest x hx

theorem latest_name {name : String} {ts : List TwinDeployment} {c : Workload} {cs : List Workload}
    (h : copies name ts = c :: cs) : (latest c (c :: cs)).name = name := by
  have hmem : latest c (c :: cs) ∈ copies name ts := by
    rw [h]
    rcases latest_mem c (c :: cs) with h | h
    · rw [h]
      exact List.mem_cons_self
    · exact h
  exact (mem_copies.mp hmem).2

/-- The copies that an entry of the map lists. -/
theorem entry_copies {ts : List TwinDeployment} {name : String} {ws : List Workload}
    (h : (name, ws) ∈ (ObjectMap.collect Workload.name (fun w => [w]) (fun ws w => ws ++ [w])
      ((ts.flatMap (·.workloads)).filter isEntry)).ordered nameIndex) :
    name ≠ "__proto__" ∧ ∃ c cs, copies name ts = c :: cs ∧ ws = c :: cs := by
  have hget := ObjectMap.mem_ordered.mp h
  by_cases hname : name = "__proto__"
  · rw [hname, workloadMap_proto] at hget
    cases hget
  · rw [workloadMap_get hname] at hget
    refine ⟨hname, ?_⟩
    cases hcopies : copies name ts with
    | nil =>
      rw [hcopies, if_pos rfl] at hget
      cases hget
    | cons c cs =>
      rw [hcopies, if_neg (List.cons_ne_nil c cs)] at hget
      exact ⟨c, cs, rfl, (Option.some.inj hget).symm⟩

/-- A workload that is not newer than the deployment is left out, if not all updates have it, and so
is one of the name `__proto__`. -/
theorem mem_latestWorkloads {first : TwinDeployment} {ts : List TwinDeployment} {w : Workload} :
    w ∈ latestWorkloads first ts ↔ w.name ≠ "__proto__" ∧ ∃ c cs, copies w.name ts = c :: cs ∧
      ¬((c :: cs).length < ts.length ∧ c.version ≤ first.deployment.version) ∧
        w = latest c (c :: cs) := by
  unfold latestWorkloads
  rw [List.mem_filterMap]
  constructor
  · intro h
    obtain ⟨⟨name, ws⟩, hentry, hsome⟩ := h
    obtain ⟨hname, c, cs, hcopies, rfl⟩ := entry_copies hentry
    dsimp only at hsome
    split_ifs at hsome with hold
    have hw : latest c (c :: cs) = w := Option.some.inj hsome
    have hwname : w.name = name := by rw [← hw, latest_name hcopies]
    rw [hwname]
    exact ⟨hname, c, cs, hcopies, hold, hw.symm⟩
  · intro h
    obtain ⟨hname, c, cs, hcopies, hnew, hw⟩ := h
    refine ⟨(w.name, c :: cs), ?_, ?_⟩
    · rw [ObjectMap.mem_ordered, workloadMap_get hname, hcopies, if_neg (List.cons_ne_nil c cs)]
    · dsimp only
      rw [if_neg hnew, ← hw]

theorem filterMap_names_sublist {entries : List (String × List Workload)}
    {f : String × List Workload → Option Workload}
    (hf : ∀ e ∈ entries, ∀ w, f e = some w → w.name = e.1) :
    ((entries.filterMap f).map (·.name)).Sublist (entries.map Prod.fst) := by
  induction entries with
  | nil => exact List.Sublist.slnil
  | cons e entries ih =>
    have hrest := ih fun e' he' => hf e' (List.mem_cons_of_mem _ he')
    rw [List.filterMap_cons, List.map_cons]
    cases hfe : f e with
    | none => exact hrest.cons _
    | some w =>
      rw [← hf e List.mem_cons_self w hfe]
      exact hrest.cons_cons _

theorem names_latestWorkloads (first : TwinDeployment) (ts : List TwinDeployment) :
    ((latestWorkloads first ts).map (·.name)).Nodup := by
  refine List.Nodup.sublist (filterMap_names_sublist ?_) (ObjectMap.nodup_ordered_keys nameIndex _)
  intro e he w hw
  obtain ⟨name, ws⟩ := e
  obtain ⟨-, c, cs, hcopies, rfl⟩ := entry_copies he
  dsimp only at hw
  split_ifs at hw
  rw [← Option.some.inj hw]
  exact latest_name hcopies

/-! Updates that start from one deployment. -/

instance (t : TwinDeployment) (name : String) : Decidable (Names t name) :=
  inferInstanceAs (Decidable (∃ w ∈ t.workloads, w.name = name))

theorem length_copies {name : String} {ts : List TwinDeployment}
    (h : ∀ t ∈ ts, (t.workloads.map (·.name)).Nodup) :
    (copies name ts).length = ts.countP fun t => decide (Names t name) := by
  induction ts with
  | nil => rfl
  | cons t ts ih =>
    have hone : (t.workloads.filter fun w => decide (w.name = name)).length =
        if Names t name then 1 else 0 := by
      rw [length_filter_key (h t List.mem_cons_self)]
      simp only [List.mem_map]
      rfl
    rw [List.countP_cons, ← ih fun t' ht' => h t' (List.mem_cons_of_mem _ ht')]
    simp only [decide_eq_true_eq]
    rw [← hone]
    unfold copies
    rw [List.flatMap_cons, List.filter_append, List.length_append, Nat.add_comm]

theorem length_copies_lt {name : String} {ts : List TwinDeployment}
    (h : ∀ t ∈ ts, (t.workloads.map (·.name)).Nodup) :
    (copies name ts).length < ts.length ↔ ∃ t ∈ ts, ¬Names t name := by
  rw [length_copies h]
  have hle := List.countP_le_length (p := fun t => decide (Names t name)) (l := ts)
  rw [Nat.lt_iff_le_and_ne, and_iff_right hle, Ne, List.countP_eq_length]
  simp only [decide_eq_true_eq, not_forall, exists_prop]

/-- The workloads an order-independent merge has: those that were changed or added, and those that
all updates keep. -/
def Wanted (base : Deployment) (ts : List TwinDeployment) (w : Workload) : Prop :=
  (∃ t ∈ ts, w ∈ t.workloads ∧ w ∉ base.workloads) ∨
    (w ∈ base.workloads ∧ ∀ t ∈ ts, w ∈ t.workloads)

/-- The updates that changed or added a workload agree on it, and what is both kept and changed is
not removed as well. -/
structure Compatible (base : Deployment) (ts : List TwinDeployment) : Prop where
  agree : ∀ t ∈ ts, ∀ t' ∈ ts, ∀ w ∈ t.workloads, ∀ w' ∈ t'.workloads,
    w ∉ base.workloads → w' ∉ base.workloads → w.name = w'.name → w = w'
  present : ∀ w ∈ base.workloads, (∃ t ∈ ts, w ∈ t.workloads) →
    (∃ t ∈ ts, ∃ w' ∈ t.workloads, w'.name = w.name ∧ w' ∉ base.workloads) →
      ∀ t ∈ ts, Names t w.name

section
variable {base : Deployment} {ts : List TwinDeployment}

/-- A copy is an old one, or one with the next version. -/
theorem version_of_new (hstart : ∀ t ∈ ts, StartsFrom base t) {name : String} {w : Workload}
    (h : w ∈ copies name ts) (hnew : w ∉ base.workloads) : w.version = base.version + 1 := by
  obtain ⟨⟨t, ht, hw⟩, -⟩ := mem_copies.mp h
  exact (hstart t ht).versions w hw hnew

/-- If some copy is new, then the latest is. -/
theorem latest_new (hbase : Fetched base) (hstart : ∀ t ∈ ts, StartsFrom base t) {name : String}
    {c w : Workload} {cs : List Workload} (hcopies : copies name ts = c :: cs)
    (hw : w ∈ copies name ts) (hnew : w ∉ base.workloads) :
    latest c (c :: cs) ∈ copies name ts ∧ latest c (c :: cs) ∉ base.workloads := by
  have hversion := version_of_new hstart hw hnew
  rw [hcopies] at hw
  have hle := (le_latest c (c :: cs)).2 w hw
  constructor
  · rw [hcopies]
    rcases latest_mem c (c :: cs) with h | h
    · rw [h]
      exact List.mem_cons_self
    · exact h
  · intro hold
    have hnot := hbase.versions _ hold
    rw [hversion] at hle
    exact absurd (Nat.le_trans hle hnot) (Nat.not_succ_le_self _)

theorem names_of_start (hstart : ∀ t ∈ ts, StartsFrom base t) :
    ∀ t ∈ ts, (t.workloads.map (·.name)).Nodup := fun t ht => (hstart t ht).names

/-- What is taken for a name is new, or an old one that no update has touched. -/
theorem wanted_of_latest (hbase : Fetched base) (hstart : ∀ t ∈ ts, StartsFrom base t)
    {c w : Workload} {cs : List Workload} (hcopies : copies w.name ts = c :: cs)
    (hkept : ¬((c :: cs).length < ts.length ∧ c.version ≤ base.version))
    (hw : w = latest c (c :: cs)) : Wanted base ts w := by
  by_cases hnew : w ∈ base.workloads
  · right
    have hold : ∀ x ∈ copies w.name ts, x ∈ base.workloads := by
      intro x hx
      by_contra hx'
      exact (latest_new hbase hstart hcopies hx hx').2 (hw ▸ hnew)
    have hc : c ∈ copies w.name ts := hcopies ▸ List.mem_cons_self
    refine ⟨hnew, ?_⟩
    intro t ht
    have hall : ¬∃ t ∈ ts, ¬Names t w.name := by
      rw [← length_copies_lt (names_of_start hstart), hcopies]
      exact fun hlt => hkept ⟨hlt, hbase.versions c (hold c hc)⟩
    have hnames : Names t w.name := by
      by_contra hnot
      exact hall ⟨t, ht, hnot⟩
    obtain ⟨x, hx, hname⟩ := hnames
    have hxold := hold x (mem_copies.mpr ⟨⟨t, ht, hx⟩, hname⟩)
    rw [← List.inj_on_of_nodup_map hbase.names hxold hnew hname]
    exact hx
  · left
    have hmem : w ∈ copies w.name ts := by
      rw [hcopies]
      rcases latest_mem c (c :: cs) with h | h
      · rw [hw, h]
        exact List.mem_cons_self
      · rw [hw]
        exact h
    obtain ⟨⟨t, ht, hwt⟩, -⟩ := mem_copies.mp hmem
    exact ⟨t, ht, hwt, hnew⟩

/-- What one of the compatible updates changed or added is taken for its name. -/
theorem latest_of_new (hbase : Fetched base) (hstart : ∀ t ∈ ts, StartsFrom base t)
    (hcompatible : Compatible base ts) {t : TwinDeployment} {w : Workload} (ht : t ∈ ts)
    (hwt : w ∈ t.workloads) (hnew : w ∉ base.workloads) :
    ∃ c cs, copies w.name ts = c :: cs ∧
      ¬((c :: cs).length < ts.length ∧ c.version ≤ base.version) ∧ w = latest c (c :: cs) := by
  have hmem : w ∈ copies w.name ts := mem_copies.mpr ⟨⟨t, ht, hwt⟩, rfl⟩
  cases hcopies : copies w.name ts with
  | nil =>
    rw [hcopies] at hmem
    cases hmem
  | cons c cs =>
    refine ⟨c, cs, rfl, ?_, ?_⟩
    · -- the first copy is an old one, so no update has removed it
      intro hskip
      have hc : c ∈ copies w.name ts := hcopies ▸ List.mem_cons_self
      obtain ⟨⟨t', ht', hct⟩, hname⟩ := mem_copies.mp hc
      have hcold : c ∈ base.workloads := by
        by_contra hcnew
        have hversion := version_of_new hstart hc hcnew
        rw [hversion] at hskip
        exact absurd hskip.2 (Nat.not_succ_le_self _)
      have hpresent := hcompatible.present c hcold ⟨t', ht', hct⟩ ⟨t, ht, w, hwt, hname.symm, hnew⟩
      have hlt := hskip.1
      rw [← hcopies, length_copies_lt (names_of_start hstart)] at hlt
      obtain ⟨t'', ht'', hnot⟩ := hlt
      rw [hname] at hpresent
      exact hnot (hpresent t'' ht'')
    · obtain ⟨hlatest, hlatestnew⟩ := latest_new hbase hstart hcopies hmem hnew
      obtain ⟨⟨t', ht', hlt⟩, hname⟩ := mem_copies.mp hlatest
      exact hcompatible.agree t ht t' ht' w hwt _ hlt hnew hlatestnew hname.symm

/-- What all updates keep is taken for its name. -/
theorem latest_of_kept (hstart : ∀ t ∈ ts, StartsFrom base t) (hne : ts ≠ []) {w : Workload}
    (hall : ∀ t ∈ ts, w ∈ t.workloads) :
    ∃ c cs, copies w.name ts = c :: cs ∧
      ¬((c :: cs).length < ts.length ∧ c.version ≤ base.version) ∧ w = latest c (c :: cs) := by
  have hcopy : ∀ x ∈ copies w.name ts, x = w := by
    intro x hx
    obtain ⟨⟨t, ht, hxt⟩, hname⟩ := mem_copies.mp hx
    exact List.inj_on_of_nodup_map (hstart t ht).names hxt (hall t ht) hname
  obtain ⟨t, ht⟩ := List.exists_mem_of_ne_nil ts hne
  have hmem : w ∈ copies w.name ts := mem_copies.mpr ⟨⟨t, ht, hall t ht⟩, rfl⟩
  cases hcopies : copies w.name ts with
  | nil =>
    rw [hcopies] at hmem
    cases hmem
  | cons c cs =>
    refine ⟨c, cs, rfl, ?_, ?_⟩
    · intro hskip
      have hlt := hskip.1
      rw [← hcopies, length_copies_lt (names_of_start hstart)] at hlt
      obtain ⟨t', ht', hnot⟩ := hlt
      exact hnot ⟨w, hall t' ht', rfl⟩
    · rw [hcopies] at hcopy
      rcases latest_mem c (c :: cs) with h | h
      · rw [h]
        exact (hcopy c List.mem_cons_self).symm
      · exact (hcopy _ h).symm

/-- What is merged from compatible updates. -/
theorem mem_latestWorkloads_iff (hbase : Fetched base) (hstart : ∀ t ∈ ts, StartsFrom base t)
    (hne : ts ≠ []) {first : TwinDeployment} (hfirst : first.deployment.version = base.version)
    (hcompatible : Compatible base ts) {w : Workload} :
    w ∈ latestWorkloads first ts ↔ Wanted base ts w ∧ w.name ≠ "__proto__" := by
  rw [mem_latestWorkloads, hfirst, and_comm]
  apply and_congr_left
  intro _
  constructor
  · intro h
    obtain ⟨c, cs, hcopies, hkept, hw⟩ := h
    exact wanted_of_latest hbase hstart hcopies hkept hw
  · intro h
    rcases h with ⟨t, ht, hwt, hnew⟩ | ⟨-, hall⟩
    · exact latest_of_new hbase hstart hcompatible ht hwt hnew
    · exact latest_of_kept hstart hne hall

/-- The workloads of the single update; the name `__proto__` is lost when there is more than one. -/
theorem mem_updateToLatest_iff (hbase : Fetched base) {first : TwinDeployment}
    {rest : List TwinDeployment} (hstart : ∀ t ∈ first :: rest, StartsFrom base t)
    (hcompatible : Compatible base (first :: rest)) {w : Workload} :
    w ∈ (updateToLatest first rest).workloads ↔
      Wanted base (first :: rest) w ∧ (rest ≠ [] → w.name ≠ "__proto__") := by
  cases rest with
  | nil =>
    rw [and_iff_left fun h => absurd rfl h]
    show w ∈ first.workloads ↔ _
    constructor
    · intro hw
      by_cases hold : w ∈ base.workloads
      · refine Or.inr ⟨hold, ?_⟩
        intro t ht
        rw [List.mem_singleton.mp ht]
        exact hw
      · exact Or.inl ⟨first, List.mem_singleton_self first, hw, hold⟩
    · intro h
      rcases h with ⟨t, ht, hw, -⟩ | ⟨-, hall⟩
      · rw [List.mem_singleton.mp ht] at hw
        exact hw
      · exact hall first (List.mem_singleton_self first)
  | cons second rest =>
    have hversion : first.deployment.version = base.version := by
      rw [(hstart first List.mem_cons_self).deployment]
    rw [forall_prop_of_true (List.cons_ne_nil second rest)]
    exact mem_latestWorkloads_iff hbase hstart (List.cons_ne_nil _ _) hversion hcompatible

theorem names_updateToLatest {first : TwinDeployment} (rest : List TwinDeployment)
    (h : (first.workloads.map (·.name)).Nodup) :
    ((updateToLatest first rest).workloads.map (·.name)).Nodup := by
  cases rest with
  | nil => exact h
  | cons second rest => exact names_latestWorkloads first (first :: second :: rest)

/-! The update that is left for a contract. -/

/-- The single update has all workloads that were changed or added, and none that one update removed
and none changed. -/
structure Complete (base : Deployment) (ts : List TwinDeployment) (u : TwinDeployment) : Prop where
  has : ∀ t ∈ ts, ∀ w ∈ t.workloads, w ∉ base.workloads → w ∈ u.workloads
  drops : ∀ w ∈ base.workloads, (∃ t ∈ ts, ¬Names t w.name) →
    (∀ t ∈ ts, ∀ w' ∈ t.workloads, w'.name = w.name → w' ∈ base.workloads) → ¬Names u w.name

/-- What was changed or added has a name that the map of a merge takes. -/
def Mapped (base : Deployment) (ts : List TwinDeployment) : Prop :=
  1 < ts.length → ∀ t ∈ ts, ∀ w ∈ t.workloads, w ∉ base.workloads → w.name ≠ "__proto__"

theorem complete_updateToLatest (hbase : Fetched base) {first : TwinDeployment}
    {rest : List TwinDeployment} (hstart : ∀ t ∈ first :: rest, StartsFrom base t)
    (hcompatible : Compatible base (first :: rest)) (hmapped : Mapped base (first :: rest)) :
    Complete base (first :: rest) (updateToLatest first rest) where
  has t ht w hw hnew := by
    refine (mem_updateToLatest_iff hbase hstart hcompatible).mpr ⟨Or.inl ⟨t, ht, hw, hnew⟩, ?_⟩
    intro hrest
    have hlength := Nat.succ_lt_succ (List.length_pos_of_ne_nil hrest)
    exact hmapped hlength t ht w hw hnew
  drops w hw hremoved hunchanged := by
    intro hnames
    obtain ⟨x, hx, hname⟩ := hnames
    obtain ⟨t, ht, hnot⟩ := hremoved
    rcases ((mem_updateToLatest_iff hbase hstart hcompatible).mp hx).1 with
      ⟨t', ht', hxt, hnew⟩ | ⟨-, hall⟩
    · exact hnew (hunchanged t' ht' x hxt hname)
    · exact hnot ⟨x, hall t ht, hname⟩

/-- Two updates are the same, but for the order of their workloads. -/
def SameUpdate (u u' : TwinDeployment) : Prop :=
  u.withWorkloads [] = u'.withWorkloads [] ∧ u.workloads.Perm u'.workloads

/-- The updates agree in what the single one takes from the first of them. -/
structure Agree (ts : List TwinDeployment) : Prop where
  metadata : ∀ t ∈ ts, ∀ t' ∈ ts, t.metadata = t'.metadata
  solutionProviderId : ∀ t ∈ ts, ∀ t' ∈ ts, t.solutionProviderId = t'.solutionProviderId
  returnNetworkContracts : ∀ t ∈ ts, ∀ t' ∈ ts, t.returnNetworkContracts = t'.returnNetworkContracts
  network : ∀ t ∈ ts, ∀ t' ∈ ts, ∀ n ∈ t.network, ∀ n' ∈ t'.network, n = n'

theorem wanted_perm {ts' : List TwinDeployment} (h : ts.Perm ts') (w : Workload) :
    Wanted base ts w ↔ Wanted base ts' w := by
  unfold Wanted
  simp only [h.mem_iff]

theorem Compatible.perm {ts' : List TwinDeployment} (hcompatible : Compatible base ts)
    (h : ts'.Perm ts) : Compatible base ts' where
  agree t ht t' ht' := hcompatible.agree t (h.mem_iff.mp ht) t' (h.mem_iff.mp ht')
  present w hw hkept hchanged t ht := by
    obtain ⟨t₁, ht₁, hw₁⟩ := hkept
    obtain ⟨t₂, ht₂, hw₂⟩ := hchanged
    exact hcompatible.present w hw ⟨t₁, h.mem_iff.mp ht₁, hw₁⟩ ⟨t₂, h.mem_iff.mp ht₂, hw₂⟩ t
      (h.mem_iff.mp ht)

theorem Mapped.perm {ts' : List TwinDeployment} (hmapped : Mapped base ts) (h : ts'.Perm ts) :
    Mapped base ts' := by
  intro hlength t ht
  rw [h.length_eq] at hlength
  exact hmapped hlength t (h.mem_iff.mp ht)

theorem Complete.perm {ts' : List TwinDeployment} {u : TwinDeployment} (h : Complete base ts u)
    (hperm : ts.Perm ts') : Complete base ts' u where
  has t ht := h.has t (hperm.mem_iff.mpr ht)
  drops w hw hremoved hunchanged := by
    obtain ⟨t, ht, hnot⟩ := hremoved
    apply h.drops w hw ⟨t, hperm.mem_iff.mpr ht, hnot⟩
    exact fun t' ht' => hunchanged t' (hperm.mem_iff.mp ht')

end

/-! One merge. -/

section
variable {get : Nat → Except GridError (Option Contract)}

theorem lookupNodes_cons {t : TwinDeployment} {id : Nat} (hid : t.contractId = some id)
    (hne : id ≠ 0) (ts : List TwinDeployment) :
    lookupNodes get (t :: ts) = lookupNode get id >>= fun _ => lookupNodes get ts := by
  rw [lookupNodes]
  split
  · rename_i hnone
    rw [hnone] at hid
    cases hid
  · rename_i hzero
    rw [hzero] at hid
    exact absurd (Option.some.inj hid).symm hne
  · rename_i id' _ hid'
    rw [hid'] at hid
    rw [← Option.some.inj hid]
    unfold lookupNode
    cases get id' with
    | error e => rfl
    | ok contract => rfl

theorem lookupNodes_skip {t : TwinDeployment} (h : t.contractId = none ∨ t.contractId = some 0)
    (ts : List TwinDeployment) : lookupNodes get (t :: ts) = lookupNodes get ts := by
  rw [lookupNodes]
  split
  · rfl
  · rfl
  · rename_i id hzero hid
    rw [hid] at h
    rcases h with h | h
    · cases h
    · exact absurd (Option.some.inj h) hzero

theorem lookupNodes_ok_iff (ts : List TwinDeployment) :
    lookupNodes get ts = .ok () ↔
      ∀ t ∈ ts, ∀ id, t.contractId = some id → id ≠ 0 → ∃ n, lookupNode get id = .ok n := by
  constructor
  · intro h
    induction ts with
    | nil => exact fun t ht => absurd ht List.not_mem_nil
    | cons t ts ih =>
      have hboth : (∀ id, t.contractId = some id → id ≠ 0 → ∃ n, lookupNode get id = .ok n) ∧
          lookupNodes get ts = .ok () := by
        by_cases hskip : t.contractId = none ∨ t.contractId = some 0
        · rw [lookupNodes_skip hskip] at h
          refine ⟨?_, h⟩
          intro id hid hne
          rcases hskip with hskip | hskip
          · rw [hskip] at hid
            cases hid
          · rw [hskip] at hid
            exact absurd (Option.some.inj hid).symm hne
        · obtain ⟨hnone, hzero⟩ := not_or.mp hskip
          obtain ⟨id, hid⟩ := Option.ne_none_iff_exists'.mp hnone
          have hne : id ≠ 0 := by
            intro heq
            rw [heq] at hid
            exact hzero hid
          rw [lookupNodes_cons hid hne] at h
          obtain ⟨n, hlookup, h⟩ := exceptBind_eq_ok.mp h
          refine ⟨?_, h⟩
          intro id' hid' _
          rw [hid] at hid'
          rw [← Option.some.inj hid']
          exact ⟨n, hlookup⟩
      exact List.forall_mem_cons.mpr ⟨hboth.1, ih hboth.2⟩
  · intro h
    rcases lookupNodes_ok_or get ts with hok | ⟨e, -, t, ht, id, hid, hne, herror⟩
    · exact hok
    · obtain ⟨n, hn⟩ := h t ht id hid hne
      rw [herror] at hn
      cases hn

/-- The updates of a list. -/
def updates (ts : List TwinDeployment) : List TwinDeployment :=
  ts.filter fun t => decide (t.operation = .update)

theorem updateMerge_of_lookup {ts : List TwinDeployment}
    (h : lookupNodes get (updates ts) = .ok ()) :
    updateMerge get ts = .ok (((updateMap get (updates ts)).ordered contractIndex).map
      fun e => updateToLatest e.2.1 e.2.2) := by
  unfold updateMerge
  show lookupNodes get (updates ts) >>= _ = _
  rw [h]
  rfl

theorem lookup_of_updateMerge {ts out : List TwinDeployment} (h : updateMerge get ts = .ok out) :
    lookupNodes get (updates ts) = .ok () := by
  obtain ⟨⟨⟩, hlookup, -⟩ := exceptBind_eq_ok.mp h
  exact hlookup

theorem foldl_group (ts : List TwinDeployment) (g : TwinDeployment × List TwinDeployment) :
    ts.foldl (fun g t => (g.1, g.2 ++ [t])) g = (g.1, g.2 ++ ts) := by
  induction ts generalizing g with
  | nil => rw [List.append_nil, List.foldl_nil]
  | cons t ts ih => rw [List.foldl_cons, ih, List.append_assoc, List.singleton_append]

/-- The merge leaves this single update for the contract. -/
def MergedTo (get : Nat → Except GridError (Option Contract)) (id : Nat)
    (ts : List TwinDeployment) (u : TwinDeployment) : Prop :=
  ∃ out, updateMerge get ts = .ok out ∧ operationsOn .update id out = [u]

theorem mergedTo_updateToLatest {id : Nat} {ts rest : List TwinDeployment} {first : TwinDeployment}
    (hlookup : lookupNodes get (updates ts) = .ok ())
    (h : operationsOn .update id ts = first :: rest) :
    MergedTo get id ts (updateToLatest (withNode get first) rest) := by
  refine ⟨_, updateMerge_of_lookup hlookup, ?_⟩
  have hgroup : (updates ts).filter (fun t => decide (t.contractId = some id)) = first :: rest := by
    rw [← h]
    unfold updates operationsOn
    rw [List.filter_filter]
    apply List.filter_congr
    intro t _
    rw [Bool.decide_and, Bool.and_comm]
  have hget : (updateMap get (updates ts)).get (some id) = some (withNode get first, rest) := by
    rw [updateMap, ObjectMap.get_collect, hgroup]
    exact congrArg some (foldl_group rest _)
  have hfilter : operationsOn .update id
      (((updateMap get (updates ts)).ordered contractIndex).map
        fun e => updateToLatest e.2.1 e.2.2) =
      (((updateMap get (updates ts)).ordered contractIndex).filter fun e => e.1 = some id).map
        fun e => updateToLatest e.2.1 e.2.2 := by
    unfold operationsOn
    rw [List.filter_map]
    congr 1
    apply List.filter_congr
    intro e he
    obtain ⟨hid, t, ht, hop⟩ := updateMap_get (ObjectMap.mem_ordered.mp he)
    have hupdate : t.operation = .update := of_decide_eq_true (List.mem_filter.mp ht).2
    rw [Function.comp_apply, updateToLatest_operation, updateToLatest_contractId, hid, hop, hupdate]
    exact decide_eq_decide.mpr (and_iff_right rfl)
  rw [hfilter, ObjectMap.filter_ordered, hget]
  rfl

theorem mergedTo_unique {id : Nat} {ts : List TwinDeployment} {u u' : TwinDeployment}
    (h : MergedTo get id ts u) (h' : MergedTo get id ts u') : u = u' := by
  obtain ⟨out, hout, hu⟩ := h
  obtain ⟨out', hout', hu'⟩ := h'
  rw [hout] at hout'
  rw [Except.ok.inj hout', hu'] at hu
  exact (List.cons.inj hu).1.symm

/-! The order of the updates. -/

/-- Any order of the updates of a contract is that of some order of the whole list. -/
theorem exists_order {id : Nat} {ts us : List TwinDeployment}
    (h : us.Perm (operationsOn .update id ts)) :
    ∃ ts' : List TwinDeployment, ts'.Perm ts ∧ operationsOn .update id ts' = us := by
  refine ⟨us ++ ts.filter fun t => !decide (t.operation = .update ∧ t.contractId = some id), ?_, ?_⟩
  · exact (h.append_right _).trans (List.filter_append_perm _ _)
  · apply ObjectMap.filter_append_left
    · intro t ht
      exact (List.mem_filter.mp (h.mem_iff.mp ht)).2
    · intro t ht
      exact Bool.not_eq_true' _ ▸ (List.mem_filter.mp ht).2

theorem updateToLatest_withNode {id n : Nat} {first : TwinDeployment}
    (hid : first.contractId = some id) (hne : id ≠ 0) (hlookup : lookupNode get id = .ok n)
    (rest : List TwinDeployment) :
    updateToLatest (withNode get first) rest = { updateToLatest first rest with nodeId := n } := by
  have hnode : withNode get first = { first with nodeId := n } := by
    unfold lookupNode at hlookup
    unfold withNode
    split
    · rename_i hnone
      rw [hnone] at hid
      cases hid
    · rename_i hzero
      rw [hzero] at hid
      exact absurd (Option.some.inj hid).symm hne
    · rename_i id' _ hid'
      rw [hid'] at hid
      rw [Option.some.inj hid, hlookup]
  rw [hnode]
  cases rest with
  | nil => rfl
  | cons second rest => rfl

/-- All of the single update but its workloads. -/
theorem updateToLatest_withWorkloads (first : TwinDeployment) (rest : List TwinDeployment) :
    (updateToLatest first rest).withWorkloads [] = { first.bumpVersion.withWorkloads [] with
      publicIps := ((first :: rest).map (·.publicIps)).sum
      network := (first :: rest).findSome? (·.network) } := by
  cases rest with
  | nil =>
    obtain ⟨d, op, ips, node, metadata, network, provider, contracts⟩ := first
    cases network with
    | none => rfl
    | some network => rfl
  | cons second rest => rfl

/-- The single update of updates that start from one deployment, but for its workloads. -/
def singleUpdate (base : Deployment) (n : Nat) (first : TwinDeployment) (ts : List TwinDeployment) :
    TwinDeployment where
  deployment := { base with workloads := [], version := base.version + 1 }
  operation := .update
  publicIps := (ts.map (·.publicIps)).sum
  nodeId := n
  metadata := first.metadata
  network := ts.findSome? (·.network)
  solutionProviderId := first.solutionProviderId
  returnNetworkContracts := first.returnNetworkContracts

theorem updateToLatest_single {base : Deployment} {first : TwinDeployment}
    (hstart : StartsFrom base first) (hop : first.operation = .update) (n : Nat)
    (rest : List TwinDeployment) :
    ({ updateToLatest first rest with nodeId := n } : TwinDeployment).withWorkloads [] =
      singleUpdate base n first (first :: rest) := by
  have hfields := updateToLatest_withWorkloads first rest
  have hdeployment := hstart.deployment
  obtain ⟨d, op, ips, node, metadata, network, provider, contracts⟩ := first
  have hd : d = { base with workloads := d.workloads } := hdeployment
  have ho : op = .update := hop
  calc _ = { (updateToLatest ⟨d, op, ips, node, metadata, network, provider, contracts⟩
          rest).withWorkloads [] with nodeId := n } := rfl
    _ = _ := by
      rw [hfields, hd, ho]
      rfl

theorem findSome?_perm {ts ts' : List TwinDeployment} (hperm : ts.Perm ts')
    (h : ∀ t ∈ ts, ∀ t' ∈ ts, ∀ n ∈ t.network, ∀ n' ∈ t'.network, n = n') :
    ts.findSome? (·.network) = ts'.findSome? (·.network) := by
  cases hfirst : ts.findSome? (·.network) with
  | none =>
    rw [List.findSome?_eq_none_iff] at hfirst
    symm
    rw [List.findSome?_eq_none_iff]
    exact fun t ht => hfirst t (hperm.mem_iff.mpr ht)
  | some n =>
    obtain ⟨t, ht, hn⟩ := List.exists_of_findSome?_eq_some hfirst
    cases hsecond : ts'.findSome? (·.network) with
    | none =>
      rw [List.findSome?_eq_none_iff] at hsecond
      rw [hsecond t (hperm.mem_iff.mp ht)] at hn
      cases hn
    | some n' =>
      obtain ⟨t', ht', hn'⟩ := List.exists_of_findSome?_eq_some hsecond
      exact congrArg some (h t ht t' (hperm.mem_iff.mpr ht') n hn n' hn')

/-- In every order of the list, the single update for the contract is complete and the same. -/
def MergesWell (get : Nat → Except GridError (Option Contract)) (base : Deployment) (id : Nat)
    (ts : List TwinDeployment) : Prop :=
  ∀ ts' : List TwinDeployment, ts'.Perm ts →
    ∃ u, MergedTo get id ts' u ∧ Complete base (operationsOn .update id ts) u ∧
      ∀ ts'' : List TwinDeployment, ts''.Perm ts → ∀ u', MergedTo get id ts'' u' → SameUpdate u u'

section
variable {base : Deployment} {id : Nat} {ts out : List TwinDeployment}

theorem lookup_perm {ts' : List TwinDeployment} (hmerged : updateMerge get ts = .ok out)
    (hperm : ts'.Perm ts) : lookupNodes get (updates ts') = .ok () := by
  have hlookup := (lookupNodes_ok_iff _).mp (lookup_of_updateMerge hmerged)
  apply (lookupNodes_ok_iff _).mpr
  exact fun t ht => hlookup t ((hperm.filter _).mem_iff.mp ht)

/-- The merge of the updates in a given order. -/
theorem mergedTo_order {n : Nat} {ts' rest : List TwinDeployment} {first : TwinDeployment}
    (hmerged : updateMerge get ts = .ok out) (hne : id ≠ 0) (hlookup : lookupNode get id = .ok n)
    (hperm : ts'.Perm ts) (h : operationsOn .update id ts' = first :: rest) :
    MergedTo get id ts' { updateToLatest first rest with nodeId := n } := by
  have hfirst : first ∈ operationsOn .update id ts' := h ▸ List.mem_cons_self
  have hid := (of_decide_eq_true (List.mem_filter.mp hfirst).2).2
  rw [← updateToLatest_withNode hid hne hlookup]
  exact mergedTo_updateToLatest (lookup_perm hmerged hperm) h

/-- The node of a contract that has updates was looked up. -/
theorem exists_node (hmerged : updateMerge get ts = .ok out) (hne : id ≠ 0)
    (hsome : operationsOn .update id ts ≠ []) : ∃ n, lookupNode get id = .ok n := by
  obtain ⟨t, ht⟩ := List.exists_mem_of_ne_nil _ hsome
  obtain ⟨hmem, hcond⟩ := List.mem_filter.mp ht
  obtain ⟨hop, hid⟩ := of_decide_eq_true hcond
  have hupdate : t ∈ updates ts := List.mem_filter.mpr ⟨hmem, decide_eq_true hop⟩
  exact (lookupNodes_ok_iff _).mp (lookup_of_updateMerge hmerged) t hupdate id hid hne

/-- A copy in the first update stands first. -/
theorem copies_first {t : TwinDeployment} {w : Workload} (hnames : (t.workloads.map (·.name)).Nodup)
    (hw : w ∈ t.workloads) {c : Workload} {cs : List Workload} {ts : List TwinDeployment}
    (h : copies w.name (t :: ts) = c :: cs) : c = w := by
  have hsplit : copies w.name (t :: ts) =
      (t.workloads.filter fun x => decide (x.name = w.name)) ++ copies w.name ts := by
    unfold copies
    rw [List.flatMap_cons, List.filter_append]
  have hmem : w ∈ t.workloads.filter fun x => decide (x.name = w.name) :=
    List.mem_filter.mpr ⟨hw, decide_eq_true rfl⟩
  rw [h] at hsplit
  cases hfilter : t.workloads.filter fun x => decide (x.name = w.name) with
  | nil =>
    rw [hfilter] at hmem
    cases hmem
  | cons x xs =>
    have hx : x ∈ t.workloads.filter fun x => decide (x.name = w.name) :=
      hfilter ▸ List.mem_cons_self
    rw [hfilter] at hsplit
    rw [(List.cons.inj hsplit).1]
    obtain ⟨hxt, hname⟩ := List.mem_filter.mp hx
    exact List.inj_on_of_nodup_map hnames hxt hw (of_decide_eq_true hname)

/-- What the first of the updates keeps and another one removes is dropped, whoever changed it. -/
theorem not_names_updateToLatest {first second : TwinDeployment} {rest : List TwinDeployment}
    (hbase : Fetched base) (hstart : ∀ t ∈ first :: second :: rest, StartsFrom base t)
    {w : Workload} (hold : w ∈ base.workloads) (hfirst : w ∈ first.workloads)
    (hremoved : ∃ t ∈ first :: second :: rest, ¬Names t w.name) :
    ¬Names (updateToLatest first (second :: rest)) w.name := by
  intro hnames
  obtain ⟨x, hx, hname⟩ := hnames
  have hmem : x ∈ latestWorkloads first (first :: second :: rest) := hx
  obtain ⟨-, c, cs, hcopies, hkept, -⟩ := mem_latestWorkloads.mp hmem
  rw [hname] at hcopies
  have hc : c = w := copies_first (hstart first List.mem_cons_self).names hfirst hcopies
  apply hkept
  constructor
  · rw [← hcopies]
    exact (length_copies_lt (names_of_start hstart)).mpr hremoved
  · rw [hc, (hstart first List.mem_cons_self).deployment]
    exact hbase.versions w hold

theorem exists_perm_cons {us : List TwinDeployment} {t : TwinDeployment} (ht : t ∈ us) :
    ∃ rest, (t :: rest).Perm us :=
  ⟨_, (List.perm_cons_erase ht).symm⟩

section
variable {us : List TwinDeployment}

/-- Updates whose merge is complete in every order are compatible. -/
theorem compatible_of_complete (hbase : Fetched base) (hstart : ∀ t ∈ us, StartsFrom base t)
    (hcomplete : ∀ first rest, (first :: rest).Perm us →
      Complete base us (updateToLatest first rest)) : Compatible base us := by
  constructor
  · intro t ht t' ht' w hw w' hw' hnew hnew' hname
    obtain ⟨rest, hperm⟩ := exists_perm_cons ht
    have hall := hcomplete t rest hperm
    exact List.inj_on_of_nodup_map (names_updateToLatest _ (hstart t ht).names)
      (hall.has t ht w hw hnew) (hall.has t' ht' w' hw' hnew') hname
  · intro w hold hkept hchanged t ht
    obtain ⟨t₁, ht₁, hw₁⟩ := hkept
    obtain ⟨t₂, ht₂, w', hw', hname, hnew⟩ := hchanged
    by_contra hnot
    -- the order in which the update that keeps the workload is the first one
    obtain ⟨rest, hperm⟩ := exists_perm_cons ht₁
    have hnames : Names (updateToLatest t₁ rest) w.name :=
      ⟨w', (hcomplete t₁ rest hperm).has t₂ ht₂ w' hw' hnew, hname⟩
    have ht' := hperm.mem_iff.mpr ht
    cases rest with
    | nil =>
      rw [List.mem_singleton.mp ht'] at hnot
      exact hnot ⟨w, hw₁, rfl⟩
    | cons second rest =>
      exact not_names_updateToLatest hbase (fun t ht => hstart t (hperm.mem_iff.mp ht)) hold hw₁
        ⟨t, ht', hnot⟩ hnames

theorem mapped_of_complete (hcomplete : ∀ first rest, (first :: rest).Perm us →
    Complete base us (updateToLatest first rest)) : Mapped base us := by
  intro hlength t ht w hw hnew
  obtain ⟨rest, hperm⟩ := exists_perm_cons ht
  have hin := (hcomplete t rest hperm).has t ht w hw hnew
  cases rest with
  | nil =>
    rw [← hperm.length_eq] at hlength
    exact absurd hlength (lt_irrefl 1)
  | cons second rest =>
    have hmem : w ∈ latestWorkloads t (t :: second :: rest) := hin
    exact (mem_latestWorkloads.mp hmem).1

/-- Updates each of which may come first, with one single update, agree in what is taken of the
first. -/
theorem agree_of_single {n : Nat} (hsame : ∀ t ∈ us, ∀ t' ∈ us, ∃ rest rest',
    singleUpdate base n t (t :: rest) = singleUpdate base n t' (t' :: rest')) : Agree us := by
  refine ⟨?_, ?_, ?_, ?_⟩
  · intro t ht t' ht'
    obtain ⟨rest, rest', h⟩ := hsame t ht t' ht'
    have hfield := congrArg TwinDeployment.metadata h
    exact hfield
  · intro t ht t' ht'
    obtain ⟨rest, rest', h⟩ := hsame t ht t' ht'
    have hfield := congrArg TwinDeployment.solutionProviderId h
    exact hfield
  · intro t ht t' ht'
    obtain ⟨rest, rest', h⟩ := hsame t ht t' ht'
    have hfield := congrArg TwinDeployment.returnNetworkContracts h
    exact hfield
  · intro t ht t' ht' net hnet net' hnet'
    obtain ⟨rest, rest', h⟩ := hsame t ht t' ht'
    have hnetworks : (t :: rest).findSome? (·.network) = (t' :: rest').findSome? (·.network) :=
      congrArg TwinDeployment.network h
    rw [List.findSome?_cons_of_isSome (Option.isSome_of_mem hnet),
      List.findSome?_cons_of_isSome (Option.isSome_of_mem hnet')] at hnetworks
    rw [Option.mem_def.mp hnet, Option.mem_def.mp hnet'] at hnetworks
    exact Option.some.inj hnetworks

/-- Compatible updates that agree have the same single update in every order. -/
theorem sameUpdate_of_agree {n : Nat} {first first' : TwinDeployment}
    {rest rest' : List TwinDeployment} (hbase : Fetched base)
    (hstart : ∀ t ∈ us, StartsFrom base t) (hupdate : ∀ t ∈ us, t.operation = .update)
    (hcompatible : Compatible base us) (hagree : Agree us) (hperm : (first :: rest).Perm us)
    (hperm' : (first' :: rest').Perm us) :
    SameUpdate { updateToLatest first rest with nodeId := n }
      { updateToLatest first' rest' with nodeId := n } := by
  have hstarted : ∀ {first : TwinDeployment} {rest : List TwinDeployment},
      (first :: rest).Perm us → ∀ t ∈ first :: rest, StartsFrom base t :=
    fun hperm t ht => hstart t (hperm.mem_iff.mp ht)
  have hmem : first ∈ us := hperm.mem_iff.mp List.mem_cons_self
  have hmem' : first' ∈ us := hperm'.mem_iff.mp List.mem_cons_self
  have hperms := hperm.trans hperm'.symm
  constructor
  · rw [updateToLatest_single (hstart first hmem) (hupdate first hmem),
      updateToLatest_single (hstart first' hmem') (hupdate first' hmem')]
    unfold singleUpdate
    rw [(hperms.map _).sum_eq, findSome?_perm hperms, hagree.metadata first hmem first' hmem',
      hagree.solutionProviderId first hmem first' hmem',
      hagree.returnNetworkContracts first hmem first' hmem']
    intro t ht t' ht'
    exact hagree.network t (hperm.mem_iff.mp ht) t' (hperm.mem_iff.mp ht')
  · have hnames := names_updateToLatest rest (hstart first hmem).names
    have hnames' := names_updateToLatest rest' (hstart first' hmem').names
    show (updateToLatest first rest).workloads.Perm (updateToLatest first' rest').workloads
    rw [List.perm_ext_iff_of_nodup (List.Nodup.of_map _ hnames) (List.Nodup.of_map _ hnames')]
    intro w
    rw [mem_updateToLatest_iff hbase (hstarted hperm) (hcompatible.perm hperm),
      mem_updateToLatest_iff hbase (hstarted hperm') (hcompatible.perm hperm')]
    have hrests : rest = [] ↔ rest' = [] := by
      have hlength := hperms.length_eq
      rw [List.length_cons, List.length_cons, Nat.add_right_cancel_iff] at hlength
      rw [← List.length_eq_zero_iff, hlength, List.length_eq_zero_iff]
    rw [wanted_perm hperms w, Ne, Ne, hrests]

end

/-- Several updates of a contract merge well exactly when they are compatible and agree, and what they
changed or added is not lost for its name. -/
theorem mergesWell_iff (hmerged : updateMerge get ts = .ok out) (hne : id ≠ 0)
    (hsome : operationsOn .update id ts ≠ []) (hbase : Fetched base)
    (hstart : ∀ t ∈ operationsOn .update id ts, StartsFrom base t) :
    MergesWell get base id ts ↔
      Compatible base (operationsOn .update id ts) ∧ Agree (operationsOn .update id ts) ∧
        Mapped base (operationsOn .update id ts) := by
  obtain ⟨n, hlookup⟩ := exists_node hmerged hne hsome
  have hupdate : ∀ t ∈ operationsOn .update id ts, t.operation = .update :=
    fun t ht => (of_decide_eq_true (List.mem_filter.mp ht).2).1
  constructor
  · intro hwell
    -- every order of the updates is met, with its single update
    have horder : ∀ first rest, (first :: rest).Perm (operationsOn .update id ts) →
        ∃ ts' : List TwinDeployment, ts'.Perm ts ∧
          MergedTo get id ts' { updateToLatest first rest with nodeId := n } := by
      intro first rest hperm
      obtain ⟨ts', hts', hus⟩ := exists_order hperm
      exact ⟨ts', hts', mergedTo_order hmerged hne hlookup hts' hus⟩
    have hcomplete : ∀ first rest, (first :: rest).Perm (operationsOn .update id ts) →
        Complete base (operationsOn .update id ts) (updateToLatest first rest) := by
      intro first rest hperm
      obtain ⟨ts', hts', hmergedTo⟩ := horder first rest hperm
      obtain ⟨u, hu, hcomplete, -⟩ := hwell ts' hts'
      rw [mergedTo_unique hu hmergedTo] at hcomplete
      exact ⟨hcomplete.has, hcomplete.drops⟩
    have hsame : ∀ t ∈ operationsOn .update id ts, ∀ t' ∈ operationsOn .update id ts,
        ∃ rest rest', singleUpdate base n t (t :: rest) = singleUpdate base n t' (t' :: rest') := by
      intro t ht t' ht'
      obtain ⟨rest, hperm⟩ := exists_perm_cons ht
      obtain ⟨rest', hperm'⟩ := exists_perm_cons ht'
      obtain ⟨ts', hts', hmergedTo⟩ := horder t rest hperm
      obtain ⟨ts'', hts'', hmergedTo'⟩ := horder t' rest' hperm'
      obtain ⟨u, hu, -, hboth⟩ := hwell ts' hts'
      have hfields := (hboth ts'' hts'' _ hmergedTo').1
      rw [mergedTo_unique hu hmergedTo, updateToLatest_single (hstart t ht) (hupdate t ht),
        updateToLatest_single (hstart t' ht') (hupdate t' ht')] at hfields
      exact ⟨rest, rest', hfields⟩
    exact ⟨compatible_of_complete hbase hstart hcomplete, agree_of_single hsame,
      mapped_of_complete hcomplete⟩
  · rintro ⟨hcompatible, hagree, hmapped⟩ ts' hts'
    have hsingle : ∀ ts' : List TwinDeployment, ts'.Perm ts →
        ∃ first rest, (first :: rest).Perm (operationsOn .update id ts) ∧
          MergedTo get id ts' { updateToLatest first rest with nodeId := n } := by
      intro ts' hts'
      have hperm : (operationsOn .update id ts').Perm (operationsOn .update id ts) := hts'.filter _
      cases hus : operationsOn .update id ts' with
      | nil =>
        rw [hus] at hperm
        exact absurd hperm.nil_eq.symm hsome
      | cons first rest =>
        rw [hus] at hperm
        exact ⟨first, rest, hperm, mergedTo_order hmerged hne hlookup hts' hus⟩
    obtain ⟨first, rest, hperm, hmergedTo⟩ := hsingle ts' hts'
    have hall := (complete_updateToLatest hbase (fun t ht => hstart t (hperm.mem_iff.mp ht))
      (hcompatible.perm hperm) (hmapped.perm hperm)).perm hperm
    refine ⟨_, hmergedTo, ⟨hall.has, hall.drops⟩, ?_⟩
    intro ts'' hts'' u' hu'
    obtain ⟨first', rest', hperm', hmergedTo'⟩ := hsingle ts'' hts''
    rw [mergedTo_unique hu' hmergedTo']
    exact sameUpdate_of_agree hbase hstart hupdate hcompatible hagree hperm hperm'

end

end

/-! Updates of the contract 7, with the databases `a` and `b`. -/

def bothDatabases : Deployment :=
  sampleDeployment (some 7) [sampleZdb "a" 0 1, sampleZdb "b" 0 1]

def updateTo (workloads : List Workload) : TwinDeployment :=
  .make (sampleDeployment (some 7) workloads) .update 0 11 "" none

def nodeEleven (_ : Nat) : Except GridError (Option Contract) :=
  .ok (some ⟨7, 1, .created, .nodeContract ⟨11, "", "", 0⟩, none⟩)

theorem fetched_bothDatabases : Fetched bothDatabases := ⟨by decide, by decide⟩

/-- One update adds a database, another one resizes `b`. -/
def addAndResize : List TwinDeployment :=
  [updateTo [sampleZdb "a" 0 1, sampleZdb "b" 0 1, sampleZdb "c" 1 4],
    updateTo [sampleZdb "a" 0 1, sampleZdb "b" 1 9]]

theorem addAndResize_mergesWell : MergesWell nodeEleven bothDatabases 7 addAndResize := by
  have hmerged : ∃ out, updateMerge nodeEleven addAndResize = .ok out := ⟨_, rfl⟩
  obtain ⟨out, hout⟩ := hmerged
  have hstart : ∀ t ∈ operationsOn .update 7 addAndResize, StartsFrom bothDatabases t := by
    intro t ht
    rcases List.mem_pair.mp ht with rfl | rfl
    · exact ⟨rfl, by decide, by decide⟩
    · exact ⟨rfl, by decide, by decide⟩
  have hsome : operationsOn .update 7 addAndResize ≠ [] := List.cons_ne_nil _ _
  apply (mergesWell_iff hout (by decide) hsome fetched_bothDatabases hstart).mpr
  refine ⟨⟨by decide, by decide⟩, ⟨by decide, by decide, by decide, ?_⟩, fun _ => by decide⟩
  intro t ht t' ht' n hn
  rcases List.mem_pair.mp ht with rfl | rfl
  · cases hn
  · cases hn

/-- The first update keeps `b`, the second resizes it and the third removes it. -/
def keepResizeRemove : List TwinDeployment :=
  [updateTo [sampleZdb "a" 0 1, sampleZdb "b" 0 1, sampleZdb "c" 1 4],
    updateTo [sampleZdb "a" 0 1, sampleZdb "b" 1 9], updateTo [sampleZdb "a" 0 1]]

theorem resize_lost : (∀ t ∈ keepResizeRemove, StartsFrom bothDatabases t) ∧
    ¬MergesWell nodeEleven bothDatabases 7 keepResizeRemove := by
  constructor
  · intro t ht
    simp only [keepResizeRemove, List.mem_cons, List.not_mem_nil, or_false] at ht
    rcases ht with rfl | rfl | rfl
    · exact ⟨rfl, by decide, by decide⟩
    · exact ⟨rfl, by decide, by decide⟩
    · exact ⟨rfl, by decide, by decide⟩
  intro hwell
  obtain ⟨u, hmerged, hcomplete, -⟩ := hwell keepResizeRemove (List.Perm.refl _)
  have hsingle : MergedTo nodeEleven 7 keepResizeRemove _ := mergedTo_updateToLatest rfl rfl
  rw [mergedTo_unique hmerged hsingle] at hcomplete
  have hhas := hcomplete.has (updateTo [sampleZdb "a" 0 1, sampleZdb "b" 1 9]) (by decide)
    (sampleZdb "b" 1 9) (by decide) (by decide)
  obtain ⟨-, c, cs, hcopies, hkept, -⟩ := mem_latestWorkloads.mp hhas
  -- the first copy is the one that was kept, and the third update has none
  have hcopies' : [sampleZdb "b" 0 1, sampleZdb "b" 1 9] = c :: cs := hcopies
  obtain ⟨rfl, rfl⟩ := List.cons.inj hcopies'
  exact hkept ⟨by decide, by decide⟩

end ThreefoldSdk.HighLevel
