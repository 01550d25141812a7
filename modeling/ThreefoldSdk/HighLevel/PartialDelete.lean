import ThreefoldSdk.HighLevel.NetworkRounds

/-! What `_delete` emits for the contract of a deployment that some workloads are deleted from. -/

namespace ThreefoldSdk.HighLevel
open Zos Primitives Frame

/-- What is emitted for the contract of the deployment. -/
def onContract (d : Deployment) (ts : List TwinDeployment) : List TwinDeployment :=
  ts.filter fun t => decide (t.contractId = d.contractId)

/-- The contract is deleted when nothing has to remain, updated once to what has to remain when
something goes, and left alone when nothing goes. -/
structure Exact (d : Deployment) (remaining : List Workload) (ts : List TwinDeployment) : Prop where
  deleted : remaining = [] →
    onContract d ts ≠ [] ∧ ∀ t ∈ onContract d ts, t.operation = .delete
  updated : remaining ≠ [] → remaining.length < d.workloads.length →
    ∃ t, onContract d ts = [t] ∧ t.operation = .update ∧ t.workloads = remaining
  untouched : remaining ≠ [] → remaining.length = d.workloads.length → onContract d ts = []

/-- What `_filterWorkloads` hands back for the names that are given. -/
structure Filtered (d : Deployment) (names : List String) (types : List WorkloadTypes)
    (kept machines : List Workload) : Prop where
  sublist : kept.Sublist d.workloads
  networks : ∀ w ∈ d.workloads, isAnyNetwork w = true → w ∈ kept
  deleted : ∀ m ∈ machines, m ∈ d.workloads ∧ isMachine m = true
  shorter : machines ≠ [] → kept.length < d.workloads.length
  shorter_iff : kept.length < d.workloads.length ↔
    ∃ w ∈ d.workloads, isAnyNetwork w = false ∧ w.type ∈ types ∧ w.name ∈ names

section
variable {v : Validators} {isKnown : Bool} {n₀ : AnyNetwork} {d : Deployment} {id nodeId : Nat}
  {kept : List Workload}

/-! The workloads that are filtered out. -/

/-- The first machine that is collected has one of the names that were given. -/
theorem collectMachines_named {type : WorkloadTypes} {ws machines : List Workload}
    {names names' : List String} (h : collectMachines d type ws names = .ok (names', machines)) :
    names ⊆ names' ∧ (∀ m ∈ machines, m ∈ ws ∧ m.name ∈ names') ∧
      ((machines = [] ∧ names' = names) ∨ ∃ m ∈ machines, m.name ∈ names) := by
  induction ws generalizing names names' machines with
  | nil =>
    cases h
    exact ⟨List.Subset.refl _, fun m hm => absurd hm List.not_mem_nil, Or.inl ⟨rfl, rfl⟩⟩
  | cons w ws ih =>
    unfold collectMachines at h
    by_cases hname : w.name ∈ names
    · rw [if_neg (not_not.mpr hname)] at h
      obtain ⟨pushed, -, h⟩ := exceptBind_eq_ok.mp h
      obtain ⟨⟨names₂, machines₂⟩, hrest, h⟩ := exceptBind_eq_ok.mp h
      cases h
      obtain ⟨hsub, hmem, -⟩ := ih hrest
      have hsub' : names ⊆ names' := fun x hx => hsub (List.mem_append_left _ hx)
      refine ⟨hsub', fun m hm => ?_, Or.inr ⟨w, List.mem_cons_self, hname⟩⟩
      rcases List.mem_cons.mp hm with rfl | hm
      · exact ⟨List.mem_cons_self, hsub' hname⟩
      · exact ⟨List.mem_cons_of_mem _ (hmem m hm).1, (hmem m hm).2⟩
    · rw [if_pos hname] at h
      obtain ⟨hsub, hmem, hfirst⟩ := ih h
      exact ⟨hsub, fun m hm => ⟨List.mem_cons_of_mem _ (hmem m hm).1, (hmem m hm).2⟩, hfirst⟩

theorem collectTypes_named {types rest : List WorkloadTypes} {names names' : List String}
    {machines : List Workload} (h : collectTypes d types rest names = .ok (names', machines)) :
    names ⊆ names' ∧
      (∀ m ∈ machines, m ∈ d.workloads ∧ m.type ∈ types ∧ m.type ∈ rest ∧ m.name ∈ names') ∧
      ((machines = [] ∧ names' = names) ∨ ∃ m ∈ machines, m.name ∈ names) := by
  induction rest generalizing names names' machines with
  | nil =>
    cases h
    exact ⟨List.Subset.refl _, fun m hm => absurd hm List.not_mem_nil, Or.inl ⟨rfl, rfl⟩⟩
  | cons type rest ih =>
    unfold collectTypes at h
    by_cases hin : type ∈ types
    · rw [if_neg (not_not.mpr hin)] at h
      obtain ⟨⟨names₁, machines₁⟩, hone, h⟩ := exceptBind_eq_ok.mp h
      obtain ⟨⟨names₂, machines₂⟩, hmore, h⟩ := exceptBind_eq_ok.mp h
      cases h
      obtain ⟨hsub₁, hmem₁, hfirst₁⟩ := collectMachines_named hone
      obtain ⟨hsub₂, hmem₂, hfirst₂⟩ := ih hmore
      refine ⟨List.Subset.trans hsub₁ hsub₂, fun m hm => ?_, ?_⟩
      · rcases List.mem_append.mp hm with hm | hm
        · obtain ⟨hw, hname⟩ := hmem₁ m hm
          obtain ⟨hw, htype⟩ := List.mem_filter.mp hw
          have htype : m.type = type := of_decide_eq_true htype
          rw [htype]
          exact ⟨hw, hin, List.mem_cons_self, hsub₂ hname⟩
        · obtain ⟨hw, htype, hrest, hname⟩ := hmem₂ m hm
          exact ⟨hw, htype, List.mem_cons_of_mem _ hrest, hname⟩
      · rcases hfirst₁ with ⟨rfl, rfl⟩ | ⟨m, hm, hname⟩
        · exact hfirst₂
        · exact Or.inr ⟨m, List.mem_append_left _ hm, hname⟩
    · rw [if_pos hin] at h
      obtain ⟨hsub, hmem, hfirst⟩ := ih h
      refine ⟨hsub, fun m hm => ?_, hfirst⟩
      obtain ⟨hw, htype, hrest, hname⟩ := hmem m hm
      exact ⟨hw, htype, List.mem_cons_of_mem _ hrest, hname⟩

theorem filterWorkloads_filtered {names : List String} {types : List WorkloadTypes}
    {machines : List Workload} (hnames : names ≠ [])
    (h : filterWorkloads d names types = .ok (kept, machines)) :
    Filtered d names types kept machines := by
  have hsublist := filterWorkloads_sublist h
  have hnetworks : ∀ w ∈ d.workloads, isAnyNetwork w = true → w ∈ kept := fun w hw hnet =>
    filterWorkloads_keeps_networks h hw hnet
  unfold filterWorkloads at h
  rw [if_neg hnames] at h
  obtain ⟨⟨names', deleted⟩, hcollect, h⟩ := exceptBind_eq_ok.mp h
  cases h
  obtain ⟨hsub, hmem, hfirst⟩ := collectTypes_named hcollect
  have hshort : ∀ w ∈ d.workloads, isAnyNetwork w = false → w.type ∈ types → w.name ∈ names' →
      (d.workloads.filter (remains names' types)).length < d.workloads.length := by
    intro w hw hnet htype hname
    apply List.length_filter_lt_length_iff_exists.mpr
    refine ⟨w, hw, ?_⟩
    unfold remains
    simp [hnet, htype, hname]
  have hmachine : ∀ m ∈ machines, isMachine m = true ∧ isAnyNetwork m = false := by
    intro m hm
    rcases List.mem_pair.mp (hmem m hm).2.2.1 with htype | htype
    · unfold isMachine isAnyNetwork
      rw [htype]
      decide
    · unfold isMachine isAnyNetwork
      rw [htype]
      decide
  refine ⟨hsublist, hnetworks, fun m hm => ⟨(hmem m hm).1, (hmachine m hm).1⟩, fun hsome => ?_, ?_⟩
  · obtain ⟨m, hm⟩ := List.exists_mem_of_ne_nil _ hsome
    obtain ⟨hw, htype, -, hname⟩ := hmem m hm
    exact hshort m hw (hmachine m hm).2 htype hname
  · constructor
    · intro hlt
      rcases hfirst with ⟨-, rfl⟩ | ⟨m, hm, hname⟩
      · obtain ⟨w, hw, hgone⟩ := List.length_filter_lt_length_iff_exists.mp hlt
        refine ⟨w, hw, ?_⟩
        unfold remains at hgone
        simpa [hnames, and_assoc] using hgone
      · obtain ⟨hw, htype, -, -⟩ := hmem m hm
        exact ⟨m, hw, (hmachine m hm).2, htype, hname⟩
    · intro hgone
      obtain ⟨w, hw, hnet, htype, hname⟩ := hgone
      exact hshort w hw hnet htype (hsub hname)

/-! The whole deletion. -/

theorem mustRemain_sublist {load : Bool → String → String → Except GridError AnyNetwork}
    {machines : List Workload} : (mustRemain load d nodeId kept machines).Sublist kept := by
  unfold mustRemain withoutNetwork
  split
  · exact List.Sublist.refl _
  · split
    · exact List.Sublist.refl _
    · split_ifs
      · exact List.Sublist.refl _
      · exact List.filter_sublist
      · exact List.Sublist.refl _

/-- The parts of a deletion that returns. -/
theorem delete_parts {load : Bool → String → String → Except GridError AnyNetwork}
    {deployment : Deployment} {names : List String} {types : List WorkloadTypes}
    {machines : List Workload} {ts : List TwinDeployment} (hdecoded : fromObj v deployment = .ok d)
    (hfilter : filterWorkloads d names types = .ok (kept, machines))
    (h : delete v load isKnown (.ok nodeId) deployment names types = .ok ts) :
    ∃ r last, deleteMachineNetwork v load isKnown d nodeId kept machines = .ok r ∧
      lastUpdate isKnown nodeId deployment.workloads.length d r = .ok last ∧
      ts = (if kept.length = 0 ∧ machines.length = 0 then [.make d .delete 0 0 "" none] else []) ++
        last := by
  unfold delete at h
  split_ifs at h
  · cases h
  obtain ⟨id, hnodeId, h⟩ := exceptBind_eq_ok.mp h
  obtain rfl := Except.ok.inj hnodeId
  obtain ⟨d', hd', h⟩ := exceptBind_eq_ok.mp h
  obtain rfl := Except.ok.inj (hdecoded.symm.trans hd')
  obtain ⟨⟨kept', machines'⟩, hfilter', h⟩ := exceptBind_eq_ok.mp h
  cases hfilter.symm.trans hfilter'
  obtain ⟨r, hr, h⟩ := exceptBind_eq_ok.mp h
  obtain ⟨last, hlast, h⟩ := exceptBind_eq_ok.mp h
  cases h
  exact ⟨r, last, hr, hlast, rfl⟩

theorem mem_onContract {ts : List TwinDeployment} {t : TwinDeployment} :
    t ∈ onContract d ts ↔ t ∈ ts ∧ t.contractId = d.contractId := by
  unfold onContract
  rw [List.mem_filter, decide_eq_true_eq]

/-- A deletion in which no machine goes emits nothing but the deletion of the whole deployment. -/
theorem exact_of_no_machine {load : Bool → String → String → Except GridError AnyNetwork}
    {deployment : Deployment} {names : List String} {types : List WorkloadTypes}
    {ts : List TwinDeployment} (hdecoded : fromObj v deployment = .ok d)
    (hfilter : filterWorkloads d names types = .ok (kept, []))
    (h : delete v load isKnown (.ok nodeId) deployment names types = .ok ts) :
    ts = if kept = [] then [.make d .delete 0 0 "" none] else [] := by
  obtain ⟨r, last, hr, hlast, rfl⟩ := delete_parts hdecoded hfilter h
  obtain ⟨st, hst, hr⟩ := exceptBind_eq_ok.mp hr
  cases hst
  cases hr
  cases hlast
  rw [List.map_nil, List.append_nil, List.length_nil]
  simp only [List.length_eq_zero_iff, and_true]

/-- With a machine, the operations on the contract are those of the rounds and perhaps an update. -/
theorem delete_emits {load : Bool → String → String → Except GridError AnyNetwork}
    {deployment : Deployment} {names : List String} {types : List WorkloadTypes}
    {first : Workload} {rest : List Workload} {ts : List TwinDeployment}
    (hid : d.contractId = some id) (hreal : id ≠ 0) (hnames : (d.workloads.map (·.name)).Nodup)
    (hdecoded : fromObj v deployment = .ok d)
    (hfiltered : Filtered d names types kept (first :: rest))
    (hfilter : filterWorkloads d names types = .ok (kept, first :: rest))
    (hload : loadNetwork load first = .ok n₀) {light : Bool}
    (hhosts : Hosts isKnown light n₀ d nodeId)
    (h : delete v load isKnown (.ok nodeId) deployment names types = .ok ts) :
    ∃ r, OnOwn n₀ d (mustRemain load d nodeId kept (first :: rest)) r ∧
      ts.map (fun t => (t.deployment, t.operation)) = r.operations ++
        if n₀.isNetwork = true ∧ r.remaining ≠ [] then
          [({ d with workloads := r.remaining }, .update)] else [] := by
  obtain ⟨r, last, hr, hlast, rfl⟩ := delete_parts hdecoded hfilter h
  have hkept : contractOn nodeId n₀ = d.contractId → ∃ w ∈ kept, w.name = n₀.name := by
    intro hon
    obtain ⟨w, hw, hnet, hname⟩ := hhosts.workload hon
    exact ⟨w, hfiltered.networks w hw hnet, hname⟩
  have hown := deleteMachineNetwork_onOwn hid hreal hload hhosts
    ((hfiltered.sublist.map _).nodup hnames) hkept hr
  refine ⟨r, hown, ?_⟩
  rw [if_neg (fun hnone => absurd hnone.2 (Nat.succ_ne_zero _)), List.nil_append]
  obtain ⟨n, hn, hcls⟩ := hown.network
  cases hnet : n with
  | light m =>
    rw [hnet] at hn hcls
    have hlast : last = r.twinDeployments := by
      unfold lastUpdate at hlast
      rw [hn] at hlast
      exact (Except.ok.inj hlast).symm
    rw [hlast, if_neg fun hboth => Bool.false_ne_true (hcls.trans hboth.1), List.append_nil]
    rfl
  | network m =>
    rw [hnet] at hn hcls
    have hshort : r.remaining.length < deployment.workloads.length := by
      have hlt := hfiltered.shorter (List.cons_ne_nil _ _)
      have hle := (@mustRemain_sublist d nodeId kept load (first :: rest)).length_le
      have hsame : d.workloads.length = deployment.workloads.length := by
        rw [(fromObj_eq hdecoded).1, List.length_map]
      rw [(hown.remaining hcls.symm).1]
      omega
    rw [lastUpdate_operations hn hlast]
    congr 1
    by_cases hnil : r.remaining = []
    · rw [if_neg (fun hboth => hboth.1 (List.length_eq_zero_iff.mpr hnil)),
        if_neg (fun hboth => hboth.2 hnil)]
    · rw [if_pos ⟨fun hzero => hnil (List.length_eq_zero_iff.mp hzero), hshort⟩,
        if_pos ⟨hcls.symm, hnil⟩]

/-- Nothing but deletions on the contract. -/
theorem deletes_onContract {ts : List TwinDeployment} {ops : List (Deployment × Operations)}
    (hts : ts.map (fun t => (t.deployment, t.operation)) = ops)
    (hdeletes : ∀ op ∈ ops, op.1.contractId = d.contractId → op = (d, .delete)) :
    ∀ t ∈ onContract d ts, t.operation = .delete := by
  intro t ht
  obtain ⟨hin, hcontract⟩ := mem_onContract.mp ht
  have hop : (t.deployment, t.operation) ∈ ops :=
    hts ▸ List.mem_map_of_mem (f := fun t => (t.deployment, t.operation)) hin
  exact congrArg Prod.snd (hdeletes _ hop hcontract)

theorem onContract_ne_nil {ts : List TwinDeployment} {ops : List (Deployment × Operations)}
    (hts : ts.map (fun t => (t.deployment, t.operation)) = ops) (hin : (d, .delete) ∈ ops) :
    onContract d ts ≠ [] := by
  rw [← hts] at hin
  obtain ⟨t, ht, heq⟩ := List.mem_map.mp hin
  apply List.ne_nil_of_mem
  exact mem_onContract.mpr ⟨ht, congrArg (·.1.contractId) heq⟩

/-- With a machine, the deletion is exact when its network is a `Network`, and otherwise only when
nothing has to remain. -/
theorem exact_iff_of_machine {load : Bool → String → String → Except GridError AnyNetwork}
    {deployment : Deployment} {names : List String} {types : List WorkloadTypes}
    {first : Workload} {rest : List Workload} {ts : List TwinDeployment}
    (hid : d.contractId = some id) (hreal : id ≠ 0) (hnames : (d.workloads.map (·.name)).Nodup)
    (hdecoded : fromObj v deployment = .ok d)
    (hfiltered : Filtered d names types kept (first :: rest))
    (hfilter : filterWorkloads d names types = .ok (kept, first :: rest))
    (hload : loadNetwork load first = .ok n₀) {light : Bool}
    (hhosts : Hosts isKnown light n₀ d nodeId)
    (h : delete v load isKnown (.ok nodeId) deployment names types = .ok ts) :
    Exact d (mustRemain load d nodeId kept (first :: rest)) ts ↔
      mustRemain load d nodeId kept (first :: rest) = [] ∨ n₀.isNetwork = true := by
  obtain ⟨r, hown, hts⟩ := delete_emits hid hreal hnames hdecoded hfiltered hfilter hload hhosts h
  have hshort : (mustRemain load d nodeId kept (first :: rest)).length < d.workloads.length :=
    lt_of_le_of_lt mustRemain_sublist.length_le (hfiltered.shorter (List.cons_ne_nil _ _))
  generalize mustRemain load d nodeId kept (first :: rest) = remaining at *
  have hnotAll : remaining.length ≠ d.workloads.length := Nat.ne_of_lt hshort
  by_cases hnil : remaining = []
  · refine iff_of_true ⟨fun _ => ?_, fun hsome => absurd hnil hsome,
      fun hsome => absurd hnil hsome⟩ (Or.inl hnil)
    have hnone : ¬(n₀.isNetwork = true ∧ r.remaining ≠ []) := fun hboth =>
      hboth.2 ((hown.remaining hboth.1).1.trans hnil)
    rw [if_neg hnone, List.append_nil] at hts
    exact ⟨onContract_ne_nil hts (hown.emptied hnil), deletes_onContract hts hown.deletes⟩
  · rw [or_iff_right hnil]
    constructor
    · intro hexact
      obtain ⟨t, ht, hupdate, -⟩ := hexact.updated hnil hshort
      by_contra hlight
      rw [if_neg fun hboth => hlight hboth.1, List.append_nil] at hts
      have hdelete := deletes_onContract hts hown.deletes t (ht ▸ List.mem_singleton_self t)
      rw [hdelete] at hupdate
      cases hupdate
    · intro hnet
      obtain ⟨hremaining, hnone⟩ := hown.remaining hnet
      rw [if_pos ⟨hnet, hremaining ▸ hnil⟩] at hts
      obtain ⟨ts₁, ts₂, rfl, hts₁, hts₂⟩ := List.map_eq_append_iff.mp hts
      obtain ⟨t, rfl, ht⟩ := List.map_eq_singleton_iff.mp hts₂
      have hdeployment : t.deployment = { d with workloads := r.remaining } := congrArg Prod.fst ht
      have hfirst : onContract d ts₁ = [] := by
        refine List.filter_eq_nil_iff.mpr fun x hx hcontract => ?_
        have hop : (x.deployment, x.operation) ∈ r.operations :=
          hts₁ ▸ List.mem_map_of_mem (f := fun t => (t.deployment, t.operation)) hx
        exact hnone hnil _ hop (of_decide_eq_true hcontract)
      have hlast : onContract d [t] = [t] := by
        refine List.filter_eq_self.mpr fun x hx => decide_eq_true ?_
        rw [List.mem_singleton.mp hx]
        rw [TwinDeployment.contractId, hdeployment]
      refine ⟨fun hsome => absurd hsome hnil, fun _ _ => ⟨t, ?_, congrArg Prod.snd ht, ?_⟩,
        fun _ hall => absurd hall hnotAll⟩
      · show List.filter _ (ts₁ ++ [t]) = [t]
        rw [List.filter_append]
        show onContract d ts₁ ++ onContract d [t] = [t]
        rw [hfirst, hlast, List.nil_append]
      · show t.deployment.workloads = remaining
        rw [hdeployment]
        exact hremaining

/-- For every deployment and all names, what is emitted on its contract is exact when nothing has to
remain, when nothing goes, and when a machine goes whose network is a `Network`. -/
theorem delete_exact_iff {load : Bool → String → String → Except GridError AnyNetwork}
    {deployment : Deployment} {names : List String} {types : List WorkloadTypes}
    {machines : List Workload} {ts : List TwinDeployment} (hid : d.contractId = some id)
    (hreal : id ≠ 0) (hunique : (d.workloads.map (·.name)).Nodup) (hnames : names ≠ [])
    (hdecoded : fromObj v deployment = .ok d)
    (hfilter : filterWorkloads d names types = .ok (kept, machines))
    (hhosts : ∀ first ∈ machines.head?, ∀ n, loadNetwork load first = .ok n →
      Hosts isKnown (decide (first.type = .zmachinelight)) n d nodeId)
    (h : delete v load isKnown (.ok nodeId) deployment names types = .ok ts) :
    Exact d (mustRemain load d nodeId kept machines) ts ↔
      mustRemain load d nodeId kept machines = [] ∨
        (mustRemain load d nodeId kept machines).length = d.workloads.length ∨
        ∃ first ∈ machines.head?, first.type = .zmachine := by
  have hfiltered := filterWorkloads_filtered hnames hfilter
  cases machines with
  | nil =>
    have hts := exact_of_no_machine hdecoded hfilter h
    have hnone : ¬∃ first ∈ ([] : List Workload).head?, first.type = .zmachine := by
      rintro ⟨first, hin, -⟩
      cases hin
    rw [or_iff_left hnone]
    change Exact d kept ts ↔ kept = [] ∨ kept.length = d.workloads.length
    by_cases hnil : kept = []
    · rw [if_pos hnil] at hts
      refine iff_of_true ⟨fun _ => ?_, fun hsome => absurd hnil hsome, fun hsome =>
        absurd hnil hsome⟩ (Or.inl hnil)
      have hts' : ts.map (fun t => (t.deployment, t.operation)) = [(d, .delete)] := by
        rw [hts]
        rfl
      exact ⟨onContract_ne_nil hts' (List.mem_singleton_self _),
        deletes_onContract hts' fun op hop _ => List.mem_singleton.mp hop⟩
    · rw [if_neg hnil] at hts
      rw [or_iff_right hnil]
      constructor
      · intro hexact
        refine le_antisymm hfiltered.sublist.length_le (not_lt.mp fun hshort => ?_)
        obtain ⟨t, ht, -⟩ := hexact.updated hnil hshort
        rw [hts] at ht
        cases ht
      · intro hall
        refine ⟨fun hsome => absurd hsome hnil, fun _ hshort => absurd hall (Nat.ne_of_lt hshort),
          fun _ _ => ?_⟩
        rw [hts]
        rfl
  | cons first rest =>
    obtain ⟨r, -, hr, -⟩ := delete_parts hdecoded hfilter h
    obtain ⟨n, hload⟩ : ∃ n, loadNetwork load first = .ok n := by
      obtain ⟨st, hst, -⟩ := exceptBind_eq_ok.mp hr
      rw [List.foldlM_cons] at hst
      obtain ⟨st₁, hone, -⟩ := exceptBind_eq_ok.mp hst
      obtain ⟨n, hn, -⟩ := exceptBind_eq_ok.mp hone
      exact ⟨n, hn⟩
    have hfirst := hhosts first rfl n hload
    have hshort : (mustRemain load d nodeId kept (first :: rest)).length < d.workloads.length :=
      lt_of_le_of_lt mustRemain_sublist.length_le (hfiltered.shorter (List.cons_ne_nil _ _))
    have hmachine := (hfiltered.deleted first List.mem_cons_self).2
    have hcls : n.isNetwork = true ↔ ∃ x ∈ (first :: rest).head?, x.type = .zmachine := by
      rw [hfirst.cls, List.head?_cons]
      simp only [Option.mem_some_iff, exists_eq_left']
      rcases of_decide_eq_true hmachine with htype | htype
      · simp [htype]
      · simp [htype]
    rw [exact_iff_of_machine hid hreal hunique hdecoded hfiltered hfilter hload hfirst h, hcls,
      or_iff_right (Nat.ne_of_lt hshort)]

end

end ThreefoldSdk.HighLevel
