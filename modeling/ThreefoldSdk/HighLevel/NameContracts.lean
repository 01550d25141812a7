import ThreefoldSdk.HighLevel.CreateBatch
import ThreefoldSdk.TfChain.NameLedger

/-! The name contracts that a plan creates and cancels, against the name gateways that its twin
deployments add and remove. -/

namespace ThreefoldSdk.HighLevel
open Staged Zos Primitives TfChain Frame

/-- The names of the name gateways. -/
def gatewayNames (ws : List Workload) : List String :=
  (ws.filter fun w => decide (w.type = .gatewaynameproxy)).map fun w => gatewayName w.data

/-- What the contract of a twin deployment has before the call; `before` gives it for an update. -/
def workloadsBefore (before : Option Nat → List Workload) (t : TwinDeployment) : List Workload :=
  match t.operation with
  | .deploy => []
  | .update => before t.contractId
  | .delete => t.workloads

def workloadsAfter (t : TwinDeployment) : List Workload :=
  match t.operation with
  | .deploy => t.workloads
  | .update => t.workloads
  | .delete => []

def addedNames (before : Option Nat → List Workload) (t : TwinDeployment) : List String :=
  (gatewayNames (workloadsAfter t)).filter fun name =>
    decide (name ∉ gatewayNames (workloadsBefore before t))

def removedNames (before : Option Nat → List Workload) (t : TwinDeployment) : List String :=
  (gatewayNames (workloadsBefore before t)).filter fun name =>
    decide (name ∉ gatewayNames (workloadsAfter t))

/-- The extrinsics of the second batch. -/
def Plan.deletions (plan : Plan) : List Extrinsic := plan.deletedExtrinsics.filterMap id

/-- Name contracts follow the name gateways: the plan asks for those that are added and cancels
those that are removed, and when both batches are applied the twin holds a name contract for each
gateway. `others` are the names of its gateways in other deployments. -/
structure NamesFollow {S : Type} (env : HandlerEnv S) (before : Option Nat → List Workload)
    (others : List String) (s : S) (ts : List TwinDeployment) (plan : Plan) : Prop where
  creates : (namesOf (plan.creations.map (·.call))).Perm (ts.flatMap (addedNames before))
  cancels : (canceledNames env.chain s (plan.deletions.map (·.call))).Perm
    (ts.flatMap (removedNames before))
  after : ∀ rejects rejects' rs rs',
    let created := batchAll env.chain.runtime rejects (plan.creations.map some) s
    let deleted := batchAll env.chain.runtime rejects' plan.deletedExtrinsics created.state
    created.result = .ok rs → deleted.result = .ok rs' →
      HoldsExactly env.chain env.twinId deleted.state
        (others ++ ts.flatMap fun t => gatewayNames (workloadsAfter t))

/-! What the plan holds. -/

theorem gatewayNames_cons_of_ne {w : Workload} {ws : List Workload} (h : w.type ≠ .gatewaynameproxy) :
    gatewayNames (w :: ws) = gatewayNames ws := by
  unfold gatewayNames
  rw [List.filter_cons_of_neg (by simpa using h)]

theorem gatewayNames_cons {w : Workload} {ws : List Workload} (h : w.type = .gatewaynameproxy) :
    gatewayNames (w :: ws) = gatewayName w.data :: gatewayNames ws := by
  unfold gatewayNames
  rw [List.filter_cons_of_pos (by simpa using h), List.map_cons]

theorem isAnyNetwork_not_gateway {w : Workload} (h : isAnyNetwork w = true) :
    w.type ≠ .gatewaynameproxy := by
  intro htype
  rcases of_decide_eq_true h with hnet | hnet
  · rw [htype] at hnet
    cases hnet
  · rw [htype] at hnet
    cases hnet

theorem gatewayNames_renewed {ws ws' : List Workload} (h : List.Forall₂ Renewed ws ws') :
    gatewayNames ws' = gatewayNames ws := by
  induction h with
  | nil => rfl
  | @cons w w' ws ws' hw _ ih =>
    by_cases htype : w.type = .gatewaynameproxy
    · have hother : isAnyNetwork w = false :=
        Bool.eq_false_iff.mpr fun hnet => isAnyNetwork_not_gateway hnet htype
      rw [hw.other hother, gatewayNames_cons htype, gatewayNames_cons htype, ih]
    · rw [gatewayNames_cons_of_ne htype, gatewayNames_cons_of_ne (hw.type ▸ htype), ih]

/-- The step on the network leaves the gateways alone. -/
theorem updateNetworkWorkloads_gatewayNames {json : MetadataJson} {t t' : TwinDeployment}
    (h : updateNetworkWorkloads json t = .ok t') :
    t'.operation = t.operation ∧ t'.contractId = t.contractId ∧
      gatewayNames t'.workloads = gatewayNames t.workloads := by
  obtain ⟨ws, rfl, hws⟩ := updateNetworkWorkloads_ok h
  exact ⟨rfl, rfl, gatewayNames_renewed hws⟩

section
variable {S : Type} {env : HandlerEnv S}

theorem reads_nameExtrinsicsOf_names (ws : List Workload) :
    Reads World.chain (fun _ xs => xs = (gatewayNames ws).map createName)
      (nameExtrinsicsOf env ws) := by
  induction ws with
  | nil => exact reads_pure fun _ => rfl
  | cons w ws ih =>
    rw [nameExtrinsicsOf]
    split
    · rename_i hw
      refine (reads_createNameContract _).bind fun x => ih.bind fun xs => reads_pure ?_
      intro s hxs hx
      rw [gatewayNames_cons hw, List.map_cons, hx, hxs]
    · rename_i hw
      rw [gatewayNames_cons_of_ne hw]
      exact ih

theorem namesOf_createNames (names : List String) :
    namesOf ((names.map createName).map (·.call)) = names := by
  induction names with
  | nil => rfl
  | cons name names ih =>
    have htail : namesOf (((name :: names).map createName).map (·.call)) =
        name :: namesOf ((names.map createName).map (·.call)) := rfl
    rw [htail, ih]

theorem reads_prepareExtrinsic_names (t : TwinDeployment) :
    Reads World.chain (fun _ p => namesOf (p.nodeExtrinsics.map (·.call)) = [] ∧
      namesOf (p.nameExtrinsics.map (·.call)) = gatewayNames (workloadsAfter t))
      (prepareExtrinsic env t) := by
  unfold prepareExtrinsic
  split
  · rename_i hop
    refine (reads_nameExtrinsicsOf_names _).bind fun names => reads_pure fun s hnames => ?_
    unfold workloadsAfter
    rw [hnames, hop]
    exact ⟨rfl, namesOf_createNames _⟩
  · rename_i hop
    refine (reads_nameExtrinsicsOf_names _).bind fun names =>
      (reads_getContract _).bind fun contract =>
      (reads_lift _).bind fun p => reads_pure fun s _ _ hnames => ?_
    unfold workloadsAfter
    rw [hnames, hop]
    exact ⟨rfl, namesOf_createNames _⟩
  · rename_i hop
    refine (reads_deletedNamesOf _).bind fun names => (reads_cancelContract _).bind fun x =>
      reads_pure fun s _ _ => ?_
    unfold workloadsAfter
    rw [hop]
    exact ⟨rfl, rfl⟩

theorem namesOf_append (calls calls' : List Call) :
    namesOf (calls ++ calls') = namesOf calls ++ namesOf calls' := List.filterMap_append

/-- The plan of a list asks for every name gateway of its deploys and updates, and cancels what its
deletes have. -/
theorem reads_prepareAll_names (ts : List TwinDeployment) :
    Reads World.chain (fun s plan => namesOf (plan.nodeExtrinsics.map (·.call)) = [] ∧
      namesOf (plan.nameExtrinsics.map (·.call)) =
        (ts.flatMap fun t => gatewayNames (workloadsAfter t)) ∧
      plan.deletions = (ts.flatMap (deletedIds env.chain s)).map cancelExtrinsic)
      (prepareAll env ts) := by
  induction ts with
  | nil => exact reads_pure fun _ => ⟨rfl, rfl, rfl⟩
  | cons t ts ih =>
    rw [prepareAll]
    refine (reads_lift _).bind fun t' => ?_
    have hboth : Reads World.chain (fun s p => (namesOf (p.nodeExtrinsics.map (·.call)) = [] ∧
        namesOf (p.nameExtrinsics.map (·.call)) = gatewayNames (workloadsAfter t')) ∧
        p.deletedExtrinsics.filterMap id = (deletedIds env.chain s t').map cancelExtrinsic)
        (prepareExtrinsic env t') := fun s p s' h =>
      ⟨(reads_prepareExtrinsic_names t' s p s' h).1, (reads_prepareExtrinsic_names t' s p s' h).2,
        (reads_prepareExtrinsic_ids t' s p s' h).2⟩
    refine hboth.bind fun p => ih.bind fun plan => reads_pure fun s hplan hp hlift => ?_
    obtain ⟨hop, hid, hnames⟩ := updateNetworkWorkloads_gatewayNames hlift
    have hafter : gatewayNames (workloadsAfter t') = gatewayNames (workloadsAfter t) := by
      unfold workloadsAfter
      rw [hop]
      cases t.operation with
      | deploy => exact hnames
      | update => exact hnames
      | delete => rfl
    have hdeleted : deletedIds env.chain s t' = deletedIds env.chain s t := by
      have hids : ((t'.workloads.filter fun w => decide (w.type = .gatewaynameproxy)).map fun w =>
          env.chain.contractIdByName s (gatewayName w.data)) =
          (t.workloads.filter fun w => decide (w.type = .gatewaynameproxy)).map fun w =>
            env.chain.contractIdByName s (gatewayName w.data) := by
        have hmap := congrArg (List.map (env.chain.contractIdByName s)) hnames
        unfold gatewayNames at hmap
        rw [List.map_map, List.map_map] at hmap
        exact hmap
      unfold deletedIds
      rw [hop, hid, hids]
    refine ⟨?_, ?_, ?_⟩
    · show namesOf ((p.nodeExtrinsics ++ plan.nodeExtrinsics).map (·.call)) = []
      rw [List.map_append, namesOf_append, hp.1.1, hplan.1]
      rfl
    · show namesOf ((p.nameExtrinsics ++ plan.nameExtrinsics).map (·.call)) = _
      rw [List.map_append, namesOf_append, hp.1.2, hplan.2.1, hafter, List.flatMap_cons]
    · show (p.deletedExtrinsics ++ plan.deletedExtrinsics).filterMap id = _
      rw [List.filterMap_append, hp.2, hdeleted, List.flatMap_cons, List.map_append]
      exact congrArg _ hplan.2.2

end

/-! The condition. -/

/-- Lists that are part of others, one for one: together they are the others only when each of them
is. -/
theorem flatMap_perm_iff {α β : Type*} {f g : α → List β} {xs : List α}
    (hsub : ∀ a ∈ xs, (f a).Sublist (g a)) :
    (xs.flatMap f).Perm (xs.flatMap g) ↔ ∀ a ∈ xs, f a = g a := by
  have hkey : (xs.flatMap f).length ≤ (xs.flatMap g).length ∧
      ((xs.flatMap g).length ≤ (xs.flatMap f).length → ∀ a ∈ xs, f a = g a) := by
    induction xs with
    | nil => exact ⟨Nat.le_refl _, fun _ a ha => nomatch ha⟩
    | cons x xs ih =>
      obtain ⟨hle, heq⟩ := ih fun a ha => hsub a (List.mem_cons_of_mem _ ha)
      have hfirst := hsub x List.mem_cons_self
      have hlen := hfirst.length_le
      rw [List.flatMap_cons, List.flatMap_cons, List.length_append, List.length_append]
      refine ⟨Nat.add_le_add hlen hle, fun h a ha => ?_⟩
      rcases List.mem_cons.mp ha with rfl | ha
      · exact hfirst.eq_of_length (by omega)
      · exact heq (by omega) a ha
  constructor
  · intro h
    exact hkey.2 (Nat.le_of_eq h.length_eq.symm)
  · intro h
    rw [List.flatMap_congr h]

/-- What the plan cancels of the names of a twin deployment. -/
def deletedNames (t : TwinDeployment) : List String :=
  if t.operation = .delete then gatewayNames t.workloads else []

section
variable {before : Option Nat → List Workload}

theorem addedNames_sublist (t : TwinDeployment) :
    (addedNames before t).Sublist (gatewayNames (workloadsAfter t)) := List.filter_sublist

theorem deletedNames_sublist (t : TwinDeployment) :
    (deletedNames t).Sublist (removedNames before t) := by
  unfold deletedNames removedNames workloadsBefore workloadsAfter
  cases t.operation with
  | deploy => exact List.nil_sublist _
  | update => exact List.nil_sublist _
  | delete =>
    have hall : ∀ name ∈ gatewayNames t.workloads,
        decide (name ∉ gatewayNames ([] : List Workload)) = true := fun _ _ => rfl
    show (gatewayNames t.workloads).Sublist _
    rw [List.filter_eq_self.mpr hall]

/-- A twin deployment's names are all new and none is left behind exactly when it updates no
deployment that has a name gateway. -/
theorem names_exact_iff (t : TwinDeployment) :
    addedNames before t = gatewayNames (workloadsAfter t) ∧ deletedNames t = removedNames before t ↔
      (t.operation = .update → gatewayNames (before t.contractId) = []) := by
  unfold addedNames deletedNames removedNames workloadsAfter workloadsBefore
  cases hop : t.operation with
  | deploy =>
    constructor
    · intro _ h
      cases h
    · intro _
      exact ⟨List.filter_eq_self.mpr fun _ _ => rfl, rfl⟩
  | delete =>
    constructor
    · intro _ h
      cases h
    · intro _
      exact ⟨rfl, (List.filter_eq_self.mpr fun _ _ => rfl).symm⟩
  | update =>
    dsimp only
    constructor
    · intro h _
      obtain ⟨hadded, hremoved⟩ := h
      rw [List.filter_eq_self] at hadded
      rw [if_neg (by decide), eq_comm, List.filter_eq_nil_iff] at hremoved
      rw [List.eq_nil_iff_forall_not_mem]
      intro name hname
      -- a name of the old deployment is either kept, and asked for again, or removed, and left
      by_cases hkept : name ∈ gatewayNames t.workloads
      · exact of_decide_eq_true (hadded name hkept) hname
      · exact hremoved name hname (decide_eq_true hkept)
    · intro h
      rw [h rfl]
      exact ⟨List.filter_eq_self.mpr fun _ _ => rfl, rfl⟩

end

section
variable {S : Type} {env : HandlerEnv S} {before : Option Nat → List Workload} {others : List String}
  {ts : List TwinDeployment}

theorem canceledNames_ids (chain : Chain S) (s : S) (ids : List Nat) :
    canceledNames chain s ((ids.map cancelExtrinsic).map (·.call)) =
      ids.filterMap (nameAt chain s) := by
  unfold canceledNames
  rw [List.map_map, List.filterMap_map]
  rfl

theorem filterMap_nameAt_lookup {chain : Chain S} {s : S} {names : List String}
    (h : ∀ name ∈ names, nameAt chain s (chain.contractIdByName s name) = some name) :
    ((names.map (chain.contractIdByName s)).filter fun id => (chain.contract s id).isSome).filterMap
      (nameAt chain s) = names := by
  induction names with
  | nil => rfl
  | cons name names ih =>
    have hname := h name List.mem_cons_self
    have hsome : (chain.contract s (chain.contractIdByName s name)).isSome = true := by
      cases hc : chain.contract s (chain.contractIdByName s name) with
      | none =>
        unfold nameAt at hname
        rw [hc] at hname
        cases hname
      | some c => rfl
    rw [List.map_cons, List.filter_cons_of_pos (by simpa using hsome), List.filterMap_cons, hname,
      ih fun n hn => h n (List.mem_cons_of_mem _ hn)]

/-- The names that the deletions of a twin deployment cancel, when each of its gateways has its
contract. -/
theorem filterMap_deletedIds {chain : Chain S} {s : S} {t : TwinDeployment}
    (hnode : t.operation = .delete → nameAt chain s (t.contractId.getD 0) = none)
    (h : ∀ name ∈ deletedNames t, nameAt chain s (chain.contractIdByName s name) = some name) :
    (deletedIds chain s t).filterMap (nameAt chain s) = deletedNames t := by
  unfold deletedIds deletedNames at *
  split_ifs with hop
  · rw [if_pos hop] at h
    have hlast : ([t.contractId.getD 0].filter fun id => (chain.contract s id).isSome).filterMap
        (nameAt chain s) = [] := by
      rw [List.filterMap_eq_nil_iff]
      intro id hid
      rw [List.mem_singleton.mp (List.mem_filter.mp hid).1]
      exact hnode hop
    have hnames := filterMap_nameAt_lookup h
    unfold gatewayNames at hnames
    rw [List.map_map] at hnames
    rw [List.filter_append, List.filterMap_append, hlast, List.append_nil]
    exact hnames
  · rfl

theorem filterMap_flatMap_deletedIds {chain : Chain S} {s : S}
    (hnode : ∀ t ∈ ts, t.operation = .delete → nameAt chain s (t.contractId.getD 0) = none)
    (h : ∀ t ∈ ts, ∀ name ∈ deletedNames t,
      nameAt chain s (chain.contractIdByName s name) = some name) :
    (ts.flatMap (deletedIds chain s)).filterMap (nameAt chain s) = ts.flatMap deletedNames := by
  induction ts with
  | nil => rfl
  | cons t ts ih =>
    rw [List.flatMap_cons, List.filterMap_append, List.flatMap_cons,
      filterMap_deletedIds (hnode t List.mem_cons_self) (h t List.mem_cons_self),
      ih (fun t ht => hnode t (List.mem_cons_of_mem _ ht)) fun t ht =>
        h t (List.mem_cons_of_mem _ ht)]

theorem mem_deletedIds {chain : Chain S} {s : S} {t : TwinDeployment} {id : Nat}
    (h : id ∈ deletedIds chain s t) : t.operation = .delete ∧ chain.contract s id ≠ none ∧
      ((∃ name ∈ gatewayNames t.workloads, chain.contractIdByName s name = id) ∨
        id = t.contractId.getD 0) := by
  unfold deletedIds at h
  split_ifs at h with hop
  · obtain ⟨hmem, hsome⟩ := List.mem_filter.mp h
    refine ⟨hop, Option.isSome_iff_ne_none.mp hsome, ?_⟩
    rcases List.mem_append.mp hmem with hmem | hmem
    · obtain ⟨w, hw, hid⟩ := List.mem_map.mp hmem
      exact Or.inl ⟨gatewayName w.data, List.mem_map_of_mem hw, hid⟩
    · exact Or.inr (List.mem_singleton.mp hmem)
  · cases h

theorem lookup_mem_deletedIds {chain : Chain S} {s : S} {t : TwinDeployment} {name : String}
    (hop : t.operation = .delete) (hname : name ∈ gatewayNames t.workloads)
    (hat : nameAt chain s (chain.contractIdByName s name) = some name) :
    chain.contractIdByName s name ∈ deletedIds chain s t := by
  obtain ⟨w, hw, hwname⟩ := List.mem_map.mp hname
  unfold deletedIds
  rw [if_pos hop, List.mem_filter]
  constructor
  · refine List.mem_append_left _ (List.mem_map.mpr ⟨w, hw, ?_⟩)
    rw [hwname]
  · rw [Option.isSome_iff_ne_none]
    intro hnone
    unfold nameAt at hat
    rw [hnone] at hat
    cases hat

/-- The name contracts follow the name gateways exactly when no deployment that is updated had a
name gateway. -/
theorem namesFollow_iff (reg : NameRegistry env.chain env.twinId) {w w' : World S} {plan : Plan}
    (h : prepareAll env ts w = .ok plan w')
    (hnode : ∀ t ∈ ts, t.operation = .delete → nameAt env.chain w.chain (t.contractId.getD 0) = none)
    (hbefore : HoldsExactly env.chain env.twinId w.chain
      (others ++ ts.flatMap fun t => gatewayNames (workloadsBefore before t))) :
    NamesFollow env before others w.chain ts plan ↔
      ∀ t ∈ ts, t.operation = .update → gatewayNames (before t.contractId) = [] := by
  obtain ⟨-, hnodes, hnames, hdeletions⟩ := reads_prepareAll_names ts w plan w' h
  have hcreated : namesOf (plan.creations.map (·.call)) =
      ts.flatMap fun t => gatewayNames (workloadsAfter t) := by
    unfold Plan.creations
    rw [List.map_append, namesOf_append, hnodes, hnames]
    rfl
  have hat : ∀ name, name ∈ (others ++ ts.flatMap fun t => gatewayNames (workloadsBefore before t)) →
      nameAt env.chain w.chain (env.chain.contractIdByName w.chain name) = some name := by
    intro name hname
    obtain ⟨id, hid⟩ := (hbefore.iff name).mpr hname
    rw [hid.lookup reg]
    exact hid.nameAt
  have hdeleted : ∀ t ∈ ts, ∀ name ∈ deletedNames t,
      nameAt env.chain w.chain (env.chain.contractIdByName w.chain name) = some name := by
    intro t ht name hname
    refine hat name (List.mem_append_right _ (List.mem_flatMap.mpr ⟨t, ht, ?_⟩))
    unfold deletedNames at hname
    split_ifs at hname with hop
    · unfold workloadsBefore
      rw [hop]
      exact hname
    · cases hname
  have hcanceled : canceledNames env.chain w.chain (plan.deletions.map (·.call)) =
      ts.flatMap deletedNames := by
    rw [hdeletions, canceledNames_ids, filterMap_flatMap_deletedIds hnode hdeleted]
  have hcreates : (namesOf (plan.creations.map (·.call))).Perm (ts.flatMap (addedNames before)) ↔
      ∀ t ∈ ts, addedNames before t = gatewayNames (workloadsAfter t) := by
    rw [hcreated, List.perm_comm]
    exact flatMap_perm_iff fun t _ => addedNames_sublist t
  have hcancels : (canceledNames env.chain w.chain (plan.deletions.map (·.call))).Perm
      (ts.flatMap (removedNames before)) ↔ ∀ t ∈ ts, deletedNames t = removedNames before t := by
    rw [hcanceled]
    exact flatMap_perm_iff fun t _ => deletedNames_sublist t
  constructor
  · intro hfollow t ht
    exact (names_exact_iff t).mp ⟨hcreates.mp hfollow.creates t ht, hcancels.mp hfollow.cancels t ht⟩
  · intro hnone
    refine ⟨hcreates.mpr fun t ht => ((names_exact_iff t).mpr (hnone t ht)).1,
      hcancels.mpr fun t ht => ((names_exact_iff t).mpr (hnone t ht)).2, ?_⟩
    intro rejects rejects' rs rs' created deleted hok hok'
    obtain ⟨-, hsound⟩ := reads_prepareAll ts w plan w' h
    obtain ⟨evs, hexec⟩ := batchAll_state (R := env.chain.runtime) rejects
      (plan.creations.map some) w.chain
    obtain ⟨evs', hexec'⟩ := batchAll_state (R := env.chain.runtime) rejects' plan.deletedExtrinsics
      created.state
    have hdone : (plan.creations.map some).filterMap id = plan.creations := by
      rw [List.filterMap_map]
      exact List.filterMap_some
    rw [batchAll_done_of_ok hok, hdone] at hexec
    rw [batchAll_done_of_ok hok'] at hexec'
    have hcalls : (plan.deletions.map (·.call)) =
        (ts.flatMap (deletedIds env.chain w.chain)).map Call.cancelContract := by
      rw [hdeletions, List.map_map]
      rfl
    have hfinal : HoldsExactly env.chain env.twinId deleted.state
        (others ++ namesOf (plan.creations.map (·.call))) := by
      refine holdsExactly_after reg hbefore ?_ ?_ ?_ ?_ hexec (hcalls ▸ hexec')
      · intro call hcall
        obtain ⟨x, hx, rfl⟩ := List.mem_map.mp hcall
        obtain ⟨call, hmakes, rfl⟩ := hsound.makes x hx
        exact hmakes
      · intro id hid
        obtain ⟨t, -, hid⟩ := List.mem_flatMap.mp hid
        exact (mem_deletedIds hid).2.1
      · intro name hname
        obtain ⟨t, ht, hin⟩ := List.mem_flatMap.mp hname
        refine List.mem_flatMap.mpr ⟨t, ht, ?_⟩
        have hheld := hat name (List.mem_append_right _ hname)
        cases hop : t.operation with
        | deploy =>
          unfold workloadsBefore at hin
          rw [hop] at hin
          cases hin
        | update =>
          unfold workloadsBefore at hin
          rw [hop] at hin
          rw [hnone t ht hop] at hin
          cases hin
        | delete =>
          unfold workloadsBefore at hin
          rw [hop] at hin
          exact lookup_mem_deletedIds hop hin hheld
      · intro name hname hid
        obtain ⟨t, ht, hid⟩ := List.mem_flatMap.mp hid
        obtain ⟨hop, -, hof⟩ := mem_deletedIds hid
        have hheld := hat name (List.mem_append_left _ hname)
        rcases hof with ⟨name', hname', heq⟩ | heq
        · -- one contract has one name, and the names are all different
          have hin : name' ∈ ts.flatMap fun t => gatewayNames (workloadsBefore before t) := by
            refine List.mem_flatMap.mpr ⟨t, ht, ?_⟩
            unfold workloadsBefore
            rw [hop]
            exact hname'
          have hheld' := hat name' (List.mem_append_right _ hin)
          rw [heq, hheld] at hheld'
          have hsame : name = name' := Option.some.inj hheld'
          exact (List.nodup_append.mp hbefore.nodup).2.2 name hname name' hin hsame
        · rw [heq, hnode t ht hop] at hheld
          cases hheld
    rw [hcreated] at hfinal
    exact hfinal

end

/-! A handler of twin 1, whose chain is a registry of names. -/

def nameEnv : HandlerEnv NameLedger where
  chain := nameChain
  validators := sampleEnv.validators
  json := sampleEnv.json
  resources := sampleEnv.resources
  md5 := id
  signature := id
  keypairType := .sr25519
  twinId := 1
  deploymentTimeoutMinutes := 10
  fails := fun _ => none
  delivered := fun _ => false
  lookupFails := fun _ _ => none
  rejects := fun _ _ => false
  verified := fun _ => true
  polls := fun _ _ => []

/-- Two deployments, and the name contract of a gateway of the second. -/
def heldCalls : List Call :=
  [.createNodeContract 11 "h" "" 0 none, .createNodeContract 11 "i" "" 0 none,
    .createNameContract "old"]

def heldLedger : NameLedger := ((nameRuntime.execAll heldCalls .empty).map Prod.fst).getD .empty

def heldWorld : World NameLedger where
  chain := heldLedger
  held := fun _ => none
  originalDeployments := []
  newContracts := []
  deletedContracts := []
  clock := 0

theorem heldLedger_holds : HoldsExactly nameChain 1 heldLedger ["old"] := by
  have hexec : ∃ evs, nameRuntime.execAll heldCalls .empty = some (heldLedger, evs) := ⟨_, rfl⟩
  obtain ⟨evs, hexec⟩ := hexec
  have hmakes : ∀ call ∈ heldCalls, Makes call := by
    intro call hcall
    simp only [heldCalls, List.mem_cons, List.not_mem_nil, or_false] at hcall
    rcases hcall with rfl | rfl | rfl
    · exact .createNode ..
    · exact .createNode ..
    · exact .createName _
  obtain ⟨-, hall, -, -⟩ := execAll_makes_holds nameChain_registry hmakes hexec
  refine ⟨by decide, fun name => ?_⟩
  rw [hall]
  exact or_iff_right fun h => nomatch h.choose_spec.choose_spec.1

def sampleGateway (name : String) (version : Nat) : Workload :=
  ⟨version, name, .gatewaynameproxy, .gatewaynameproxy ⟨name, false, ["http://10.1.2.3:80"], none⟩, "",
    "", none⟩

/-- A gateway is deployed, a database is added to the first contract, and the second one is
deleted. -/
def gatewayMoves : List TwinDeployment :=
  [.make (sampleDeployment none [sampleGateway "new" 0]) .deploy 0 11 "" none,
    .make (sampleDeployment (some 1) [sampleZdb "a" 0 1, sampleZdb "b" 1 1]) .update 0 11 "" none,
    .make (sampleDeployment (some 2) [sampleGateway "old" 0]) .delete 0 11 "" none]

/-- The workloads of the first contract and of the second. -/
def heldWorkloads (id : Option Nat) : List Workload :=
  if id = some 1 then [sampleZdb "a" 0 1] else [sampleGateway "old" 0]

theorem gatewayMoves_namesFollow : ∃ plan w, prepareAll nameEnv gatewayMoves heldWorld = .ok plan w ∧
    NamesFollow nameEnv heldWorkloads [] heldLedger gatewayMoves plan := by
  have hreturned : returned (prepareAll nameEnv gatewayMoves heldWorld) = true := by decide +kernel
  obtain ⟨plan, w, hplan⟩ := exists_ok_of_returned hreturned
  have hheld : HoldsExactly nameEnv.chain nameEnv.twinId heldWorld.chain
      ([] ++ gatewayMoves.flatMap fun t => gatewayNames (workloadsBefore heldWorkloads t)) :=
    heldLedger_holds
  have hnode : ∀ t ∈ gatewayMoves, t.operation = .delete →
      nameAt nameChain heldLedger (t.contractId.getD 0) = none := by decide +kernel
  exact ⟨plan, w, hplan, (namesFollow_iff nameChain_registry hplan hnode hheld).mpr (by decide +kernel)⟩

/-- A database is added to the second contract, and its gateway is kept. -/
def gatewayKept : List TwinDeployment :=
  [.make (sampleDeployment (some 2) [sampleGateway "old" 0, sampleZdb "b" 1 1]) .update 0 11 "" none]

theorem gatewayKept_asked_again : HoldsExactly nameEnv.chain nameEnv.twinId heldWorld.chain
      (gatewayKept.flatMap fun t => gatewayNames (workloadsBefore heldWorkloads t)) ∧
    ∃ plan w, prepareAll nameEnv gatewayKept heldWorld = .ok plan w ∧
      ¬NamesFollow nameEnv heldWorkloads [] heldLedger gatewayKept plan := by
  refine ⟨heldLedger_holds, ?_⟩
  have hreturned : returned (prepareAll nameEnv gatewayKept heldWorld) = true := by decide +kernel
  obtain ⟨plan, w, hplan⟩ := exists_ok_of_returned hreturned
  refine ⟨plan, w, hplan, fun hfollow => ?_⟩
  obtain ⟨-, hnodes, hnames, -⟩ := reads_prepareAll_names _ _ _ _ hplan
  have hcreated := hfollow.creates
  unfold Plan.creations at hcreated
  rw [List.map_append, namesOf_append, hnodes, hnames] at hcreated
  have hlength := hcreated.length_eq
  revert hlength
  decide

end ThreefoldSdk.HighLevel
