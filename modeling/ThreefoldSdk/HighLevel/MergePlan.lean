import ThreefoldSdk.HighLevel.Merge
import ThreefoldSdk.Lib.Frame

/-! The merged plan: one operation for each contract, and the workloads to deploy on every node. -/

namespace ThreefoldSdk.HighLevel
open Zos Primitives TfChain Frame

/-- The operations of one kind on a contract. -/
def operationsOn (op : Operations) (id : Nat) (ts : List TwinDeployment) : List TwinDeployment :=
  ts.filter fun t => decide (t.operation = op ∧ t.contractId = some id)

/-- The workloads to deploy on a node. -/
def deployedOn (nodeId : Nat) (ts : List TwinDeployment) : Multiset Workload :=
  ((ts.filter fun t => decide (t.operation = .deploy ∧ t.nodeId = nodeId)).flatMap
    (·.workloads) : List Workload)

/-- A deployment to be created is no operation on a contract that exists. -/
structure ConsistentPlan (ts out : List TwinDeployment) : Prop where
  atMostOne : ∀ id, (operationsOn .update id out).length + (operationsOn .delete id out).length ≤ 1
  deleted : ∀ id, operationsOn .delete id ts ≠ [] →
    (operationsOn .delete id out).length = 1 ∧ operationsOn .update id out = []
  updated : ∀ id, operationsOn .update id ts ≠ [] → operationsOn .delete id ts = [] →
    (operationsOn .update id out).length = 1 ∧ operationsOn .delete id out = []
  deploys : ∀ nodeId, deployedOn nodeId out = deployedOn nodeId ts

theorem length_filter_key {α κ : Type*} [DecidableEq κ] {key : α → κ} {xs : List α} {k : κ}
    (h : (xs.map key).Nodup) :
    (xs.filter fun x => key x = k).length = if k ∈ xs.map key then 1 else 0 := by
  rw [← h.count, List.count, List.countP_map, List.countP_eq_length_filter]
  rfl

/-! The deploys. -/

theorem workloads_foldl (ts : List TwinDeployment) (m : TwinDeployment) :
    (ts.foldl (fun m t => m.withWorkloads (m.workloads ++ t.workloads)) m).workloads =
        m.workloads ++ ts.flatMap (·.workloads) ∧
      (ts.foldl (fun m t => m.withWorkloads (m.workloads ++ t.workloads)) m).nodeId = m.nodeId ∧
      (ts.foldl (fun m t => m.withWorkloads (m.workloads ++ t.workloads)) m).operation =
        m.operation := by
  induction ts generalizing m with
  | nil => simp
  | cons t ts ih =>
    obtain ⟨hw, hn, ho⟩ := ih (m.withWorkloads (m.workloads ++ t.workloads))
    rw [List.foldl_cons, hw, hn, ho]
    refine ⟨?_, rfl, rfl⟩
    simp [TwinDeployment.withWorkloads, TwinDeployment.workloads]

/-- The deploys that are merged, by node. -/
def deploymentMap (ts : List TwinDeployment) : ObjectMap Nat TwinDeployment :=
  ObjectMap.collect TwinDeployment.nodeId id
    (fun m t => m.withWorkloads (m.workloads ++ t.workloads)) ts

theorem deploymentMap_get {ts : List TwinDeployment} {n : Nat} {t : TwinDeployment}
    (h : (deploymentMap ts).get n = some t) :
    t.nodeId = n ∧ t.workloads = (ts.filter fun t => t.nodeId = n).flatMap (·.workloads) ∧
      ∃ t' ∈ ts, t.operation = t'.operation := by
  rw [deploymentMap, ObjectMap.get_collect] at h
  cases hf : ts.filter fun t => decide (t.nodeId = n) with
  | nil => simp [hf] at h
  | cons x ys =>
    obtain ⟨hw, hn, ho⟩ := workloads_foldl ys x
    have hx : x ∈ ts.filter fun t => decide (t.nodeId = n) := hf ▸ List.mem_cons_self
    rw [List.mem_filter, decide_eq_true_eq] at hx
    simp only [hf, id_eq, Option.some.injEq] at h
    subst h
    exact ⟨hn.trans hx.2, by rw [hw, List.flatMap_cons], x, hx.1, ho⟩

theorem deployedOn_values (ts : List TwinDeployment) (n : Nat) :
    (((deploymentMap ts).ordered arrayIndex).map Prod.snd |>.filter
        fun t => t.nodeId = n).flatMap (·.workloads) =
      (ts.filter fun t => t.nodeId = n).flatMap (·.workloads) := by
  have hkey : ∀ e ∈ (deploymentMap ts).ordered arrayIndex,
      decide (e.2.nodeId = n) = decide (e.1 = n) := by
    intro e he
    rw [(deploymentMap_get (ObjectMap.mem_ordered.mp he)).1]
  have hfilter : (((deploymentMap ts).ordered arrayIndex).map Prod.snd).filter
      (fun t => t.nodeId = n) =
      (((deploymentMap ts).ordered arrayIndex).filter fun e => e.1 = n).map Prod.snd := by
    rw [List.filter_map]
    exact congrArg _ (List.filter_congr hkey)
  rw [hfilter, ObjectMap.filter_ordered]
  cases hg : (deploymentMap ts).get n with
  | none =>
    rw [deploymentMap, ObjectMap.get_collect] at hg
    cases hf : ts.filter fun t => decide (t.nodeId = n) with
    | nil => simp
    | cons x ys => simp [hf] at hg
  | some t => simp [(deploymentMap_get hg).2.1]

theorem deployMerge_operation {ts : List TwinDeployment} {t : TwinDeployment}
    (h : t ∈ deployMerge ts) : t.operation = .deploy := by
  rcases List.mem_append.mp h with h | h
  · have hd := (List.mem_filter.mp h).1
    exact of_decide_eq_true (List.mem_filter.mp hd).2
  · obtain ⟨e, he, rfl⟩ := List.mem_map.mp h
    obtain ⟨-, -, t', ht', ho⟩ := deploymentMap_get (ObjectMap.mem_ordered.mp he)
    have hd := (List.mem_filter.mp ht').1
    exact ho.trans (of_decide_eq_true (List.mem_filter.mp hd).2)

theorem deployedOn_deployMerge (ts : List TwinDeployment) (n : Nat) :
    deployedOn n (deployMerge ts) = deployedOn n ts := by
  let deploys := ts.filter fun t => decide (t.operation = .deploy)
  have hin : deployedOn n ts =
      ((deploys.filter fun t => decide (t.nodeId = n)).flatMap (·.workloads) : List Workload) := by
    simp only [deployedOn, deploys, List.filter_filter, Bool.decide_and, Bool.and_comm]
  have hout : deployedOn n (deployMerge ts) =
      (((deployMerge ts).filter fun t => decide (t.nodeId = n)).flatMap
        (·.workloads) : List Workload) := by
    rw [deployedOn]
    congr 2
    apply List.filter_congr
    intro t ht
    simp [deployMerge_operation ht]
  have hsplit := List.filter_append_perm apart (deploys.filter fun t => decide (t.nodeId = n))
  rw [hin, hout, Multiset.coe_eq_coe]
  refine List.Perm.trans (List.Perm.of_eq ?_) (hsplit.flatMap_right _)
  have hmerge : deployMerge ts = deploys.filter apart ++
      ((deploymentMap (deploys.filter fun t => !apart t)).ordered arrayIndex).map Prod.snd := rfl
  rw [hmerge, List.filter_append, List.flatMap_append, List.flatMap_append, deployedOn_values]
  simp only [List.filter_filter, Bool.and_comm]

/-! The updates. -/

@[simp] theorem updateToLatest_operation (t : TwinDeployment) (ts : List TwinDeployment) :
    (updateToLatest t ts).operation = t.operation := by
  cases ts <;> rfl

@[simp] theorem updateToLatest_contractId (t : TwinDeployment) (ts : List TwinDeployment) :
    (updateToLatest t ts).contractId = t.contractId := by
  cases ts <;> rfl

theorem withNode_eq (get : Nat → Except GridError (Option Contract)) (t : TwinDeployment) :
    ∃ n, withNode get t = { t with nodeId := n } := by
  unfold withNode
  split
  · exact ⟨t.nodeId, rfl⟩
  · exact ⟨t.nodeId, rfl⟩
  · split
    · exact ⟨_, rfl⟩
    · exact ⟨t.nodeId, rfl⟩

def updateMap (get : Nat → Except GridError (Option Contract)) (ts : List TwinDeployment) :
    ObjectMap (Option Nat) (TwinDeployment × List TwinDeployment) :=
  ObjectMap.collect TwinDeployment.contractId (fun t => (withNode get t, []))
    (fun g t => (g.1, g.2 ++ [t])) ts

theorem foldl_group_fst (ts : List TwinDeployment) (g : TwinDeployment × List TwinDeployment) :
    (ts.foldl (fun g t => (g.1, g.2 ++ [t])) g).1 = g.1 := by
  induction ts generalizing g with
  | nil => rfl
  | cons t ts ih => rw [List.foldl_cons, ih]

theorem updateMap_get {get : Nat → Except GridError (Option Contract)} {ts : List TwinDeployment}
    {id : Option Nat} {g : TwinDeployment × List TwinDeployment}
    (h : (updateMap get ts).get id = some g) :
    g.1.contractId = id ∧ ∃ t ∈ ts, g.1.operation = t.operation := by
  rw [updateMap, ObjectMap.get_collect] at h
  cases hf : ts.filter fun t => decide (t.contractId = id) with
  | nil => simp [hf] at h
  | cons x ys =>
    have hx : x ∈ ts.filter fun t => decide (t.contractId = id) := hf ▸ List.mem_cons_self
    rw [List.mem_filter, decide_eq_true_eq] at hx
    obtain ⟨n, hn⟩ := withNode_eq get x
    simp only [hf, Option.some.injEq] at h
    subst h
    rw [foldl_group_fst, hn]
    exact ⟨hx.2, x, hx.1, rfl⟩

/-- One update for each contract that has updates. -/
theorem updateMerge_ok {get : Nat → Except GridError (Option Contract)}
    {ts us : List TwinDeployment} (h : updateMerge get ts = .ok us) :
    (us.map (·.contractId)).Nodup ∧ (∀ u ∈ us, u.operation = .update) ∧
      ∀ id, id ∈ us.map (·.contractId) ↔ ∃ t ∈ ts, t.operation = .update ∧ t.contractId = id := by
  let updates := ts.filter fun t => decide (t.operation = .update)
  have hus : us = ((updateMap get updates).ordered contractIndex).map
      fun e => updateToLatest e.2.1 e.2.2 := by
    unfold updateMerge at h
    obtain ⟨_, -, hok⟩ := exceptBind_eq_ok.mp h
    cases hok
    rfl
  have hids : us.map (·.contractId) =
      ((updateMap get updates).ordered contractIndex).map Prod.fst := by
    rw [hus, List.map_map]
    apply List.map_congr_left
    intro e he
    rw [Function.comp_apply, updateToLatest_contractId]
    exact (updateMap_get (ObjectMap.mem_ordered.mp he)).1
  refine ⟨hids ▸ ObjectMap.nodup_ordered_keys _ _, ?_, fun id => ?_⟩
  · intro u hu
    rw [hus] at hu
    obtain ⟨e, he, rfl⟩ := List.mem_map.mp hu
    obtain ⟨-, t, ht, ho⟩ := updateMap_get (ObjectMap.mem_ordered.mp he)
    rw [updateToLatest_operation, ho]
    exact of_decide_eq_true (List.mem_filter.mp ht).2
  · rw [hids, ((ObjectMap.ordered_perm _ _).map Prod.fst).mem_iff, updateMap,
      ObjectMap.mem_keys_collect]
    simp only [updates, List.mem_filter, decide_eq_true_eq, and_assoc]

/-- The lookup of the node of one update. -/
def lookupNode (get : Nat → Except GridError (Option Contract)) (id : Nat) :
    Except GridError Nat := get id >>= contractNodeId

theorem lookupNodes_ok_or (get : Nat → Except GridError (Option Contract))
    (ts : List TwinDeployment) :
    lookupNodes get ts = .ok () ∨
      ∃ e, lookupNodes get ts = .error e ∧ ∃ t ∈ ts, ∃ id, t.contractId = some id ∧ id ≠ 0 ∧
        lookupNode get id = .error e := by
  induction ts with
  | nil => exact Or.inl rfl
  | cons t ts ih =>
    have hrest : lookupNodes get ts = .ok () ∨ ∃ e, lookupNodes get ts = .error e ∧
        ∃ t' ∈ t :: ts, ∃ id, t'.contractId = some id ∧ id ≠ 0 ∧ lookupNode get id = .error e := by
      refine ih.imp_right ?_
      rintro ⟨e, he, t', ht', hid⟩
      exact ⟨e, he, t', List.mem_cons_of_mem _ ht', hid⟩
    rw [lookupNodes]
    split
    · exact hrest
    · exact hrest
    · rename_i id hzero hid
      have hstep : (do
          let contract ← get id
          let _ ← contractNodeId contract
          lookupNodes get ts) = lookupNode get id >>= fun _ => lookupNodes get ts := by
        unfold lookupNode
        cases get id <;> rfl
      rw [hstep]
      cases hg : lookupNode get id with
      | error e =>
        refine Or.inr ⟨e, rfl, t, List.mem_cons_self, id, hid, ?_, hg⟩
        rintro rfl
        exact hzero rfl
      | ok n => exact hrest

/-! The deletes. -/

theorem mergeDelete_spec (ts : List TwinDeployment) :
    ((mergeDelete ts).map (·.contractId)).Nodup ∧ (∀ t ∈ mergeDelete ts, t ∈ ts) ∧
      ∀ id, id ∈ (mergeDelete ts).map (·.contractId) ↔ id ∈ ts.map (·.contractId) := by
  let step := fun (acc : List TwinDeployment × List (Option Nat)) (t : TwinDeployment) =>
    if t.contractId ∈ acc.2 then acc else (acc.1 ++ [t], acc.2 ++ [t.contractId])
  -- the list of contracts seen is the one of the contracts kept
  have hrun : ∀ xs : List TwinDeployment, ((xs.foldl step ([], [])).1.map (·.contractId)) =
    (xs.foldl step ([], [])).2 ∧
      (xs.foldl step ([], [])).2.Nodup ∧ (∀ t ∈ (xs.foldl step ([], [])).1, t ∈ xs) ∧
      ∀ id, id ∈ (xs.foldl step ([], [])).2 ↔ id ∈ xs.map (·.contractId) := by
    intro xs
    induction xs using List.reverseRecOn with
    | nil => simp
    | append_singleton xs x ih =>
      obtain ⟨hmap, hnodup, hsub, hmem⟩ := ih
      rw [List.foldl_append, List.foldl_cons, List.foldl_nil]
      generalize xs.foldl step ([], []) = acc at hmap hnodup hsub hmem
      simp only [step]
      split
      · rename_i hin
        refine ⟨hmap, hnodup, fun t ht => List.mem_append_left _ (hsub t ht), fun id => ?_⟩
        rw [hmem, List.map_append, List.mem_append, List.map_cons, List.map_nil,
          List.mem_singleton]
        constructor
        · exact Or.inl
        · rintro (h | rfl)
          · exact h
          · exact (hmem _).mp hin
      · rename_i hin
        refine ⟨by simp [hmap], ?_, ?_, fun id => by simp [hmem]⟩
        · rw [List.nodup_append]
          refine ⟨hnodup, List.nodup_singleton _, ?_⟩
          intro a ha b hb hab
          exact hin (List.mem_singleton.mp hb ▸ hab ▸ ha)
        · intro t ht
          rcases List.mem_append.mp ht with ht | ht
          · exact List.mem_append_left _ (hsub t ht)
          · exact List.mem_append_right _ ht
  obtain ⟨hmap, hnodup, hsub, hmem⟩ := hrun ts
  have heq : (mergeDelete ts).map (·.contractId) = (ts.foldl step ([], [])).2 := hmap
  exact ⟨heq ▸ hnodup, hsub, fun id => by rw [heq, hmem]⟩

/-! The plan. -/

theorem operationsOn_append (op : Operations) (id : Nat) (xs ys : List TwinDeployment) :
    operationsOn op id (xs ++ ys) = operationsOn op id xs ++ operationsOn op id ys :=
  List.filter_append ..

theorem operationsOn_eq_nil {op : Operations} {id : Nat} {ts : List TwinDeployment} :
    operationsOn op id ts = [] ↔ ∀ t ∈ ts, t.operation = op → t.contractId ≠ some id := by
  simp only [operationsOn, List.filter_eq_nil_iff, decide_eq_true_eq, not_and, ne_eq]

theorem operationsOn_of_other {op op' : Operations} (hne : op ≠ op') (id : Nat)
    {ts : List TwinDeployment} (h : ∀ t ∈ ts, t.operation = op') : operationsOn op id ts = [] := by
  rw [operationsOn_eq_nil]
  intro t ht ho
  exact absurd (ho.symm.trans (h t ht)) hne

theorem length_operationsOn {op : Operations} {id : Nat} {ts : List TwinDeployment}
    (h : ∀ t ∈ ts, t.operation = op) (hnodup : (ts.map (·.contractId)).Nodup) :
    (operationsOn op id ts).length = if some id ∈ ts.map (·.contractId) then 1 else 0 := by
  have hfilter : operationsOn op id ts = ts.filter fun t => t.contractId = some id := by
    apply List.filter_congr
    intro t ht
    simp [h t ht]
  have hlen := length_filter_key (k := some id) hnodup
  rw [hfilter, hlen]
  congr

/-- The parts of a merged plan. -/
theorem merge_ok {get : Nat → Except GridError (Option Contract)} {ts out : List TwinDeployment}
    (h : merge get ts = .ok out) :
    ∃ us, updateMerge get ts = .ok us ∧
      out = deployMerge ts ++
        us.filter (fun t => decide (t.contractId ∉
          (ts.filter fun t => decide (t.operation = .delete)).map (·.contractId))) ++
        mergeDelete (ts.filter fun t => decide (t.operation = .delete)) := by
  unfold merge at h
  obtain ⟨us, hus, hok⟩ := exceptBind_eq_ok.mp h
  cases hok
  exact ⟨us, hus, rfl⟩

theorem consistentPlan_of_merge {get : Nat → Except GridError (Option Contract)}
    {ts out : List TwinDeployment} (h : merge get ts = .ok out) : ConsistentPlan ts out := by
  obtain ⟨us, hus, hout⟩ := merge_ok h
  obtain ⟨hunodup, huop, humem⟩ := updateMerge_ok hus
  let deletes := ts.filter fun t => decide (t.operation = .delete)
  let kept := us.filter fun t => decide (t.contractId ∉ deletes.map (·.contractId))
  obtain ⟨hdnodup, hdsub, hdmem⟩ := mergeDelete_spec deletes
  have hdop : ∀ t ∈ mergeDelete deletes, t.operation = .delete := fun t ht =>
    of_decide_eq_true (List.mem_filter.mp (hdsub t ht)).2
  have hkop : ∀ t ∈ kept, t.operation = .update := fun t ht => huop t (List.mem_filter.mp ht).1
  have hknodup : (kept.map (·.contractId)).Nodup :=
    hunodup.sublist (List.filter_sublist.map _)
  have hplan : out = deployMerge ts ++ kept ++ mergeDelete deletes := hout
  have hup : ∀ id, operationsOn .update id out = operationsOn .update id kept := by
    intro id
    rw [hplan, operationsOn_append, operationsOn_append,
      operationsOn_of_other (by decide) id fun t ht => deployMerge_operation ht,
      operationsOn_of_other (by decide) id hdop, List.nil_append, List.append_nil]
  have hdel : ∀ id, operationsOn .delete id out = operationsOn .delete id (mergeDelete deletes) := by
    intro id
    rw [hplan, operationsOn_append, operationsOn_append,
      operationsOn_of_other (by decide) id fun t ht => deployMerge_operation ht,
      operationsOn_of_other (by decide) id hkop, List.nil_append, List.nil_append]
  have hdeleted : ∀ id, some id ∈ deletes.map (·.contractId) ↔ operationsOn .delete id ts ≠ [] := by
    intro id
    rw [ne_eq, operationsOn_eq_nil]
    simp only [deletes, List.mem_map, List.mem_filter, decide_eq_true_eq]
    push Not
    exact ⟨fun ⟨t, ⟨ht, ho⟩, hid⟩ => ⟨t, ht, ho, hid⟩, fun ⟨t, ht, ho, hid⟩ => ⟨t, ⟨ht, ho⟩, hid⟩⟩
  have hdlen : ∀ id, (operationsOn .delete id out).length =
      if operationsOn .delete id ts ≠ [] then 1 else 0 := by
    intro id
    rw [hdel, length_operationsOn hdop hdnodup]
    simp only [hdmem, hdeleted]
  have hkmem : ∀ id, some id ∈ kept.map (·.contractId) ↔
      operationsOn .update id ts ≠ [] ∧ operationsOn .delete id ts = [] := by
    intro id
    have hin : some id ∈ kept.map (·.contractId) ↔
        some id ∈ us.map (·.contractId) ∧ some id ∉ deletes.map (·.contractId) := by
      simp only [kept, List.mem_map, List.mem_filter, decide_eq_true_eq]
      constructor
      · rintro ⟨t, ⟨ht, hn⟩, hid⟩
        exact ⟨⟨t, ht, hid⟩, hid ▸ hn⟩
      · rintro ⟨⟨t, ht, hid⟩, hn⟩
        exact ⟨t, ⟨ht, hid ▸ hn⟩, hid⟩
    rw [hin, hdeleted, humem, ne_eq, not_not]
    refine and_congr_left fun _ => ?_
    rw [ne_eq, operationsOn_eq_nil]
    push Not
    rfl
  have hulen : ∀ id, (operationsOn .update id out).length =
      if operationsOn .update id ts ≠ [] ∧ operationsOn .delete id ts = [] then 1 else 0 := by
    intro id
    rw [hup, length_operationsOn hkop hknodup]
    simp only [hkmem]
  refine ⟨fun id => ?_, fun id hd => ?_, fun id hu hd => ?_, fun n => ?_⟩
  · rw [hdlen, hulen]
    by_cases hd : operationsOn .delete id ts = []
    · simp only [hd]
      split <;> simp
    · simp [hd]
  · refine ⟨by rw [hdlen, if_pos hd], ?_⟩
    rw [← List.length_eq_zero_iff, hulen, if_neg fun hc => hd hc.2]
  · refine ⟨by rw [hulen, if_pos ⟨hu, hd⟩], ?_⟩
    rw [← List.length_eq_zero_iff, hdlen, if_neg (not_not.mpr hd)]
  · rw [← deployedOn_deployMerge ts n]
    simp only [deployedOn]
    have hnone : ∀ xs : List TwinDeployment, (∀ t ∈ xs, t.operation ≠ .deploy) →
        xs.filter (fun t => decide (t.operation = .deploy ∧ t.nodeId = n)) = [] := by
      intro xs hxs
      rw [List.filter_eq_nil_iff]
      intro t ht
      simp [hxs t ht]
    rw [hplan, List.filter_append, List.filter_append,
      hnone kept fun t ht => by simp [hkop t ht],
      hnone (mergeDelete deletes) fun t ht => by simp [hdop t ht], List.append_nil, List.append_nil]

/-- `merge` yields a consistent plan, unless the contract of an update cannot be looked up. -/
theorem merge_consistentPlan (get : Nat → Except GridError (Option Contract))
    (ts : List TwinDeployment) :
    (∃ out, merge get ts = .ok out ∧ ConsistentPlan ts out) ∨
      ∃ e, merge get ts = .error e ∧ ∃ t ∈ ts, t.operation = .update ∧
        ∃ id, t.contractId = some id ∧ id ≠ 0 ∧ lookupNode get id = .error e := by
  cases h : merge get ts with
  | ok out => exact Or.inl ⟨out, rfl, consistentPlan_of_merge h⟩
  | error e =>
    refine Or.inr ⟨e, rfl, ?_⟩
    unfold merge updateMerge at h
    rcases lookupNodes_ok_or get (ts.filter fun t => decide (t.operation = .update)) with
      hl | ⟨e', hl, t, ht, hid⟩
    · simp [hl, bind, Except.bind, pure, Except.pure] at h
    · simp only [hl, bind, Except.bind, Except.error.injEq] at h
      obtain ⟨ht, ho⟩ := List.mem_filter.mp ht
      exact ⟨t, ht, of_decide_eq_true ho, h ▸ hid⟩

end ThreefoldSdk.HighLevel
