import ThreefoldSdk.HighLevel.MergePlan

/-! The merge of new deployments is stable: merging its result once more changes nothing. -/

namespace ThreefoldSdk.HighLevel
open Zos Primitives TfChain

def deploys (ts : List TwinDeployment) : List TwinDeployment :=
  ts.filter fun t => decide (t.operation = .deploy)

/-- The deploys that share their node with others. -/
def shared (ts : List TwinDeployment) : List TwinDeployment := ts.filter fun t => !apart t

/-- What the merge makes of a list, and that it settles there. -/
structure DeploysMerged (ts out : List TwinDeployment) : Prop where
  operation : ∀ t ∈ out, t.operation = .deploy
  /-- A deployment with a network workload or a public ip stays as it is. -/
  untouched : out.filter apart = (deploys ts).filter apart
  onePerNode : ∀ nodeId, ((shared out).filter fun t => decide (t.nodeId = nodeId)).length ≤ 1
  publicIps : (out.map (·.publicIps)).sum = ((deploys ts).map (·.publicIps)).sum
  workloads : ∀ nodeId, deployedOn nodeId out = deployedOn nodeId ts
  /-- Merged again among any updates and deletes. -/
  again : ∀ mixed, deploys mixed = out → deployMerge mixed = out
  /-- Some of them, in another order, are not merged any more either. -/
  rearranged : ∀ mixed, (deploys mixed).Subperm out → (deployMerge mixed).Perm (deploys mixed)

/-- The merged deploys, by node. -/
def mergedShared (ts : List TwinDeployment) : List TwinDeployment :=
  ((deploymentMap (shared (deploys ts))).ordered arrayIndex).map Prod.snd

theorem deployMerge_eq (ts : List TwinDeployment) :
    deployMerge ts = (deploys ts).filter apart ++ mergedShared ts := rfl

/-! What is merged on a node. -/

theorem apart_eq_false {t : TwinDeployment} :
    apart t = false ↔ t.workloads.any isAnyNetwork = false ∧ t.publicIps = 0 := by
  unfold apart
  rw [Bool.or_eq_false_iff, decide_eq_false_iff_not, Nat.pos_iff_ne_zero, not_not]

theorem publicIps_foldl (ts : List TwinDeployment) (m : TwinDeployment) :
    (ts.foldl (fun m t => m.withWorkloads (m.workloads ++ t.workloads)) m).publicIps =
      m.publicIps := by
  induction ts generalizing m with
  | nil => rfl
  | cons t ts ih => exact ih _

theorem merged_not_apart {ts : List TwinDeployment} {nodeId : Nat} {t : TwinDeployment}
    (hts : ∀ t ∈ ts, apart t = false) (h : (deploymentMap ts).get nodeId = some t) :
    apart t = false := by
  have hworkloads := (deploymentMap_get h).2.1
  rw [deploymentMap, ObjectMap.get_collect] at h
  cases hf : ts.filter fun t => decide (t.nodeId = nodeId) with
  | nil =>
    rw [hf] at h
    cases h
  | cons first rest =>
    have hfirst : first ∈ ts.filter fun t => decide (t.nodeId = nodeId) :=
      hf ▸ List.mem_cons_self
    rw [hf] at h
    have hfold : rest.foldl (fun m t => m.withWorkloads (m.workloads ++ t.workloads)) first = t :=
      Option.some.inj h
    rw [apart_eq_false, hworkloads, ← hfold, publicIps_foldl]
    constructor
    · rw [List.any_flatMap, List.any_eq_false]
      intro t' ht'
      rw [(apart_eq_false.mp (hts t' (List.mem_of_mem_filter ht'))).1]
      exact Bool.false_ne_true
    · exact (apart_eq_false.mp (hts first (List.mem_of_mem_filter hfirst))).2

theorem shared_not_apart {ts : List TwinDeployment} : ∀ t ∈ shared ts, apart t = false := by
  intro t ht
  exact Bool.not_eq_true' _ ▸ (List.mem_filter.mp ht).2

theorem mergedShared_not_apart (ts : List TwinDeployment) :
    ∀ t ∈ mergedShared ts, apart t = false := by
  intro t ht
  obtain ⟨e, he, rfl⟩ := List.mem_map.mp ht
  exact merged_not_apart shared_not_apart (ObjectMap.mem_ordered.mp he)

theorem filter_deployMerge (ts : List TwinDeployment) :
    (deployMerge ts).filter apart = (deploys ts).filter apart ∧
      shared (deployMerge ts) = mergedShared ts := by
  have hapart : ∀ t ∈ (deploys ts).filter apart, apart t = true :=
    fun t ht => (List.mem_filter.mp ht).2
  constructor
  · exact ObjectMap.filter_append_left hapart (mergedShared_not_apart ts)
  · apply ObjectMap.filter_append_right
    · intro t ht
      rw [hapart t ht]
      rfl
    · intro t ht
      rw [mergedShared_not_apart ts t ht]
      rfl

theorem mergedShared_nodes (ts : List TwinDeployment) :
    (mergedShared ts).map (·.nodeId) =
      ((deploymentMap (shared (deploys ts))).ordered arrayIndex).map Prod.fst := by
  unfold mergedShared
  rw [List.map_map]
  apply List.map_congr_left
  intro e he
  exact (deploymentMap_get (ObjectMap.mem_ordered.mp he)).1

theorem mergedShared_nodup (ts : List TwinDeployment) :
    ((mergedShared ts).map (·.nodeId)).Nodup := by
  rw [mergedShared_nodes]
  exact ObjectMap.nodup_ordered_keys _ _

/-! A list with one deploy on each node. -/

theorem entries_deploymentMap {ts : List TwinDeployment} (h : (ts.map (·.nodeId)).Nodup) :
    (deploymentMap ts).entries = ts.map fun t => (t.nodeId, t) :=
  ObjectMap.entries_collect TwinDeployment.nodeId id _ h

/-- Deploys on nodes of their own are not merged. -/
theorem deployMerge_perm {ts : List TwinDeployment}
    (h : ((shared (deploys ts)).map (·.nodeId)).Nodup) : (deployMerge ts).Perm (deploys ts) := by
  have hvalues : (((deploymentMap (shared (deploys ts))).ordered arrayIndex).map Prod.snd).Perm
      (shared (deploys ts)) := by
    refine ((ObjectMap.ordered_perm arrayIndex _).map Prod.snd).trans ?_
    rw [entries_deploymentMap h, List.map_map]
    exact List.Perm.of_eq (List.map_id _)
  rw [deployMerge_eq]
  exact (hvalues.append_left _).trans (List.filter_append_perm _ _)

theorem mergedShared_again {ts mixed : List TwinDeployment}
    (h : shared (deploys mixed) = mergedShared ts) : mergedShared mixed = mergedShared ts := by
  have hentries : (deploymentMap (shared (deploys mixed))).entries =
      (deploymentMap (shared (deploys ts))).ordered arrayIndex := by
    rw [h, entries_deploymentMap (mergedShared_nodup ts)]
    unfold mergedShared
    rw [List.map_map]
    refine (List.map_congr_left ?_).trans (List.map_id _)
    intro e he
    exact Prod.ext (deploymentMap_get (ObjectMap.mem_ordered.mp he)).1 rfl
  exact congrArg (List.map Prod.snd) (ObjectMap.ordered_of_ordered hentries)

/-- The merge of any list of twin deployments settles at once. -/
theorem deployMerge_settles (ts : List TwinDeployment) : DeploysMerged ts (deployMerge ts) where
  operation _ := deployMerge_operation
  untouched := (filter_deployMerge ts).1
  onePerNode nodeId := by
    rw [(filter_deployMerge ts).2, length_filter_key (mergedShared_nodup ts)]
    split
    · exact Nat.le_refl 1
    · exact Nat.zero_le 1
  publicIps := by
    have hzero : ∀ xs : List TwinDeployment, (∀ t ∈ xs, apart t = false) →
        (xs.map (·.publicIps)).sum = 0 := by
      intro xs hxs
      apply List.sum_eq_zero
      intro n hn
      obtain ⟨t, ht, rfl⟩ := List.mem_map.mp hn
      exact (apart_eq_false.mp (hxs t ht)).2
    have hsplit := ((List.filter_append_perm apart (deploys ts)).map (·.publicIps)).sum_eq
    have hshared := hzero (shared (deploys ts)) shared_not_apart
    rw [deployMerge_eq, ← hsplit, List.map_append, List.map_append, List.sum_append,
      List.sum_append, hzero _ (mergedShared_not_apart ts)]
    exact congrArg _ hshared.symm
  workloads := deployedOn_deployMerge ts
  again mixed hmixed := by
    have hshared : shared (deploys mixed) = mergedShared ts := by
      rw [hmixed, (filter_deployMerge ts).2]
    have hmerged := mergedShared_again hshared
    rw [deployMerge_eq mixed, hmerged, hmixed, (filter_deployMerge ts).1, deployMerge_eq]
  rearranged mixed hmixed := by
    apply deployMerge_perm
    have hsub : (shared (deploys mixed)).Subperm (mergedShared ts) := by
      rw [← (filter_deployMerge ts).2]
      exact hmixed.filter _
    have hnodup := mergedShared_nodup ts
    obtain ⟨xs, hperm, hsublist⟩ := hsub
    exact (hperm.map _).nodup_iff.mp (hnodup.sublist (hsublist.map _))

end ThreefoldSdk.HighLevel
