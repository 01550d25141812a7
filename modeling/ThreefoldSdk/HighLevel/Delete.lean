import ThreefoldSdk.HighLevel.DeleteMachineNetwork

/-! `HighLevelBase._delete`: the operations that delete workloads of a deployment. -/

namespace ThreefoldSdk.HighLevel
open Zos Primitives Frame

/-- All types but the network ones, the default of `_delete`. -/
def allTypes : List WorkloadTypes :=
  [.ip, .ipv4, .zmachine, .zmachinelight, .zmount, .volume, .zdb, .qsfs, .gatewayfqdnproxy,
    .gatewaynameproxy, .zlogs]

/-- The types that `KubernetesHL.delete` passes. -/
def k8sTypes : List WorkloadTypes :=
  [.zmachine, .zmachinelight, .zmount, .volume, .ip, .ipv4, .zlogs]

/-- The types that `ZdbHL.delete` passes. -/
def zdbTypes : List WorkloadTypes := [.zdb]

section
variable (v : Validators) (load : Bool → String → String → Except GridError AnyNetwork)
  (isKnown : Bool) (nodeIdOf : Except GridError Nat)

/-- The loops over the deleted nodes and ips. -/
def settleNetwork (nodeId : Nat) (deletedNodes : List Nat) (deletedIps : List String)
    (network : Network) : Except GridError Network := do
  let network ← deletedNodes.foldlM (fun (n : Network) deleteNode => do
    let (_, n) ← n.deleteNode isKnown deleteNode
    return n) network
  return releaseIps nodeId network deletedIps

/-- The last update: only a `Network` is updated, and only when some workloads remain and some do
not. -/
def lastUpdate (nodeId numberOfWorkloads : Nat) (deployment : Deployment) (r : MachineNetwork) :
    Except GridError (List TwinDeployment) :=
  match r.network with
  | some (.network network) =>
    if r.remaining.length ≠ 0 ∧ r.remaining.length < numberOfWorkloads then do
      let network ← settleNetwork isKnown nodeId r.deletedNodes r.deletedIps network
      return r.twinDeployments.map (fun t => { t with network := some (.network network) }) ++
        [.make { deployment with workloads := r.remaining } .update 0 0 ""
          (some (.network network))]
    else .ok r.twinDeployments
  | _ => .ok r.twinDeployments

/-- `_delete`. `nodeIdOf` is the answer of `getNodeIdFromContractId`. -/
def delete (deployment : Deployment) (names : List String) (types : List WorkloadTypes) :
    Except GridError (List TwinDeployment) := do
  if .network ∈ types ∨ .networklight ∈ types then
    throw (.base "WorkloadDeleteError" "Network workload can't be deleted.")
  let nodeId ← nodeIdOf
  let d ← fromObj v deployment
  let (remaining, deleted) ← filterWorkloads d names types
  let whole := if remaining.length = 0 ∧ deleted.length = 0 then
    [TwinDeployment.make d .delete 0 0 "" none] else []
  let r ← deleteMachineNetwork v load isKnown d nodeId remaining deleted
  let rest ← lastUpdate isKnown nodeId deployment.workloads.length d r
  return whole ++ rest

end

/-! No operation of a deletion deploys anything. -/

section
variable {v : Validators} {load : Bool → String → String → Except GridError AnyNetwork}
  {isKnown : Bool}

def NoDeploys (ops : List (Deployment × Operations)) : Prop := ∀ op ∈ ops, op.2 ≠ .deploy

theorem NoDeploys.nil : NoDeploys [] := fun _ h => nomatch h

theorem NoDeploys.append {ops ops' : List (Deployment × Operations)} (h : NoDeploys ops)
    (h' : NoDeploys ops') : NoDeploys (ops ++ ops') := by
  intro op hop
  rcases List.mem_append.mp hop with hop | hop
  · exact h op hop
  · exact h' op hop

theorem NoDeploys.cons {ops : List (Deployment × Operations)} {d : Deployment} {o : Operations}
    (ho : o ≠ .deploy) (h : NoDeploys ops) : NoDeploys ((d, o) :: ops) :=
  List.forall_mem_cons.mpr ⟨ho, h⟩

theorem leaveOperations_noDeploys {name : String} {contractId : Option Nat}
    {ds : List NetworkDeployment} {ops : List (Deployment × Operations)}
    (h : leaveOperations v name contractId ds = .ok ops) : NoDeploys ops := by
  induction ds generalizing ops with
  | nil =>
    cases h
    exact NoDeploys.nil
  | cons d ds ih =>
    obtain ⟨o, -, hrest⟩ := exceptBind_eq_ok.mp h
    obtain ⟨ops', hops', hrest⟩ := exceptBind_eq_ok.mp hrest
    have hrec : NoDeploys ops' := ih hops'
    by_cases hother : o.contractId ≠ contractId
    · rw [if_pos hother] at hrest
      cases hrest
      exact hrec
    · rw [if_neg hother] at hrest
      split_ifs at hrest
      · cases hrest
        exact hrec.cons nofun
      · cases hrest
        exact hrec.cons nofun

theorem leaveLastNode_noDeploys {n n' : AnyNetwork} {ops : List (Deployment × Operations)}
    (h : leaveLastNode v isKnown n = .ok (n', ops)) : NoDeploys ops := by
  unfold leaveLastNode at h
  split at h
  · cases h
    exact NoDeploys.nil
  · split at h
    · split_ifs at h
      · obtain ⟨⟨contractId, n''⟩, -, hrest⟩ := exceptBind_eq_ok.mp h
        obtain ⟨ops', hops', hrest⟩ := exceptBind_eq_ok.mp hrest
        cases hrest
        exact leaveOperations_noDeploys hops'
      · cases h
        exact NoDeploys.nil
    · cases h
      exact NoDeploys.nil

theorem leaveNode_noDeploys {deployment : Deployment} {nodeId : Nat} {ip : String}
    {n : AnyNetwork} {contractId : Option Nat} {st st' : Release}
    (h : leaveNode v deployment nodeId ip n contractId st = .ok st')
    (hst : NoDeploys st.operations) : NoDeploys st'.operations := by
  unfold leaveNode at h
  split_ifs at h
  · cases h
    exact hst.append (NoDeploys.nil.cons nofun)
  · cases h
    exact hst
  · obtain ⟨ops, hops, hrest⟩ := exceptBind_eq_ok.mp h
    cases hrest
    exact hst.append (leaveOperations_noDeploys hops)

theorem releaseMachine_noDeploys {deployment : Deployment} {nodeId : Nat} {w : Workload}
    {st st' : Release} (h : releaseMachine v load isKnown deployment nodeId st w = .ok st')
    (hst : NoDeploys st.operations) : NoDeploys st'.operations := by
  obtain ⟨n, hrest⟩ : ∃ n, releaseOn v isKnown deployment nodeId n st w = .ok st' := by
    unfold releaseMachine at h
    cases hn : st.network with
    | some n =>
      rw [hn] at h
      exact ⟨n, h⟩
    | none =>
      rw [hn] at h
      obtain ⟨n, -, hrest⟩ := exceptBind_eq_ok.mp h
      exact ⟨n, hrest⟩
  obtain ⟨iface, -, hrest⟩ := exceptBind_eq_ok.mp hrest
  have hfirst : NoDeploys (if st.remaining.length = 0 then st.operations ++ [(deployment, .delete)]
      else st.operations) := by
    split
    · exact hst.append (NoDeploys.nil.cons nofun)
    · exact hst
  dsimp only at hrest
  by_cases hstays : staysInNetwork nodeId (n.deleteReservedIp nodeId iface.ip) = true
  · rw [if_pos hstays] at hrest
    cases hrest
    exact hfirst
  · rw [if_neg hstays] at hrest
    obtain ⟨⟨contractId, n₁⟩, -, hrest⟩ := exceptBind_eq_ok.mp hrest
    obtain ⟨st₁, hst₁, hrest⟩ := exceptBind_eq_ok.mp hrest
    obtain ⟨⟨n₂, ops⟩, hops, hrest⟩ := exceptBind_eq_ok.mp hrest
    cases hrest
    exact (leaveNode_noDeploys hst₁ hfirst).append (leaveLastNode_noDeploys hops)

theorem releaseAll_noDeploys {deployment : Deployment} {nodeId : Nat} {ws : List Workload}
    {st st' : Release} (h : ws.foldlM (releaseMachine v load isKnown deployment nodeId) st = .ok st')
    (hst : NoDeploys st.operations) : NoDeploys st'.operations := by
  induction ws generalizing st with
  | nil =>
    cases h
    exact hst
  | cons w ws ih =>
    rw [List.foldlM_cons] at h
    obtain ⟨st₁, hst₁, hrest⟩ := exceptBind_eq_ok.mp h
    exact ih hrest (releaseMachine_noDeploys hst₁ hst)

theorem delete_no_deploy {nodeIdOf : Except GridError Nat} {deployment : Deployment}
    {names : List String} {types : List WorkloadTypes} {ts : List TwinDeployment}
    (h : delete v load isKnown nodeIdOf deployment names types = .ok ts) :
    ∀ t ∈ ts, t.operation ≠ .deploy := by
  unfold delete at h
  split_ifs at h
  · cases h
  obtain ⟨nodeId, -, hrest⟩ := exceptBind_eq_ok.mp h
  obtain ⟨d, -, hrest⟩ := exceptBind_eq_ok.mp hrest
  obtain ⟨⟨remaining, deleted⟩, -, hrest⟩ := exceptBind_eq_ok.mp hrest
  obtain ⟨r, hr, hrest⟩ := exceptBind_eq_ok.mp hrest
  obtain ⟨rest, hlast, hrest⟩ := exceptBind_eq_ok.mp hrest
  cases hrest
  have hmachines : ∀ t ∈ r.twinDeployments, t.operation ≠ .deploy := by
    obtain ⟨st, hst, hok⟩ := exceptBind_eq_ok.mp hr
    cases hok
    intro t ht
    obtain ⟨op, hop, rfl⟩ := List.mem_map.mp ht
    exact releaseAll_noDeploys hst NoDeploys.nil op hop
  have hrestDeploys : ∀ t ∈ rest, t.operation ≠ .deploy := by
    unfold lastUpdate at hlast
    split at hlast
    · split_ifs at hlast
      · obtain ⟨n, -, hok⟩ := exceptBind_eq_ok.mp hlast
        cases hok
        intro t ht
        rcases List.mem_append.mp ht with ht | ht
        · obtain ⟨t', ht', rfl⟩ := List.mem_map.mp ht
          exact hmachines t' ht'
        · rw [List.mem_singleton.mp ht]
          exact nofun
      · cases hlast
        exact hmachines
    · cases hlast
      exact hmachines
  intro t ht
  rcases List.mem_append.mp ht with ht | ht
  · split at ht
    · rw [List.mem_singleton.mp ht]
      exact nofun
    · cases ht
  · exact hrestDeploys t ht

end

end ThreefoldSdk.HighLevel
