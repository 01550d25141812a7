import ThreefoldSdk.HighLevel.FilterWorkloads
import ThreefoldSdk.Modules.Creations

/-! Which machines of a cluster `K8sModule._createDeployment` makes. -/

namespace ThreefoldSdk.Modules
open Zos Primitives HighLevel Frame

/-- The machines that new deployments have, with their nodes. -/
def machinesOf (ts : List TwinDeployment) : List (String × Nat) :=
  (ts.filter fun t => decide (t.operation = .deploy)).flatMap fun t =>
    (t.workloads.filter isMachine).map fun w => (w.name, t.nodeId)

/-- There is one machine for each master and each worker, on the node asked for. -/
def Covers (o : K8SModel) (ts : List TwinDeployment) : Prop :=
  (machinesOf ts).Perm ((o.masters ++ o.workers.getD []).map fun n => (n.name, n.nodeId))

section
variable {env : CreationEnv} {projectName : String}

/-- Of the workloads of a machine, only the machine itself is one. -/
theorem machine_workloads {answers : VmAnswers} {networkName : String} {o : VmOptions}
    {ws : List Workload} (h : o.workloads answers networkName = .ok ws) :
    ws.filter isMachine = [o.vmWorkload answers networkName] := by
  obtain ⟨qsfs, rfl, hqsfs⟩ := VmOptions.workloads_ok h
  have hnone (type : WorkloadTypes) {l : List Workload}
      (htype : type ≠ .zmachine ∧ type ≠ .zmachinelight) (hl : ∀ w ∈ l, w.type = type) :
      l.filter isMachine = [] := by
    rw [List.filter_eq_nil_iff]
    intro w hw hmachine
    rcases of_decide_eq_true hmachine with ht | ht
    · exact htype.1 ((hl w hw).symm.trans ht)
    · exact htype.2 ((hl w hw).symm.trans ht)
  have hdisks : o.diskWorkloads.filter isMachine = [] := by
    apply hnone .zmount (by decide)
    intro w hw
    obtain ⟨d, -, rfl⟩ := List.mem_map.mp hw
    rfl
  have hqsfsNone : qsfs.filter isMachine = [] := by
    apply hnone .qsfs (by decide)
    intro w hw
    obtain ⟨d, -, -, ht⟩ := Forall2.exists_left hqsfs hw
    exact ht
  have hip : o.ipWorkloads.filter isMachine = [] :=
    hnone .ip (by decide) fun w hw => VmOptions.type_of_mem_ip hw
  have hlogs : o.zlogsWorkloads.filter isMachine = [] :=
    hnone .zlogs (by decide) fun w hw => VmOptions.type_of_mem_zlogs hw
  have hvm : isMachine (o.vmWorkload answers networkName) = true :=
    decide_eq_true VmOptions.vmWorkload_type
  rw [List.filter_append, List.filter_append, List.filter_append, List.filter_append, hdisks,
    hqsfsNone, hip, hlogs, List.filter_singleton, hvm]
  rfl

theorem machinesOf_append (ts ts' : List TwinDeployment) :
    machinesOf (ts ++ ts') = machinesOf ts ++ machinesOf ts' := by
  unfold machinesOf
  rw [List.filter_append, List.flatMap_append]

theorem VmCall.machinesOf_network (call : VmCall) : machinesOf call.networkDeployments = [] := by
  unfold machinesOf
  rw [List.flatMap_eq_nil_iff]
  intro t ht
  obtain ⟨hmem, hdeploy⟩ := List.mem_filter.mp ht
  obtain ⟨w, hws, hw⟩ := call.networkOnly t hmem (of_decide_eq_true hdeploy)
  have hnot : isMachine w = false := by
    apply decide_eq_false
    intro hmachine
    rcases of_decide_eq_true hw with ht | ht
    · rw [ht] at hmachine
      exact absurd hmachine (by decide)
    · rw [ht] at hmachine
      exact absurd hmachine (by decide)
  rw [hws, List.filter_singleton, hnot]
  rfl

/-- A call of `VMHL.create` makes one machine. -/
theorem vmCreate_machinesOf {network network' : AnyNetwork} {o : VmOptions}
    {ts : List TwinDeployment} {wg : String}
    (h : vmCreate env network o = .ok (ts, wg, network')) : machinesOf ts = [(o.name, o.nodeId)] := by
  obtain ⟨call, t, rfl, ht, -⟩ := vmCreate_ok h
  obtain ⟨ws, hws, hrest⟩ := exceptBind_eq_ok.mp ht
  cases hrest
  rw [machinesOf_append, call.machinesOf_network, List.nil_append]
  show (ws.filter isMachine).map (fun w => (w.name, o.nodeId)) ++ [] = _
  rw [machine_workloads hws, List.append_nil, List.map_singleton, VmOptions.vmWorkload_name]

/-- One master: it is made, and the network is set. -/
theorem createMasters_one {o : K8SModel} {m : K8sNodeOptions} {st : Cluster}
    (h : createMasters env projectName o [] ⟨none, [], ""⟩ [m] = .ok st) :
    st.network.isSome = true ∧ machinesOf st.deployments = [(m.name, m.nodeId)] := by
  obtain ⟨⟨n, light⟩, -, hrest⟩ := exceptBind_eq_ok.mp h
  obtain ⟨⟨ts, wg, n'⟩, hcreate, hrest⟩ := exceptBind_eq_ok.mp hrest
  cases hrest
  exact ⟨rfl, vmCreate_machinesOf hcreate⟩

/-- Once the network is set, no worker is made. -/
theorem createWorkers_stop {o : K8SModel} {masterIp masterFlist : String} {st st' : Cluster}
    (hnetwork : st.network.isSome = true) {ws : List K8sNodeOptions}
    (h : createWorkers env projectName o masterIp masterFlist [] st ws = .ok st') : st' = st := by
  cases ws with
  | nil =>
    cases h
    rfl
  | cons w ws =>
    unfold createWorkers at h
    rw [if_neg List.not_mem_nil, if_pos hnetwork] at h
    cases h
    rfl

/-- With one master the whole cluster is made exactly when it has no worker. -/
theorem k8sDeployment_covers_iff {o : K8SModel} {m : K8sNodeOptions} {masterIps : List String}
    {ts : List TwinDeployment} {network : Option AnyNetwork} {wg : String}
    (hmasters : o.masters = [m])
    (h : k8sDeployment env projectName o masterIps = .ok (ts, network, wg)) :
    Covers o ts ↔ o.workers = some [] := by
  obtain ⟨st, st', masterIp, masterFlist, workers, hst, hworkers, hst', rfl⟩ := k8sDeployment_ok h
  rw [hmasters] at hst
  obtain ⟨hset, hmachines⟩ := createMasters_one hst
  obtain rfl : st' = st := createWorkers_stop hset hst'
  unfold Covers
  rw [hmachines, hmasters, hworkers, Option.getD_some, Option.some_inj]
  constructor
  · intro hperm
    have hlength := hperm.length_eq
    rw [List.length_map, List.length_append] at hlength
    exact List.length_eq_zero_iff.mp (Nat.add_left_cancel hlength.symm)
  · intro hnil
    rw [hnil]
    exact List.Perm.refl _

end

/-! A cluster with its master on node 1, and a worker on node 2. -/

def clusterEnv : CreationEnv where
  twinId := 1
  light := fun _ => .ok false
  load := fun _ name ipRange => .ok (.network ⟨name, ipRange, [], [], [], [], [], []⟩)
  vm := fun network o => .ok
    { answers := ⟨true, true, if o.nodeId = 1 then "10.20.2.2" else "10.20.3.2", "",
        fun _ => ([], []), id, fun name _ => name⟩
      networkDeployments := []
      wgConfig := ""
      network := network
      networkOnly := fun _ h => nomatch h }

def clusterNode (name : String) (nodeId : Nat) : K8sNodeOptions where
  name := name
  nodeId := nodeId
  secret := ""
  cpu := 1
  memory := 1024
  rootfsSize := 2 * 1024 ^ 3
  diskSize := 10 * 1024 ^ 3
  publicIp := false
  publicIp6 := false
  planetary := false
  mycelium := false
  sshKey := ""
  contractMetadata := ""
  metadata := ""
  description := ""
  qsfsDisks := []
  corex := false
  solutionProviderId := none
  zlogsOutput := ""
  gpus := []

def cluster (workers : List K8sNodeOptions) : K8SModel :=
  ⟨"k8s", "secret", ⟨"net", "10.20.0.0/16"⟩, [clusterNode "master" 1], some workers, "", "", "ssh"⟩

theorem masterAlone_covered : ∃ r, k8sDeployment clusterEnv "" (cluster []) [] = .ok r ∧
    Covers (cluster []) r.1 := by
  have hreturns : ∃ r, k8sDeployment clusterEnv "" (cluster []) [] = .ok r := ⟨_, rfl⟩
  obtain ⟨⟨ts, network, wg⟩, h⟩ := hreturns
  exact ⟨_, h, (k8sDeployment_covers_iff rfl h).mpr rfl⟩

/-- The worker is left out. -/
theorem worker_not_covered :
    ∃ r, k8sDeployment clusterEnv "" (cluster [clusterNode "worker" 2]) [] = .ok r ∧
      ¬Covers (cluster [clusterNode "worker" 2]) r.1 := by
  refine ⟨_, rfl, ?_⟩
  intro hcovers
  exact absurd hcovers.length_eq (by decide)

end ThreefoldSdk.Modules
