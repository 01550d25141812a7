import ThreefoldSdk.HighLevel.Instances
import ThreefoldSdk.Modules.Metadata
import ThreefoldSdk.Primitives.PrivateIps

/-! The twin deployments that the modules make for their options (`_createDeployment` in
`modules/machines.ts`, `k8s.ts` and `zdb.ts`). -/

namespace ThreefoldSdk.Modules
open Zos Primitives HighLevel Frame

/-- A call of `VMHL.create`: what it asks for, the network after it, and what the network needs
before the machine. A new deployment for the network has its workload alone. -/
structure VmCall where
  answers : VmAnswers
  networkDeployments : List TwinDeployment
  wgConfig : String
  network : AnyNetwork
  networkOnly : ∀ t ∈ networkDeployments, t.operation = .deploy →
    ∃ w, t.workloads = [w] ∧ isAnyNetwork w = true

/-- What `_createDeployment` asks for: whether a node is a light one, the networks, and the
calls. -/
structure CreationEnv where
  twinId : Nat
  light : Nat → Except GridError Bool
  load : Bool → String → String → Except GridError AnyNetwork
  vm : AnyNetwork → VmOptions → Except GridError VmCall

structure NetworkModel where
  name : String
  ipRange : String
deriving DecidableEq

section
variable (env : CreationEnv) (projectName : String)

/-- The network of a node, and whether it is a light one. -/
def openNetwork (network : NetworkModel) (nodeId : Nat) : Except GridError (AnyNetwork × Bool) := do
  let light ← env.light nodeId
  let n ← env.load light network.name network.ipRange
  return (n, light)

/-- `VMHL.create` with what comes before the machine, the wireguard text and the network. -/
def vmCreate (network : AnyNetwork) (o : VmOptions) :
    Except GridError (List TwinDeployment × String × AnyNetwork) := do
  let call ← env.vm network o
  let t ← o.create env.twinId call.answers call.network
  return (call.networkDeployments ++ [t], call.wgConfig, call.network)

/-- The later text, if there is one. -/
def laterText (first second : String) : String := if second = "" then first else second

/-! Machines. -/

/-- `contractMetadata`, `metadata` and `description` of the machines are set by the module. -/
structure MachinesModel where
  name : String
  network : NetworkModel
  machines : List VmOptions
  metadata : String
  description : String

def MachinesModel.vm (o : MachinesModel) (contractMetadata : String) (m : VmOptions) : VmOptions :=
  { m with contractMetadata, metadata := o.metadata, description := o.description }

/-- The second loop; `names` are those of the machines before. -/
def createMachines (contractMetadata : String) (o : MachinesModel) (names : List String)
    (network : AnyNetwork) :
    List VmOptions → Except GridError (List TwinDeployment × AnyNetwork × String)
  | [] => .ok ([], network, "")
  | m :: ms => do
    if m.name ∈ names then
      throw (.validation ("Another machine with the same name " ++ m.name ++ " already exists."))
    let (ts, wg, network) ← vmCreate env network (o.vm contractMetadata m)
    let (rest, network, wg') ← createMachines contractMetadata o (names ++ [m.name]) network ms
    return (ts ++ rest, network, laterText wg wg')

/-- `MachinesModule._createDeployment`. The first loop stops after the first machine; without any
there is no network. -/
def machinesDeployment (o : MachinesModel) :
    Except GridError (List TwinDeployment × Option AnyNetwork × String) :=
  match o.machines with
  | [] => .ok ([], none, "")
  | first :: _ => do
    let (network, light) ← openNetwork env o.network first.nodeId
    let text := (machinesMetadata projectName light o.name).toText
    let (ts, network, wg) ← createMachines env text o [] network o.machines
    return (ts, some network, wg)

/-! Kubernetes. -/

/-- What a node has of the model (`secret`, `sshKey` and the texts) is set by the module. -/
structure K8SModel where
  name : String
  secret : String
  network : NetworkModel
  masters : List K8sNodeOptions
  workers : Option (List K8sNodeOptions)
  metadata : String
  description : String
  sshKey : String

def K8SModel.node (o : K8SModel) (contractMetadata : String) (n : K8sNodeOptions) :
    K8sNodeOptions :=
  { n with
    contractMetadata
    secret := o.secret
    sshKey := o.sshKey
    metadata := o.metadata
    description := o.description }

/-- `network`, `deployments` and `wireguardConfig`, which both loops share. -/
structure Cluster where
  network : Option AnyNetwork
  deployments : List TwinDeployment
  wireguardConfig : String

/-- The loop over the masters. It ends when a network is set. -/
def createMasters (o : K8SModel) (names : List String) (st : Cluster) :
    List K8sNodeOptions → Except GridError Cluster
  | [] => .ok st
  | m :: ms => do
    if m.name ∈ names then
      throw (.validation ("Another master with the same name " ++ m.name ++ " already exists."))
    if st.network.isSome then return st
    let (network, light) ← openNetwork env o.network m.nodeId
    let text := (k8sMetadata projectName light o.name).toText
    let (ts, wg, network) ← vmCreate env network (o.node text m).addMaster
    createMasters o (names ++ [m.name])
      ⟨some network, st.deployments ++ ts, laterText st.wireguardConfig wg⟩ ms

/-- The loop over the workers, with the same end. -/
def createWorkers (o : K8SModel) (masterIp masterFlist : String) (names : List String)
    (st : Cluster) : List K8sNodeOptions → Except GridError Cluster
  | [] => .ok st
  | w :: ws => do
    if w.name ∈ names then
      throw (.validation ("Another worker with the same name " ++ w.name ++ " already exists."))
    if st.network.isSome then return st
    let (network, light) ← openNetwork env o.network w.nodeId
    let text := (k8sMetadata projectName light o.name).toText
    let (ts, _, network) ← vmCreate env network ((o.node text w).addWorker masterIp masterFlist)
    createWorkers o masterIp masterFlist (names ++ [w.name])
      { st with network := some network, deployments := st.deployments ++ ts } ws

end

/-- A machine whose `K3S_URL` is empty. -/
def isMaster (w : Workload) : Bool :=
  decide (w.type = .zmachine ∧ w.data.env.bind (·.get "K3S_URL") = some (.string ""))

/-- `_getMastersWorkload`. -/
def mastersWorkload (deployments : List Deployment) : List Workload :=
  deployments.flatMap fun d => d.workloads.filter isMaster

/-- `_getMastersIp`. -/
def mastersIp (deployments : List Deployment) : Except GridError (List String) :=
  (mastersWorkload deployments).mapM fun w => do
    let iface ← notNull w.data.firstInterface
    return iface.ip

/-- The ips as given, or those of the masters that were made. -/
def chosenIps (masterIps : List String) (deployments : List Deployment) :
    Except GridError (List String) :=
  if masterIps.isEmpty then do
    let ips ← mastersIp deployments
    if ips.isEmpty then throw (.base "WorkloadCreateError" "Couldn't get master ip")
    return ips
  else .ok masterIps

/-- `K8sModule._createDeployment`. -/
def k8sDeployment (env : CreationEnv) (projectName : String) (o : K8SModel)
    (masterIps : List String) :
    Except GridError (List TwinDeployment × Option AnyNetwork × String) := do
  let st ← createMasters env projectName o [] ⟨none, [], ""⟩ o.masters
  match (mastersWorkload (st.deployments.map (·.deployment))).getLast? with
  | none => throw (.base "WorkloadUpdateError" "Couldn't get master node.")
  | some masterWorkload =>
    let masterIps ← chosenIps masterIps (st.deployments.map (·.deployment))
    match o.workers with
    | none => throw .typeError
    | some workers =>
      let st ← createWorkers env projectName o ((masterIps.getLast?).getD "undefined")
        (masterWorkload.data.flist.getD "") [] st workers
      return (st.deployments, st.network, st.wireguardConfig)

/-! Zdbs. -/

structure ZDBSModel where
  name : String
  zdbs : List ZdbOptions
  metadata : String
  description : String

def ZDBSModel.zdb (o : ZDBSModel) (contractMetadata : String) (z : ZdbOptions) : ZdbOptions :=
  { z with contractMetadata, metadata := o.metadata, description := o.description }

def createZdbs (twinId : Nat) (contractMetadata : String) (o : ZDBSModel) (names : List String) :
    List ZdbOptions → Except GridError (List TwinDeployment)
  | [] => .ok []
  | z :: zs => do
    if z.name ∈ names then
      throw (.validation ("Another zdb with the same name " ++ z.name ++ " already exists."))
    let rest ← createZdbs twinId contractMetadata o (names ++ [z.name]) zs
    return (o.zdb contractMetadata z).create twinId :: rest

/-- `ZdbsModule._createDeployment`. -/
def zdbsDeployment (twinId : Nat) (projectName : String) (o : ZDBSModel) :
    Except GridError (List TwinDeployment) :=
  createZdbs twinId (zdbsMetadata projectName o.name).toText o [] o.zdbs

/-! The deployments that are made for the machines themselves. -/

/-- A new deployment without a network workload. -/
def IsOwn (t : TwinDeployment) : Prop :=
  t.operation = .deploy ∧ t.workloads.any isAnyNetwork = false

/-- All of them carry the identity. -/
def OwnCarry (i : Identity) (ts : List TwinDeployment) : Prop :=
  ∀ t ∈ ts, IsOwn t → i.Carried t.metadata

theorem OwnCarry.nil (i : Identity) : OwnCarry i [] := fun _ h => nomatch h

theorem OwnCarry.append {i : Identity} {ts ts' : List TwinDeployment} (h : OwnCarry i ts)
    (h' : OwnCarry i ts') : OwnCarry i (ts ++ ts') := by
  intro t ht
  rcases List.mem_append.mp ht with ht | ht
  · exact h t ht
  · exact h' t ht

section
variable {env : CreationEnv} {projectName : String} {i : Identity}

theorem not_isOwn_of_network {t : TwinDeployment}
    (h : t.operation = .deploy → ∃ w, t.workloads = [w] ∧ isAnyNetwork w = true) : ¬IsOwn t := by
  intro hown
  obtain ⟨w, hws, hw⟩ := h hown.1
  have hnone := hown.2
  rw [hws, List.any_cons, hw] at hnone
  cases hnone

theorem vmCreate_ok {network network' : AnyNetwork} {o : VmOptions} {ts : List TwinDeployment}
    {wg : String} (h : vmCreate env network o = .ok (ts, wg, network')) :
    ∃ (call : VmCall) (t : TwinDeployment), ts = call.networkDeployments ++ [t] ∧
      o.create env.twinId call.answers call.network = .ok t ∧ network' = call.network := by
  obtain ⟨call, -, hrest⟩ := exceptBind_eq_ok.mp h
  obtain ⟨t, ht, hrest⟩ := exceptBind_eq_ok.mp hrest
  cases hrest
  exact ⟨call, t, rfl, ht, rfl⟩

theorem create_metadata {twinId : Nat} {answers : VmAnswers} {network : AnyNetwork} {o : VmOptions}
    {t : TwinDeployment} (h : o.create twinId answers network = .ok t) :
    t.metadata = o.contractMetadata := by
  obtain ⟨ws, -, hrest⟩ := exceptBind_eq_ok.mp h
  cases hrest
  rfl

theorem vmCreate_carries {network network' : AnyNetwork} {o : VmOptions}
    {ts : List TwinDeployment} {wg : String} (h : vmCreate env network o = .ok (ts, wg, network'))
    (ho : i.Carried o.contractMetadata) : OwnCarry i ts := by
  obtain ⟨call, t, rfl, ht, -⟩ := vmCreate_ok h
  intro t' ht' hown
  rcases List.mem_append.mp ht' with ht' | ht'
  · exact absurd hown (not_isOwn_of_network (call.networkOnly t' ht'))
  · rw [List.mem_singleton.mp ht', create_metadata ht]
    exact ho

theorem createMachines_carries {text : String} (htext : i.Carried text) {o : MachinesModel}
    {ms : List VmOptions} {names : List String} {network network' : AnyNetwork}
    {ts : List TwinDeployment} {wg : String}
    (h : createMachines env text o names network ms = .ok (ts, network', wg)) : OwnCarry i ts := by
  induction ms generalizing names network network' ts wg with
  | nil =>
    cases h
    exact OwnCarry.nil i
  | cons m ms ih =>
    unfold createMachines at h
    split_ifs at h
    · cases h
    obtain ⟨⟨ts₁, wg₁, n₁⟩, hcreate, hrest⟩ := exceptBind_eq_ok.mp h
    obtain ⟨⟨ts₂, n₂, wg₂⟩, hms, hrest⟩ := exceptBind_eq_ok.mp hrest
    cases hrest
    exact (vmCreate_carries hcreate htext).append (ih hms)

theorem machinesDeployment_carries {o : MachinesModel} {ts : List TwinDeployment}
    {network : Option AnyNetwork} {wg : String}
    (h : machinesDeployment env projectName o = .ok (ts, network, wg)) :
    OwnCarry ⟨"vm", o.name, projectNameOr projectName ("vm/" ++ o.name)⟩ ts := by
  unfold machinesDeployment at h
  split at h
  · cases h
    exact OwnCarry.nil _
  · obtain ⟨⟨n, light⟩, -, hrest⟩ := exceptBind_eq_ok.mp h
    obtain ⟨⟨ts', n', wg'⟩, hms, hrest⟩ := exceptBind_eq_ok.mp hrest
    cases hrest
    exact createMachines_carries (Identity.carried_toText.mpr rfl) hms

/-- The identity of a cluster. -/
def clusterIdentity (projectName name : String) : Identity :=
  ⟨"kubernetes", name, projectNameOr projectName ("kubernetes/" ++ name)⟩

theorem createMasters_carries {o : K8SModel} {ms : List K8sNodeOptions} {names : List String}
    {st st' : Cluster} (h : createMasters env projectName o names st ms = .ok st')
    (hst : OwnCarry (clusterIdentity projectName o.name) st.deployments) :
    OwnCarry (clusterIdentity projectName o.name) st'.deployments := by
  induction ms generalizing names st with
  | nil =>
    cases h
    exact hst
  | cons m ms ih =>
    unfold createMasters at h
    by_cases hname : m.name ∈ names
    · rw [if_pos hname] at h
      cases h
    rw [if_neg hname] at h
    by_cases hnetwork : st.network.isSome = true
    · rw [if_pos hnetwork] at h
      cases h
      exact hst
    rw [if_neg hnetwork] at h
    obtain ⟨⟨n, light⟩, -, hrest⟩ := exceptBind_eq_ok.mp h
    obtain ⟨⟨ts, wg, n'⟩, hcreate, hrest⟩ := exceptBind_eq_ok.mp hrest
    exact ih hrest (hst.append (vmCreate_carries hcreate (Identity.carried_toText.mpr rfl)))

theorem createWorkers_carries {o : K8SModel} {masterIp masterFlist : String}
    {ws : List K8sNodeOptions} {names : List String} {st st' : Cluster}
    (h : createWorkers env projectName o masterIp masterFlist names st ws = .ok st')
    (hst : OwnCarry (clusterIdentity projectName o.name) st.deployments) :
    OwnCarry (clusterIdentity projectName o.name) st'.deployments := by
  induction ws generalizing names st with
  | nil =>
    cases h
    exact hst
  | cons w ws ih =>
    unfold createWorkers at h
    by_cases hname : w.name ∈ names
    · rw [if_pos hname] at h
      cases h
    rw [if_neg hname] at h
    by_cases hnetwork : st.network.isSome = true
    · rw [if_pos hnetwork] at h
      cases h
      exact hst
    rw [if_neg hnetwork] at h
    obtain ⟨⟨n, light⟩, -, hrest⟩ := exceptBind_eq_ok.mp h
    obtain ⟨⟨ts, wg, n'⟩, hcreate, hrest⟩ := exceptBind_eq_ok.mp hrest
    exact ih hrest (hst.append (vmCreate_carries hcreate (Identity.carried_toText.mpr rfl)))

theorem k8sDeployment_ok {o : K8SModel} {masterIps : List String} {ts : List TwinDeployment}
    {network : Option AnyNetwork} {wg : String}
    (h : k8sDeployment env projectName o masterIps = .ok (ts, network, wg)) :
    ∃ st st' masterIp masterFlist workers,
      createMasters env projectName o [] ⟨none, [], ""⟩ o.masters = .ok st ∧
      o.workers = some workers ∧
      createWorkers env projectName o masterIp masterFlist [] st workers = .ok st' ∧
        ts = st'.deployments := by
  obtain ⟨st, hmasters, hrest⟩ := exceptBind_eq_ok.mp h
  split at hrest
  · cases hrest
  obtain ⟨ips, -, hrest⟩ := exceptBind_eq_ok.mp hrest
  cases hworkers : o.workers with
  | none =>
    rw [hworkers] at hrest
    cases hrest
  | some workers =>
    rw [hworkers] at hrest
    obtain ⟨st', hst', hrest⟩ := exceptBind_eq_ok.mp hrest
    cases hrest
    exact ⟨st, st', _, _, workers, hmasters, rfl, hst', rfl⟩

theorem k8sDeployment_carries {o : K8SModel} {masterIps : List String} {ts : List TwinDeployment}
    {network : Option AnyNetwork} {wg : String}
    (h : k8sDeployment env projectName o masterIps = .ok (ts, network, wg)) :
    OwnCarry (clusterIdentity projectName o.name) ts := by
  obtain ⟨st, st', masterIp, masterFlist, workers, hmasters, -, hworkers, rfl⟩ := k8sDeployment_ok h
  exact createWorkers_carries hworkers (createMasters_carries hmasters (OwnCarry.nil _))

theorem createZdbs_carries {twinId : Nat} {text : String} (htext : i.Carried text) {o : ZDBSModel}
    {zs : List ZdbOptions} {names : List String} {ts : List TwinDeployment}
    (h : createZdbs twinId text o names zs = .ok ts) : OwnCarry i ts := by
  induction zs generalizing names ts with
  | nil =>
    cases h
    exact OwnCarry.nil i
  | cons z zs ih =>
    unfold createZdbs at h
    split_ifs at h
    · cases h
    obtain ⟨rest, hzs, hrest⟩ := exceptBind_eq_ok.mp h
    cases hrest
    have hfirst : OwnCarry i [(o.zdb text z).create twinId] := by
      intro t ht _
      rw [List.mem_singleton.mp ht]
      exact htext
    exact hfirst.append (ih hzs)

theorem zdbsDeployment_carries {twinId : Nat} {projectName : String} {o : ZDBSModel}
    {ts : List TwinDeployment} (h : zdbsDeployment twinId projectName o = .ok ts) :
    OwnCarry ⟨"zdb", o.name, projectNameOr projectName ("zdb/" ++ o.name)⟩ ts :=
  createZdbs_carries (Identity.carried_toText.mpr rfl) h

end

end ThreefoldSdk.Modules
