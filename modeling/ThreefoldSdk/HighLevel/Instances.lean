import ThreefoldSdk.HighLevel.Merge
import ThreefoldSdk.Lib.Forall2
import ThreefoldSdk.Lib.Frame
import ThreefoldSdk.Primitives.Creation

/-! The twin deployment of a machine, of a worker and of a zdb (`high_level/machine.ts`,
`kubernetes.ts`, `zdb.ts`). The checks of the node, the farm and the gpus, which only refuse, and
the deployments of the network stand before it and are not repeated here. -/

namespace ThreefoldSdk.HighLevel
open Zos Primitives

/-- Sizes are in bytes, as in the workloads. -/
structure DiskModel where
  name : String
  size : Nat
  mountpoint : String
deriving DecidableEq

/-- Shards that are not given are 0. -/
structure QSFSDiskModel where
  qsfsZdbsName : String
  name : String
  keyPrefix : String
  encryptionKey : String
  cache : Option Nat
  minimalShards : Nat
  expectedShards : Nat
  mountpoint : String
deriving DecidableEq

/-- The arguments of `VMHL.create`. An empty text of `zlogsOutput` is none. -/
structure VmOptions where
  name : String
  nodeId : Nat
  flist : String
  cpu : Nat
  memory : Nat
  rootfsSize : Nat
  disks : List DiskModel
  publicIp : Bool
  publicIp6 : Bool
  planetary : Bool
  mycelium : Bool
  entrypoint : String
  env : Env
  contractMetadata : String
  metadata : String
  description : String
  qsfsDisks : List QSFSDiskModel
  corex : Bool
  solutionProviderId : Option Nat
  zlogsOutput : String
  gpus : List String

/-- What `VMHL.create` asks for: features of the node, the machine's ip in the network, the seed as
given or made from the ip, the zdbs under a name (groups and meta), and two texts about them. -/
structure VmAnswers where
  zmachine : Bool
  ip : Bool
  machineIp : String
  myceliumSeed : String
  getZdbs : String → List ZdbBackend × List ZdbBackend
  hexKey : String → String
  qsfsMetadata : String → List ZdbBackend → String

/-- One round of the loop over the qsfs disks. -/
def qsfsWorkload (env : VmAnswers) (d : QSFSDiskModel) : Except GridError Workload := do
  let (groups, metaBackends) := env.getZdbs d.qsfsZdbsName
  if groups.isEmpty || metaBackends.isEmpty then
    throw (.validation ("Couldn't find a qsfs zdbs with name " ++ d.qsfsZdbsName ++
      ". Please create one with qsfs_zdbs module."))
  if d.minimalShards ≠ 0 ∧ groups.length ≤ d.minimalShards then
    throw (.validation
      "Minimal shards can't be more than the number of zdbs in qsfs_zdbs deployment.")
  if d.expectedShards ≠ 0 ∧ groups.length < d.expectedShards then
    throw (.validation
      "Expected shards can't be more than the number of zdbs in qsfs_zdbs deployment.")
  -- three of five shards, rounded up
  let minimalShards := if d.minimalShards ≠ 0 then d.minimalShards else (groups.length * 3 + 4) / 5
  let expectedShards := if d.expectedShards ≠ 0 then d.expectedShards else groups.length
  return QSFSPrimitive.create env.hexKey d.name minimalShards expectedShards d.keyPrefix metaBackends
    [⟨groups⟩] d.encryptionKey (d.cache.getD (1024 ^ 3)) 32 "zdb" 0 0 "AES" "snappy"
    (env.qsfsMetadata d.qsfsZdbsName groups) "" 0

namespace VmOptions

def diskWorkloads (o : VmOptions) : List Workload :=
  o.disks.map fun d => DiskPrimitive.create d.size d.name "" o.description 0

def ipName (o : VmOptions) : String :=
  if o.publicIp || o.publicIp6 then o.name ++ "_pubip" else ""

def ipWorkloads (o : VmOptions) : List Workload :=
  if o.publicIp || o.publicIp6 then
    [PublicIPPrimitive.create o.ipName "" o.description 0 o.publicIp o.publicIp6]
  else []

def publicIps (o : VmOptions) : Nat := if o.publicIp then 1 else 0

def zlogsWorkloads (o : VmOptions) : List Workload :=
  if isNotEmpty o.zlogsOutput then [ZlogsPrimitive.create o.name o.zlogsOutput "" o.description 0]
  else []

def vmArguments (env : VmAnswers) (networkName : String) (o : VmOptions) : VmArguments where
  name := o.name
  flist := o.flist
  cpu := o.cpu
  memory := o.memory
  rootfsSize := o.rootfsSize
  disks := o.disks.map (fun d => DiskPrimitive.createMount d.name d.mountpoint) ++
    o.qsfsDisks.map fun d => DiskPrimitive.createMount d.name d.mountpoint
  networkName := networkName
  ip := env.machineIp
  planetary := o.planetary
  mycelium := o.mycelium
  myceliumSeed := env.myceliumSeed
  publicIp := o.ipName
  entrypoint := o.entrypoint
  env := o.env
  metadata := ""
  description := o.description
  version := 0
  corex := o.corex
  gpus := o.gpus

def vmWorkload (env : VmAnswers) (networkName : String) (o : VmOptions) : Workload :=
  if env.zmachine then VMPrimitive.create (o.vmArguments env networkName)
  else VMLightPrimitive.create (o.vmArguments env networkName)

/-- The workloads of the machine, in the order in which `create` pushes them. -/
def workloads (env : VmAnswers) (networkName : String) (o : VmOptions) :
    Except GridError (List Workload) := do
  let qsfs ← o.qsfsDisks.mapM (qsfsWorkload env)
  if (o.publicIp || o.publicIp6) && !env.ip then
    throw (.base "InvalidResourcesError" ("Node " ++ toString o.nodeId ++
      " doesn't support public ips."))
  return o.diskWorkloads ++ qsfs ++ o.ipWorkloads ++ [o.vmWorkload env networkName] ++
    o.zlogsWorkloads

/-- `VMHL.create`: its last twin deployment. -/
def create (twinId : Nat) (env : VmAnswers) (network : AnyNetwork) (o : VmOptions) :
    Except GridError TwinDeployment := do
  let workloads ← o.workloads env network.name
  return {
    deployment := createDeployment twinId workloads 0 o.metadata o.description 0
    operation := .deploy
    publicIps := o.publicIps
    nodeId := o.nodeId
    metadata := o.contractMetadata
    network := some network
    solutionProviderId := o.solutionProviderId
    returnNetworkContracts := false }

/-- The names of the workloads that come with the machine. -/
def otherNames (o : VmOptions) : List String :=
  o.disks.map DiskModel.name ++ o.qsfsDisks.map QSFSDiskModel.name ++
    (if o.publicIp || o.publicIp6 then [o.name ++ "_pubip"] else []) ++
      (if isNotEmpty o.zlogsOutput then ["zlogs_" ++ o.name] else [])

end VmOptions

/-- The arguments that `KubernetesHL.add_master` and `add_worker` share. -/
structure K8sNodeOptions where
  name : String
  nodeId : Nat
  secret : String
  cpu : Nat
  memory : Nat
  rootfsSize : Nat
  diskSize : Nat
  publicIp : Bool
  publicIp6 : Bool
  planetary : Bool
  mycelium : Bool
  sshKey : String
  contractMetadata : String
  metadata : String
  description : String
  qsfsDisks : List QSFSDiskModel
  corex : Bool
  solutionProviderId : Option Nat
  zlogsOutput : String
  gpus : List String

namespace K8sNodeOptions

def flist : String :=
  "https://hub.grid.tf/tf-official-apps/threefolddev-k3s-v1.31.0.flist"

def mountpoint : String := "/mnt/data"

def nodeEnv (url : String) (o : K8sNodeOptions) : Env where
  entries := [("SSH_KEY", .string o.sshKey), ("K3S_TOKEN", .string o.secret),
    ("K3S_DATA_DIR", .string mountpoint), ("K3S_FLANNEL_IFACE", .string "eth0"),
    ("K3S_NODE_NAME", .string o.name), ("K3S_URL", .string url)]
  keys_nodup := by
    simp only [List.map_cons, List.map_nil]
    decide

/-- What is handed over to `VMHL.create`. -/
def vmOptions (flist url : String) (o : K8sNodeOptions) : VmOptions where
  name := o.name
  nodeId := o.nodeId
  flist := flist
  cpu := o.cpu
  memory := o.memory
  rootfsSize := o.rootfsSize
  disks := [⟨o.name ++ "_disk", o.diskSize, mountpoint⟩]
  publicIp := o.publicIp
  publicIp6 := o.publicIp6
  planetary := o.planetary
  mycelium := o.mycelium
  entrypoint := "/sbin/zinit init"
  env := o.nodeEnv url
  contractMetadata := o.contractMetadata
  metadata := o.metadata
  description := o.description
  qsfsDisks := o.qsfsDisks
  corex := o.corex
  solutionProviderId := o.solutionProviderId
  zlogsOutput := o.zlogsOutput
  gpus := o.gpus

/-- `add_master`. -/
def addMaster (o : K8sNodeOptions) : VmOptions := o.vmOptions flist ""

/-- `add_worker`. An empty text of `masterFlist` is none. -/
def addWorker (masterIp masterFlist : String) (o : K8sNodeOptions) : VmOptions :=
  o.vmOptions (if isNotEmpty masterFlist then masterFlist else flist)
    ("https://" ++ masterIp ++ ":6443")

end K8sNodeOptions

/-- The arguments of `ZdbHL.create`. -/
structure ZdbOptions where
  name : String
  nodeId : Nat
  diskSize : Nat
  mode : ZdbModes
  password : String
  publicNamespace : Bool
  contractMetadata : String
  metadata : String
  description : String
  solutionProviderId : Option Nat

def ZdbOptions.create (twinId : Nat) (o : ZdbOptions) : TwinDeployment where
  deployment := createDeployment twinId
    [ZdbPrimitive.create o.name o.diskSize o.mode o.password o.publicNamespace o.metadata
      o.description 0]
    1626394539 o.metadata o.description 0
  operation := .deploy
  publicIps := 0
  nodeId := o.nodeId
  metadata := o.contractMetadata
  network := none
  solutionProviderId := o.solutionProviderId
  returnNetworkContracts := false

/-- What one of `add_machine`, `add_worker` and `add_zdb` adds. -/
inductive Instance where
  | machine (env : VmAnswers) (network : Network) (o : VmOptions)
  | worker (env : VmAnswers) (network : Network) (masterIp masterFlist : String)
      (o : K8sNodeOptions)
  | zdb (o : ZdbOptions)

namespace Instance

def name : Instance → String
  | machine _ _ o => o.name
  | worker _ _ _ _ o => o.name
  | zdb o => o.name

/-- The network passed to `_add`. -/
def network : Instance → Option Network
  | machine _ network _ => some network
  | worker _ network _ _ _ => some network
  | zdb _ => none

def create (twinId : Nat) : Instance → Except GridError TwinDeployment
  | machine env network o => o.create twinId env (.network network)
  | worker env network masterIp masterFlist o =>
    (o.addWorker masterIp masterFlist).create twinId env (.network network)
  | zdb o => .ok (o.create twinId)

/-- Whether a public IPv4 is asked for, which is never put into an existing deployment. -/
def publicIps : Instance → Nat
  | machine _ _ o => o.publicIps
  | worker _ _ masterIp masterFlist o => (o.addWorker masterIp masterFlist).publicIps
  | zdb _ => 0

/-- The names of the workloads that come with the instance. -/
def otherNames : Instance → List String
  | machine _ _ o => o.otherNames
  | worker _ _ masterIp masterFlist o => (o.addWorker masterIp masterFlist).otherNames
  | zdb _ => []

/-- The message with which the module refuses a name that is in use. -/
def nameTaken (deploymentName : String) : Instance → String
  | machine _ _ o => "There is another machine with the same name \"" ++ o.name ++
      "\" in the same deployment " ++ deploymentName ++ "."
  | worker _ _ _ _ o => "There is another worker with the same name \"" ++ o.name ++
      "\" in this cluster " ++ deploymentName ++ "."
  | zdb o => "There is another zdb with the same name \"" ++ o.name ++
      "\" in this deployment " ++ deploymentName ++ "."

end Instance

/-! The workloads an instance brings. -/

theorem qsfsWorkload_ok {env : VmAnswers} {d : QSFSDiskModel} {w : Workload}
    (h : qsfsWorkload env d = .ok w) : w.name = d.name ∧ w.type = .qsfs := by
  unfold qsfsWorkload at h
  dsimp only at h
  split_ifs at h <;> cases h
  all_goals exact ⟨rfl, rfl⟩

namespace VmOptions
variable {env : VmAnswers} {networkName : String} {o : VmOptions} {ws : List Workload}

theorem workloads_ok (h : o.workloads env networkName = .ok ws) :
    ∃ qsfs, ws = o.diskWorkloads ++ qsfs ++ o.ipWorkloads ++ [o.vmWorkload env networkName] ++
        o.zlogsWorkloads ∧
      List.Forall₂ (fun (d : QSFSDiskModel) (w : Workload) => w.name = d.name ∧ w.type = .qsfs)
        o.qsfsDisks qsfs := by
  unfold workloads at h
  obtain ⟨qsfs, hqsfs, hrest⟩ := Frame.exceptBind_eq_ok.mp h
  split_ifs at hrest
  · cases hrest
  cases hrest
  exact ⟨qsfs, rfl, (Frame.mapM_eq_ok.mp hqsfs).imp fun _ _ => qsfsWorkload_ok⟩

theorem vmWorkload_name : (o.vmWorkload env networkName).name = o.name := by
  unfold vmWorkload
  split
  · rfl
  · rfl

theorem vmWorkload_type : (o.vmWorkload env networkName).type = .zmachine ∨
    (o.vmWorkload env networkName).type = .zmachinelight := by
  unfold vmWorkload
  split
  · exact Or.inl rfl
  · exact Or.inr rfl

theorem type_of_mem_ip {w : Workload} (hw : w ∈ o.ipWorkloads) : w.type = .ip := by
  unfold ipWorkloads at hw
  split at hw
  · rw [List.mem_singleton.mp hw]
    rfl
  · cases hw

theorem type_of_mem_zlogs {w : Workload} (hw : w ∈ o.zlogsWorkloads) : w.type = .zlogs := by
  unfold zlogsWorkloads at hw
  split at hw
  · rw [List.mem_singleton.mp hw]
    rfl
  · cases hw

theorem workloads_names (h : o.workloads env networkName = .ok ws) :
    (ws.map Workload.name).Perm (o.name :: o.otherNames) := by
  obtain ⟨qsfs, rfl, hqsfs⟩ := workloads_ok h
  have hnames : qsfs.map Workload.name = o.qsfsDisks.map QSFSDiskModel.name :=
    Forall2.map_eq hqsfs fun _ _ hw => hw.1
  have hdisks : o.diskWorkloads.map Workload.name = o.disks.map DiskModel.name := List.map_map
  have hip : o.ipWorkloads.map Workload.name =
      if o.publicIp || o.publicIp6 then [o.name ++ "_pubip"] else [] := by
    unfold ipWorkloads ipName
    split
    · rfl
    · rfl
  have hlogs : o.zlogsWorkloads.map Workload.name =
      if isNotEmpty o.zlogsOutput then ["zlogs_" ++ o.name] else [] := by
    unfold zlogsWorkloads
    split
    · rfl
    · rfl
  unfold otherNames
  rw [List.map_append, List.map_append, List.map_append, List.map_append, hdisks, hnames, hip,
    hlogs, List.map_singleton, vmWorkload_name]
  rw [List.append_assoc _ [o.name]]
  exact List.perm_middle

end VmOptions

theorem VmOptions.create_ok {twinId : Nat} {env : VmAnswers} {network : AnyNetwork}
    {o : VmOptions} {t : TwinDeployment} (h : o.create twinId env network = .ok t) :
    o.workloads env network.name = .ok t.workloads ∧ t.operation = .deploy ∧
      t.publicIps = o.publicIps := by
  obtain ⟨ws, hws, hrest⟩ := Frame.exceptBind_eq_ok.mp h
  cases hrest
  exact ⟨hws, rfl, rfl⟩

/-- The twin deployment of an instance is a new one, with the instance and what comes with it. -/
theorem Instance.create_ok {twinId : Nat} {i : Instance} {t : TwinDeployment}
    (h : i.create twinId = .ok t) :
    (t.workloads.map Workload.name).Perm (i.name :: i.otherNames) ∧
      t.operation = .deploy ∧ t.publicIps = i.publicIps := by
  cases i with
  | machine env network o =>
    obtain ⟨hws, hrest⟩ := VmOptions.create_ok h
    exact ⟨VmOptions.workloads_names hws, hrest⟩
  | worker env network masterIp masterFlist o =>
    obtain ⟨hws, hrest⟩ := VmOptions.create_ok h
    exact ⟨VmOptions.workloads_names hws, hrest⟩
  | zdb o =>
    cases h
    exact ⟨List.Perm.refl _, rfl, rfl⟩

end ThreefoldSdk.HighLevel
