import ThreefoldSdk.HighLevel.AddInstance
import ThreefoldSdk.Modules.Creations
import ThreefoldSdk.Modules.Update

/-! The calls of the machines, k8s and zdb modules that make contracts: `deploy`, `update`, and the
adding of one instance. Each ends with what it hands to `handle`. -/

namespace ThreefoldSdk.Modules
open Zos Primitives HighLevel Ipv4 Frame

/-- What an update asks for besides the new options: whether the name is known, and the deployments
under it. -/
structure UpdateCall where
  known : Bool
  env : UpdateEnv (Option AnyNetwork)
  oldDeployments : List Deployment

/-- The network of a machine and its range. -/
def currentNetwork (workload : Option Workload) : Except GridError (String × String) := do
  let workload ← notNull workload
  let iface ← notNull workload.data.firstInterface
  let ip ← addr iface.ip
  return (iface.network, (ip.mask 16).toText)

def networkChanged : GridError :=
  .base "WorkloadUpdateError" "Network name and ip_range can't be changed."

/-- `_getWorkloadsByTypes(.., [zmachine])[0]`. -/
def firstMachine (deployments : List Deployment) : Option Workload :=
  (deployments.flatMap (·.workloads)).find? fun w => decide (w.type = .zmachine)

section
variable (projectName : String)

/-- `MachinesModule.deploy`. -/
def machinesDeploy (known : Bool) (env : CreationEnv) (o : MachinesModel) :
    Except GridError (List TwinDeployment) := do
  if known then
    throw (.validation ("Another machine deployment with the same name " ++ o.name ++
      " already exists."))
  let (ts, _, _) ← machinesDeployment env projectName o
  return ts

/-- `MachinesModule.update`. -/
def machinesUpdate (call : UpdateCall) (env : CreationEnv) (o : MachinesModel) :
    Except GridError (List TwinDeployment) := do
  if !call.known then
    throw (.validation ("There is no machine with the name: " ++ o.name))
  let (networkName, networkIpRange) ← currentNetwork (firstMachine call.oldDeployments)
  if networkName ≠ o.network.name ∨ networkIpRange ≠ o.network.ipRange then throw networkChanged
  let (ts, network, _) ← machinesDeployment env projectName o
  update call.env network call.oldDeployments ts

/-- `K8sModule.deploy`. -/
def k8sDeploy (known : Bool) (env : CreationEnv) (o : K8SModel) :
    Except GridError (List TwinDeployment) := do
  if 1 < o.masters.length then throw (.validation "Multiple masters are not supported")
  if known then
    throw (.validation ("Another k8s deployment with the same name " ++ o.name ++
      " already exists."))
  let (ts, _, _) ← k8sDeployment env projectName o []
  return ts

/-- `K8sModule.update`. The network is refused only when its name and its range are others. -/
def k8sUpdate (call : UpdateCall) (env : CreationEnv) (o : K8SModel) :
    Except GridError (List TwinDeployment) := do
  if !call.known then
    throw (.validation ("There is no k8s deployment with the name: " ++ o.name ++ "."))
  if 1 < o.masters.length then throw (.validation "Multiple masters are not supported.")
  let masterIps ← mastersIp call.oldDeployments
  if masterIps.isEmpty then throw (.base "WorkloadUpdateError" "Couldn't get master ip.")
  let (networkName, networkIpRange) ← currentNetwork (mastersWorkload call.oldDeployments).head?
  if networkName ≠ o.network.name ∧ networkIpRange ≠ o.network.ipRange then throw networkChanged
  let (ts, network, _) ← k8sDeployment env projectName o masterIps
  update call.env network call.oldDeployments ts

/-- `ZdbsModule.deploy`. -/
def zdbsDeploy (known : Bool) (twinId : Nat) (o : ZDBSModel) :
    Except GridError (List TwinDeployment) := do
  if known then
    throw (.validation ("Another zdb deployment with the same name " ++ o.name ++
      " already exists."))
  zdbsDeployment twinId projectName o

/-- `ZdbsModule.update`. -/
def zdbsUpdate (call : UpdateCall) (twinId : Nat) (o : ZDBSModel) :
    Except GridError (List TwinDeployment) := do
  if !call.known then
    throw (.validation ("There is no zdb deployment with name: " ++ o.name ++ "."))
  let ts ← zdbsDeployment twinId projectName o
  update call.env none call.oldDeployments ts

/-- What adding an instance asks for. A new deployment for the network has its workload alone. -/
structure AddCall where
  known : Bool
  validators : Validators
  nodeId : Except GridError Nat
  twinId : Nat
  contractId : Nat
  deploymentName : String
  oldDeployments : List Deployment
  networkDeployments : List TwinDeployment
  networkOnly : ∀ t ∈ networkDeployments, t.operation = .deploy →
    ∃ w, t.workloads = [w] ∧ isAnyNetwork w = true

/-- The metadata that the module sets for an added instance. -/
def addMetadata (deploymentName : String) : Instance → ContractMetadata
  | .machine _ _ o => addMachineMetadata projectName deploymentName o.name
  | .worker _ _ _ _ _ => addWorkerMetadata projectName deploymentName
  | .zdb o => addZdbMetadata projectName deploymentName o.name

def setMetadata (contractMetadata : String) : Instance → Instance
  | .machine env network o => .machine env network { o with contractMetadata }
  | .worker env network masterIp masterFlist o =>
    .worker env network masterIp masterFlist { o with contractMetadata }
  | .zdb o => .zdb { o with contractMetadata }

/-- The message for a name that is not known. -/
def unknownName (deploymentName : String) : Instance → String
  | .machine _ _ _ => "There are no machine deployments with the name: " ++ deploymentName ++ "."
  | .worker _ _ _ _ _ => "There is no k8s deployment with the name: " ++ deploymentName ++ "."
  | .zdb _ => "There is no zdb deployment with name: " ++ deploymentName ++ "."

/-- `add_machine`, `add_worker` and `add_zdb`. -/
def moduleAdd (call : AddCall) (i : Instance) : Except GridError (List TwinDeployment) := do
  if !call.known then throw (.validation (unknownName call.deploymentName i))
  let (ts, _) ← addInstance call.validators call.nodeId call.twinId call.contractId
    call.deploymentName call.oldDeployments call.networkDeployments
    (setMetadata (addMetadata projectName call.deploymentName i).toText i)
  return ts

end

inductive ModuleKind where
  | machines
  | k8s
  | zdb
deriving DecidableEq, Repr

/-- A call of one of the three modules. -/
inductive Call where
  | machinesDeploy (known : Bool) (env : CreationEnv) (o : MachinesModel)
  | machinesUpdate (call : UpdateCall) (env : CreationEnv) (o : MachinesModel)
  | k8sDeploy (known : Bool) (env : CreationEnv) (o : K8SModel)
  | k8sUpdate (call : UpdateCall) (env : CreationEnv) (o : K8SModel)
  | zdbsDeploy (known : Bool) (twinId : Nat) (o : ZDBSModel)
  | zdbsUpdate (call : UpdateCall) (twinId : Nat) (o : ZDBSModel)
  | add (call : AddCall) (i : Instance)

namespace Call

def kind : Call → ModuleKind
  | machinesDeploy _ _ _ | machinesUpdate _ _ _ | add _ (.machine _ _ _) => .machines
  | k8sDeploy _ _ _ | k8sUpdate _ _ _ | add _ (.worker _ _ _ _ _) => .k8s
  | zdbsDeploy _ _ _ | zdbsUpdate _ _ _ | add _ (.zdb _) => .zdb

/-- The name of the deployment. -/
def name : Call → String
  | machinesDeploy _ _ o | machinesUpdate _ _ o => o.name
  | k8sDeploy _ _ o | k8sUpdate _ _ o => o.name
  | zdbsDeploy _ _ o | zdbsUpdate _ _ o => o.name
  | add call _ => call.deploymentName

/-- What the call hands to `handle`. -/
def handed (projectName : String) : Call → Except GridError (List TwinDeployment)
  | machinesDeploy known env o => Modules.machinesDeploy projectName known env o
  | machinesUpdate call env o => Modules.machinesUpdate projectName call env o
  | k8sDeploy known env o => Modules.k8sDeploy projectName known env o
  | k8sUpdate call env o => Modules.k8sUpdate projectName call env o
  | zdbsDeploy known twinId o => Modules.zdbsDeploy projectName known twinId o
  | zdbsUpdate call twinId o => Modules.zdbsUpdate projectName call twinId o
  | add call i => moduleAdd projectName call i

end Call

end ThreefoldSdk.Modules
