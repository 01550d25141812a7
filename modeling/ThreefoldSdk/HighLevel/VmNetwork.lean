import ThreefoldSdk.HighLevel.Merge
import ThreefoldSdk.Modules.Metadata
import ThreefoldSdk.Primitives.CheckMycelium
import ThreefoldSdk.Primitives.Creation

/-! What `VMHL.create` does to the network of its machine (`high_level/machine.ts`): it reserves the
subnet of the ip that is asked for, adds the nodes, and takes the ip of the machine. -/

namespace ThreefoldSdk.HighLevel
open Zos Primitives Ipv4 Modules

/-- The features of a node that `create` looks at. -/
inductive Features where
  | wireguard
  | network
  | zmachine
deriving DecidableEq, Repr

/-- The arguments of `VMHL.create` about the network. An empty `ip` is none, and so is the access
node 0. -/
structure VmNetworkOptions where
  nodeId : Nat
  mycelium : Bool
  myceliumSeeds : List MyceliumNetworkModel
  description : String
  addAccess : Bool
  accessNodeId : Nat
  ip : String
  solutionProviderId : Option Nat

/-- A twin deployment for the network, without what all of them share. -/
structure NetworkOperation where
  deployment : Deployment
  operation : Operations
  nodeId : Nat
  solutionProviderId : Option Nat

def NetworkOperation.twin (metadata : String) (network : AnyNetwork) (op : NetworkOperation) :
    TwinDeployment :=
  ⟨op.deployment, op.operation, 0, op.nodeId, metadata, some network, op.solutionProviderId, false⟩

/-- `networkContractMetadata`. -/
def networkMetadata (features : List Features) (name projectName : String) : ContractMetadata :=
  if .network ∈ features then ⟨.zos3, "network", name, projectName⟩
  else ⟨.zos4, "network-light", name, projectName⟩

/-- The first network workload with a subnet of the network's range gets its data and the next
version. -/
def renewNetwork (n : Network) : List Workload → Except GridError (List Workload)
  | [] => .ok []
  | w :: ws =>
    if w.type = .network then do
      let range ← addr n.ipRange
      let subnet ← addr (w.data.subnet.getD "")
      if range.contains subnet then
        return { w with data := n.getUpdatedNetwork w.data, version := w.version + 1 } :: ws
      let rest ← renewNetwork n ws
      return w :: rest
    else do
      let rest ← renewNetwork n ws
      return w :: rest

/-- The loop over the deployments of the network. -/
def networkUpdates (v : Validators) (n : Network) :
    List NetworkDeployment → Except GridError (List NetworkOperation)
  | [] => .ok []
  | d :: ds => do
    let o ← fromObj v d.deployment
    let workloads ← renewNetwork n o.workloads
    let rest ← networkUpdates v n ds
    return ⟨{ o with workloads := workloads }, .update, 0, none⟩ :: rest

/-- What all parts read: the nodes and the grid, whether `exists` finds the network, the user, and
the features of the machine's node. -/
structure VmNetworkEnv where
  network : NetworkEnv
  validators : Validators
  isKnown : Bool
  twinId : Nat
  projectName : String
  features : List Features

section
variable (env : VmNetworkEnv) (o : VmNetworkOptions)

/-- `userIPsubnet`. -/
def userSubnet : NetM String :=
  if o.ip = "" then pure ""
  else do
    let ip ← pureStep (addr o.ip)
    validateFreeSubnet (ip.mask 24).toText

/-- `accessNodeSubnet`. -/
def accessSubnet : NetM String :=
  if o.ip ≠ "" ∧ .wireguard ∈ env.features then getFreeSubnet else pure ""

/-- `access_node_id`. The choice falls on an access node with an ipv4. -/
def pickAccessNode (accessNodes : List (Nat × PublicConfig)) : NetM Nat := do
  let filtered := (accessNodes.filter fun p => p.2.ipv4 ≠ "").map Prod.fst
  if o.accessNodeId = 0 then randomChoice env.network filtered
  else do
    let _ ← tick
    if o.accessNodeId ∉ filtered then
      throw (.base "AccessNodeError"
        s!"Node {o.accessNodeId} is not an access node or maybe it's down.")
    return o.accessNodeId

/-- The access node that has to be added, and `hasAccessNode`. -/
def neededAccessNode : NetM (Option Nat × Bool) :=
  if .wireguard ∈ env.features ∧ o.addAccess = true then do
    let accessNodes ← capacityAccessNodes env.network
    let s ← get
    let hasAccessNode := accessNodes.any fun p => s.network.nodeExists p.1
    let isAccessNode := o.nodeId ∈ accessNodes.map Prod.fst ∧ o.accessNodeId ≠ 0 ∧
      o.nodeId = o.accessNodeId
    if hasAccessNode ∨ isAccessNode then
      return (none, hasAccessNode)
    else
      let nodeId ← pickAccessNode env o accessNodes
      return (some nodeId, hasAccessNode)
  else pure (none, false)

/-- `access_net_workload`, with its node, and `wgConfig`. -/
def addAccessNode (subnet : String) : Option Nat → NetM (Option (Nat × Workload) × String)
  | none => pure (none, "")
  | some nodeId => do
    let workload ← addNode env.network nodeId o.mycelium o.description subnet o.myceliumSeeds
    let wgConfig ← addAccess env.network nodeId true
    return (workload.map fun w => (nodeId, w), wgConfig)

def myceliumOperation : NetM (List NetworkOperation) := do
  let s ← get
  if s.network.nodeExists o.nodeId then
    let deployment ← checkMycelium env.network env.validators o.nodeId o.myceliumSeeds o.mycelium
    return (deployment.map fun d => ⟨d, .update, 0, none⟩).toList
  else return []

/-- A new contract for a network workload. -/
def deployNetwork (nodeId : Nat) (w : Workload) (name : String) : NetworkOperation where
  deployment := createDeployment env.twinId [w] 0
    (networkMetadata env.features name env.projectName).toText o.description 0
  operation := .deploy
  nodeId := nodeId
  solutionProviderId := o.solutionProviderId

/-- The network is known, and a node was added to it. -/
def extendNetwork (znet : Option Workload) : NetM (List NetworkOperation) := do
  let s ← get
  let updates ← pureStep (networkUpdates env.validators s.network s.network.deployments)
  return updates ++ (znet.map fun w => deployNetwork env o o.nodeId w s.network.name).toList

/-- The node is the first of the network, or the access node was just before; without an access
node the access point is on it. -/
def startNetwork (needsAccess : Bool) : Option Workload → NetM (List NetworkOperation × String)
  | none => pure ([], "")
  | some w =>
    if needsAccess then do
      let wgConfig ← addAccess env.network o.nodeId true
      let s ← get
      return ([deployNetwork env o o.nodeId { w with data := s.network.getUpdatedNetwork w.data }
        s.network.name], wgConfig)
    else do
      let s ← get
      return ([deployNetwork env o o.nodeId w s.network.name], "")

/-- A network that is known is updated, one that is not is started. -/
def addedOperations (accessWorkload : Option (Nat × Workload)) (hasAccessNode : Bool)
    (znet : Option Workload) : NetM (List NetworkOperation × String) :=
  if env.isKnown ∧ (znet.isSome ∨ accessWorkload.isSome) then do
    let ops ← extendNetwork env o znet
    return (ops, "")
  else startNetwork env o (accessWorkload.isNone && !hasAccessNode && o.addAccess) znet

/-- The access node's own contract, with the peers it has by now. -/
def deployAccessNode : Option (Nat × Workload) → NetM (List NetworkOperation)
  | none => pure []
  | some (nodeId, w) => do
    let s ← get
    return [deployNetwork env o nodeId { w with data := s.network.getUpdatedNetwork w.data }
      s.network.name]

/-- Between the subnet of the user and the ip of the machine. -/
def joinNetwork (userIPsubnet : String) : NetM (List NetworkOperation × String) := do
  let accessNodeSubnet ← accessSubnet env o
  let (accessNode, hasAccessNode) ← neededAccessNode env o
  let (accessWorkload, wgConfig) ← addAccessNode env o accessNodeSubnet accessNode
  let mycelium ← myceliumOperation env o
  let znet ← addNode env.network o.nodeId o.mycelium o.description userIPsubnet o.myceliumSeeds
  let _ ← request env.network
  let (joined, wgConfig') ← addedOperations env o accessWorkload hasAccessNode znet
  let access ← deployAccessNode env o accessWorkload
  return (mycelium ++ joined ++ access, if wgConfig' = "" then wgConfig else wgConfig')

/-- `machine_ip`. -/
def machineIp : NetM (Option String) := do
  let s ← get
  if o.ip = "" then do
    let (ip, n) ← pureStep (s.network.getFreeIP o.nodeId "")
    set { s with network := n }
    return some ip
  else do
    let (ip, n) ← pureStep (s.network.validateUserIP o.nodeId o.ip)
    set { s with network := n }
    return ip

/-- The part of `VMHL.create` on a `Network`. -/
def vmNetwork : NetM (List NetworkOperation × String × Option String) := do
  let userIPsubnet ← userSubnet o
  let (ops, wgConfig) ← joinNetwork env o userIPsubnet
  let ip ← machineIp o
  return (ops, wgConfig, ip)

end

end ThreefoldSdk.HighLevel
