import ThreefoldSdk.HighLevel.Merge

/-! The checks `TwinDeploymentHandler` makes on a merged plan before it touches the chain. -/

namespace ThreefoldSdk.HighLevel
open Zos Primitives

/-- The answers of the grid proxy, the nodes and the farms. -/
structure Resources where
  /-- `nodeHasResources` with `hru`, `sru` and `mru` in bytes. -/
  nodeHasResources : Nat → Nat → Nat → Nat → Except GridError Bool
  /-- `verifyNodeStoragePoolCapacity` with the ssd, hdd and rootfs disks. -/
  verifyNodeStoragePoolCapacity : Nat → List Nat → List Nat → List Nat → Except GridError Unit
  /-- The farm of a node, when the node is known. -/
  farmOf : Nat → Except GridError (Option Nat)
  /-- The number of public ips of a farm that have no contract. -/
  freeIps : Nat → Except GridError Nat

def validate (v : Validators) : List TwinDeployment → Except GridError Unit
  | [] => .ok ()
  | t :: ts => do
    validateObject v t.deployment
    validate v ts

/-- `workload.data["size"]` of the types that are counted. -/
def dataSize : WorkloadData → Nat
  | .zmachine d => d.size
  | .zmount d => d.size
  | .volume d => d.size
  | .zdb d => d.size
  | _ => 0

def dataMemory : WorkloadData → Nat
  | .zmachine d => d.computeCapacity.memory
  | _ => 0

/-- The workloads a plan brings to a node: those deployed, and those of the version of their
update. -/
def plannedWorkloads (twinDeployments : List TwinDeployment) : List Workload :=
  twinDeployments.flatMap fun t =>
    match t.operation with
    | .deploy => t.workloads
    | .update => t.workloads.filter fun w => w.version == t.deployment.version
    | .delete => []

def sizesOf (types : List WorkloadTypes) (ws : List Workload) : List Nat :=
  (ws.filter fun w => types.contains w.type).map fun w => dataSize w.data

def checkNodeCapacity (r : Resources) (nodeId : Nat) (twinDeployments : List TwinDeployment) :
    Except GridError Unit := do
  let workloads := plannedWorkloads twinDeployments
  let rootfsDisks := sizesOf [.zmachine] workloads
  let ssdDisks := sizesOf [.zmount, .volume] workloads
  let hddDisks := sizesOf [.zdb] workloads
  let hru := hddDisks.sum
  let sru := rootfsDisks.sum + ssdDisks.sum
  let mru := ((workloads.filter fun w => w.type = .zmachine).map fun w => dataMemory w.data).sum
  if !workloads.isEmpty then
    if !(← r.nodeHasResources nodeId hru sru mru) then
      throw (.base "InvalidResourcesError"
        s!"Node {nodeId} doesn't have enough resources: sru={sru}, mru={mru} .")
  if !workloads.isEmpty && (!rootfsDisks.isEmpty || !ssdDisks.isEmpty || !hddDisks.isEmpty) then
    r.verifyNodeStoragePoolCapacity nodeId ssdDisks hddDisks rootfsDisks

def checkNodesCapacity (r : Resources) (twinDeployments : List TwinDeployment) :
    Except GridError Unit :=
  let deployments := ObjectMap.collect TwinDeployment.nodeId (fun t => [t]) (fun g t => g ++ [t])
    twinDeployments
  (deployments.ordered arrayIndex).forM fun e => checkNodeCapacity r e.1 e.2

/-- The farms of the nodes that are asked for public ips, with the number asked for. -/
def requestedIps (r : Resources) :
    List TwinDeployment → ObjectMap Nat Nat → Except GridError (ObjectMap Nat Nat)
  | [], farmIps => .ok farmIps
  | t :: ts, farmIps =>
    if t.operation ≠ .deploy ∨ t.publicIps = 0 then requestedIps r ts farmIps
    else do
      match ← r.farmOf t.nodeId with
      | none => requestedIps r ts farmIps
      | some farmId => requestedIps r ts (farmIps.upsert farmId fun n => n.getD 0 + t.publicIps)

def checkFarmIps (r : Resources) (twinDeployments : List TwinDeployment) :
    Except GridError Unit := do
  let farmIps ← requestedIps r twinDeployments .empty
  farmIps.entries.forM fun (farmId, n) => do
    let freeIps ← r.freeIps farmId
    if freeIps < n then
      throw (.base "InvalidResourcesError"
        s!"Farm {farmId} doesn't have enough public IPs: requested IPs={n}, available IPs={freeIps}.")

end ThreefoldSdk.HighLevel
