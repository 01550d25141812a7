import ThreefoldSdk.Primitives.Deployment
import ThreefoldSdk.Primitives.Extend

/-! Mycelium on a node that is in a network already (`Network.checkMycelium`). -/

namespace ThreefoldSdk.Primitives
open Zos

/-- `myceliumNetworkSeed?.seed`. -/
def seedFor (seeds : List MyceliumNetworkModel) (nodeId : Nat) : Option String :=
  present ((seeds.find? fun m => m.nodeId = nodeId).bind (·.seed))

/-- `workload.data["mycelium"]["hex_key"] = seed`. -/
def setHexKey (seed : String) : WorkloadData → Except GridError WorkloadData
  | .network z =>
    match z.mycelium with
    | some m => .ok (.network { z with mycelium := some { m with hexKey := seed } })
    | none => .error .typeError
  | .networklight z =>
    match z.mycelium with
    | some m => .ok (.networklight { z with mycelium := some { m with hexKey := seed } })
    | none => .error .typeError
  | _ => .error .typeError

/-- One round of the loop over the workloads. -/
def renewMycelium (getUpdatedNetwork : WorkloadData → WorkloadData) (seed : String) (w : Workload) :
    Except GridError Workload := do
  let data ← setHexKey seed w.data
  return { w with data := getUpdatedNetwork data, version := w.version + 1 }

/-- The loop over the deployments of the node returns in its first round. -/
def myceliumUpdate (v : Validators) (deployments : List NetworkDeployment) (nodeId : Nat)
    (renew : Workload → Except GridError Workload) : Except GridError (Option Deployment) :=
  match deployments.find? fun d => d.nodeId = nodeId with
  | none => .ok none
  | some d => do
    let o ← fromObj v d.deployment
    let workloads ← o.workloads.mapM renew
    return some { o with workloads := workloads }

def otherSeedError (name : String) (nodeId : Nat) : GridError :=
  .validation s!"Another mycelium seed is used for this network {name} on this {nodeId}"

/-- The seed as given, or a new one. -/
def chooseSeed (given : Option String) (random : String) : Except GridError String :=
  match given with
  | some seed => do
    validateHexSeed seed 32
    return seed
  | none => return random

/-- The first network of the node gets the mycelium. -/
def setMycelium (nodeId : Nat) (mycelium : Mycelium) : List Znet → List Znet
  | [] => []
  | net :: nets =>
    if net.nodeId = some nodeId then { net with mycelium := some mycelium } :: nets
    else net :: setMycelium nodeId mycelium nets

section
variable (env : NetworkEnv) (v : Validators) (nodeId : Nat) (seeds : List MyceliumNetworkModel)

/-- The network of the node has no mycelium, or no seed is given for it. -/
def addMycelium : NetM (Option Deployment) := do
  let clock ← tick
  let seed ← pureStep (chooseSeed (seedFor seeds nodeId) (env.randomSeed clock))
  modifyNetwork fun n => { n with networks := setMycelium nodeId ⟨seed, some []⟩ n.networks }
  modifyNetwork Network.updateNetworkDeployments
  let s ← get
  pureStep (myceliumUpdate v s.network.deployments nodeId
    (renewMycelium s.network.getUpdatedNetwork seed))

/-- `Network.checkMycelium`. -/
def checkMycelium (mycelium : Bool) : NetM (Option Deployment) := do
  let s ← get
  if !mycelium then return none
  else
    match s.network.networks.find? fun net => net.nodeId = some nodeId with
    | none => do
      let _ ← tick
      return none
    | some net =>
      match present (net.mycelium.map (·.hexKey)), seedFor seeds nodeId with
      | some key, some seed =>
        if seed ≠ key then throw (otherSeedError s.network.name nodeId) else return none
      | _, _ => addMycelium env v nodeId seeds

end

end ThreefoldSdk.Primitives
