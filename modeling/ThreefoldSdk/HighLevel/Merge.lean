import ThreefoldSdk.Lib.ObjectMap
import ThreefoldSdk.Primitives.Deployment
import ThreefoldSdk.TfChain.Contracts

/-! Twin deployments (`high_level/models.ts`) and the merge of a list of them into a plan
(`TwinDeploymentHandler.merge`). -/

namespace ThreefoldSdk.HighLevel
open Zos Primitives TfChain

inductive Operations where
  | deploy
  | update
  | delete
deriving DecidableEq, Repr

def Operations.toText : Operations → String
  | deploy => "deploy"
  | update => "update"
  | delete => "delete"

structure TwinDeployment where
  deployment : Deployment
  operation : Operations
  publicIps : Nat
  nodeId : Nat
  metadata : String
  network : Option AnyNetwork
  solutionProviderId : Option Nat
  returnNetworkContracts : Bool
deriving DecidableEq

/-- The constructor with its defaults. -/
def TwinDeployment.make (deployment : Deployment) (operation : Operations) (publicIps nodeId : Nat)
    (metadata : String) (network : Option AnyNetwork) : TwinDeployment :=
  ⟨deployment, operation, publicIps, nodeId, metadata, network, none, false⟩

namespace TwinDeployment

def contractId (t : TwinDeployment) : Option Nat := t.deployment.contractId

def workloads (t : TwinDeployment) : List Workload := t.deployment.workloads

def withWorkloads (t : TwinDeployment) (ws : List Workload) : TwinDeployment :=
  { t with deployment := { t.deployment with workloads := ws } }

/-- `deployment.version += 1`. -/
def bumpVersion (t : TwinDeployment) : TwinDeployment :=
  { t with deployment := { t.deployment with version := t.deployment.version + 1 } }

end TwinDeployment

/-- A number is an array index below `2 ^ 32 - 1`. -/
def arrayIndex (n : Nat) : Option Nat := if n < 2 ^ 32 - 1 then some n else none

/-- A name that is the decimal text of an array index. -/
def nameIndex (s : String) : Option Nat :=
  match s.toNat? with
  | some n => if toString n = s then arrayIndex n else none
  | none => none

def isAnyNetwork (w : Workload) : Bool := decide (w.type = .network ∨ w.type = .networklight)

/-- A deployment with a network workload or a public ip is left alone. -/
def apart (t : TwinDeployment) : Bool := t.workloads.any isAnyNetwork || decide (0 < t.publicIps)

def deployMerge (twinDeployments : List TwinDeployment) : List TwinDeployment :=
  let deploys := twinDeployments.filter fun t => decide (t.operation = .deploy)
  let deploymentMap := ObjectMap.collect TwinDeployment.nodeId id
    (fun m t => m.withWorkloads (m.workloads ++ t.workloads))
    (deploys.filter fun t => !apart t)
  deploys.filter apart ++ (deploymentMap.ordered arrayIndex).map Prod.snd

/-- The first workload of the highest version among those of one name; `w` is the first of all. -/
def latest (w : Workload) (ws : List Workload) : Workload :=
  ws.foldl (fun w w' => if w.version < w'.version then w' else w) w

/-- To assign to the property `__proto__` makes no entry of a plain object. -/
def isEntry (w : Workload) : Bool := decide (w.name ≠ "__proto__")

/-- The workloads of several updates of one contract. A workload that some of them do not have is
kept only when it is newer than the deployment. -/
def latestWorkloads (first : TwinDeployment) (twinDeployments : List TwinDeployment) :
    List Workload :=
  let workloadMap := ObjectMap.collect Workload.name (fun w => [w]) (fun ws w => ws ++ [w])
    ((twinDeployments.flatMap (·.workloads)).filter isEntry)
  (workloadMap.ordered nameIndex).filterMap fun (_, ws) =>
    match ws with
    | [] => none
    | w :: _ =>
      if ws.length < twinDeployments.length ∧ w.version ≤ first.deployment.version then none
      else some (latest w ws)

/-- `_updateToLatest`; the lists it is called with are not empty. -/
def updateToLatest (first : TwinDeployment) (rest : List TwinDeployment) : TwinDeployment :=
  match rest with
  | [] => first.bumpVersion
  | _ =>
    let all := first :: rest
    { (first.withWorkloads (latestWorkloads first all)).bumpVersion with
      publicIps := (all.map (·.publicIps)).sum
      network := all.findSome? (·.network) }

/-- `contract["contractType"]["nodeContract"]["nodeId"]`. -/
def contractNodeId (contract : Option Contract) : Except GridError Nat :=
  match contract.bind (·.nodeContract) with
  | some n => .ok n.nodeId
  | none => .error .typeError

/-- The loop that looks up the contract of every update; what it finds is the node of the first
update of that contract. -/
def lookupNodes (get : Nat → Except GridError (Option Contract)) :
    List TwinDeployment → Except GridError Unit
  | [] => .ok ()
  | t :: ts =>
    match t.contractId with
    | none | some 0 => lookupNodes get ts
    | some id => do
      let contract ← get id
      let _ ← contractNodeId contract
      lookupNodes get ts

def withNode (get : Nat → Except GridError (Option Contract)) (t : TwinDeployment) :
    TwinDeployment :=
  match t.contractId with
  | none | some 0 => t
  | some id =>
    match get id >>= contractNodeId with
    | .ok nodeId => { t with nodeId := nodeId }
    | .error _ => t

/-- Keys of the map are texts; an update without a contract is under `undefined`. -/
def contractIndex (id : Option Nat) : Option Nat := id.bind arrayIndex

def updateMerge (get : Nat → Except GridError (Option Contract))
    (twinDeployments : List TwinDeployment) : Except GridError (List TwinDeployment) := do
  let updates := twinDeployments.filter fun t => decide (t.operation = .update)
  lookupNodes get updates
  let deploymentMap := ObjectMap.collect TwinDeployment.contractId
    (fun t => (withNode get t, [])) (fun g t => (g.1, g.2 ++ [t])) updates
  return (deploymentMap.ordered contractIndex).map fun e => updateToLatest e.2.1 e.2.2

def mergeDelete (twinDeployments : List TwinDeployment) : List TwinDeployment :=
  (twinDeployments.foldl (fun (acc : List TwinDeployment × List (Option Nat)) t =>
    if t.contractId ∈ acc.2 then acc else (acc.1 ++ [t], acc.2 ++ [t.contractId])) ([], [])).1

def merge (get : Nat → Except GridError (Option Contract)) (twinDeployments : List TwinDeployment) :
    Except GridError (List TwinDeployment) := do
  let deploys := deployMerge twinDeployments
  let deletedDeployments := twinDeployments.filter fun t => decide (t.operation = .delete)
  let deletedContracts := deletedDeployments.map (·.contractId)
  let updates ← updateMerge get twinDeployments
  return deploys ++ updates.filter (fun t => decide (t.contractId ∉ deletedContracts)) ++
    mergeDelete deletedDeployments

end ThreefoldSdk.HighLevel
