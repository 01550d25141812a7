import ThreefoldSdk.Primitives.Network

/-! `DeploymentFactory` (`primitives/deployment.ts`). The two nested loops of `UpdateDeployment`
write the workloads of both deployments in place; here each loop hands back the workloads it went
through. -/

namespace ThreefoldSdk.Primitives
open Zos

/-- The variables of `UpdateDeployment` that its loops share. -/
structure Scan where
  oldWorkloadNames : List String
  newWorkloads : List Workload
  foundUpdate : Bool
  network : Option Network
deriving DecidableEq

/-- `w.version = workload.version`, and for a machine the check of its first ip: with a network it
keeps the one it had. `nodeId` is the answer of `getNodeIdFromContractId`. -/
def adopt (nodeId : Except GridError Nat) (workload w : Workload) (network : Option Network) :
    Except GridError (Workload × Option Network) :=
  let w := { w with version := workload.version }
  if w.type = .zmachine then do
    let node ← nodeId
    match workload.data.firstInterface, w.data.firstInterface with
    | some oldIface, some newIface =>
      match network with
      | some n =>
        if newIface.ip ≠ oldIface.ip then
          return ({ w with data := w.data.setFirstIp oldIface.ip },
            some (n.deleteReservedIp node newIface.ip))
        else return (w, network)
      | none => return (w, network)
    | _, _ => throw .typeError
  else return (w, network)

/-- The inner loop, over the new workloads, for one old workload. It stops at the first change. -/
def matchWorkload (nodeId : Except GridError Nat) (deploymentVersion : Nat) (workload : Workload) :
    List Workload → Scan → Except GridError (Workload × List Workload × Scan)
  | [], st => return (workload, [], st)
  | w :: ws, st =>
    if w.name ∉ st.oldWorkloadNames then do
      let w := { w with version := deploymentVersion + 1 }
      let (workload', ws', st') ← matchWorkload nodeId deploymentVersion workload ws
        { st with
          oldWorkloadNames := st.oldWorkloadNames ++ [w.name]
          newWorkloads := st.newWorkloads ++ [w]
          foundUpdate := true }
      return (workload', w :: ws', st')
    else if w.isNetwork ∨ w.name ≠ workload.name then do
      let (workload', ws', st') ← matchWorkload nodeId deploymentVersion workload ws st
      return (workload', w :: ws', st')
    else do
      let (w, network) ← adopt nodeId workload w st.network
      if w.challenge = workload.challenge then
        let (workload', ws', st') ←
          matchWorkload nodeId deploymentVersion workload ws { st with network := network }
        return (workload', w :: ws', st')
      else
        return ({ workload with
            version := deploymentVersion + 1
            data := w.data
            description := w.description
            metadata := w.metadata },
          w :: ws, { st with network := network, foundUpdate := true })

/-- The outer loop, over the old workloads. A deleted one is marked by `none`. -/
def scanWorkloads (nodeId : Except GridError Nat) (deploymentVersion : Nat)
    (newWorkloadNames : List String) :
    List Workload → List Workload → Scan →
      Except GridError (List (Option Workload) × List Workload × Scan)
  | [], ws, st => return ([], ws, st)
  | workload :: rest, ws, st =>
    if workload.isNetwork then do
      let (rest', ws', st') ← scanWorkloads nodeId deploymentVersion newWorkloadNames rest ws st
      return (some workload :: rest', ws', st')
    else if workload.name ∉ newWorkloadNames then do
      let (rest', ws', st') ← scanWorkloads nodeId deploymentVersion newWorkloadNames rest ws
        { st with foundUpdate := true }
      return (none :: rest', ws', st')
    else do
      let (workload', ws₁, st₁) ← matchWorkload nodeId deploymentVersion workload ws st
      let (rest', ws', st') ← scanWorkloads nodeId deploymentVersion newWorkloadNames rest ws₁ st₁
      return (some workload' :: rest', ws', st')

/-- `result` is what the promise resolves with; `old`, `new` and `network` are the arguments
afterwards. -/
structure Updated where
  result : Option Deployment
  old : Deployment
  new : Deployment
  network : Option Network
deriving DecidableEq

def updateDeployment (nodeId : Except GridError Nat) (oldDeployment newDeployment : Deployment)
    (network : Option Network) : Except GridError Updated := do
  let (kept, ws, st) ← scanWorkloads nodeId oldDeployment.version newDeployment.names
    oldDeployment.workloads newDeployment.workloads
    ⟨oldDeployment.names, [], false, network⟩
  let old := { oldDeployment with workloads := kept.filterMap id ++ st.newWorkloads }
  return {
    result := if st.foundUpdate then some old else none
    old := old
    new := { newDeployment with workloads := ws }
    network := st.network }

/-- `excludeExtraneousValues` drops what carries no `@Expose`: what the network classes put on their
data, and both fields of a zlogs workload. -/
def exposed : WorkloadData → WorkloadData
  | .network d => .network { d with nodeId := none }
  | .networklight d => .networklight { d with nodeId := none, ipRange := none }
  | .zlogs _ => .zlogs ⟨none, none⟩
  | d => d

/-- `validateObject`; the list of errors that follows in the message is left out. -/
def validateObject (v : Validators) (d : Deployment) : Except GridError Unit :=
  if d.valid v then .ok () else .error (.validation "Validation failed.")

def fromObj (v : Validators) (deployment : Deployment) : Except GridError Deployment := do
  let d := { deployment with
    workloads := deployment.workloads.map fun w => { w with data := exposed w.data } }
  validateObject v d
  return d

end ThreefoldSdk.Primitives
