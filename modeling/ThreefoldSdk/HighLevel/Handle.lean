import ThreefoldSdk.HighLevel.Handler

/-! `TwinDeploymentHandler.handle` and its rollback. The function is cut where its effects change:
`prepare` reads, `create` submits the create and update batch, `deliver` sends, deletes and waits,
and `finish` rolls back what `deliver` leaves when it throws. -/

namespace ThreefoldSdk.HighLevel
open Zos Primitives TfChain

/-- What `PrepareExtrinsic` returns, and the contract it pushes to `contracts.updated`. -/
structure Prepared where
  nodeExtrinsics : List Extrinsic
  nameExtrinsics : List Extrinsic
  deletedExtrinsics : List (Option Extrinsic)
  updated : List Contract

/-- The loop of `handle` over the merged twin deployments. -/
structure Plan where
  twins : List TwinDeployment
  nodeExtrinsics : List Extrinsic
  nameExtrinsics : List Extrinsic
  deletedExtrinsics : List (Option Extrinsic)
  updated : List Contract

def Plan.empty : Plan := ⟨[], [], [], [], []⟩

def Plan.add (t : TwinDeployment) (p : Prepared) (plan : Plan) : Plan where
  twins := t :: plan.twins
  nodeExtrinsics := p.nodeExtrinsics ++ plan.nodeExtrinsics
  nameExtrinsics := p.nameExtrinsics ++ plan.nameExtrinsics
  deletedExtrinsics := p.deletedExtrinsics ++ plan.deletedExtrinsics
  updated := p.updated ++ plan.updated

structure ResultContracts where
  created : List Contract
  updated : List Contract
  deleted : List (Option Primitive)

/-- `workload.data["name"]` of a name gateway. -/
def gatewayName : WorkloadData → String
  | .gatewaynameproxy d => d.name
  | _ => ""

/-- `network.updateWorkload` for every network workload. -/
def updatedWorkloads (json : MetadataJson) (n : AnyNetwork) (nodeId : Nat) :
    List Workload → Except GridError (List Workload)
  | [] => .ok []
  | w :: ws => do
    let w ← if isAnyNetwork w then n.updateWorkload json nodeId w else .ok w
    let ws ← updatedWorkloads json n nodeId ws
    return w :: ws

def updateNetworkWorkloads (json : MetadataJson) (t : TwinDeployment) :
    Except GridError TwinDeployment :=
  match t.network with
  | none => .ok t
  | some n => (updatedWorkloads json n t.nodeId t.workloads).map t.withWorkloads

section
variable {S : Type} (env : HandlerEnv S)

def nameExtrinsicsOf : List Workload → M S (List Extrinsic)
  | [] => return []
  | w :: ws =>
    if w.type = .gatewaynameproxy then do
      let x ← createNameContract env (gatewayName w.data)
      let xs ← nameExtrinsicsOf ws
      return x :: xs
    else nameExtrinsicsOf ws

def deletedNamesOf : List Workload → M S (List (Option Extrinsic))
  | [] => return []
  | w :: ws =>
    if w.type = .gatewaynameproxy then do
      let x ← deleteNameContract env (gatewayName w.data)
      let xs ← deletedNamesOf ws
      return if x.isSome then x :: xs else xs
    else deletedNamesOf ws

/-- `contract.contractType.nodeContract`, and what is read of it. -/
def nodeContractOf (c : Option Contract) : Except GridError (Contract × NodeContract) :=
  match c with
  | some c =>
    match c.nodeContract with
    | some n => .ok (c, n)
    | none => .error .typeError
  | none => .error .typeError

def prepareExtrinsic (t : TwinDeployment) : M S Prepared :=
  match t.operation with
  | .deploy => do
    let names ← nameExtrinsicsOf env t.workloads
    let x := createNode
      { nodeId := t.nodeId
        hash := t.deployment.challengeHash env.md5
        data := t.metadata
        numberOfPublicIps := t.publicIps
        solutionProviderId := t.solutionProviderId }
    return ⟨[x], names, [], []⟩
  | .update => do
    let names ← nameExtrinsicsOf env t.workloads
    let contract ← getContract env (t.contractId.getD 0)
    let (c, n) ← lift (nodeContractOf contract)
    let x := updateNode
      { id := t.contractId.getD 0
        hash := t.deployment.challengeHash env.md5
        data := n.deploymentData }
    return ⟨[x], names, [], [c]⟩
  | .delete => do
    let names ← deletedNamesOf env t.workloads
    let x ← cancelContract env (t.contractId.getD 0)
    return ⟨[], [], names ++ [x], []⟩

def prepareAll : List TwinDeployment → M S Plan
  | [] => return .empty
  | t :: ts => do
    let t ← lift (updateNetworkWorkloads env.json t)
    let p ← prepareExtrinsic env t
    let plan ← prepareAll ts
    return plan.add t p

/-- The lookup that the merge makes for every update. -/
def mergeLookup (w : World S) (id : Nat) : Except GridError (Option Contract) :=
  match env.lookupFails w.clock id with
  | some e => .error e
  | none => .ok (env.chain.contract w.chain id)

def mergeAll (twinDeployments : List TwinDeployment) : M S (List TwinDeployment) := do
  let w ← get
  set { w with clock := w.clock + 1 }
  lift (merge (mergeLookup env w) twinDeployments)

/-- `handle` up to its first batch. -/
def prepare (twinDeployments : List TwinDeployment) : M S Plan := do
  checkKyc env ("Your account is not verified. Please sign into Threefold Dashboard or " ++
    "Connect mobile app to complete your KYC verification.")
  let twins ← mergeAll env twinDeployments
  lift (validate env.validators twins)
  lift (checkNodesCapacity env.resources twins)
  lift (checkFarmIps env.resources twins)
  prepareAll env twins

/-- The results of the batch; a property read of anything but a contract throws. -/
def contractsOf : List (Option Primitive) → Except GridError (List Contract)
  | [] => .ok []
  | some (.contract c) :: rs => (contractsOf rs).map (c :: ·)
  | _ :: _ => .error .typeError

def create (plan : Plan) : M S (List Contract) := do
  let results ← applyAllExtrinsics env ((plan.nodeExtrinsics ++ plan.nameExtrinsics).map some)
  lift (contractsOf results)

/-- `contracts.created`: the results that are not of an update. -/
def createdOf (plan : Plan) (results : List Contract) : List Contract :=
  results.filter fun c => plan.updated.all fun u => u.contractId ≠ c.contractId

/-- The first result with the hash; before it, every result is read as a node contract. -/
def findByHash (hash : String) : List Contract → Except GridError (Option Contract)
  | [] => .ok none
  | c :: cs =>
    match c.nodeContract with
    | none => .error .typeError
    | some n => if hash = n.deploymentHash then .ok (some c) else findByHash hash cs

/-- Whether `handle` reports the contract of a twin deployment. -/
def reports (t : TwinDeployment) : Bool :=
  t.returnNetworkContracts ||
    !(t.workloads.length == 1 && t.workloads.all fun w => decide (w.type = .network))

def pushOriginal (d : Deployment) : M S Unit :=
  modify fun w => { w with originalDeployments := w.originalDeployments ++ [d] }

/-- What an update pushes to `original_deployments` before it is sent. -/
def keepOriginal (t : TwinDeployment) : M S Unit :=
  match t.contractId with
  | none | some 0 => pure ()
  | some id => do
    let d ← getDeploymentFromFactory env id
    pushOriginal d

/-- One round of the loop that sends; also the contracts it adds to the result. -/
def sendTwin (results : List Contract) (t : TwinDeployment) :
    M S (TwinDeployment × List Contract × List Contract) :=
  match t.operation with
  | .deploy => do
    let c ← lift (findByHash (t.deployment.challengeHash env.md5) results)
    let t := match c with
      | some c => { t with deployment := { t.deployment with contractId := some c.contractId } }
      | none => t
    let t ← sendToNode env t
    return (t, if reports t then c.toList else [], [])
  | .update => do
    keepOriginal env t
    let c ← lift (findByHash (t.deployment.challengeHash env.md5) results)
    let t := match c.bind (·.nodeContract) with
      | some n => { t with nodeId := n.nodeId }
      | none => t
    let t ← sendToNode env t
    return (t, [], if reports t then c.toList else [])
  | .delete => return (t, [], [])

def sendAll (results : List Contract) :
    List TwinDeployment → M S (List TwinDeployment × List Contract × List Contract)
  | [] => return ([], [], [])
  | t :: ts => do
    let (t, created, updated) ← sendTwin env results t
    let (ts, created', updated') ← sendAll results ts
    return (t :: ts, created ++ created', updated ++ updated')

/-- The deletions, with the ids that are reported. -/
def deleteAll (plan : Plan) : M S (List (Option Primitive)) := do
  let deletedResult ← applyAllExtrinsics env plan.deletedExtrinsics
  return if 0 < plan.deletedExtrinsics.length then deletedResult else []

def checkWorkload (w target : Workload) (nodeId : Nat) : Except GridError Bool :=
  match w.result with
  | none => .error .typeError
  | some r =>
    if r.state = .error then
      .error (.base "WorkloadDeployError" ("Failed to deploy " ++ w.type.toText ++ " with name " ++
        w.name ++ " on node " ++ toString nodeId ++ " due to: " ++ r.message ++ "."))
    else .ok (decide (r.state = .ok ∧ w.version = target.version))

def readyWorkloads (targets : List Workload) (nodeId : Nat) :
    List Workload → Except GridError Nat
  | [] => .ok 0
  | w :: ws => do
    let ready ← match targets.find? fun t => t.name = w.name with
      | some t => checkWorkload w t nodeId
      | none => .ok false
    let n ← readyWorkloads targets nodeId ws
    return if ready then n + 1 else n

/-- The loop over the answers of the node, until one shows every workload ready. -/
def awaitReady (timeout : Nat) (targets : List Workload) (nodeId contractId : Nat) :
    List (Except GridError Deployment) → Except GridError Unit
  | [] => .error (.base "TimeoutError" ("Deployment with contract_id: " ++ toString contractId ++
      " failed to be ready after " ++ toString timeout ++ " minutes."))
  | .error e :: _ => .error e
  | .ok d :: ds =>
    if d.workloads.length ≠ targets.length then awaitReady timeout targets nodeId contractId ds
    else do
      let n ← readyWorkloads targets nodeId d.workloads
      if n = targets.length then return else awaitReady timeout targets nodeId contractId ds

def waitForDeployment (t : TwinDeployment) : M S Unit := do
  let contractId := t.contractId.getD 0
  let nodeId ← getNodeIdFromContractId env contractId
  let w ← get
  set { w with clock := w.clock + 1 }
  lift (awaitReady env.deploymentTimeoutMinutes t.workloads nodeId contractId
    (env.polls w.clock contractId))

def waitForDeployments : List TwinDeployment → M S Unit
  | [] => return
  | t :: ts =>
    if t.operation = .delete then waitForDeployments ts
    else do
      waitForDeployment env t
      waitForDeployments ts

/-- `network.save` of a deployed network is not awaited; that of a deleted one is, and removes the
stored network when no node is left. -/
def saveNetworks (created : List Contract) : List TwinDeployment → M S Unit
  | [] => return
  | t :: ts =>
    match t.network, t.operation with
    | none, _ => return
    | some (.network _), .deploy => do
      let contract := (created.filter fun c => some c.contractId = t.contractId).head?
      let saved := (contract.bind fun c => c.nodeContract.map fun _ => c.contractId).toList
      modify fun w => { w with newContracts := w.newContracts ++
        (t.workloads.filter fun w => decide (w.type = .network)).flatMap fun _ => saved }
      saveNetworks created ts
    | some (.network n), .delete => do
      modify fun w => { w with deletedContracts := w.deletedContracts ++ t.contractId.toList }
      if n.nodes.isEmpty then external env
      saveNetworks created ts
    | some _, _ => saveNetworks created ts

/-- The body of the `try` of `handle`. -/
def deliver (plan : Plan) (results : List Contract) : M S ResultContracts := do
  let (twins, created, updated) ← sendAll env results plan.twins
  let deleted ← deleteAll env plan
  waitForDeployments env twins
  saveNetworks env (createdOf plan results) twins
  return ⟨created, updated, deleted⟩

/-! The rollback. -/

/-- `this.original_deployments.pop()`. -/
def popOriginal : M S (Option Deployment) := do
  let w ← get
  set { w with originalDeployments := w.originalDeployments.dropLast }
  return w.originalDeployments.getLast?

/-- The state of a contract is an object, so it is never `"Deleted"`. -/
def cancelCreated : List Contract → M S (List (Option Extrinsic))
  | [] => return []
  | c :: cs => do
    let x ← cancelContract env c.contractId
    let xs ← cancelCreated cs
    return x :: xs

/-- The extrinsic and the twin deployment that bring a contract back to a deployment. -/
def restoreTo (d : Deployment) : M S (Extrinsic × TwinDeployment) := do
  let d := { d with version := d.version + 1 }
  let d := d.sign env.md5 env.signature env.twinId env.keypairType
  let contract ← getContract env (d.contractId.getD 0)
  let (_, n) ← lift (nodeContractOf contract)
  let x := updateNode
    { id := d.contractId.getD 0
      hash := d.challengeHash env.md5
      data := n.deploymentData }
  return (x, .make d .update 0 n.nodeId "" none)

/-- One round of the loop over `contracts.updated`. -/
def restore (c : Contract) : M S (Option (Extrinsic × TwinDeployment)) := do
  let updatedDeployment ← getDeploymentFromFactory env c.contractId
  match ← popOriginal with
  | none => return none
  | some originalDeployment =>
    let nodeId ← nodeIdLookup env (updatedDeployment.contractId.getD 0)
    let r ← lift (updateDeployment nodeId updatedDeployment originalDeployment none)
    match r.result with
    | none => return none
    | some d => do
      let x ← restoreTo env d
      return some x

def restoreAll : List Contract → M S (List (Extrinsic × TwinDeployment))
  | [] => return []
  | c :: cs => do
    let x ← restore env c
    let xs ← restoreAll cs
    return x.toList ++ xs

def resendAll : List TwinDeployment → M S Unit
  | [] => return
  | t :: ts => do
    let _ ← sendToNode env t
    resendAll ts

def rollback (created updated : List Contract) : M S Unit := do
  let cancels ← cancelCreated env created
  let updates ← restoreAll env updated
  let _ ← applyAllExtrinsics env (cancels ++ updates.map fun u => some u.1)
  resendAll env (updates.map Prod.snd)

/-- What `handle` throws after the rollback. -/
def handleError (e : GridError) : GridError :=
  if e.isBase then e
  else .base "GridClientError" ("Couldn't handle twin Deployment due to: " ++ e.toText ++ " .")

def finish (plan : Plan) (results : List Contract) : M S ResultContracts :=
  tryCatch (deliver env plan results) fun e => do
    rollback env (createdOf plan results) plan.updated
    throw (handleError e)

def handle (twinDeployments : List TwinDeployment) : M S ResultContracts := do
  let plan ← prepare env twinDeployments
  let results ← create env plan
  finish env plan results

end

end ThreefoldSdk.HighLevel
