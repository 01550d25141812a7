import ThreefoldSdk.HighLevel.Checks
import ThreefoldSdk.Lib.Frame

/-! What `TwinDeploymentHandler` works on: the chain, the nodes and its own fields, and its requests
to them, any of which may fail. -/

namespace ThreefoldSdk.HighLevel
open Zos Primitives TfChain

/-- `held` is the deployment a node has for a contract; `newContracts` and `deletedContracts` are
the static lists of `Network`; `clock` counts the requests made. -/
structure World (S : Type) where
  chain : S
  held : Nat → Option Deployment
  originalDeployments : List Deployment
  newContracts : List Nat
  deletedContracts : List Nat
  clock : Nat

/-- The configuration of the handler and the outside world, asked by the number of the request. -/
structure HandlerEnv (S : Type) where
  chain : Chain S
  validators : Validators
  json : MetadataJson
  resources : Resources
  md5 : String → String
  signature : String → String
  keypairType : KeypairType
  twinId : Nat
  deploymentTimeoutMinutes : Nat
  /-- The error a request ends with. -/
  fails : Nat → Option GridError
  /-- Whether a deployment reached its node although the request for it failed. -/
  delivered : Nat → Bool
  /-- The error of the lookup of a contract during the merge. -/
  lookupFails : Nat → Nat → Option GridError
  /-- Whether a batch is not taken by the chain. -/
  rejects : Nat → Nat → Bool
  verified : Nat → Bool
  /-- What a node answers about a deployment until the time is up. -/
  polls : Nat → Nat → List (Except GridError Deployment)

abbrev M (S : Type) := EStateM GridError (World S)

section
variable {S : Type} (env : HandlerEnv S)

/-- One request; it may fail. -/
def external : M S Unit := do
  let w ← get
  set { w with clock := w.clock + 1 }
  match env.fails w.clock with
  | some e => throw e
  | none => return

/-- `tfclient.contracts.get`; no contract has the id 0, which stands for an undefined one. -/
def getContract (id : Nat) : M S (Option Contract) := do
  external env
  let w ← get
  return env.chain.contract w.chain id

/-- `kyc.status()` and the check of it, with the text of the error. -/
def checkKyc (message : String) : M S Unit := do
  let w ← get
  external env
  if !env.verified w.clock then throw (.validation message)

def nodeOfContract (s : S) (contractId : Nat) : Except GridError Nat :=
  match (env.chain.contract s contractId).map Contract.contractType with
  | some (ContractType.nodeContract n) => .ok n.nodeId
  | some (ContractType.rentContract nodeId) => .ok nodeId
  | _ => .error (.other "TFChainError" s!"Error getting node ID from contract ID {contractId}")

/-- `nodes.getNodeIdFromContractId`. -/
def getNodeIdFromContractId (contractId : Nat) : M S Nat := do
  external env
  let w ← get
  match nodeOfContract env w.chain contractId with
  | .ok n => return n
  | .error e => throw e

/-- Runs a pure part that may throw. -/
def lift {α : Type} : Except GridError α → M S α
  | .ok a => pure a
  | .error e => throw e

/-- The lookup that `UpdateDeployment` makes, as a value. -/
def nodeIdLookup (contractId : Nat) : M S (Except GridError Nat) := do
  let w ← get
  set { w with clock := w.clock + 1 }
  match env.fails w.clock with
  | some e => return .error e
  | none => return nodeOfContract env w.chain contractId

def createNameContract (name : String) : M S Extrinsic := do
  external env
  let w ← get
  let id := env.chain.contractIdByName w.chain name
  if id ≠ 0 then
    match ← getContract env id with
    | some c =>
      if c.twinId ≠ env.twinId then
        throw (.validation s!"Name contract with name {name} is already reserved.")
    | none => pure ()
  tryCatch (do
      checkKyc env ("Your account is not verified. Please sign into ThreeFold Dashboard or " ++
        "ThreeFold Connect mobile app to complete your KYC verification.")
      return createName name)
    fun e => throw (.other "TFChainError"
      ("Failed to create name contract " ++ name ++ " due to " ++ e.toText ++ "."))

/-- `contracts.cancel`. -/
def cancelContract (id : Nat) : M S (Option Extrinsic) := do
  external env
  let w ← get
  return cancel env.chain w.chain id

def deleteNameContract (name : String) : M S (Option Extrinsic) := do
  external env
  let w ← get
  let c := env.chain.contractIdByName w.chain name
  if c = 0 then return none else cancelContract env c

def chainError : ChainError → GridError
  | .rejected => .other "TFChainError" "rejected"
  | .dispatch => .other "TFChainError" "dispatch"
  | .pending => .other "TFChainError" "pending"

/-- `tfclient.applyAllExtrinsics`. -/
def applyAllExtrinsics (extrinsics : List (Option Extrinsic)) : M S (List (Option Primitive)) := do
  let w ← get
  let o := batchAll env.chain.runtime (env.rejects w.clock) extrinsics w.chain
  set { w with chain := o.state, clock := w.clock + 1 }
  match o.result with
  | .ok rs => return rs
  | .error e => throw (chainError e)

/-- What a node reads of the payload: the properties its type declares. -/
def onWire : WorkloadData → WorkloadData
  | .network d => .network { d with nodeId := none }
  | .networklight d => .networklight { d with nodeId := none, ipRange := none }
  | d => d

def payload (d : Deployment) : Deployment :=
  { d with workloads := d.workloads.map fun w => { w with data := onWire w.data } }

/-- The request `zos.deployment.deploy` or `zos.deployment.update`. -/
def requestDeployment (d : Deployment) : M S Unit := do
  let w ← get
  let taken : World S := { w with
    clock := w.clock + 1
    held := match d.contractId with
      | some id => Function.update w.held id (some (payload d))
      | none => w.held }
  match env.fails w.clock with
  | some e =>
    set (if env.delivered w.clock then taken else { w with clock := w.clock + 1 })
    throw e
  | none => set taken

/-- Hands back the twin deployment, signed. -/
def sendToNode (t : TwinDeployment) : M S TwinDeployment :=
  tryCatch (do
      let d := t.deployment.sign env.md5 env.signature env.twinId env.keypairType
      external env
      requestDeployment env d
      return { t with deployment := d })
    fun e => throw (e.withPrefix
      ("Failed to " ++ t.operation.toText ++ " the deployment on node " ++ toString t.nodeId ++ "."))

/-- The three requests are those for the node, for its twin and for the deployment. -/
def getDeployment (contractId : Nat) : M S Deployment := do
  let _ ← getNodeIdFromContractId env contractId
  external env
  external env
  let w ← get
  match w.held contractId with
  | some d => return d
  | none => throw (.base "RMBError" "deployment not found")

def getDeploymentFromFactory (contractId : Nat) : M S Deployment := do
  let d ← getDeployment env contractId
  lift (fromObj env.validators d)

end

end ThreefoldSdk.HighLevel
