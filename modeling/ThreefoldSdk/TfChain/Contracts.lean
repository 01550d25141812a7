import ThreefoldSdk.TfChain.BatchResults

/-! Contracts on the chain and the extrinsics the client makes of them
(`tfchain_client/src/contracts.ts`). The pallet itself is not part of the repository: a chain is
anything whose calls do what they are documented to do. -/

namespace ThreefoldSdk.TfChain
open Staged

structure NodeContract where
  nodeId : Nat
  deploymentHash : String
  deploymentData : String
  publicIps : Nat
deriving DecidableEq, Repr

inductive ContractType where
  | nodeContract (c : NodeContract)
  | nameContract (name : String)
  | rentContract (nodeId : Nat)
deriving DecidableEq, Repr

/-- `State` of a contract; it is an object in either case. -/
inductive ContractState where
  | created
  | gracePeriod (block : Nat)
deriving DecidableEq, Repr

structure Contract where
  contractId : Nat
  twinId : Nat
  state : ContractState
  contractType : ContractType
  solutionProviderId : Option Nat
deriving DecidableEq, Repr

def ContractType.node : ContractType → Option NodeContract
  | nodeContract c => some c
  | _ => none

/-- `contractType.nodeContract`. -/
def Contract.nodeContract (c : Contract) : Option NodeContract := c.contractType.node

/-- The contract with another deployment. -/
def Contract.withDeployment (c : Contract) (hash data : String) : Contract :=
  { c with contractType :=
      match c.contractType with
      | .nodeContract n => .nodeContract { n with deploymentHash := hash, deploymentData := data }
      | t => t }

@[simp] theorem Contract.withDeployment_contractId (c : Contract) (hash data : String) :
    (c.withDeployment hash data).contractId = c.contractId := rfl

inductive Call where
  | createNodeContract (nodeId : Nat) (hash data : String) (publicIps : Nat)
      (solutionProviderId : Option Nat)
  | updateNodeContract (id : Nat) (hash data : String)
  | createNameContract (name : String)
  | cancelContract (id : Nat)
deriving DecidableEq, Repr

/-- An argument of an event, as `toPrimitive` gives it. -/
inductive Primitive where
  | number (n : Nat)
  | contract (c : Contract)
deriving DecidableEq, Repr

def smartContractModule : String := "smartContractModule"

def canceledEvents : List String :=
  ["NodeContractCanceled", "NameContractCanceled", "RentContractCanceled", "ContractCanceled"]

/-- The event of a contract created or updated. -/
def contractEvent (method : String) (c : Contract) : Event Primitive :=
  ⟨smartContractModule, method, [.contract c]⟩

/-- The contracts of a chain and what the calls of the pallet do to them: a creation takes a new id,
an update asks for a node contract, a cancellation removes the contract; each emits one event. -/
structure Chain (S : Type*) where
  runtime : Runtime S Call Primitive
  contract : S → Nat → Option Contract
  contractIdByName : S → String → Nat
  contract_id : ∀ s id c, contract s id = some c → c.contractId = id ∧ id ≠ 0
  exec_createNode : ∀ s s' evs nodeId hash data ips sp,
    runtime.exec (.createNodeContract nodeId hash data ips sp) s = some (s', evs) →
      ∃ c, evs = [contractEvent "ContractCreated" c] ∧ contract s c.contractId = none ∧
        c.contractType = .nodeContract ⟨nodeId, hash, data, ips⟩ ∧
        contract s' = Function.update (contract s) c.contractId (some c)
  exec_updateNode : ∀ s s' evs id hash data,
    runtime.exec (.updateNodeContract id hash data) s = some (s', evs) →
      ∃ c n, contract s id = some c ∧ c.contractType = .nodeContract n ∧
        evs = [contractEvent "ContractUpdated" (c.withDeployment hash data)] ∧
        contract s' = Function.update (contract s) id (some (c.withDeployment hash data))
  exec_createName : ∀ s s' evs name,
    runtime.exec (.createNameContract name) s = some (s', evs) →
      ∃ c, evs = [contractEvent "ContractCreated" c] ∧ contract s c.contractId = none ∧
        c.contractType = .nameContract name ∧
        contract s' = Function.update (contract s) c.contractId (some c)
  exec_cancel : ∀ s s' evs id,
    runtime.exec (.cancelContract id) s = some (s', evs) →
      ∃ c e, contract s id = some c ∧ evs = [e] ∧ e.pallet = smartContractModule ∧
        e.method ∈ canceledEvents ∧ contract s' = Function.update (contract s) id none

abbrev Extrinsic := ExtrinsicResult Call Primitive

theorem smartContractModule_ne_system : "system" ∉ smartContractModule :: ([] : List String) := by
  decide

/-- `patchExtrinsic` without options. -/
def patchExtrinsic (call : Call) : Extrinsic :=
  ⟨call, smartContractModule, [], [], none, smartContractModule_ne_system⟩

structure CreateNodeOptions where
  nodeId : Nat
  hash : String
  data : String
  numberOfPublicIps : Nat
  solutionProviderId : Option Nat

def createNode (o : CreateNodeOptions) : Extrinsic :=
  patchExtrinsic
    (.createNodeContract o.nodeId o.hash o.data o.numberOfPublicIps o.solutionProviderId)

structure UpdateNodeOptions where
  id : Nat
  hash : String
  data : String

def updateNode (o : UpdateNodeOptions) : Extrinsic :=
  patchExtrinsic (.updateNodeContract o.id o.hash o.data)

def createName (name : String) : Extrinsic := patchExtrinsic (.createNameContract name)

def cancelExtrinsic (id : Nat) : Extrinsic :=
  { patchExtrinsic (.cancelContract id) with
    resultEvents := canceledEvents
    map := some fun _ => .number id
    not_system := smartContractModule_ne_system }

section Chain
variable {S : Type*} (chain : Chain S)

/-- Nothing when the contract does not exist. -/
def cancel (s : S) (id : Nat) : Option Extrinsic :=
  (chain.contract s id).map fun _ => cancelExtrinsic id

end Chain

end ThreefoldSdk.TfChain
