import ThreefoldSdk.Zos.Workload

/-! The two network classes (`primitives/network.ts`, `primitives/networklight.ts`): the state they
load from the chain and the nodes, and the operations that machines and the deployment handler
use. -/

namespace ThreefoldSdk.Primitives
open Zos

/-- What the client throws, with the name of the class and the message: `base` for the classes that
extend `BaseError`, `other` for the rest; `typeError` is a property read of an undefined value. -/
inductive GridError where
  | base (cls : String) (message : String)
  | other (cls : String) (message : String)
  | typeError
deriving DecidableEq, Repr

namespace GridError

def validation (message : String) : GridError := base "ValidationError" message

/-- `e instanceof BaseError`. -/
def isBase : GridError → Bool
  | base _ _ => true
  | _ => false

/-- The text of an error in a template; no subclass of `BaseError` sets its name. -/
def toText : GridError → String
  | base _ m => "Error: " ++ m
  | other cls m => cls ++ ": " ++ m
  | typeError => "TypeError"

/-- `e.message = formatErrorMessage(prefix, e)`. -/
def withPrefix (text : String) : GridError → GridError
  | base cls m => base cls (text ++ "\n\t " ++ m)
  | other cls m => other cls (text ++ "\n\t " ++ m)
  | typeError => other "TypeError" (text ++ "\n\t ")

end GridError

structure Node where
  nodeId : Option Nat
  contractId : Option Nat
  reservedIps : List String
deriving DecidableEq, Repr

/-- `new Node()` with its `node_id`. -/
def Node.fresh (nodeId : Option Nat) : Node := ⟨nodeId, none, []⟩

structure AccessPoint where
  subnet : String
  wireguardPublicKey : String
  nodeId : Nat
deriving DecidableEq, Repr

structure UserAccess where
  subnet : String
  privateKey : String
  nodeId : Nat
deriving DecidableEq, Repr

/-- A deployment as the node returned it, with the `node_id` put on it by `load`. -/
structure NetworkDeployment where
  nodeId : Nat
  deployment : Deployment
deriving DecidableEq

structure Network where
  name : String
  ipRange : String
  nodes : List Node
  deployments : List NetworkDeployment
  reservedSubnets : List String
  networks : List Znet
  accessPoints : List AccessPoint
  userAccesses : List UserAccess
deriving DecidableEq

/-- `JSON.parse(metadata || "{}")` with its version (and user accesses) set, printed again; nothing
when the text does not parse. -/
structure MetadataJson where
  network : List UserAccess → String → Option String
  networkLight : String → Option String

namespace Network

def nodeExists (n : Network) (nodeId : Nat) : Bool :=
  n.networks.any fun net => net.nodeId = some nodeId

def hasAccessPoint (n : Network) (nodeId : Nat) : Bool :=
  n.accessPoints.any fun a => a.nodeId = nodeId

def getNodeReservedIps (n : Network) (nodeId : Nat) : List String :=
  match n.nodes.find? fun node => node.nodeId = some nodeId with
  | some node => node.reservedIps
  | none => []

def deleteReservedIp (n : Network) (nodeId : Nat) (ip : String) : Network :=
  { n with nodes := n.nodes.map fun node =>
      if node.nodeId = some nodeId then
        { node with reservedIps := node.reservedIps.filter (· ≠ ip) }
      else node }

def getNodeSubnet (n : Network) (nodeId : Nat) : Option String :=
  (n.networks.find? fun net => net.nodeId = some nodeId).map (·.subnet)

def getUpdatedNetwork (n : Network) (data : WorkloadData) : WorkloadData :=
  match n.networks.find? fun net => some net.subnet = data.subnet with
  | some net => .network net
  | none => data

def getUpdatedMetadata (json : MetadataJson) (n : Network) (nodeId : Nat) (metadata : String) :
    Except GridError String :=
  if n.nodes.any fun node => node.nodeId = some nodeId then
    match json.network n.userAccesses metadata with
    | some m => .ok m
    | none => .error (.other "SyntaxError" "")
  else .ok metadata

def updateWorkload (json : MetadataJson) (n : Network) (nodeId : Nat) (w : Workload) :
    Except GridError Workload := do
  let metadata ← n.getUpdatedMetadata json nodeId w.metadata
  return { w with data := n.getUpdatedNetwork w.data, metadata := metadata }

/-- `isKnown` is the answer of `exists`. The result is the contract id, 0 when there is none. The
subnets kept are compared with one of a list that was just emptied, so any reserved subnet makes
the call throw. -/
def deleteNode (n : Network) (isKnown : Bool) (nodeId : Nat) :
    Except GridError (Option Nat × Network) :=
  if !isKnown then .ok (some 0, n)
  else if n.reservedSubnets.isEmpty then
    let gone := n.nodes.filter fun node => node.nodeId = some nodeId
    .ok (gone.getLast?.elim (some 0) (·.contractId),
      { n with
        nodes := n.nodes.filter fun node => node.nodeId ≠ some nodeId
        networks := n.networks.filter fun net => net.nodeId ≠ some nodeId })
  else .error .typeError

end Network

/-- `nodeIds` lists the nodes of all light networks of the twin; `load` sets it. -/
structure ZNetworkLight where
  name : String
  ipRange : String
  node : Option Node
  nodeIds : Option (List Nat)
  deployments : List NetworkDeployment
  network : Option NetworkLight
  reservedSubnets : List String
deriving DecidableEq

namespace ZNetworkLight

def nodeExists (n : ZNetworkLight) (nodeId : Nat) : Bool := (n.nodeIds.getD []).contains nodeId

def getNodeReservedIps (n : ZNetworkLight) (nodeId : Nat) : List String :=
  if n.nodeExists nodeId then n.node.elim [] (·.reservedIps) else []

def deleteReservedIp (n : ZNetworkLight) (nodeId : Nat) (ip : String) : ZNetworkLight :=
  if n.nodeExists nodeId then
    { n with node := n.node.map fun node =>
        { node with reservedIps := node.reservedIps.filter (· ≠ ip) } }
  else n

def getUpdatedNetwork (n : ZNetworkLight) (data : WorkloadData) : WorkloadData :=
  match n.network with
  | some net => if some net.subnet = data.subnet then .networklight net else data
  | none => data

def getUpdatedMetadata (json : MetadataJson) (n : ZNetworkLight) (nodeId : Nat)
    (metadata : String) : Except GridError String :=
  match n.node with
  | none => .error .typeError
  | some node =>
    if node.nodeId = some nodeId then
      match json.networkLight metadata with
      | some m => .ok m
      | none => .error (.other "SyntaxError" "")
    else .ok metadata

def updateWorkload (json : MetadataJson) (n : ZNetworkLight) (nodeId : Nat) (w : Workload) :
    Except GridError Workload := do
  let metadata ← n.getUpdatedMetadata json nodeId w.metadata
  return { w with data := n.getUpdatedNetwork w.data, metadata := metadata }

/-- The node is replaced when it is another one, and kept when it is the one to delete. -/
def deleteNode (n : ZNetworkLight) (isKnown : Bool) (nodeId : Nat) :
    Except GridError (Option Nat × ZNetworkLight) :=
  if !isKnown then .ok (some 0, n)
  else
    match n.node with
    | none => .error .typeError
    | some node =>
      let kept (contractId : Option Nat) (node : Node) :=
        match n.network with
        | some net => .ok (contractId, { n with
            node := some node
            reservedSubnets := n.reservedSubnets.filter (· = net.subnet) })
        | none =>
          if n.reservedSubnets.isEmpty then .ok (contractId, { n with node := some node })
          else .error .typeError
      if node.nodeId ≠ some nodeId then kept (some 0) (.fresh none)
      else kept node.contractId node

end ZNetworkLight

/-- `Network | ZNetworkLight`. -/
inductive AnyNetwork where
  | network (n : Network)
  | light (n : ZNetworkLight)
deriving DecidableEq

namespace AnyNetwork

def name : AnyNetwork → String
  | network n => n.name
  | light n => n.name

def deployments : AnyNetwork → List NetworkDeployment
  | network n => n.deployments
  | light n => n.deployments

/-- `network instanceof Network`. -/
def isNetwork : AnyNetwork → Bool
  | network _ => true
  | light _ => false

def getNodeReservedIps : AnyNetwork → Nat → List String
  | network n => n.getNodeReservedIps
  | light n => n.getNodeReservedIps

def deleteReservedIp : AnyNetwork → Nat → String → AnyNetwork
  | network n, nodeId, ip => network (n.deleteReservedIp nodeId ip)
  | light n, nodeId, ip => light (n.deleteReservedIp nodeId ip)

def updateWorkload (json : MetadataJson) :
    AnyNetwork → Nat → Workload → Except GridError Workload
  | network n => n.updateWorkload json
  | light n => n.updateWorkload json

def deleteNode (isKnown : Bool) : AnyNetwork → Nat → Except GridError (Option Nat × AnyNetwork)
  | network n, nodeId => (n.deleteNode isKnown nodeId).map fun r => (r.1, network r.2)
  | light n, nodeId => (n.deleteNode isKnown nodeId).map fun r => (r.1, light r.2)

end AnyNetwork

end ThreefoldSdk.Primitives
