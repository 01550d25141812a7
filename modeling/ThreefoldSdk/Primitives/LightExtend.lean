import ThreefoldSdk.Primitives.CheckMycelium
import ThreefoldSdk.Primitives.LightIps

/-! Adding a node to a light network (`ZNetworkLight.addNode`), and its subnets and mycelium. A
random seed is given where one is drawn. -/

namespace ThreefoldSdk.Primitives
open Zos Ipv4

/-- The workloads of a deployment once the first one of the network's subnet is replaced. -/
def replaceLight (net : NetworkLight) : List Workload → List Workload
  | [] => []
  | w :: ws =>
    if w.type = .networklight ∧ w.data.subnet = some net.subnet then
      { w with data := .networklight net } :: ws
    else w :: replaceLight net ws

/-- The mycelium of a network that is made. -/
def newMycelium (mycelium : Bool) (seeds : List MyceliumNetworkModel) (nodeId : Nat)
    (randomSeed : String) : Except GridError (Option Mycelium) :=
  if mycelium then do
    let seed ← chooseSeed (seedFor seeds nodeId) randomSeed
    return some ⟨seed, some []⟩
  else .ok none

namespace ZNetworkLight

/-- Two steps after the first `/24` of the range, whatever is taken. -/
def getFreeSubnet (n : ZNetworkLight) : Except GridError String := do
  let range ← addr n.ipRange
  let subnet ← firstSubnet range
  return subnet.toText

def chooseSubnet (n : ZNetworkLight) (subnet : String) : Except GridError String :=
  if subnet = "" then n.getFreeSubnet else .ok subnet

/-- The subnet counts when it is that of the node. -/
def getReservedSubnets (n : ZNetworkLight) : Except GridError ZNetworkLight :=
  match n.node, n.network with
  | some node, some net =>
    .ok { n with reservedSubnets :=
      if net.nodeId = node.nodeId ∧ net.subnet ≠ "" then pushNew n.reservedSubnets net.subnet
      else n.reservedSubnets }
  | _, _ => .error .typeError

def validateFreeSubnet (n : ZNetworkLight) (subnet : String) :
    Except GridError (String × ZNetworkLight) := do
  let n ← n.getReservedSubnets
  if subnet ∈ n.reservedSubnets then throw (.validation s!"subnet {subnet} is not free.")
  return (subnet, { n with reservedSubnets := n.reservedSubnets ++ [subnet] })

def updateNetworkDeployments (net : NetworkLight) (n : ZNetworkLight) : ZNetworkLight :=
  { n with deployments := n.deployments.map fun d =>
      { d with deployment := { d.deployment with
          workloads := replaceLight net d.deployment.workloads } } }

/-- `addNode`. A node in any light network of the user counts as one of this network. -/
def addNode (n : ZNetworkLight) (randomSeed : String) (nodeId : Nat) (mycelium : Bool)
    (description subnet : String) (seeds : List MyceliumNetworkModel) :
    Except GridError (Option Workload × ZNetworkLight) :=
  if n.nodeExists nodeId then .ok (none, n)
  else do
    let subnet ← n.chooseSubnet subnet
    let mycelium ← newMycelium mycelium seeds nodeId randomSeed
    let net : NetworkLight := ⟨subnet, mycelium, some nodeId, some n.ipRange⟩
    let joined := { n with network := some net }.updateNetworkDeployments net
    return (some ⟨0, n.name, .networklight, joined.getUpdatedNetwork (.networklight net), "",
      description, none⟩, { joined with node := some (.fresh (some nodeId)) })

/-- The network has no mycelium. -/
def addMycelium (n : ZNetworkLight) (v : Validators) (randomSeed : String) (nodeId : Nat)
    (seeds : List MyceliumNetworkModel) : Except GridError (Option Deployment × ZNetworkLight) :=
  match n.network with
  | none => .ok (none, n)
  | some net => do
    let seed ← chooseSeed (seedFor seeds nodeId) randomSeed
    let net := { net with mycelium := some ⟨seed, some []⟩ }
    let n := { n with network := some net }.updateNetworkDeployments net
    let d ← myceliumUpdate v n.deployments nodeId (renewMycelium n.getUpdatedNetwork seed)
    return (d, n)

def checkMycelium (n : ZNetworkLight) (v : Validators) (randomSeed : String) (nodeId : Nat)
    (seeds : List MyceliumNetworkModel) (mycelium : Bool) :
    Except GridError (Option Deployment × ZNetworkLight) :=
  if !mycelium then .ok (none, n)
  else
    match present (n.network.bind fun net => net.mycelium.map (·.hexKey)) with
    | some key =>
      if seeds ≠ [] ∧ (seeds.find? fun m => m.nodeId = nodeId).bind (·.seed) ≠ some key then
        .error (otherSeedError n.name nodeId)
      else .ok (none, n)
    | none => n.addMycelium v randomSeed nodeId seeds

end ZNetworkLight

end ThreefoldSdk.Primitives
