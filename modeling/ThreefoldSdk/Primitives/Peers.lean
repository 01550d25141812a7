import ThreefoldSdk.Primitives.NetworkSession

/-! The WireGuard peers of the nodes of a network (`Network.generatePeers`), and the lookups they
need. -/

namespace ThreefoldSdk.Primitives
open Zos Ipv4

/-- A value that JavaScript takes for true. -/
def present : Option String → Option String
  | some s => if s = "" then none else some s
  | none => none

/-- `100.64.x.y/32`; a text without three parts has no third one to split. -/
def wgRoutingIP (subnet : String) : Except GridError String :=
  match splitText '.' subnet with
  | _ :: b :: c :: _ => .ok ("100.64." ++ b ++ "." ++ beforeSlash c ++ "/32")
  | _ => .error .typeError

section
variable (env : NetworkEnv)

/-- `this.isPrivateIP`. -/
def isPrivateIP (ip : String) : Bool := env.isPrivateIp (beforeSlash ip)

def getPublicKey (privateKey : String) : Except GridError String :=
  match env.publicKey privateKey with
  | some key => .ok key
  | none => .error (.other "Error" "bad secret key size")

/-- The endpoint that a public config gives. -/
def configEndpoint : Option PublicConfig → Option String
  | none => none
  | some c =>
    if !isPrivateIP env c.ipv4 then some (beforeSlash c.ipv4)
    else if !isPrivateIP env c.ipv6 then some (beforeSlash c.ipv6)
    else none

/-- The last public ip of the interface `zos`. -/
def interfaceEndpoint (interfaces : List (String × List String)) : Option String :=
  ((interfaces.filter fun i => i.1 = "zos").flatMap fun i =>
    i.2.filter fun ip => !isPrivateIP env ip).getLast?

/-- The endpoint of a node that is not cached; a failed request for the public config counts as an
empty answer. -/
def lookupEndpoint (nodeId : Nat) : NetM (Option String) := do
  let _ ← request env
  let config ← tryCatch (do
      let clock ← request env
      return env.publicConfig clock nodeId)
    fun _ => return none
  let endpoint := configEndpoint env config
  if (present endpoint).isSome then return endpoint
  else
    let interfaces ← tryCatch (do
        let clock ← request env
        return env.interfaces clock nodeId)
      fun e => throw (e.withPrefix s!"Couldn't get the network interfaces for node {nodeId}")
    return (interfaceEndpoint env interfaces).orElse fun _ => endpoint

def getNodeEndpoint (nodeId : Nat) : NetM (Option String) := do
  let s ← get
  match s.endpoints.lookup nodeId with
  | some endpoint => return present endpoint
  | none =>
    let endpoint ← lookupEndpoint env nodeId
    modify fun s => { s with endpoints := (nodeId, endpoint) :: s.endpoints }
    return present endpoint

/-- `capacity.getAccessNodes`. -/
def capacityAccessNodes : NetM (List (Nat × PublicConfig)) := do
  let clock ← request env
  pureStep (env.accessNodes clock)

def getAccessNodes : NetM (List Nat) := do
  let s ← get
  if s.accessNodes ≠ [] then return s.accessNodes
  else
    let all ← capacityAccessNodes env
    let s ← get
    let accessNodes := (all.map Prod.fst).filter fun nodeId => s.network.nodeExists nodeId
    set { s with accessNodes := accessNodes }
    return accessNodes

def randomChoice (choices : List Nat) : NetM Nat := do
  let clock ← tick
  pureStep (notNull choices[env.random clock % choices.length]?)

/-- One round over the networks: a hidden node gets an access node, and is an access point of it. -/
def hiddenNodeOf (net : Znet) : NetM (Option AccessPoint) := do
  match ← getNodeEndpoint env (net.nodeId.getD 0) with
  | some _ => return none
  | none =>
    let accessNodes ← getAccessNodes env
    if accessNodes.length = 0 then do
      let s ← get
      throw (.base "AccessNodeError" (s!"Couldn't add node {net.nodeId.getD 0} as it's a hidden node "
        ++ s!"and there is no access node in this network {s.network.name}. "
        ++ "Please add addAccess = true in the network configuration."))
    else do
      let accessNode ← randomChoice env accessNodes
      let key ← pureStep (getPublicKey env net.wireguardPrivateKey)
      return some ⟨net.subnet, key, accessNode⟩

/-- `hiddenNodes`, each with the node it stands for. -/
def hiddenNodesOf : List Znet → NetM (List (Option Nat × AccessPoint))
  | [] => return []
  | net :: nets => do
    let hidden ← hiddenNodeOf env net
    let rest ← hiddenNodesOf nets
    return (hidden.map fun a => (net.nodeId, a)).toList ++ rest

/-- `hiddenNodeAccessNodesIds`; a later node of the same id counts. -/
def accessNodeOf (hidden : List (Option Nat × AccessPoint)) (nodeId : Option Nat) : Option Nat :=
  (hidden.reverse.lookup nodeId).map (·.nodeId)

end

/-- A subnet and its routing ip. -/
def allowed (subnet : String) : Except GridError (List String) := do
  let ip ← wgRoutingIP subnet
  return [subnet, ip]

def allAllowed : List String → Except GridError (List String)
  | [] => .ok []
  | subnet :: subnets => do
    let ips ← allowed subnet
    let rest ← allAllowed subnets
    return ips ++ rest

/-- The loop that adds the access points of the node `net`. -/
def withAccessPoints (net : Znet) :
    List AccessPoint → List String → Except GridError (List String)
  | [], allowedIps => .ok allowedIps
  | a :: accessPoints, allowedIps =>
    if some a.nodeId = net.nodeId ∧ a.subnet ∉ allowedIps then do
      let ips ← allowed a.subnet
      withAccessPoints net accessPoints (allowedIps ++ ips)
    else withAccessPoints net accessPoints allowedIps

/-- The allowed ips of the peer `net`, after those a hidden node sends to its access node. -/
def allowedIpsOf (accessPoints : List AccessPoint) (net : Znet) (others : List String) :
    Except GridError (List String) := do
  let before ← allAllowed others
  let own ← allowed net.subnet
  withAccessPoints net accessPoints (before ++ own)

/-- `accessIP.includes(":")`. -/
def bracketed (accessIP : String) : String :=
  if ':' ∈ accessIP.toList then "[" ++ accessIP ++ "]" else accessIP

def accessPointPeer (a : AccessPoint) : Except GridError Peer := do
  let ips ← allowed a.subnet
  return ⟨a.subnet, a.wireguardPublicKey, ips, ""⟩

section
variable (env : NetworkEnv) (hidden : List (Option Nat × AccessPoint))
  (accessPoints : List AccessPoint)

/-- The subnets that a hidden node sends to its access node, but for the two nodes' own. -/
def sentToAccess (access : Option Nat) (n net : Znet) : NetM (List String) :=
  if access.isSome then do
    let reserved ← getReservedSubnets
    return reserved.filter fun s => s ≠ n.subnet ∧ s ≠ net.subnet
  else return []

/-- The peer for `net` on the node of `n`. -/
def peerFor (n net : Znet) : NetM (Option Peer) := do
  let access := accessNodeOf hidden n.nodeId
  if n.nodeId = net.nodeId ∨ (access.isSome ∧ net.nodeId ≠ access) then return none
  else
    let others ← sentToAccess access n net
    let allowedIps ← pureStep (allowedIpsOf accessPoints net others)
    match ← getNodeEndpoint env (net.nodeId.getD 0) with
    | none => return none
    | some accessIP =>
      let key ← pureStep (getPublicKey env net.wireguardPrivateKey)
      return some ⟨net.subnet, key, allowedIps,
        bracketed accessIP ++ ":" ++ toString net.wireguardListenPort⟩

/-- `n.peers = []` and the pushes, for the network at a position. -/
def setPeers (k : Nat) (f : List Peer → List Peer) : NetM Unit :=
  modifyNetwork fun n => { n with networks := n.networks.modify k fun z =>
    { z with peers := f z.peers } }

def pushNodePeers (k : Nat) (n : Znet) : List Znet → NetM Unit
  | [] => return
  | net :: nets => do
    let peer ← peerFor env hidden accessPoints n net
    setPeers k (· ++ peer.toList)
    pushNodePeers k n nets

def pushAccessPeers (k : Nat) : List AccessPoint → NetM Unit
  | [] => return
  | a :: points => do
    let peer ← pureStep (accessPointPeer a)
    setPeers k (· ++ [peer])
    pushAccessPeers k points

def rebuildPeers (networks : List Znet) (k : Nat) (n : Znet) : NetM Unit := do
  setPeers k fun _ => []
  pushNodePeers env hidden accessPoints k n networks
  pushAccessPeers k (accessPoints.filter fun a => n.nodeId = some a.nodeId)

def rebuildAll (networks : List Znet) : Nat → List Znet → NetM Unit
  | _, [] => return
  | k, n :: nets => do
    rebuildPeers env hidden accessPoints networks k n
    rebuildAll networks (k + 1) nets

end

/-- A node that is alone needs no access node. -/
def hiddenNodes (env : NetworkEnv) (networks : List Znet) :
    NetM (List (Option Nat × AccessPoint)) :=
  if networks.length = 1 then return [] else hiddenNodesOf env networks

def generatePeers (env : NetworkEnv) : NetM Unit := do
  let s ← get
  let networks := s.network.networks
  let hidden ← hiddenNodes env networks
  let accessPoints := s.network.accessPoints ++ hidden.map Prod.snd
  rebuildAll env hidden accessPoints networks 0 networks

end ThreefoldSdk.Primitives
