import ThreefoldSdk.Primitives.Peers

/-! Adding nodes and access points to a network (`Network.addNode`, `Network.addAccess`). Each call
is cut where it begins to change the nodes, networks and access points. -/

namespace ThreefoldSdk.Primitives
open Zos Ipv4

namespace Network

/-- The workloads of a deployment once the first one of the network's subnet is replaced. -/
def replaceNetwork (net : Znet) : List Workload → List Workload
  | [] => []
  | w :: ws =>
    if w.type = .network ∧ w.data.subnet = some net.subnet then
      { w with data := .network net } :: ws
    else w :: replaceNetwork net ws

def updateNetworkDeployments (n : Network) : Network :=
  { n with deployments := n.networks.foldl (fun ds net => ds.map fun d =>
      { d with deployment := { d.deployment with
          workloads := replaceNetwork net d.deployment.workloads } }) n.deployments }

def getNodeWGListeningPort (n : Network) (nodeId : Nat) : Option Int :=
  (n.networks.find? fun net => net.nodeId = some nodeId).map (·.wireguardListenPort)

end Network

def isHexSeed (length : Nat) (seed : String) : Bool :=
  decide (seed.toList.length = length * 2) && seed.toList.all fun c =>
    c.isDigit || ('a' ≤ c && c ≤ 'f') || ('A' ≤ c && c ≤ 'F')

def validateHexSeed (seed : String) (length : Nat) : Except GridError Unit :=
  if isHexSeed length seed then .ok ()
  else .error (.validation
    s!"Invalid seed. It should be a {length}-character hexadecimal string.")

/-- `MyceliumNetworkModel`. -/
structure MyceliumNetworkModel where
  nodeId : Nat
  seed : Option String

section
variable (env : NetworkEnv)

def generateWireguardKeypair : NetM WireGuardKeys := do
  let clock ← tick
  return env.keypair clock

def getFreePort (nodeId : Nat) : NetM Nat := do
  let _ ← request env
  let clock ← tryCatch (request env) fun e =>
    throw (e.withPrefix s!"Couldn't get free Wireguard ports for node {nodeId}")
  return env.port clock (env.wgPorts clock nodeId)

def myceliumOf (nodeId : Nat) (mycelium : Bool) (seeds : List MyceliumNetworkModel) :
    NetM (Option Mycelium) :=
  if mycelium then do
    let clock ← tick
    match present ((seeds.find? fun m => m.nodeId = nodeId).bind (·.seed)) with
    | some seed => do
      pureStep (validateHexSeed seed 32)
      return some ⟨seed, some []⟩
    | none => return some ⟨env.randomSeed clock, some []⟩
  else return none

def chooseSubnet (subnet : String) : NetM String :=
  if subnet = "" then getFreeSubnet else pure subnet

/-- The port and the mycelium of a new network. -/
def znetOn (nodeId : Nat) (mycelium : Bool) (seeds : List MyceliumNetworkModel)
    (keys : WireGuardKeys) (subnet : String) : NetM Znet := do
  let s ← get
  let port ← getFreePort env nodeId
  let mycelium ← myceliumOf env nodeId mycelium seeds
  return ⟨subnet, s.network.ipRange, keys.privateKey, port, [], mycelium, some nodeId⟩

/-- `addNode` up to the network it makes for the node. -/
def newZnet (nodeId : Nat) (mycelium : Bool) (subnet : String)
    (seeds : List MyceliumNetworkModel) : NetM Znet := do
  let keys ← generateWireguardKeypair env
  let subnet ← chooseSubnet subnet
  znetOn env nodeId mycelium seeds keys subnet

/-- The rest of `addNode`. -/
def joinNode (nodeId : Nat) (description : String) (znet : Znet) : NetM Workload := do
  modifyNetwork fun n => { n with networks := n.networks ++ [znet] }
  generatePeers env
  modifyNetwork Network.updateNetworkDeployments
  let s ← get
  modifyNetwork fun n => { n with nodes := n.nodes ++ [.fresh (some nodeId)] }
  return ⟨0, s.network.name, .network, s.network.getUpdatedNetwork (.network znet), "",
    description, none⟩

def addNode (nodeId : Nat) (mycelium : Bool) (description subnet : String)
    (seeds : List MyceliumNetworkModel) : NetM (Option Workload) := do
  let s ← get
  if s.network.nodeExists nodeId then return none
  else
    let znet ← newZnet env nodeId mycelium subnet seeds
    let workload ← joinNode env nodeId description znet
    return some workload

def getAccessNodeEndpoint (nodeId : Nat) (ipv4 : Bool) : NetM String := do
  let accessNodes ← capacityAccessNodes env
  let s ← get
  let port := ((s.network.getNodeWGListeningPort nodeId).map toString).getD "undefined"
  match accessNodes.lookup nodeId with
  | none => throw (.base "AccessNodeError" s!"Node {nodeId} is not an access node.")
  | some config =>
    if ipv4 ∧ config.ipv4 = "" then
      throw (.base "InvalidResourcesError" s!"Node {nodeId} does not have ipv4 public config.")
    else if config.ipv4 ≠ "" then return beforeSlash config.ipv4 ++ ":" ++ port
    else if config.ipv6 ≠ "" then return "[" ++ beforeSlash config.ipv6 ++ "]:" ++ port
    else throw (.base "InvalidResourcesError"
      s!"Couldn't find ipv4 or ipv6 in the public config of node {nodeId}.")

/-- The key of the first network of the node. -/
def getNodeWGPublicKey (nodeId : Nat) : NetM (Option String) := do
  let s ← get
  match s.network.networks.find? fun net => net.nodeId = some nodeId with
  | some net => some <$> pureStep (getPublicKey env net.wireguardPrivateKey)
  | none => return none

def getWireguardConfig (ipRange subnet userPrivKey peerPubkey endpoint : String) :
    Except GridError String := do
  let userIP ← wgRoutingIP subnet
  let networkIP ← wgRoutingIP ipRange
  return "[Interface]\nAddress = " ++ userIP ++ "\nPrivateKey = " ++ userPrivKey
    ++ "\n\n[Peer]\nPublicKey = " ++ peerPubkey ++ "\nAllowedIPs = " ++ ipRange ++ ", "
    ++ networkIP ++ "\nPersistentKeepalive = 25\nEndpoint = " ++ endpoint

/-- `addAccess` up to its keys: the endpoint of the node, its key and the keys of the user. -/
def accessKeys (nodeId : Nat) (ipv4 : Bool) :
    NetM (String × Option String × WireGuardKeys) := do
  let s ← get
  if s.network.nodeExists nodeId then
    let endpoint ← getAccessNodeEndpoint env nodeId ipv4
    let nodesWGPubkey ← getNodeWGPublicKey env nodeId
    let keys ← generateWireguardKeypair env
    return (endpoint, nodesWGPubkey, keys)
  else throw (.validation
    s!"Node {nodeId} does not exist in the network. Please add it first.")

/-- The rest of `addAccess`, with the subnet of the access point. -/
def joinAccess (nodeId : Nat) (subnet endpoint : String) (nodesWGPubkey : Option String)
    (keys : WireGuardKeys) : NetM String := do
  modifyNetwork fun n =>
    { n with accessPoints := n.accessPoints ++ [⟨subnet, keys.publicKey, nodeId⟩] }
  generatePeers env
  modifyNetwork Network.updateNetworkDeployments
  modifyNetwork fun n =>
    { n with userAccesses := n.userAccesses ++ [⟨subnet, keys.privateKey, nodeId⟩] }
  let s ← get
  pureStep (getWireguardConfig s.network.ipRange subnet keys.privateKey
    (nodesWGPubkey.getD "undefined") endpoint)

def addAccess (nodeId : Nat) (ipv4 : Bool) : NetM String := do
  let (endpoint, nodesWGPubkey, keys) ← accessKeys env nodeId ipv4
  let subnet ← getFreeSubnet
  joinAccess env nodeId subnet endpoint nodesWGPubkey keys

end

end ThreefoldSdk.Primitives
