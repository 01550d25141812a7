import ThreefoldSdk.Primitives.LightNetwork
import ThreefoldSdk.Primitives.Rebuilt

/-! Loading a network (`Network.load`): its nodes and networks come from its contracts, its access
points from the peers of the networks. -/

namespace ThreefoldSdk.Primitives
open Zos Ipv4 Frame

/-- The file of a network that is not on the chain by its name. -/
structure StoredNetwork where
  ipRange : String
  nodes : List Node

/-- What `load` reads. -/
structure NetworkSource where
  /-- `getMyNetworkContracts(true)`. -/
  contracts : List GqlNodeContract
  answers : NodeAnswers
  stored : Option StoredNetwork
  /-- Whether `contracts.get` finds a contract. -/
  contractExists : Nat → Except GridError Bool
  /-- The request to the storage that `delete` makes. -/
  dump : Except GridError Unit
  /-- `JSON.parse(metadata).user_accesses`. -/
  userAccesses : String → Option (List UserAccess)

namespace Network

/-- A network as its constructor makes it. -/
def fresh (name ipRange : String) : Network := ⟨name, ipRange, [], [], [], [], [], []⟩

/-- The network of a workload that is not deleted; a workload without a result throws. -/
def notDeleted (w : Workload) (z : Znet) : Except GridError (Option Znet) :=
  match w.result with
  | none => .error .typeError
  | some r => .ok (if r.state = .deleted then none else some z)

def loads (name : String) (w : Workload) : Except GridError (Option Znet) :=
  match w.type, w.data with
  | .network, .network z => if w.name ≠ name then .ok none else notDeleted w z
  | _, _ => .ok none

def rangeError (name : String) : GridError :=
  .validation s!"The same network name {name} with a different ip range already exists."

def pushLoaded (n : Network) (node : Node) (nodeId : Nat) (z : Znet) (d : Deployment) : Network :=
  { n with
    nodes := n.nodes ++ [node]
    networks := n.networks ++ [{ z with nodeId := some nodeId }]
    deployments := n.deployments ++ [⟨nodeId, d⟩] }

section
variable (source : NetworkSource)

def parseMetadata (metadata : String) : Except GridError (List UserAccess) :=
  match source.userAccesses metadata with
  | some accesses => .ok accesses
  | none => .error (.other "SyntaxError" "")

def loadWorkload (c : GqlNodeContract) (d : Deployment) (n : Network) (w : Workload) :
    Except GridError Network := do
  match ← loads n.name w with
  | none => return n
  | some z =>
    let accesses ← parseMetadata source w.metadata
    let reservedIps ← getReservedIps source.answers n.name c.nodeID
    if z.ipRange ≠ n.ipRange then throw (rangeError n.name)
    return { n with userAccesses := accesses }.pushLoaded
      ⟨some c.nodeID, some c.contractID, reservedIps⟩ c.nodeID z d

def loadContract (n : Network) (c : GqlNodeContract) : Except GridError Network := do
  let d ← loadDeployment source.answers c
  d.workloads.foldlM (loadWorkload source c d) n

/-- The workloads that a stored network loads are those with a subnet in its range. -/
def loadStoredWorkload (node : Node) (d : Deployment) (n : Network) (w : Workload) :
    Except GridError Network := do
  match w.type, w.data with
  | .network, .network z =>
    let range ← addr n.ipRange
    let subnet ← addr z.subnet
    if !range.contains subnet then return n
    else
      match ← notDeleted w z with
      | none => return n
      | some z => return n.pushLoaded node (node.nodeId.getD 0) z d
  | _, _ => return n

def loadStoredNode (n : Network) (node : Node) : Except GridError Network := do
  let contractId := node.contractId.getD 0
  if !(← source.contractExists contractId) then return n
  else
    let d ← loadDeployment source.answers ⟨contractId, node.nodeId.getD 0, 0, ⟨"", "", none⟩⟩
    d.workloads.foldlM (loadStoredWorkload node d) n

/-- The peers of a network that are no peers of a node. -/
def readPoints (keys : List String) (net : Znet) : List AccessPoint :=
  (net.peers.filter fun p => decide (p.wireguardPublicKey ∉ keys ∧ p.endpoint = "")).map fun p =>
    ⟨p.subnet, p.wireguardPublicKey, net.nodeId.getD 0⟩

def publicKeys (env : NetworkEnv) : List Znet → Except GridError (List String)
  | [] => .ok []
  | net :: nets => do
    let key ← getPublicKey env net.wireguardPrivateKey
    let keys ← publicKeys env nets
    return key :: keys

def getAccessPoints (env : NetworkEnv) (n : Network) : Except GridError Network := do
  let keys ← publicKeys env n.networks
  return { n with accessPoints := n.accessPoints ++ n.networks.flatMap (readPoints keys) }

def loadStored (env : NetworkEnv) (stored : StoredNetwork) (n : Network) :
    Except GridError Network := do
  if stored.ipRange ≠ n.ipRange then throw (rangeError n.name)
  let n ← stored.nodes.foldlM (loadStoredNode source) n
  let n ← getAccessPoints env n
  if n.nodes.isEmpty then source.dump
  return n

def load (env : NetworkEnv) (n : Network) : Except GridError Network :=
  if networkKnown n.name source.contracts then do
    let n ← (contractsNamed n.name source.contracts).foldlM (loadContract source) n
    getAccessPoints env n
  else
    match source.stored with
    | some stored => loadStored source env stored n
    | none => .ok n

end

/-- A contract loads as a network: one workload of its deployment is of the network, with the
metadata of these user accesses. -/
def LoadsAs (source : NetworkSource) (name : String) (accesses : List UserAccess)
    (c : GqlNodeContract) (net : Znet) : Prop :=
  ∃ d before w rest z ips, loadDeployment source.answers c = .ok d ∧
    d.workloads = before ++ w :: rest ∧
    (∀ other ∈ before ++ rest, loads name other = .ok none) ∧ loads name w = .ok (some z) ∧
    net = { z with nodeId := some c.nodeID } ∧ source.userAccesses w.metadata = some accesses ∧
    getReservedIps source.answers name c.nodeID = .ok ips

/-- The contracts `cs` and the networks `nets` were added to what was loaded. -/
structure Grown (n n' : Network) (cs : List GqlNodeContract) (nets : List Znet)
    (accesses : List UserAccess) : Prop where
  name : n'.name = n.name
  ipRange : n'.ipRange = n.ipRange
  nodes : n'.nodes.map (·.nodeId) = n.nodes.map (·.nodeId) ++ cs.map fun c => some c.nodeID
  networks : n'.networks = n.networks ++ nets
  accessPoints : n'.accessPoints = n.accessPoints
  userAccesses : n'.userAccesses = if cs = [] then n.userAccesses else accesses

section
variable {source : NetworkSource} {accesses : List UserAccess} {n : Network}

/-- Workloads that are not of the network are passed over. -/
theorem loadWorkload_skip {c : GqlNodeContract} {d : Deployment} {ws : List Workload}
    (h : ∀ w ∈ ws, loads n.name w = .ok none) : ws.foldlM (loadWorkload source c d) n = .ok n := by
  induction ws with
  | nil => rfl
  | cons w ws ih =>
    rw [List.foldlM_cons]
    refine exceptBind_eq_ok.mpr ⟨n, ?_, ih fun w' hw' => h w' (List.mem_cons_of_mem _ hw')⟩
    unfold loadWorkload
    exact exceptBind_eq_ok.mpr ⟨none, h w List.mem_cons_self, rfl⟩

theorem loadContract_ok {c : GqlNodeContract} {net : Znet} (h : LoadsAs source n.name accesses c net)
    (hrange : net.ipRange = n.ipRange) :
    ∃ n', loadContract source n c = .ok n' ∧ Grown n n' [c] [net] accesses := by
  obtain ⟨d, before, w, rest, z, ips, hd, hw, hothers, hloads, rfl, haccesses, hips⟩ := h
  let loaded : Network := { n with userAccesses := accesses }.pushLoaded
    ⟨some c.nodeID, some c.contractID, ips⟩ c.nodeID z d
  have hbefore : before.foldlM (loadWorkload source c d) n = .ok n :=
    loadWorkload_skip fun w' hw' => hothers w' (List.mem_append_left _ hw')
  have hone : loadWorkload source c d n w = .ok loaded := by
    unfold loadWorkload parseMetadata
    rw [hloads, haccesses, hips]
    refine exceptBind_eq_ok.mpr ⟨some z, rfl, exceptBind_eq_ok.mpr ⟨accesses, rfl,
      exceptBind_eq_ok.mpr ⟨ips, rfl, ?_⟩⟩⟩
    exact if_neg (not_not_intro hrange)
  have hrest : rest.foldlM (loadWorkload source c d) loaded = .ok loaded :=
    loadWorkload_skip fun w' hw' => hothers w' (List.mem_append_right _ hw')
  refine ⟨loaded, ?_, rfl, rfl, by simp [loaded, pushLoaded], rfl, rfl, rfl⟩
  unfold loadContract
  rw [hd]
  show d.workloads.foldlM (loadWorkload source c d) n = .ok loaded
  rw [hw, List.foldlM_append, hbefore]
  refine exceptBind_eq_ok.mpr ⟨n, rfl, ?_⟩
  rw [List.foldlM_cons, hone]
  exact exceptBind_eq_ok.mpr ⟨loaded, rfl, hrest⟩

/-- Contracts that load as networks are loaded in their order. -/
theorem loadContracts_ok {cs : List GqlNodeContract} {nets : List Znet}
    (h : List.Forall₂ (LoadsAs source n.name accesses) cs nets)
    (hrange : ∀ net ∈ nets, net.ipRange = n.ipRange) :
    ∃ n', cs.foldlM (loadContract source) n = .ok n' ∧ Grown n n' cs nets accesses := by
  induction cs generalizing n nets with
  | nil =>
    rw [List.forall₂_nil_left_iff] at h
    refine ⟨n, rfl, rfl, rfl, (List.append_nil _).symm, ?_, rfl, rfl⟩
    rw [h, List.append_nil]
  | cons c cs ih =>
    obtain ⟨net, nets, hone, hrest, rfl⟩ := List.forall₂_cons_left_iff.mp h
    obtain ⟨n₁, hn₁, hgrown⟩ := loadContract_ok hone (hrange net List.mem_cons_self)
    rw [← hgrown.name] at hrest
    obtain ⟨n₂, hn₂, hgrown₂⟩ := ih hrest fun z hz => by
      rw [hgrown.ipRange]
      exact hrange z (List.mem_cons_of_mem _ hz)
    refine ⟨n₂, ?_, ?_⟩
    · rw [List.foldlM_cons]
      exact exceptBind_eq_ok.mpr ⟨n₁, hn₁, hn₂⟩
    · refine ⟨hgrown₂.name.trans hgrown.name, hgrown₂.ipRange.trans hgrown.ipRange, ?_, ?_,
        hgrown₂.accessPoints.trans hgrown.accessPoints, ?_⟩
      · rw [hgrown₂.nodes, hgrown.nodes, List.append_assoc]
        rfl
      · rw [hgrown₂.networks, hgrown.networks, List.append_assoc]
        rfl
      · rw [hgrown₂.userAccesses, hgrown.userAccesses]
        simp

theorem publicKeys_ok {env : NetworkEnv} {nets : List Znet}
    (h : ∀ z ∈ nets, env.publicKey z.wireguardPrivateKey ≠ none) :
    ∃ keys, publicKeys env nets = .ok keys ∧
      ∀ k, k ∈ keys ↔ ∃ z ∈ nets, env.publicKey z.wireguardPrivateKey = some k := by
  induction nets with
  | nil => exact ⟨[], rfl, by simp⟩
  | cons z nets ih =>
    obtain ⟨keys, hkeys, hmem⟩ := ih fun z' hz' => h z' (List.mem_cons_of_mem _ hz')
    obtain ⟨key, hkey⟩ := Option.ne_none_iff_exists'.mp (h z List.mem_cons_self)
    refine ⟨key :: keys, ?_, fun k => ?_⟩
    · unfold publicKeys getPublicKey
      rw [hkey, hkeys]
      rfl
    · rw [List.mem_cons, hmem]
      simp [hkey, eq_comm]

end

end Network

end ThreefoldSdk.Primitives
