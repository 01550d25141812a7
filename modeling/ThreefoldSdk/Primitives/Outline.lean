import ThreefoldSdk.Primitives.BuiltNetwork
import ThreefoldSdk.Primitives.CheckMycelium

/-! The outline of a network: whose nodes it has, with which subnets, and which workloads its
deployments hold; and what the calls on a network leave of it. -/

namespace ThreefoldSdk.Primitives
open Zos Ipv4 Frame

/-- The node and the subnet of each network, the nodes, and each deployment's node, contract and
types of workloads. -/
structure Outline where
  seats : List (Option Nat × String)
  nodes : List Node
  deployments : List (Nat × Option Nat × List WorkloadTypes)

def deploymentOutline (d : NetworkDeployment) : Nat × Option Nat × List WorkloadTypes :=
  (d.nodeId, d.deployment.contractId, d.deployment.workloads.map (·.type))

def networkOutline (n : Network) : Outline where
  seats := n.networks.map fun z => (z.nodeId, z.subnet)
  nodes := n.nodes
  deployments := n.deployments.map deploymentOutline

namespace Outline

/-- A node more. -/
def push (nodeId : Nat) (subnet : String) (x : Outline) : Outline where
  seats := x.seats ++ [(some nodeId, subnet)]
  nodes := x.nodes ++ [Node.fresh (some nodeId)]
  deployments := x.deployments

def subnetOf (nodeId : Nat) (x : Outline) : Option String :=
  (x.seats.find? fun p => p.1 = some nodeId).map Prod.snd

end Outline

section
variable {env : NetworkEnv} {v : Validators} {s s' : Session}

theorem getNodeSubnet_outline (n : Network) (nodeId : Nat) :
    n.getNodeSubnet nodeId = (networkOutline n).subnetOf nodeId := by
  unfold Network.getNodeSubnet Outline.subnetOf networkOutline
  rw [List.find?_map, Option.map_map]
  rfl

theorem nodeExists_outline (n : Network) (nodeId : Nat) :
    n.nodeExists nodeId = ((networkOutline n).subnetOf nodeId).isSome := by
  rw [← getNodeSubnet_outline]
  unfold Network.nodeExists Network.getNodeSubnet
  rw [Option.isSome_map, Bool.eq_iff_iff, List.any_eq_true, List.find?_isSome]

theorem types_replaceNetwork (net : Znet) (ws : List Workload) :
    (Network.replaceNetwork net ws).map (·.type) = ws.map (·.type) := by
  induction ws with
  | nil => rfl
  | cons w ws ih =>
    unfold Network.replaceNetwork
    split
    · rfl
    · rw [List.map_cons, List.map_cons, ih]

theorem outline_updateNetworkDeployments (n : Network) :
    networkOutline n.updateNetworkDeployments = networkOutline n := by
  have hall : ∀ (nets : List Znet) (ds : List NetworkDeployment),
      (nets.foldl (fun ds net => ds.map fun d => { d with deployment := { d.deployment with
        workloads := Network.replaceNetwork net d.deployment.workloads } }) ds).map
          deploymentOutline = ds.map deploymentOutline := by
    intro nets
    induction nets with
    | nil => exact fun _ => rfl
    | cons net nets ih =>
      intro ds
      rw [List.foldl_cons, ih, List.map_map]
      apply List.map_congr_left
      intro d _
      unfold deploymentOutline
      rw [Function.comp_apply, types_replaceNetwork]
  unfold networkOutline
  congr 1
  exact hall n.networks n.deployments

theorem outline_generatePeers (h : generatePeers env s = .ok ⟨⟩ s') :
    networkOutline s'.network = networkOutline s.network := by
  obtain ⟨hsame, -, hkeep⟩ := generatePeers_reads h
  have hrest : (unrouted s').nodes = (unrouted s).nodes ∧
      (unrouted s').deployments = (unrouted s).deployments := by
    rw [hkeep]
    exact ⟨rfl, rfl⟩
  have hnodes : s'.network.nodes = s.network.nodes := hrest.1
  have hdeployments : s'.network.deployments = s.network.deployments := hrest.2
  unfold networkOutline
  rw [hnodes, hdeployments]
  congr 1
  refine Forall2.map_eq hsame fun z z' hz => ?_
  obtain ⟨peers, rfl⟩ := hz
  rfl

theorem keeps_outline_of_network {α : Type} {x : NetM α} (h : Keeps Session.network x) :
    Keeps (fun s => networkOutline s.network) x := h.comp networkOutline

theorem keeps_outline_of_unreserved {α : Type} {x : NetM α} (h : Keeps unreserved x) :
    Keeps (fun s => networkOutline s.network) x := h.comp networkOutline

theorem outline_joinNode {nodeId : Nat} {description : String} {z : Znet} {w : Workload}
    (hz : z.nodeId = some nodeId) (h : joinNode env nodeId description z s = .ok w s') :
    networkOutline s'.network = (networkOutline s.network).push nodeId z.subnet ∧
      w.type = .network := by
  obtain ⟨_, s₁, hpush, hrest⟩ := bind_eq_ok.mp h
  cases hpush
  obtain ⟨_, s₂, hrebuild, hworkload⟩ := bind_eq_ok.mp hrest
  have hrebuilt : networkOutline s₂.network = networkOutline (pushed z s).network :=
    outline_generatePeers hrebuild
  have hupdated := (outline_updateNetworkDeployments s₂.network).trans hrebuilt
  have hpushed : networkOutline (pushed z s).network =
      { networkOutline s.network with
        seats := (networkOutline s.network).seats ++ [(some nodeId, z.subnet)] } := by
    rw [← hz]
    unfold networkOutline pushed
    rw [List.map_append]
    rfl
  cases hworkload
  refine ⟨?_, rfl⟩
  have hafter : networkOutline { s₂.network.updateNetworkDeployments with
      nodes := s₂.network.nodes ++ [Node.fresh (some nodeId)] } =
        { networkOutline s₂.network.updateNetworkDeployments with
          nodes := (networkOutline s₂.network).nodes ++ [Node.fresh (some nodeId)] } := rfl
  refine hafter.trans ?_
  rw [hupdated, hrebuilt, hpushed]
  rfl

theorem newZnet_given {nodeId : Nat} {mycelium : Bool} {subnet : String}
    {seeds : List MyceliumNetworkModel} {z : Znet}
    (h : newZnet env nodeId mycelium subnet seeds s = .ok z s') :
    z.nodeId = some nodeId ∧ (subnet ≠ "" → z.subnet = subnet) := by
  obtain ⟨keys, s₁, -, h⟩ := bind_eq_ok.mp h
  obtain ⟨t, s₂, hchoose, h⟩ := bind_eq_ok.mp h
  have hsubnet : z.subnet = t := znetOn_subnet h
  obtain ⟨_, s₃, -, h⟩ := bind_eq_ok.mp h
  obtain ⟨port, s₄, -, h⟩ := bind_eq_ok.mp h
  obtain ⟨m, s₅, -, h⟩ := bind_eq_ok.mp h
  cases h
  refine ⟨rfl, fun hne => ?_⟩
  rw [chooseSubnet, if_neg hne] at hchoose
  cases hchoose
  exact hsubnet

/-- A node that is there stays as it is; another one is pushed, with the given subnet or one that is
picked, and a workload is handed out for it. -/
theorem outline_addNode {nodeId : Nat} {mycelium : Bool} {description subnet : String}
    {seeds : List MyceliumNetworkModel} {w : Option Workload}
    (h : addNode env nodeId mycelium description subnet seeds s = .ok w s') :
    (s.network.nodeExists nodeId = true ∧ w = none ∧ s' = s) ∨
      (s.network.nodeExists nodeId = false ∧ (∃ w', w = some w' ∧ w'.type = .network) ∧
        ∃ t, (subnet ≠ "" → t = subnet) ∧
          networkOutline s'.network = (networkOutline s.network).push nodeId t) := by
  obtain ⟨s₁, s₂, hget, h⟩ := bind_eq_ok.mp h
  cases hget
  by_cases hexists : s.network.nodeExists nodeId = true
  · rw [if_pos hexists] at h
    cases h
    exact Or.inl ⟨hexists, rfl, rfl⟩
  · rw [if_neg hexists] at h
    obtain ⟨z, s₃, hnew, h⟩ := bind_eq_ok.mp h
    obtain ⟨w', s₄, hjoin, h⟩ := bind_eq_ok.mp h
    cases h
    obtain ⟨hz, hgiven⟩ := newZnet_given hnew
    obtain ⟨houtline, htype⟩ := outline_joinNode hz hjoin
    have hkeep : networkOutline s₃.network = networkOutline s.network :=
      (keeps_outline_of_unreserved (keeps_newZnet nodeId mycelium subnet seeds)).of_ok hnew
    rw [hkeep] at houtline
    exact Or.inr ⟨Bool.eq_false_iff.mpr hexists, ⟨w', rfl, htype⟩, z.subnet, hgiven, houtline⟩

theorem outline_addAccess {ipv4 : Bool} {nodeId : Nat} {text : String}
    (h : addAccess env nodeId ipv4 s = .ok text s') :
    networkOutline s'.network = networkOutline s.network := by
  obtain ⟨⟨endpoint, key, keys⟩, s₁, hkeys, h⟩ := bind_eq_ok.mp h
  obtain ⟨t, s₂, hfree, h⟩ := bind_eq_ok.mp h
  obtain ⟨_, s₃, hpush, h⟩ := bind_eq_ok.mp h
  cases hpush
  obtain ⟨_, s₄, hrebuild, h⟩ := bind_eq_ok.mp h
  obtain ⟨_, s₅, hupdate, h⟩ := bind_eq_ok.mp h
  cases hupdate
  obtain ⟨_, s₆, haccess, h⟩ := bind_eq_ok.mp h
  cases haccess
  obtain ⟨_, s₇, hget, h⟩ := bind_eq_ok.mp h
  cases hget
  obtain ⟨-, rfl⟩ := pureStep_eq_ok.mp h
  have hupdated : networkOutline s₄.network.updateNetworkDeployments = networkOutline s₄.network :=
    outline_updateNetworkDeployments s₄.network
  have hrebuilt : networkOutline s₄.network =
      networkOutline (pushedAccess ⟨t, keys.publicKey, nodeId⟩ s₂).network :=
    outline_generatePeers hrebuild
  have hpicked : networkOutline s₂.network = networkOutline s₁.network :=
    (keeps_outline_of_unreserved keeps_getFreeSubnet).of_ok hfree
  have hasked : networkOutline s₁.network = networkOutline s.network :=
    (keeps_outline_of_network ((keeps_accessKeys nodeId ipv4).comp Session.network)).of_ok hkeys
  exact hupdated.trans (hrebuilt.trans (hpicked.trans hasked))

theorem seats_setMycelium (nodeId : Nat) (m : Mycelium) (nets : List Znet) :
    (setMycelium nodeId m nets).map (fun z => (z.nodeId, z.subnet)) =
      nets.map fun z => (z.nodeId, z.subnet) := by
  induction nets with
  | nil => rfl
  | cons z nets ih =>
    unfold setMycelium
    split
    · rfl
    · rw [List.map_cons, List.map_cons, ih]

theorem keeps_outline_addMycelium (nodeId : Nat) (seeds : List MyceliumNetworkModel) :
    Keeps (fun s => networkOutline s.network) (addMycelium env v nodeId seeds) := by
  refine Keeps.bind (keeps_outline_of_network fun _ => rfl) fun clock =>
    (keeps_pureStep _ _).bind fun seed => Keeps.bind (fun s => ?_) fun _ =>
      Keeps.bind (fun s => ?_) fun _ => (keeps_get _).bind fun _ => keeps_pureStep _ _
  · exact congrArg (fun seats => { networkOutline s.network with seats := seats })
      (seats_setMycelium nodeId _ _)
  · exact outline_updateNetworkDeployments s.network

theorem keeps_outline_checkMycelium (nodeId : Nat) (seeds : List MyceliumNetworkModel)
    (mycelium : Bool) :
    Keeps (fun s => networkOutline s.network) (checkMycelium env v nodeId seeds mycelium) := by
  refine (keeps_get _).bind fun s => ?_
  split
  · exact keeps_pure _ _
  · split
    · exact keeps_outline_of_network (Keeps.bind (fun _ => rfl) fun _ => keeps_pure _ _)
    · split
      · split
        · exact keeps_throw _ _
        · exact keeps_pure _ _
      · exact keeps_outline_addMycelium nodeId seeds

end

end ThreefoldSdk.Primitives
