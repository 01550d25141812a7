import ThreefoldSdk.Primitives.SubnetRuns

/-! When deleting a node from a network removes that node and nothing else
(`Network.deleteNode`). -/

namespace ThreefoldSdk.Primitives
open Zos Ipv4

namespace Network

/-- The network without a node: its networks are gone, and its subnet is no longer reserved. -/
structure Without (nodeId : Nat) (n n' : Network) : Prop where
  nodes : n'.nodes = n.nodes.filter fun node => node.nodeId ≠ some nodeId
  networks : n'.networks = n.networks.filter fun net => net.nodeId ≠ some nodeId
  reserved : ∀ subnet, subnet ∈ n'.reservedSubnets ↔
    subnet ∈ n.reservedSubnets ∧ n.getNodeSubnet nodeId ≠ some subnet
  others : { n' with
    nodes := n.nodes, networks := n.networks, reservedSubnets := n.reservedSubnets } = n

/-- The call returns the contract of the node and leaves the network without it. -/
def DeletesOnly (n : Network) (isKnown : Bool) (nodeId : Nat) : Prop :=
  ∃ node ∈ n.nodes, node.nodeId = some nodeId ∧
    ∃ n', n.deleteNode isKnown nodeId = .ok (node.contractId, n') ∧ n.Without nodeId n'

theorem deleteNode_of_reserved {n : Network} (h : n.reservedSubnets ≠ []) (nodeId : Nat) :
    n.deleteNode true nodeId = .error .typeError := by
  unfold deleteNode
  have hempty : n.reservedSubnets.isEmpty ≠ true := fun hnil => h (List.isEmpty_iff.mp hnil)
  rw [if_neg hempty]
  rfl

theorem deleteNode_of_free {n : Network} (h : n.reservedSubnets = []) {nodeId : Nat}
    (hcontains : ∃ node ∈ n.nodes, node.nodeId = some nodeId) :
    ∃ node ∈ n.nodes, node.nodeId = some nodeId ∧
      n.deleteNode true nodeId = .ok (node.contractId, { n with
        nodes := n.nodes.filter fun node => node.nodeId ≠ some nodeId
        networks := n.networks.filter fun net => net.nodeId ≠ some nodeId }) := by
  obtain ⟨node, hmem, hid⟩ := hcontains
  have hgone : node ∈ n.nodes.filter fun node => node.nodeId = some nodeId :=
    List.mem_filter.mpr ⟨hmem, decide_eq_true hid⟩
  cases hlast : (n.nodes.filter fun node => node.nodeId = some nodeId).getLast? with
  | none =>
    rw [List.getLast?_eq_none_iff.mp hlast] at hgone
    cases hgone
  | some last =>
    obtain ⟨hlastmem, hlastid⟩ := List.mem_filter.mp (List.mem_of_getLast? hlast)
    refine ⟨last, hlastmem, of_decide_eq_true hlastid, ?_⟩
    have hempty : n.reservedSubnets.isEmpty = true := List.isEmpty_iff.mpr h
    unfold deleteNode
    rw [if_pos hempty]
    dsimp only
    rw [hlast]
    rfl

/-- A node is deleted, and only it, exactly where the network is known and the object has reserved
no subnet. -/
theorem deletesOnly_iff {n : Network} {isKnown : Bool} {nodeId : Nat}
    (hcontains : ∃ node ∈ n.nodes, node.nodeId = some nodeId) :
    n.DeletesOnly isKnown nodeId ↔ isKnown = true ∧ n.reservedSubnets = [] := by
  constructor
  · intro hdeletes
    obtain ⟨node, hmem, hid, n', hok, hwithout⟩ := hdeletes
    cases isKnown with
    | false =>
      -- nothing is removed, although the node is there
      have hsame : n = n' := congrArg Prod.snd (Except.ok.inj hok)
      have hnodes := hwithout.nodes
      rw [← hsame] at hnodes
      rw [hnodes] at hmem
      exact absurd hid (of_decide_eq_true (List.mem_filter.mp hmem).2)
    | true =>
      refine ⟨rfl, ?_⟩
      by_contra hreserved
      rw [deleteNode_of_reserved hreserved] at hok
      cases hok
  · intro hcond
    obtain ⟨rfl, hreserved⟩ := hcond
    obtain ⟨node, hmem, hid, hok⟩ := deleteNode_of_free hreserved hcontains
    refine ⟨node, hmem, hid, _, hok, rfl, rfl, ?_, rfl⟩
    intro subnet
    show subnet ∈ n.reservedSubnets ↔ _
    rw [hreserved]
    exact iff_of_false List.not_mem_nil fun h => absurd h.1 List.not_mem_nil

end Network

/-- A network that was loaded, with the nodes 11 and 12. -/
def twoNodes : Session :=
  ⟨⟨"net", "10.1.0.0/16", [⟨some 11, some 5, []⟩, ⟨some 12, some 6, []⟩], [], [],
    [⟨"10.1.2.0/24", "10.1.0.0/16", "k", 2000, [], none, some 11⟩,
      ⟨"10.1.3.0/24", "10.1.0.0/16", "l", 2001, [], none, some 12⟩], [], []⟩, [], [], 0⟩

theorem twoNodes_deletesOnly : twoNodes.network.DeletesOnly true 12 :=
  (Network.deletesOnly_iff ⟨⟨some 12, some 6, []⟩, by decide, rfl⟩).mpr ⟨rfl, rfl⟩

/-- Node 13 is added, with a subnet that was free, and node 12 is deleted then. -/
theorem deleted_after_adding :
    (∃ node ∈ (afterSubnetCall sampleNetworkEnv twoNodes (.addNode 13 false "" "" [])).network.nodes,
      node.nodeId = some 12) ∧
    ¬(afterSubnetCall sampleNetworkEnv twoNodes
      (.addNode 13 false "" "" [])).network.DeletesOnly true 12 := by
  have hcontains : ∃ node ∈ (afterSubnetCall sampleNetworkEnv twoNodes
      (.addNode 13 false "" "" [])).network.nodes, node.nodeId = some 12 := by
    decide +kernel
  have hreserved : (afterSubnetCall sampleNetworkEnv twoNodes
      (.addNode 13 false "" "" [])).network.reservedSubnets ≠ [] := by
    decide +kernel
  refine ⟨hcontains, ?_⟩
  intro hdeletes
  obtain ⟨node, -, -, n', hok, -⟩ := hdeletes
  rw [Network.deleteNode_of_reserved hreserved] at hok
  cases hok

end ThreefoldSdk.Primitives
