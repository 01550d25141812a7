import ThreefoldSdk.Primitives.OwnRoutes

/-! Every node of a generated network has a neighbour with a peer of it. -/

namespace ThreefoldSdk.Primitives
open Zos Ipv4 Frame

/-- Distinct nodes with distinct subnets of one range, whose access nodes were found with an
endpoint. -/
structure Addressed (range : Addr) (s s' : Session) : Prop where
  nodeIds : (s.network.networks.map (·.nodeId)).Nodup
  subnets : ∀ u ∈ s.network.held, ∃ a, parse u = some a ∧ IsSubnet range a
  distinct : (s.network.held.map parse).Nodup
  accessNodes : ∀ id ∈ s'.accessNodes, IsAccessNode s s' id

section
variable {range : Addr} {s s' : Session} {hidden : List (Option Nat × AccessPoint)}

theorem Addressed.numbered (h : Addressed range s s') : Numbered s.network := by
  refine ⟨h.nodeIds, fun u hu => ?_⟩
  obtain ⟨a, ha, hin⟩ := h.subnets u hu
  exact ⟨a, ha, hin.1⟩

/-- Every hidden node of a larger network is an access point of the node it got. -/
theorem HiddenNodes.point_of_hidden (hh : HiddenNodes s s' hidden)
    (hmany : s.network.networks.length ≠ 1) {n : Znet} (hn : n ∈ s.network.networks)
    (hhid : isHidden s' n = true) : ∃ p ∈ hidden, p.2.subnet = n.subnet := by
  have hin : (n.nodeId, n.subnet) ∈ hidden.map (fun p => (p.1, p.2.subnet)) := by
    rw [hh.listed hmany]
    exact List.mem_map.mpr ⟨n, List.mem_filter.mpr ⟨hn, hhid⟩, rfl⟩
  obtain ⟨p, hp, heq⟩ := List.mem_map.mp hin
  exact ⟨p, hp, congrArg Prod.snd heq⟩

/-- A peer is pushed for each node that is not skipped, and its subnet is that of the node. -/
def SubnetPeer (s : Session) (hidden : List (Option Nat × AccessPoint)) (n net : Znet)
    (p : Option Peer) : Prop :=
  (p.isSome = true ↔ ¬Skipped s hidden n net) ∧ ∀ peer ∈ p, peer.subnet = net.subnet

theorem generatePeers_subnets {env : NetworkEnv} (h : Addressed range s s')
    (hrun : generatePeers env s = .ok ⟨⟩ s') :
    ∃ hidden, HiddenNodes s s' hidden ∧ List.Forall₂
      (MadeFrom (SubnetPeer s' hidden) (fun a p => p.subnet = a.subnet) (allPoints s hidden)
        s.network.networks) s.network.networks s'.network.networks := by
  obtain ⟨hidden, s₁, -, hsame, hall, hspec⟩ := generatePeers_split hrun
  have hsubnets : ∀ a ∈ s.network.accessPoints ++ hidden.map Prod.snd,
      ∃ b, parse a.subnet = some b ∧ b.len = 24 :=
    fun a ha => h.numbered.subnets a.subnet (hspec.point_mem_held ha)
  obtain ⟨nets', hnets, hs'⟩ := rebuildAll_ok (Q := SubnetPeer s' hidden)
    (R := fun a p => p.subnet = a.subnet) []
    (fun n net s₁ p s₂ hp (_ : s₁.network.held = s.network.held) hlater =>
      ⟨(peerFor_ok hsubnets hp hlater).isSome_iff, fun peer hpeer =>
        (peerFor_made hp peer hpeer).1⟩)
    (fun a p hp => (accessPointPeer_ok hp).1) hall (Std.Refl.refl s') (congrArg Network.held hsame)
    (by rw [hsame, List.nil_append])
  refine ⟨hidden, hspec, ?_⟩
  rw [hs', List.nil_append]
  exact hnets

/-- A node with an endpoint needs no access node. -/
theorem Addressed.accessNodeOf_public (h : Addressed range s s') (hh : HiddenNodes s s' hidden)
    {m : Znet} (hm : m ∈ s.network.networks) (hpub : isHidden s' m = false) :
    accessNodeOf hidden m.nodeId = none := by
  apply accessNodeOf_eq_none
  intro p hp hnode
  have hin := hh.sublist.subset
    (List.mem_map_of_mem (f := fun p : Option Nat × AccessPoint => (p.1, p.2.subnet)) hp)
  obtain ⟨m', hm', heq⟩ := List.mem_map.mp hin
  obtain ⟨hm', hhid⟩ := List.mem_filter.mp hm'
  rw [h.numbered.eq_of_nodeId hm' hm ((congrArg Prod.fst heq).trans hnode), hpub] at hhid
  cases hhid

/-- A node that is not alone is a peer of another one: of the access node it got if it is hidden,
and else of the other node or of the access node of that one. -/
theorem generatePeers_neighbour {env : NetworkEnv} (h : Addressed range s s')
    (hrun : generatePeers env s = .ok ⟨⟩ s') {r z : Znet} (hr : r ∈ s'.network.networks)
    (hz : z ∈ s'.network.networks) (hne : z.nodeId ≠ r.nodeId) :
    ∃ m ∈ s'.network.networks, m.nodeId ≠ r.nodeId ∧ ∃ p ∈ m.peers, p.subnet = r.subnet := by
  obtain ⟨hidden, hh, hnets⟩ := generatePeers_subnets h hrun
  obtain ⟨r₀, hr₀, _, _, -, -, rfl⟩ := Forall2.exists_left hnets hr
  obtain ⟨z₀, hz₀, _, _, -, -, rfl⟩ := Forall2.exists_left hnets hz
  change z₀.nodeId ≠ r₀.nodeId at hne
  have hpeer : ∀ m₀ ∈ s.network.networks, ¬Skipped s' hidden m₀ r₀ →
      ∃ m ∈ s'.network.networks, m.nodeId ≠ r₀.nodeId ∧ ∃ p ∈ m.peers, p.subnet = r₀.subnet := by
    intro m₀ hm₀ hnot
    obtain ⟨_, hm, opts, peers, hopts, -, rfl⟩ := Forall2.exists_right hnets hm₀
    obtain ⟨o, ho, hiff, hsubnet⟩ := Forall2.exists_right hopts hr₀
    obtain ⟨peer, rfl⟩ := Option.isSome_iff_exists.mp (hiff.mpr hnot)
    exact ⟨_, hm, fun heq => hnot (Or.inl heq), peer,
      List.mem_append_left _ (List.reduceOption_mem_iff.mpr ho), hsubnet peer rfl⟩
  by_cases hhid : isHidden s' r₀ = true
  · have hmany : s.network.networks.length ≠ 1 := by
      intro hone
      obtain ⟨x, hx⟩ := List.length_eq_one_iff.mp hone
      rw [hx, List.mem_singleton] at hr₀ hz₀
      exact hne (by rw [hr₀, hz₀])
    obtain ⟨p, hp, hsubnet⟩ := hh.point_of_hidden hmany hr₀ hhid
    obtain ⟨m₀, hm₀, hid, hpub⟩ := h.accessNodes _ (hh.accessNodes p hp)
    obtain ⟨_, hm, opts, peers, -, hpeers, rfl⟩ := Forall2.exists_right hnets hm₀
    have hin : p.2 ∈ pointsOf (allPoints s hidden) m₀.nodeId :=
      mem_pointsOf.mpr ⟨List.mem_append_right _ (List.mem_map_of_mem hp), hid⟩
    obtain ⟨peer, hpeer, hpeersubnet⟩ := Forall2.exists_right hpeers hin
    refine ⟨_, hm, fun heq => ?_, peer, List.mem_append_right _ hpeer, hpeersubnet.trans hsubnet⟩
    rw [h.numbered.eq_of_nodeId hm₀ hr₀ heq, hhid] at hpub
    cases hpub
  · by_cases hskip : Skipped s' hidden z₀ r₀
    · obtain ⟨id, hid⟩ : ∃ id, accessNodeOf hidden z₀.nodeId = some id ∧ r₀.nodeId ≠ some id := by
        rcases hskip with hsame | ⟨haccess, hother⟩ | hhidden
        · exact absurd hsame hne
        · obtain ⟨id, hid⟩ := Option.isSome_iff_exists.mp haccess
          exact ⟨id, hid, hid ▸ hother⟩
        · exact absurd hhidden hhid
      obtain ⟨p, hp, -, rfl⟩ := accessNodeOf_eq_some hid.1
      obtain ⟨m₀, hm₀, hm₀id, hpub⟩ := h.accessNodes _ (hh.accessNodes p hp)
      refine hpeer m₀ hm₀ ?_
      rintro (hsame | ⟨haccess, -⟩ | hhidden)
      · exact hid.2 (hsame.symm.trans hm₀id)
      · rw [h.accessNodeOf_public hh hm₀ hpub] at haccess
        cases haccess
      · exact hhid hhidden
    · exact hpeer z₀ hz₀ hskip

end

end ThreefoldSdk.Primitives
