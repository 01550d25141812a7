import ThreefoldSdk.Primitives.Rebuilt
import ThreefoldSdk.Primitives.SubnetRuns

/-! The routes of a generated network: every node reaches each other node and each access point
through one peer. -/

namespace ThreefoldSdk.Primitives
open Zos Ipv4 Frame

/-- The subnets a node has to reach: those of the other nodes and of the access points. -/
def Network.othersOf (n : Network) (z : Znet) : List String :=
  (n.networks.filter fun net => net.nodeId ≠ z.nodeId).map (·.subnet) ++
    n.accessPoints.map (·.subnet)

/-- The number of peers that an ip is routed to. -/
def routes (z : Znet) (ip : String) : Nat := z.peers.countP fun p => decide (ip ∈ p.allowedIps)

/-- A node of the network that was not found without an endpoint. -/
def IsAccessNode (s s' : Session) (nodeId : Nat) : Prop :=
  ∃ z ∈ s.network.networks, z.nodeId = some nodeId ∧ isHidden s' z = false

/-- Distinct nodes with distinct subnets of one range, and access points and hidden nodes that go
through access nodes. -/
structure Routable (range : Addr) (s s' : Session) : Prop where
  nodeIds : (s.network.networks.map (·.nodeId)).Nodup
  subnets : ∀ u ∈ s.network.held, ∃ a, parse u = some a ∧ IsSubnet range a
  distinct : (s.network.held.map parse).Nodup
  points : ∀ a ∈ s.network.accessPoints, IsAccessNode s s' a.nodeId
  accessNodes : ∀ id ∈ s'.accessNodes, IsAccessNode s s' id

section
variable {α β : Type*}

theorem countP_reduceOption (l : List (Option β)) (q : β → Bool) :
    l.reduceOption.countP q = l.countP fun o => o.any q := by
  induction l with
  | nil => rfl
  | cons o l ih =>
    cases o with
    | none => rw [List.reduceOption_cons_of_none, ih, List.countP_cons_of_neg (by simp)]
    | some b => rw [List.reduceOption_cons_of_some, List.countP_cons, List.countP_cons, ih]; rfl

theorem countP_eq_one {l : List α} {p : α → Bool} {a : α} (hl : l.Nodup) (ha : a ∈ l)
    (hp : ∀ b ∈ l, p b = true ↔ b = a) : l.countP p = 1 := by
  classical
  have hcongr : l.countP p = l.count a := by
    apply List.countP_congr
    intro b hb
    rw [hp b hb, beq_iff_eq]
  rw [hcongr, List.count_eq_one_of_mem hl ha]

end

section
variable {range : Addr} {s s' : Session} {hidden : List (Option Nat × AccessPoint)}

/-- The access points of the network and the hidden nodes. -/
def allPoints (s : Session) (hidden : List (Option Nat × AccessPoint)) : List AccessPoint :=
  s.network.accessPoints ++ hidden.map Prod.snd

/-- The subnets that are reached through a node. -/
def block (s : Session) (hidden : List (Option Nat × AccessPoint)) (m : Znet) : List String :=
  m.subnet :: (pointsOf (allPoints s hidden) m.nodeId).map (·.subnet)

theorem Routable.eq_of_nodeId (h : Routable range s s') {m n : Znet} (hm : m ∈ s.network.networks)
    (hn : n ∈ s.network.networks) (heq : m.nodeId = n.nodeId) : m = n :=
  List.inj_on_of_nodup_map h.nodeIds hm hn heq

/-- The nodes with an endpoint, the access points and the hidden nodes have different subnets. -/
theorem Routable.nodup_places (h : Routable range s s') (hh : HiddenNodes s s' hidden) :
    ((s.network.networks.filter fun z => !isHidden s' z).map (·.subnet) ++
      (allPoints s hidden).map (·.subnet)).Nodup := by
  have hheld : s.network.held.Nodup := List.Nodup.of_map _ h.distinct
  have hsplit := List.filter_append_perm (isHidden s') s.network.networks
  have hperm : ((s.network.networks.filter fun z => !isHidden s' z).map (·.subnet) ++
      (s.network.accessPoints.map (·.subnet) ++
        (s.network.networks.filter (isHidden s')).map (·.subnet))).Perm s.network.held := by
    have hmap := hsplit.map (·.subnet)
    rw [List.map_append] at hmap
    refine List.Perm.trans ?_ (hmap.append_right (s.network.accessPoints.map (·.subnet)))
    rw [← List.append_assoc]
    exact List.perm_append_comm.trans (List.Perm.of_eq (List.append_assoc ..).symm)
  have hall := hperm.nodup_iff.mpr hheld
  rw [allPoints, List.map_append]
  exact hall.sublist ((hh.sublist_subnets.append_left _).append_left _)

theorem block_subset (hh : HiddenNodes s s' hidden) {m : Znet}
    (hm : m ∈ s.network.networks) {u : String} (hu : u ∈ block s hidden m) :
    u ∈ s.network.held := by
  rcases List.mem_cons.mp hu with rfl | hu
  · exact List.mem_append_left _ (List.mem_map_of_mem hm)
  · obtain ⟨a, ha, rfl⟩ := List.mem_map.mp hu
    rcases List.mem_append.mp (mem_pointsOf.mp ha).1 with ha | ha
    · exact List.mem_append_right _ (List.mem_map_of_mem ha)
    · obtain ⟨z, hz, heq⟩ := List.mem_map.mp (hh.sublist_subnets.subset (List.mem_map_of_mem ha))
      exact List.mem_append_left _ (List.mem_map.mpr ⟨z, (List.mem_filter.mp hz).1, heq⟩)

theorem mem_block_of_point {m : Znet} {a : AccessPoint} (ha : a ∈ allPoints s hidden)
    (hm : m.nodeId = some a.nodeId) : a.subnet ∈ block s hidden m :=
  List.mem_cons_of_mem _ (List.mem_map_of_mem (mem_pointsOf.mpr ⟨ha, hm⟩))

/-- Each subnet is reached through a node with an endpoint. -/
theorem Routable.place (h : Routable range s s') (hh : HiddenNodes s s' hidden) {n : Znet}
    (hn : n ∈ s.network.networks) {u : String} (hu : u ∈ s.network.othersOf n) :
    ∃ m ∈ s.network.networks, isHidden s' m = false ∧ u ∈ block s hidden m := by
  rcases List.mem_append.mp hu with hu | hu
  · obtain ⟨net, hnet, rfl⟩ := List.mem_map.mp hu
    obtain ⟨hnet, hne⟩ := List.mem_filter.mp hnet
    cases hhid : isHidden s' net with
    | false => exact ⟨net, hnet, hhid, List.mem_cons_self⟩
    | true =>
      have hmany : s.network.networks.length ≠ 1 := by
        intro hone
        obtain ⟨z, hz⟩ := List.length_eq_one_iff.mp hone
        rw [hz, List.mem_singleton] at hn hnet
        rw [hn, hnet] at hne
        exact absurd hne (by simp)
      have hin : (net.nodeId, net.subnet) ∈ hidden.map (fun p => (p.1, p.2.subnet)) := by
        rw [hh.listed hmany]
        exact List.mem_map.mpr ⟨net, List.mem_filter.mpr ⟨hnet, hhid⟩, rfl⟩
      obtain ⟨p, hp, heq⟩ := List.mem_map.mp hin
      obtain ⟨m, hm, hid, hpub⟩ := h.accessNodes _ (hh.accessNodes p hp)
      have hsubnet : p.2.subnet = net.subnet := congrArg Prod.snd heq
      refine ⟨m, hm, hpub, ?_⟩
      rw [← hsubnet]
      exact mem_block_of_point (List.mem_append_right _ (List.mem_map_of_mem hp)) hid
  · obtain ⟨a, ha, rfl⟩ := List.mem_map.mp hu
    obtain ⟨m, hm, hid, hpub⟩ := h.points a ha
    exact ⟨m, hm, hpub, mem_block_of_point (List.mem_append_left _ ha) hid⟩

/-- An access point with a subnet that is reached through a node is placed on it. -/
theorem Routable.point_place (h : Routable range s s') (hh : HiddenNodes s s' hidden) {m : Znet}
    (hm : m ∈ s.network.networks) (hpub : isHidden s' m = false) {a : AccessPoint}
    (ha : a ∈ allPoints s hidden) (hu : a.subnet ∈ block s hidden m) :
    m.nodeId = some a.nodeId := by
  have hnodup := List.nodup_append.mp (h.nodup_places hh)
  rcases List.mem_cons.mp hu with heq | hu
  · have hfirst : m.subnet ∈ (s.network.networks.filter fun z => !isHidden s' z).map (·.subnet) :=
      List.mem_map_of_mem (List.mem_filter.mpr ⟨hm, by rw [hpub]; rfl⟩)
    exact absurd heq.symm (hnodup.2.2 _ hfirst _ (List.mem_map_of_mem ha))
  · obtain ⟨b, hb, heq⟩ := List.mem_map.mp hu
    obtain ⟨hb, hid⟩ := mem_pointsOf.mp hb
    rw [hid, List.inj_on_of_nodup_map hnodup.2.1 hb ha heq]

theorem Routable.place_unique (h : Routable range s s') (hh : HiddenNodes s s' hidden)
    {m m' : Znet} (hm : m ∈ s.network.networks) (hpub : isHidden s' m = false)
    (hm' : m' ∈ s.network.networks) (hpub' : isHidden s' m' = false) {u : String}
    (hu : u ∈ block s hidden m) (hu' : u ∈ block s hidden m') : m = m' := by
  have hfilter : ∀ z ∈ s.network.networks, isHidden s' z = false →
      z ∈ s.network.networks.filter fun z => !isHidden s' z := by
    intro z hz hpub
    exact List.mem_filter.mpr ⟨hz, by rw [hpub]; rfl⟩
  rcases List.mem_cons.mp hu with heq | hin
  · rcases List.mem_cons.mp hu' with heq' | hin'
    · exact List.inj_on_of_nodup_map (List.nodup_append.mp (h.nodup_places hh)).1
        (hfilter m hm hpub) (hfilter m' hm' hpub') (heq.symm.trans heq')
    · obtain ⟨a, ha, rfl⟩ := List.mem_map.mp hin'
      obtain ⟨ha, hid⟩ := mem_pointsOf.mp ha
      exact h.eq_of_nodeId hm hm' ((h.point_place hh hm hpub ha hu).trans hid.symm)
  · obtain ⟨a, ha, rfl⟩ := List.mem_map.mp hin
    obtain ⟨ha, hid⟩ := mem_pointsOf.mp ha
    exact h.eq_of_nodeId hm hm' (hid.trans (h.point_place hh hm' hpub' ha hu').symm)

/-- A text that stands for a subnet stands for no other. -/
theorem Routable.inPair_iff (h : Routable range s s') (hrange : range.len = 16) {u v t : String}
    (hu : u ∈ s.network.held) (hv : v ∈ s.network.held) (ht : InPair u t) :
    InPair v t ↔ v = u := by
  constructor
  · intro hvt
    obtain ⟨a, ha, hina⟩ := h.subnets u hu
    obtain ⟨b, hb, hinb⟩ := h.subnets v hv
    have heq := hvt.unique hrange ht hb ha hinb hina
    exact List.inj_on_of_nodup_map h.distinct hv hu (by rw [hb, ha, heq])
  · rintro rfl
    exact ht

theorem accessNodeOf_eq_some {nodeId : Option Nat} {id : Nat}
    (h : accessNodeOf hidden nodeId = some id) : ∃ p ∈ hidden, p.1 = nodeId ∧ p.2.nodeId = id := by
  obtain ⟨a, hlookup, rfl⟩ := Option.map_eq_some_iff.mp h
  obtain ⟨front, rest, hsplit, -⟩ := List.lookup_eq_some_iff.mp hlookup
  refine ⟨(nodeId, a), ?_, rfl, rfl⟩
  apply List.mem_reverse.mp
  rw [hsplit]
  exact List.mem_append_right _ List.mem_cons_self

/-- A node with an access node is hidden. -/
theorem Routable.isHidden_of_access (h : Routable range s s') (hh : HiddenNodes s s' hidden)
    {n : Znet} (hn : n ∈ s.network.networks) {id : Nat}
    (hid : accessNodeOf hidden n.nodeId = some id) :
    isHidden s' n = true ∧ IsAccessNode s s' id := by
  obtain ⟨p, hp, hnode, rfl⟩ := accessNodeOf_eq_some hid
  have hin := hh.sublist.subset (List.mem_map_of_mem hp)
  obtain ⟨z, hz, heq⟩ := List.mem_map.mp hin
  obtain ⟨hz, hhid⟩ := List.mem_filter.mp hz
  have hzn : z.nodeId = n.nodeId := (congrArg Prod.fst heq).trans hnode
  rw [h.eq_of_nodeId hz hn hzn] at hhid
  exact ⟨hhid, h.accessNodes _ (hh.accessNodes p hp)⟩

/-- The peers for the access points of a node lead to the ips of one of them. -/
theorem Routable.countP_points (h : Routable range s s') (hrange : range.len = 16)
    (hh : HiddenNodes s s' hidden) {n : Znet} (hn : n ∈ s.network.networks) {u t : String}
    (hu : u ∈ s.network.held) (ht : InPair u t) {peers : List Peer}
    (hpeers : List.Forall₂ (fun (a : AccessPoint) (p : Peer) => ∀ t, t ∈ p.allowedIps ↔
      InPair a.subnet t) (pointsOf (allPoints s hidden) n.nodeId) peers) :
    peers.countP (fun p => decide (t ∈ p.allowedIps)) =
      (pointsOf (allPoints s hidden) n.nodeId).countP fun a => decide (a.subnet = u) := by
  apply Forall2.countP_eq hpeers
  intro a ha p hp
  have hheld : a.subnet ∈ s.network.held :=
    block_subset hh hn (List.mem_cons_of_mem _ (List.mem_map_of_mem ha))
  rw [decide_eq_decide, hp t, h.inPair_iff hrange hu hheld ht]

theorem Routable.ne_of_mem_othersOf (h : Routable range s s') {n : Znet}
    (hn : n ∈ s.network.networks) {u : String} (hu : u ∈ s.network.othersOf n) : u ≠ n.subnet := by
  have hheld : s.network.held.Nodup := List.Nodup.of_map _ h.distinct
  have hnodup := List.nodup_append.mp hheld
  rcases List.mem_append.mp hu with hu | hu
  · obtain ⟨net, hnet, rfl⟩ := List.mem_map.mp hu
    obtain ⟨hnet, hne⟩ := List.mem_filter.mp hnet
    intro heq
    rw [List.inj_on_of_nodup_map hnodup.1 hnet hn heq] at hne
    exact absurd hne (by simp)
  · exact (hnodup.2.2 _ (List.mem_map_of_mem hn) _ hu).symm

/-- Without an access node, a node has a peer for each other node with an endpoint. -/
theorem Routable.countP_nodes (h : Routable range s s') (hrange : range.len = 16)
    (hh : HiddenNodes s s' hidden) {n m : Znet} (hnone : accessNodeOf hidden n.nodeId = none)
    (hm : m ∈ s.network.networks) (hpub : isHidden s' m = false) {u t : String}
    (hu : u ∈ block s hidden m) (ht : InPair u t) {opts : List (Option Peer)}
    (hopts : List.Forall₂ (PeerOf s' hidden (allPoints s hidden) s.network.held n)
      s.network.networks opts) :
    opts.reduceOption.countP (fun p => decide (t ∈ p.allowedIps)) =
      if m.nodeId = n.nodeId then 0 else 1 := by
  have hheld : u ∈ s.network.held := block_subset hh hm hu
  have hpeer : ∀ net ∈ s.network.networks, ∀ o,
      PeerOf s' hidden (allPoints s hidden) s.network.held n net o →
      (o.any fun p => decide (t ∈ p.allowedIps)) = decide (n.nodeId ≠ net.nodeId ∧ net = m) := by
    intro net hnet o ho
    rw [Bool.eq_iff_iff, decide_eq_true_eq]
    have hskip : Skipped s' hidden n net ↔ n.nodeId = net.nodeId ∨ isHidden s' net = true := by
      rw [Skipped, hnone]
      simp
    cases o with
    | none =>
      refine iff_of_false (by simp) ?_
      rintro ⟨hne, rfl⟩
      have hsome := ho.isSome_iff.mpr (by rw [hskip, hpub]; simpa using hne)
      cases hsome
    | some peer =>
      have hnot := (hskip.not.mp (ho.isSome_iff.mp rfl))
      rw [not_or, Bool.not_eq_true] at hnot
      obtain ⟨others, hips, hnil, -⟩ := ho.allowed peer rfl
      rw [hnil hnone, List.nil_append] at hips
      rw [Option.any_some, decide_eq_true_eq, hips t]
      constructor
      · rintro ⟨v, hv, hvt⟩
        rw [(h.inPair_iff hrange hheld (block_subset hh hnet hv) ht).mp hvt] at hv
        exact ⟨hnot.1, h.place_unique hh hnet hnot.2 hm hpub hv hu⟩
      · rintro ⟨-, rfl⟩
        exact ⟨u, hu, ht⟩
  rw [countP_reduceOption, Forall2.countP_eq hopts hpeer]
  split
  · rename_i heq
    rw [List.countP_eq_zero]
    intro net _
    rw [decide_eq_true_eq]
    rintro ⟨hne, rfl⟩
    exact hne heq.symm
  · rename_i hne
    refine countP_eq_one (List.Nodup.of_map _ h.nodeIds) hm fun net _ => ?_
    rw [decide_eq_true_eq]
    refine ⟨fun hnet => hnet.2, ?_⟩
    rintro rfl
    exact ⟨fun heq => hne heq.symm, rfl⟩

/-- A hidden node has one peer, its access node, that leads everywhere. -/
theorem Routable.countP_access (h : Routable range s s') (hh : HiddenNodes s s' hidden)
    {n : Znet} (hn : n ∈ s.network.networks) {id : Nat}
    (hid : accessNodeOf hidden n.nodeId = some id) {u t : String} (hheld : u ∈ s.network.held)
    (hne : u ≠ n.subnet) (ht : InPair u t) {opts : List (Option Peer)}
    (hopts : List.Forall₂ (PeerOf s' hidden (allPoints s hidden) s.network.held n)
      s.network.networks opts) :
    opts.reduceOption.countP (fun p => decide (t ∈ p.allowedIps)) = 1 := by
  obtain ⟨hhid, m, hm, hmid, hpub⟩ := h.isHidden_of_access hh hn hid
  have hpeer : ∀ net ∈ s.network.networks, ∀ o,
      PeerOf s' hidden (allPoints s hidden) s.network.held n net o →
      (o.any fun p => decide (t ∈ p.allowedIps)) = decide (net = m) := by
    intro net hnet o ho
    rw [Bool.eq_iff_iff, decide_eq_true_eq]
    have hskip : ¬ Skipped s' hidden n net ↔ net = m := by
      rw [Skipped, hid]
      constructor
      · intro hnot
        refine h.eq_of_nodeId hnet hm (hmid.symm ▸ ?_)
        by_contra hother
        exact hnot (Or.inr (Or.inl ⟨rfl, hother⟩))
      · rintro rfl (hown | ⟨-, hother⟩ | htrue)
        · rw [h.eq_of_nodeId hn hnet hown, hpub] at hhid
          cases hhid
        · exact hother hmid
        · rw [hpub] at htrue
          cases htrue
    cases o with
    | none =>
      refine iff_of_false (by simp) fun heq => ?_
      have hsome := ho.isSome_iff.mpr (hskip.mpr heq)
      cases hsome
    | some peer =>
      have heq := hskip.mp (ho.isSome_iff.mp rfl)
      obtain ⟨others, hips, -, hall⟩ := ho.allowed peer rfl
      rw [hid] at hall
      rw [Option.any_some, decide_eq_true_eq, hips t]
      refine iff_of_true ⟨u, ?_, ht⟩ heq
      by_cases hown : u = net.subnet
      · rw [hown]
        exact List.mem_append_right _ List.mem_cons_self
      · obtain ⟨a, ha, -⟩ := h.subnets u hheld
        exact List.mem_append_left _ (hall rfl u hheld (ne_empty_of_parse ha) hne hown)
  rw [countP_reduceOption, Forall2.countP_eq hopts hpeer]
  refine countP_eq_one (List.Nodup.of_map _ h.nodeIds) hm fun net _ => ?_
  rw [decide_eq_true_eq]

theorem Routable.routes_eq_one (h : Routable range s s') (hrange : range.len = 16)
    (hh : HiddenNodes s s' hidden) {n z : Znet} (hn : n ∈ s.network.networks)
    (hz : RebuiltAs s' hidden (allPoints s hidden) s.network.held s.network.networks n z)
    {u t : String} (hu : u ∈ s.network.othersOf n) (ht : InPair u t) : routes z t = 1 := by
  obtain ⟨opts, peers, hopts, hpeers, rfl⟩ := hz
  obtain ⟨m, hm, hpub, hum⟩ := h.place hh hn hu
  have hheld := block_subset hh hm hum
  have hne := h.ne_of_mem_othersOf hn hu
  change (opts.reduceOption ++ peers).countP _ = 1
  rw [List.countP_append, h.countP_points hrange hh hn hheld ht hpeers]
  cases haccess : accessNodeOf hidden n.nodeId with
  | some id =>
    obtain ⟨hhid, -⟩ := h.isHidden_of_access hh hn haccess
    have hnone : (pointsOf (allPoints s hidden) n.nodeId).countP
        (fun a => decide (a.subnet = u)) = 0 := by
      refine List.countP_eq_zero.mpr fun a ha => ?_
      obtain ⟨ha, hnode⟩ := mem_pointsOf.mp ha
      -- no access point is placed on a hidden node
      have hplaced : IsAccessNode s s' a.nodeId := by
        rcases List.mem_append.mp ha with ha | ha
        · exact h.points a ha
        · obtain ⟨p, hp, rfl⟩ := List.mem_map.mp ha
          exact h.accessNodes _ (hh.accessNodes p hp)
      obtain ⟨z, hz, hzid, hzpub⟩ := hplaced
      rw [h.eq_of_nodeId hz hn (hzid.trans hnode.symm), hhid] at hzpub
      cases hzpub
    rw [h.countP_access hh hn haccess hheld hne ht hopts, hnone]
  | none =>
    rw [h.countP_nodes hrange hh haccess hm hpub hum ht hopts]
    split
    · rename_i heq
      obtain rfl := h.eq_of_nodeId hm hn heq
      obtain ⟨a, ha, rfl⟩ := List.mem_map.mp ((List.mem_cons.mp hum).resolve_left hne)
      have hnodup := (List.nodup_append.mp (h.nodup_places hh)).2.1
      rw [Nat.zero_add]
      refine countP_eq_one ((List.Nodup.of_map _ hnodup).filter _) ha fun b hb => ?_
      rw [decide_eq_true_eq]
      refine ⟨fun heq => ?_, fun heq => heq ▸ rfl⟩
      exact List.inj_on_of_nodup_map hnodup (mem_pointsOf.mp hb).1 (mem_pointsOf.mp ha).1 heq
    · rename_i hother
      have hnone : (pointsOf (allPoints s hidden) n.nodeId).countP
          (fun a => decide (a.subnet = u)) = 0 := by
        refine List.countP_eq_zero.mpr fun a ha => ?_
        rw [decide_eq_true_eq]
        rintro rfl
        obtain ⟨ha, hnode⟩ := mem_pointsOf.mp ha
        exact hother ((h.point_place hh hm hpub ha hum).trans hnode.symm)
      rw [hnone]

/-- After `generatePeers`, every node routes the subnet of each other node and of each access point,
and its routing ip, to exactly one peer. -/
theorem generatePeers_routes {env : NetworkEnv} (hrange : range.len = 16) (h : Routable range s s')
    (hrun : generatePeers env s = .ok ⟨⟩ s') :
    ∀ z ∈ s'.network.networks, ∀ u ∈ s'.network.othersOf z,
      routes z u = 1 ∧ ∃ r, wgRoutingIP u = .ok r ∧ routes z r = 1 := by
  have hheld : ∀ u ∈ s.network.held, ∃ a, parse u = some a ∧ a.len = 24 := by
    intro u hu
    obtain ⟨a, ha, hin⟩ := h.subnets u hu
    exact ⟨a, ha, hin.1⟩
  obtain ⟨hidden, hh, hnets⟩ := generatePeers_ok hheld hrun
  have hpoints : s'.network.accessPoints = s.network.accessPoints :=
    (keeps_unrouted_generatePeers.comp Network.accessPoints).of_ok hrun
  intro z hz u hu
  obtain ⟨n, hn, hnz⟩ := Forall2.exists_left hnets hz
  have hothers : u ∈ s.network.othersOf n := by
    obtain ⟨_, _, -, -, rfl⟩ := hnz
    rcases List.mem_append.mp hu with hu | hu
    · obtain ⟨net', hnet', rfl⟩ := List.mem_map.mp hu
      obtain ⟨hnet', hne⟩ := List.mem_filter.mp hnet'
      obtain ⟨net, hnet, _, _, -, -, rfl⟩ := Forall2.exists_left hnets hnet'
      exact List.mem_append_left _ (List.mem_map.mpr ⟨net, List.mem_filter.mpr ⟨hnet, hne⟩, rfl⟩)
    · rw [hpoints] at hu
      exact List.mem_append_right _ hu
  refine ⟨h.routes_eq_one hrange hh hn hnz hothers (Or.inl rfl), ?_⟩
  obtain ⟨m, hm, -, hum⟩ := h.place hh hn hothers
  obtain ⟨a, ha, hin⟩ := h.subnets u (block_subset hh hm hum)
  obtain ⟨r, _, hr, -⟩ := wgRoutingIP_of_subnet ha hin.1
  exact ⟨r, hr, h.routes_eq_one hrange hh hn hnz hothers (Or.inr hr)⟩

end

/-- A public node with an access point, and a hidden node. -/
def mixedSession : Session where
  network :=
    { name := "net", ipRange := "10.1.0.0/16", nodes := [], deployments := [], reservedSubnets := []
      networks := [sampleZnet 11 "10.1.2.0/24", sampleZnet 12 "10.1.3.0/24"]
      accessPoints := [⟨"10.1.4.0/24", "user key", 11⟩]
      userAccesses := [] }
  endpoints := []
  accessNodes := []
  clock := 0

theorem mixedSession_routable :
    Routable sampleRange mixedSession (after (generatePeers sampleNetworkEnv) mixedSession) where
  nodeIds := by decide
  subnets u hu := by
    simp only [Network.held, mixedSession, List.map_cons, List.map_nil, List.cons_append,
      List.nil_append, List.mem_cons, List.not_mem_nil, or_false] at hu
    rcases hu with rfl | rfl | rfl
    · exact ⟨⟨167838208, 24, by decide, by decide, by decide⟩, by decide +kernel,
        (isSubnet_iff rfl).mpr (by decide)⟩
    · exact ⟨⟨167838464, 24, by decide, by decide, by decide⟩, by decide +kernel,
        (isSubnet_iff rfl).mpr (by decide)⟩
    · exact ⟨⟨167838720, 24, by decide, by decide, by decide⟩, by decide +kernel,
        (isSubnet_iff rfl).mpr (by decide)⟩
  distinct := by decide +kernel
  points a ha := by
    rw [List.mem_singleton.mp ha]
    exact ⟨_, List.mem_cons_self, rfl, by decide +kernel⟩
  accessNodes id hid := by
    have hnodes : (after (generatePeers sampleNetworkEnv) mixedSession).accessNodes = [11] := by
      decide +kernel
    rw [hnodes, List.mem_singleton] at hid
    rw [hid]
    exact ⟨_, List.mem_cons_self, rfl, by decide +kernel⟩

theorem mixedSession_routes : ∃ s', generatePeers sampleNetworkEnv mixedSession = .ok ⟨⟩ s' ∧
    ∀ z ∈ s'.network.networks, ∀ u ∈ s'.network.othersOf z,
      routes z u = 1 ∧ ∃ r, wgRoutingIP u = .ok r ∧ routes z r = 1 := by
  have hreturned : returned (generatePeers sampleNetworkEnv mixedSession) = true := by decide +kernel
  obtain ⟨_, s', hrun⟩ := exists_ok_of_returned hreturned
  have hroutable := mixedSession_routable
  rw [after_of_ok hrun] at hroutable
  exact ⟨s', hrun, generatePeers_routes rfl hroutable hrun⟩

end ThreefoldSdk.Primitives
