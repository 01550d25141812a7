import ThreefoldSdk.Primitives.Routing

/-! Which nodes of a generated network route their own subnet away. -/

namespace ThreefoldSdk.Primitives
open Zos Ipv4 Frame

/-- No peer of the node has its subnet or its routing ip in the allowed ips. -/
def KeepsOwn (z : Znet) : Prop := ∀ p ∈ z.peers, ∀ t ∈ p.allowedIps, ¬InPair z.subnet t

/-- Distinct nodes, and subnets of 256 addresses. -/
structure Numbered (n : Network) : Prop where
  nodeIds : (n.networks.map (·.nodeId)).Nodup
  subnets : ∀ u ∈ n.held, ∃ a, parse u = some a ∧ a.len = 24

/-- Before the peers are made: `hidden` are the hidden nodes with the access nodes that were drawn
for them. A hidden node is an access point of its access node. -/
structure RoutesApart (s s' : Session) (hidden : List (Option Nat × AccessPoint)) : Prop where
  /-- No hidden node got another node with an endpoint. -/
  drawn : ∀ p ∈ hidden, ∀ m ∈ s.network.networks, m.nodeId = some p.2.nodeId →
    m.nodeId = p.1 ∨ isHidden s' m = true
  /-- No access point of a node has its subnet. -/
  points : ∀ a ∈ allPoints s hidden, ∀ n ∈ s.network.networks,
    wgRoutingIP a.subnet = wgRoutingIP n.subnet → n.nodeId ≠ some a.nodeId
  /-- What a node with an endpoint reaches through another one does not have its subnet. -/
  others : ∀ n ∈ s.network.networks, (∀ p ∈ hidden, p.1 ≠ n.nodeId) →
    ∀ m ∈ s.network.networks, m.nodeId ≠ n.nodeId → isHidden s' m = false →
      ∀ u ∈ block s hidden m, wgRoutingIP u ≠ wgRoutingIP n.subnet

section
variable {s s' : Session} {hidden : List (Option Nat × AccessPoint)} {n z : Znet}

/-- Two subnets have a text in common when they have the same routing ip. -/
theorem exists_inPair_iff {u v : String} {a b : Addr} (ha : parse u = some a) (halen : a.len = 24)
    (hb : parse v = some b) (hblen : b.len = 24) :
    (∃ t, InPair u t ∧ InPair v t) ↔ wgRoutingIP u = wgRoutingIP v := by
  constructor
  · rintro ⟨t, rfl | hu, hv⟩
    · rw [hv.eq_of_subnet ha halen]
    · rcases hv with rfl | hv
      · rw [InPair.eq_of_subnet (Or.inr hu) hb hblen]
      · rw [hu, hv]
  · intro hsame
    obtain ⟨r, _, hr, -⟩ := wgRoutingIP_of_subnet ha halen
    exact ⟨r, Or.inr hr, Or.inr (hsame ▸ hr)⟩

theorem Numbered.exists_inPair (h : Numbered s.network) {u v : String} (hu : u ∈ s.network.held)
    (hv : v ∈ s.network.held) :
    (∃ t, InPair u t ∧ InPair v t) ↔ wgRoutingIP u = wgRoutingIP v := by
  obtain ⟨a, ha, halen⟩ := h.subnets u hu
  obtain ⟨b, hb, hblen⟩ := h.subnets v hv
  exact exists_inPair_iff ha halen hb hblen

theorem Numbered.eq_of_nodeId (h : Numbered s.network) {m : Znet} (hm : m ∈ s.network.networks)
    (hn : n ∈ s.network.networks) (heq : m.nodeId = n.nodeId) : m = n :=
  List.inj_on_of_nodup_map h.nodeIds hm hn heq

theorem subnet_mem_held (hn : n ∈ s.network.networks) : n.subnet ∈ s.network.held :=
  List.mem_append_left _ (List.mem_map_of_mem hn)

theorem HiddenNodes.point_mem_held (hh : HiddenNodes s s' hidden) {a : AccessPoint}
    (ha : a ∈ allPoints s hidden) : a.subnet ∈ s.network.held := by
  rcases List.mem_append.mp ha with ha | ha
  · exact List.mem_append_right _ (List.mem_map_of_mem ha)
  · obtain ⟨m, hm, heq⟩ := List.mem_map.mp (hh.sublist_subnets.subset (List.mem_map_of_mem ha))
    rw [← heq]
    exact subnet_mem_held (List.mem_filter.mp hm).1

/-- What was drawn is for a node of the network. -/
theorem HiddenNodes.node_of_mem (hh : HiddenNodes s s' hidden) {p : Option Nat × AccessPoint}
    (hp : p ∈ hidden) :
    ∃ m ∈ s.network.networks, m.nodeId = p.1 ∧ m.subnet = p.2.subnet := by
  have hin := hh.sublist.subset
    (List.mem_map_of_mem (f := fun p : Option Nat × AccessPoint => (p.1, p.2.subnet)) hp)
  obtain ⟨m, hm, heq⟩ := List.mem_map.mp hin
  exact ⟨m, (List.mem_filter.mp hm).1, congrArg Prod.fst heq, congrArg Prod.snd heq⟩

theorem Numbered.accessNodeOf_mem (h : Numbered s.network) (hh : HiddenNodes s s' hidden)
    {p : Option Nat × AccessPoint} (hp : p ∈ hidden) :
    accessNodeOf hidden p.1 = some p.2.nodeId := by
  have hkeys : (hidden.map Prod.fst).Nodup := by
    have hsub := hh.sublist.map Prod.fst
    rw [List.map_map, List.map_map] at hsub
    exact h.nodeIds.sublist (hsub.trans (List.filter_sublist.map _))
  have hsome : (hidden.reverse.lookup p.1).isSome = true :=
    List.lookup_isSome_iff.mpr ⟨p, List.mem_reverse.mpr hp, beq_self_eq_true p.1⟩
  obtain ⟨a, ha⟩ := Option.isSome_iff_exists.mp hsome
  have haccess : accessNodeOf hidden p.1 = some a.nodeId := by rw [accessNodeOf, ha, Option.map_some]
  obtain ⟨q, hq, hkey, hid⟩ := accessNodeOf_eq_some haccess
  rw [haccess, ← hid, List.inj_on_of_nodup_map hkeys hq hp hkey]

theorem accessNodeOf_eq_none (h : ∀ p ∈ hidden, p.1 ≠ n.nodeId) :
    accessNodeOf hidden n.nodeId = none := by
  rw [Option.eq_none_iff_forall_ne_some]
  intro id hid
  obtain ⟨p, hp, hkey, -⟩ := accessNodeOf_eq_some hid
  exact h p hp hkey

/-! What the peers of a node lead to. -/

theorem RebuiltAs.mem_allowed_of_point
    (hz : RebuiltAs s' hidden (allPoints s hidden) s.network.held s.network.networks n z)
    {a : AccessPoint} (ha : a ∈ allPoints s hidden) (hnode : n.nodeId = some a.nodeId) {t : String}
    (ht : InPair a.subnet t) : ∃ p ∈ z.peers, t ∈ p.allowedIps := by
  obtain ⟨opts, peers, -, hpeers, rfl⟩ := hz
  obtain ⟨p, hp, hips⟩ := Forall2.exists_right hpeers (mem_pointsOf.mpr ⟨ha, hnode⟩)
  exact ⟨p, List.mem_append_right _ hp, (hips t).mpr ht⟩

theorem RebuiltAs.mem_allowed_of_block
    (hz : RebuiltAs s' hidden (allPoints s hidden) s.network.held s.network.networks n z) {m : Znet}
    (hm : m ∈ s.network.networks) (hnot : ¬Skipped s' hidden n m) {u t : String}
    (hu : u ∈ block s hidden m) (ht : InPair u t) : ∃ p ∈ z.peers, t ∈ p.allowedIps := by
  obtain ⟨opts, peers, hopts, -, rfl⟩ := hz
  obtain ⟨o, ho, hpeer⟩ := Forall2.exists_right hopts hm
  obtain ⟨p, rfl⟩ := Option.isSome_iff_exists.mp (hpeer.isSome_iff.mpr hnot)
  obtain ⟨others, hips, -, -⟩ := hpeer.allowed p rfl
  exact ⟨p, List.mem_append_left _ (List.reduceOption_mem_iff.mpr ho),
    (hips t).mpr ⟨u, List.mem_append_right _ hu, ht⟩⟩

theorem RebuiltAs.cases_of_mem_allowed
    (hz : RebuiltAs s' hidden (allPoints s hidden) s.network.held s.network.networks n z) {p : Peer}
    (hp : p ∈ z.peers) {t : String} (ht : t ∈ p.allowedIps) :
    (∃ a ∈ allPoints s hidden, n.nodeId = some a.nodeId ∧ InPair a.subnet t) ∨
      ∃ m ∈ s.network.networks, ¬Skipped s' hidden n m ∧
        ((accessNodeOf hidden n.nodeId).isSome = true ∨ ∃ u ∈ block s hidden m, InPair u t) := by
  obtain ⟨opts, peers, hopts, hpeers, rfl⟩ := hz
  rcases List.mem_append.mp hp with hp | hp
  · obtain ⟨m, hm, hpeer⟩ := Forall2.exists_left hopts (List.reduceOption_mem_iff.mp hp)
    refine .inr ⟨m, hm, hpeer.isSome_iff.mp rfl, ?_⟩
    cases haccess : accessNodeOf hidden n.nodeId with
    | some id => exact .inl rfl
    | none =>
      obtain ⟨others, hips, hnone, -⟩ := hpeer.allowed p rfl
      obtain ⟨u, hu, hut⟩ := (hips t).mp ht
      rw [hnone haccess, List.nil_append] at hu
      exact .inr ⟨u, hu, hut⟩
  · obtain ⟨a, ha, hips⟩ := Forall2.exists_left hpeers hp
    obtain ⟨ha, hnode⟩ := mem_pointsOf.mp ha
    exact .inl ⟨a, ha, hnode, (hips t).mp ht⟩

/-- A node keeps its subnet to itself where the routes are apart. -/
theorem RoutesApart.keepsOwn (happart : RoutesApart s s' hidden) (h : Numbered s.network)
    (hh : HiddenNodes s s' hidden) (hn : n ∈ s.network.networks)
    (hz : RebuiltAs s' hidden (allPoints s hidden) s.network.held s.network.networks n z) :
    KeepsOwn z := by
  have hsubnet : z.subnet = n.subnet := by
    obtain ⟨opts, peers, -, -, rfl⟩ := hz
    rfl
  intro p hp t ht hown
  rw [hsubnet] at hown
  rcases hz.cases_of_mem_allowed hp ht with ⟨a, ha, hnode, hat⟩ | ⟨m, hm, hnot, hway⟩
  · have hsame := (h.exists_inPair (hh.point_mem_held ha) (subnet_mem_held hn)).mp ⟨t, hat, hown⟩
    exact happart.points a ha n hn hsame hnode
  · have hne : m.nodeId ≠ n.nodeId := fun heq => hnot (.inl heq.symm)
    have hpublic : isHidden s' m = false :=
      Bool.eq_false_iff.mpr fun hhid => hnot (.inr (.inr hhid))
    by_cases hfor : ∀ p ∈ hidden, p.1 ≠ n.nodeId
    · rw [accessNodeOf_eq_none hfor] at hway
      obtain ⟨u, hu, hut⟩ := hway.resolve_left Bool.false_ne_true
      have hsame := (h.exists_inPair (block_subset hh hm hu) (subnet_mem_held hn)).mp ⟨t, hut, hown⟩
      exact happart.others n hn hfor m hm hne hpublic u hu hsame
    · push Not at hfor
      obtain ⟨q, hq, hqn⟩ := hfor
      have haccess := h.accessNodeOf_mem hh hq
      rw [hqn] at haccess
      -- the one peer of a hidden node is its access node
      have hid : m.nodeId = some q.2.nodeId := by
        by_contra hother
        rw [← haccess] at hother
        exact hnot (.inr (.inl ⟨Option.isSome_iff_exists.mpr ⟨_, haccess⟩, hother⟩))
      rcases happart.drawn q hq m hm hid with hself | hhid
      · exact hne (hself.trans hqn)
      · rw [hpublic] at hhid
        cases hhid

/-- Where every node keeps its subnet to itself, the routes are apart. -/
theorem routesApart_of_keepsOwn (h : Numbered s.network) (hh : HiddenNodes s s' hidden)
    (hnets : List.Forall₂
      (RebuiltAs s' hidden (allPoints s hidden) s.network.held s.network.networks)
      s.network.networks s'.network.networks)
    (hkeeps : ∀ z ∈ s'.network.networks, KeepsOwn z) : RoutesApart s s' hidden := by
  have hkept : ∀ n ∈ s.network.networks, ∃ z,
      RebuiltAs s' hidden (allPoints s hidden) s.network.held s.network.networks n z ∧
        ∀ t, InPair n.subnet t → ¬∃ p ∈ z.peers, t ∈ p.allowedIps := by
    intro n hn
    obtain ⟨z, hz, hnz⟩ := Forall2.exists_right hnets hn
    refine ⟨z, hnz, ?_⟩
    rintro t ht ⟨p, hp, htp⟩
    have hown := hkeeps z hz p hp t htp
    obtain ⟨opts, peers, -, -, rfl⟩ := hnz
    exact hown ht
  have hblock : ∀ n ∈ s.network.networks, ∀ m ∈ s.network.networks, ¬Skipped s' hidden n m →
      ∀ u ∈ block s hidden m, wgRoutingIP u ≠ wgRoutingIP n.subnet := by
    intro n hn m hm hnot u hu hsame
    obtain ⟨t, hut, hnt⟩ :=
      (h.exists_inPair (block_subset hh hm hu) (subnet_mem_held hn)).mpr hsame
    obtain ⟨z, hz, hno⟩ := hkept n hn
    exact hno t hnt (hz.mem_allowed_of_block hm hnot hu hut)
  refine ⟨?_, ?_, ?_⟩
  · intro p hp m hm hid
    by_contra hbad
    rw [not_or] at hbad
    obtain ⟨n, hn, hkey, hsubnet⟩ := hh.node_of_mem hp
    have haccess := h.accessNodeOf_mem hh hp
    rw [← hkey] at haccess
    have hnot : ¬Skipped s' hidden n m := by
      rintro (hsame | ⟨-, hother⟩ | hhid)
      · exact hbad.1 (hsame.symm.trans hkey)
      · exact hother (hid.trans haccess.symm)
      · exact hbad.2 hhid
    have hpoint : p.2.subnet ∈ block s hidden m :=
      mem_block_of_point (List.mem_append_right _ (List.mem_map_of_mem hp)) hid
    exact hblock n hn m hm hnot p.2.subnet hpoint (by rw [hsubnet])
  · intro a ha n hn hsame hnode
    obtain ⟨t, hat, hnt⟩ := (h.exists_inPair (hh.point_mem_held ha) (subnet_mem_held hn)).mpr hsame
    obtain ⟨z, hz, hno⟩ := hkept n hn
    exact hno t hnt (hz.mem_allowed_of_point ha hnode hat)
  · intro n hn hfor m hm hne hpublic
    refine hblock n hn m hm ?_
    rintro (hsame | ⟨hsome, -⟩ | hhid)
    · exact hne hsame.symm
    · rw [accessNodeOf_eq_none hfor] at hsome
      cases hsome
    · rw [hpublic] at hhid
      cases hhid

/-- After `generatePeers` no node routes its own subnet or routing ip away exactly when the routes
are apart for the access nodes that were drawn. -/
theorem generatePeers_keepsOwn_iff {env : NetworkEnv} {s₁ : Session} (h : Numbered s.network)
    (hdrawn : hiddenNodes env s.network.networks s = .ok hidden s₁)
    (hrun : generatePeers env s = .ok ⟨⟩ s') :
    (∀ z ∈ s'.network.networks, KeepsOwn z) ↔ RoutesApart s s' hidden := by
  obtain ⟨hh, hnets⟩ := generatePeers_drawn h.subnets hdrawn hrun
  constructor
  · exact routesApart_of_keepsOwn h hh hnets
  · intro happart z hz
    obtain ⟨n, hn, hnz⟩ := Forall2.exists_left hnets hz
    exact happart.keepsOwn h hh hn hnz

end

/-- Every node has a public config. -/
def publicNetworkEnv : NetworkEnv :=
  { sampleNetworkEnv with publicConfig := fun _ _ => some ⟨"185.206.122.31/24", ""⟩ }

theorem mixedSession_numbered : Numbered mixedSession.network := by
  refine ⟨mixedSession_routable.nodeIds, fun u hu => ?_⟩
  obtain ⟨a, ha, hin⟩ := mixedSession_routable.subnets u hu
  exact ⟨a, ha, hin.1⟩

theorem publicNodes_keepOwn : ∃ s', generatePeers publicNetworkEnv mixedSession = .ok ⟨⟩ s' ∧
    ∀ z ∈ s'.network.networks, KeepsOwn z := by
  have hreturned : returned (generatePeers publicNetworkEnv mixedSession) = true := by decide +kernel
  obtain ⟨_, s', hrun⟩ := exists_ok_of_returned hreturned
  obtain ⟨hidden, s₁, hdrawn, -, -, hh⟩ := generatePeers_split hrun
  have hpublic : mixedSession.network.networks.filter (isHidden s') = [] := by
    rw [← after_of_ok hrun]
    decide +kernel
  have hnone : hidden = [] := by
    have hlisted := hh.listed (by decide)
    rw [hpublic, List.map_nil, List.map_eq_nil_iff] at hlisted
    exact hlisted
  subst hnone
  refine ⟨s', hrun, (generatePeers_keepsOwn_iff mixedSession_numbered hdrawn hrun).mpr
    ⟨List.forall_mem_nil _, ?_, ?_⟩⟩
  · decide +kernel
  · have hapart : ∀ n ∈ mixedSession.network.networks, ∀ m ∈ mixedSession.network.networks,
        m.nodeId ≠ n.nodeId → ∀ u ∈ block mixedSession [] m,
          wgRoutingIP u ≠ wgRoutingIP n.subnet := by decide +kernel
    exact fun n hn _ m hm hne _ => hapart n hn m hm hne

/-- The hidden node of the mixed network has its own subnet in the allowed ips of its peer. -/
theorem hiddenNode_routes_own : ¬∀ (env : NetworkEnv) (s s' : Session), Numbered s.network →
    generatePeers env s = .ok ⟨⟩ s' → ∀ z ∈ s'.network.networks, KeepsOwn z := by
  intro h
  have hreturned : returned (generatePeers sampleNetworkEnv mixedSession) = true := by decide +kernel
  obtain ⟨_, s', hrun⟩ := exists_ok_of_returned hreturned
  have hkeeps := h _ _ _ mixedSession_numbered hrun
  have hown : ∃ z ∈ (after (generatePeers sampleNetworkEnv) mixedSession).network.networks,
      ∃ p ∈ z.peers, z.subnet ∈ p.allowedIps := by decide +kernel
  rw [after_of_ok hrun] at hown
  obtain ⟨z, hz, p, hp, hin⟩ := hown
  exact hkeeps z hz p hp z.subnet hin (Or.inl rfl)

end ThreefoldSdk.Primitives
