import ThreefoldSdk.Primitives.FailedExtension
import ThreefoldSdk.Primitives.LightNetwork
import ThreefoldSdk.Primitives.Rebuilt

/-! Runs of `addNode` and `addAccess`, the workloads they hand out, and the peers they leave in the
networks. -/

namespace ThreefoldSdk.Primitives
open Zos Ipv4 FirstFree Frame

/-- A session, and the workloads that `addNode` returned with their nodes. -/
structure Built where
  session : Session
  workloads : List (Nat × Workload)

def Built.step (env : NetworkEnv) (b : Built) : Extension → Built
  | .addNode nodeId mycelium description subnet seeds =>
    match addNode env nodeId mycelium description subnet seeds b.session with
    | .ok w s => ⟨s, b.workloads ++ (w.map fun w => (nodeId, w)).toList⟩
    | .error _ s => ⟨s, b.workloads⟩
  | .addAccess nodeId ipv4 => ⟨after (addAccess env nodeId ipv4) b.session, b.workloads⟩

/-- The call does not throw once it began to change the networks and the access points, and the
subnet given for a new node is not one of another node. -/
def Extension.Completes (env : NetworkEnv) (b : Built) : Extension → Prop
  | .addNode nodeId mycelium description subnet seeds =>
    b.session.network.nodeExists nodeId = false →
      ∀ z s, newZnet env nodeId mycelium subnet seeds b.session = .ok z s →
        (subnet = "" ∨ subnet ∉ b.session.network.networks.map (·.subnet)) ∧
          returned (joinNode env nodeId description z s) = true
  | .addAccess nodeId ipv4 =>
    ∀ endpoint key keys s, accessKeys env nodeId ipv4 b.session = .ok (endpoint, key, keys) s →
      ∀ subnet s', getFreeSubnet s = .ok subnet s' →
        returned (joinAccess env nodeId subnet endpoint key keys s') = true

/-- `Extension.Completes`, run. -/
def Extension.completes (env : NetworkEnv) (b : Built) : Extension → Bool
  | .addNode nodeId mycelium description subnet seeds =>
    b.session.network.nodeExists nodeId ||
      match newZnet env nodeId mycelium subnet seeds b.session with
      | .ok z s => (decide (subnet = "" ∨ subnet ∉ b.session.network.networks.map (·.subnet))) &&
          returned (joinNode env nodeId description z s)
      | .error _ _ => true
  | .addAccess nodeId ipv4 =>
    match accessKeys env nodeId ipv4 b.session with
    | .ok (endpoint, key, keys) s =>
      match getFreeSubnet s with
      | .ok subnet s' => returned (joinAccess env nodeId subnet endpoint key keys s')
      | .error _ _ => true
    | .error _ _ => true

theorem Extension.completes_iff (env : NetworkEnv) (b : Built) (c : Extension) :
    c.completes env b = true ↔ c.Completes env b := by
  cases c with
  | addNode nodeId mycelium description subnet seeds =>
    unfold Extension.completes Extension.Completes
    cases hz : newZnet env nodeId mycelium subnet seeds b.session with
    | error e s => simp [hz]
    | ok z s => cases hexists : b.session.network.nodeExists nodeId <;> simp [hz, hexists]
  | addAccess nodeId ipv4 =>
    unfold Extension.completes Extension.Completes
    cases hkeys : accessKeys env nodeId ipv4 b.session with
    | error e s => simp [hkeys]
    | ok r s =>
      obtain ⟨endpoint, key, keys⟩ := r
      simp only [hkeys]
      constructor
      · intro hrun endpoint' key' keys' s₁ hok subnet s₂ hfree
        cases hok
        rw [hfree] at hrun
        exact hrun
      · intro hall
        cases hfree : getFreeSubnet s with
        | error e s₂ => rfl
        | ok subnet s₂ => exact hall endpoint key keys s rfl subnet s₂ hfree

instance (env : NetworkEnv) (b : Built) (c : Extension) : Decidable (c.Completes env b) :=
  decidable_of_iff _ (c.completes_iff env b)

/-- The peers of a network without an endpoint are its access points, and nodes. -/
structure PeersRead (env : NetworkEnv) (points : List AccessPoint) (networks : List Znet)
    (z : Znet) : Prop where
  known : ∀ p ∈ z.peers, p.endpoint = "" →
    (∃ a ∈ points, z.nodeId = some a.nodeId ∧ p.subnet = a.subnet ∧
      p.wireguardPublicKey = a.wireguardPublicKey) ∨
    ∃ net ∈ networks, env.publicKey net.wireguardPrivateKey = some p.wireguardPublicKey
  listed : ∀ a ∈ points, z.nodeId = some a.nodeId → ∃ p ∈ z.peers, p.endpoint = "" ∧
    p.subnet = a.subnet ∧ p.wireguardPublicKey = a.wireguardPublicKey

/-- The workload was handed out for the network. -/
structure HandedOut (name : String) (p : Nat × Workload) (z : Znet) : Prop where
  node : z.nodeId = some p.1
  name : p.2.name = name
  type : p.2.type = .network
  subnet : p.2.data.subnet = some z.subnet
  metadata : p.2.metadata = ""

/-- The networks and access points of a network, with the workloads handed out for them. -/
structure LaidOut (env : NetworkEnv) (name ipRange : String) (workloads : List (Nat × Workload))
    (n : Network) : Prop where
  sameName : n.name = name
  sameRange : n.ipRange = ipRange
  ids : (workloads.map Prod.fst).Nodup
  subnets : (n.networks.map (·.subnet)).Nodup
  handedOut : List.Forall₂ (HandedOut name) workloads n.networks
  keys : ∀ z ∈ n.networks, z.ipRange = ipRange ∧ env.publicKey z.wireguardPrivateKey ≠ none
  points : ∀ a ∈ n.accessPoints, ∃ z ∈ n.networks, z.nodeId = some a.nodeId

/-- What a run that completes has built. -/
structure BuiltSound (env : NetworkEnv) (name ipRange : String) (b : Built) : Prop where
  laidOut : LaidOut env name ipRange b.workloads b.session.network
  nodes : b.session.network.nodes.map (·.nodeId) = b.workloads.map fun p => some p.1
  users : b.session.network.networks = [] → b.session.network.userAccesses = []
  peers : ∀ z ∈ b.session.network.networks,
    PeersRead env b.session.network.accessPoints b.session.network.networks z

/-- The network with other peers. -/
def Repeered (z z' : Znet) : Prop := ∃ peers, z' = { z with peers := peers }

section
variable {env : NetworkEnv} {s s' : Session}

/-! The peers. -/

theorem hiddenNodeOf_key {net : Znet} {hidden : Option AccessPoint}
    (h : hiddenNodeOf env net s = .ok hidden s') :
    ∀ a ∈ hidden, env.publicKey net.wireguardPrivateKey = some a.wireguardPublicKey := by
  unfold hiddenNodeOf at h
  obtain ⟨e, s₁, -, h⟩ := bind_eq_ok.mp h
  split at h
  · cases h
    exact fun a ha => nomatch ha
  · obtain ⟨nodes, s₂, -, h⟩ := bind_eq_ok.mp h
    split at h
    · obtain ⟨_, _, hget, h⟩ := bind_eq_ok.mp h
      cases h
    · obtain ⟨node, s₃, -, h⟩ := bind_eq_ok.mp h
      obtain ⟨key, s₄, hkey, h⟩ := bind_eq_ok.mp h
      cases h
      intro a ha
      obtain rfl := Option.some.inj (Option.mem_def.mp ha)
      have hpublic := (pureStep_eq_ok.mp hkey).1
      unfold getPublicKey at hpublic
      split at hpublic
      · rename_i k hk
        cases hpublic
        exact hk
      · cases hpublic

theorem hiddenNodesOf_keys {nets : List Znet} {hidden : List (Option Nat × AccessPoint)}
    (h : hiddenNodesOf env nets s = .ok hidden s') :
    ∀ p ∈ hidden, ∃ net ∈ nets,
      env.publicKey net.wireguardPrivateKey = some p.2.wireguardPublicKey := by
  induction nets generalizing s hidden with
  | nil =>
    cases h
    exact fun p hp => nomatch hp
  | cons net nets ih =>
    obtain ⟨first, s₁, hone, h⟩ := bind_eq_ok.mp h
    obtain ⟨rest, s₂, hrest, h⟩ := bind_eq_ok.mp h
    cases h
    intro p hp
    rcases List.mem_append.mp hp with hp | hp
    · obtain ⟨a, ha, rfl⟩ := Option.map_eq_some_iff.mp (Option.mem_toList.mp hp)
      exact ⟨net, List.mem_cons_self, hiddenNodeOf_key hone a (Option.mem_def.mpr ha)⟩
    · obtain ⟨net', hnet, hkey⟩ := ih hrest p hp
      exact ⟨net', List.mem_cons_of_mem _ hnet, hkey⟩

/-- The peer of a node has an endpoint. -/
theorem peerFor_endpoint {hidden : List (Option Nat × AccessPoint)} {points : List AccessPoint}
    {n net : Znet} {p : Option Peer} (h : peerFor env hidden points n net s = .ok p s') :
    ∀ peer ∈ p, peer.endpoint ≠ "" := by
  intro peer hp hempty
  obtain ⟨-, accessIP, hendpoint⟩ := peerFor_made h peer hp
  have hlength := congrArg String.length (hendpoint.symm.trans hempty)
  simp at hlength

/-- The peer of an access point has no endpoint. -/
def PointPeer (a : AccessPoint) (p : Peer) : Prop :=
  p.endpoint = "" ∧ p.subnet = a.subnet ∧ p.wireguardPublicKey = a.wireguardPublicKey

def NodePeer (_ _ : Znet) (p : Option Peer) : Prop := ∀ peer ∈ p, peer.endpoint ≠ ""

theorem generatePeers_made (h : generatePeers env s = .ok ⟨⟩ s') :
    ∃ hidden : List (Option Nat × AccessPoint),
      (∀ p ∈ hidden, ∃ net ∈ s.network.networks,
        env.publicKey net.wireguardPrivateKey = some p.2.wireguardPublicKey) ∧
      List.Forall₂ (MadeFrom NodePeer PointPeer
        (s.network.accessPoints ++ hidden.map Prod.snd) s.network.networks)
        s.network.networks s'.network.networks := by
  obtain ⟨hidden, s₁, hhidden, hsame, hall, -⟩ := generatePeers_split h
  refine ⟨hidden, ?_, ?_⟩
  · unfold hiddenNodes at hhidden
    split at hhidden
    · cases hhidden
      exact fun p hp => nomatch hp
    · exact hiddenNodesOf_keys hhidden
  · have hpeer : ∀ n net s₀ p s₂,
        peerFor env hidden (s.network.accessPoints ++ hidden.map Prod.snd) n net s₀ = .ok p s₂ →
        s₀.network.held = s₁.network.held → Remembers s₂ s' → NodePeer n net p :=
      fun n net s₀ p s₂ hp _ _ => peerFor_endpoint hp
    have hpoint : ∀ a p, accessPointPeer a = .ok p → PointPeer a p := by
      intro a p hp
      obtain ⟨hsubnet, hkey, hendpoint, -⟩ := accessPointPeer_ok hp
      exact ⟨hendpoint, hsubnet, hkey⟩
    obtain ⟨nets', hnets, hs'⟩ := rebuildAll_ok [] hpeer hpoint hall (Std.Refl.refl s') rfl
      (by rw [hsame, List.nil_append])
    rw [hs', List.nil_append]
    exact hnets

theorem Repeered.of_made {Q : Znet → Znet → Option Peer → Prop} {R : AccessPoint → Peer → Prop}
    {points : List AccessPoint} {networks : List Znet} {n z : Znet}
    (h : MadeFrom Q R points networks n z) : Repeered n z := by
  obtain ⟨opts, peers, -, -, hz⟩ := h
  exact ⟨_, hz⟩

/-- Rebuilding the peers leaves the rest of the networks, and every access point is a peer of its
node without an endpoint. -/
theorem generatePeers_reads (h : generatePeers env s = .ok ⟨⟩ s') :
    List.Forall₂ Repeered s.network.networks s'.network.networks ∧
      (∀ z ∈ s'.network.networks, PeersRead env s.network.accessPoints s'.network.networks z) ∧
      unrouted s' = unrouted s := by
  obtain ⟨hidden, hkeys, hmade⟩ := generatePeers_made h
  have hsame : List.Forall₂ Repeered s.network.networks s'.network.networks :=
    hmade.imp fun _ _ => Repeered.of_made
  refine ⟨hsame, fun z hz => ?_, keeps_unrouted_generatePeers.of_ok h⟩
  obtain ⟨n, -, opts, peers, hopts, hpeers, rfl⟩ := Forall2.exists_left hmade hz
  constructor
  · intro p hp hempty
    rcases List.mem_append.mp hp with hp | hp
    · -- a peer of a node has an endpoint
      obtain ⟨_, -, hendpoint⟩ := Forall2.exists_left hopts (List.reduceOption_mem_iff.mp hp)
      exact absurd hempty (hendpoint p rfl)
    · obtain ⟨a, ha, -, hsubnet, hkey⟩ := Forall2.exists_left hpeers hp
      obtain ⟨ha, hnode⟩ := mem_pointsOf.mp ha
      rcases List.mem_append.mp ha with ha | ha
      · exact Or.inl ⟨a, ha, hnode, hsubnet, hkey⟩
      · obtain ⟨q, hq, rfl⟩ := List.mem_map.mp ha
        obtain ⟨net, hnet, hpublic⟩ := hkeys q hq
        obtain ⟨net', hnet', _, rfl⟩ := Forall2.exists_right hsame hnet
        exact Or.inr ⟨_, hnet', hpublic.trans (congrArg some hkey.symm)⟩
  · intro a ha hnode
    have hin : a ∈ pointsOf (s.network.accessPoints ++ hidden.map Prod.snd) n.nodeId :=
      mem_pointsOf.mpr ⟨List.mem_append_left _ ha, hnode⟩
    obtain ⟨p, hp, hendpoint, hsubnet, hkey⟩ := Forall2.exists_right hpeers hin
    exact ⟨p, List.mem_append_right _ hp, hendpoint, hsubnet, hkey⟩

/-! The calls. -/

/-- What reservations do not concern. -/
def unreserved (s : Session) : Network := { s.network with reservedSubnets := [] }

theorem keeps_unreserved_of_network {α : Type} {x : NetM α} (h : Keeps Session.network x) :
    Keeps unreserved x := h.comp fun n => { n with reservedSubnets := [] }

theorem keeps_getFreeSubnet : Keeps unreserved getFreeSubnet := by
  refine Keeps.bind (fun _ => rfl) fun reserved => (keeps_get _).bind fun s => ?_
  exact (keeps_pureStep _ _).bind fun _ => (keeps_pureStep _ _).bind fun _ =>
    (keeps_pureStep _ _).bind fun _ => Keeps.bind (fun _ => rfl) fun _ => keeps_pure _ _

theorem keeps_newZnet (nodeId : Nat) (mycelium : Bool) (subnet : String)
    (seeds : List MyceliumNetworkModel) :
    Keeps unreserved (newZnet env nodeId mycelium subnet seeds) := by
  refine Keeps.bind (fun _ => rfl) fun keys => Keeps.bind ?_ fun t =>
    keeps_unreserved_of_network ((keeps_znetOn nodeId mycelium seeds keys t).comp Session.network)
  unfold chooseSubnet
  split
  · exact keeps_getFreeSubnet
  · exact keeps_pure _ _

/-- A subnet that is picked is new to the networks. -/
theorem getFreeSubnet_new {t : String} (h : getFreeSubnet s = .ok t s') :
    t ∉ s.network.networks.map (·.subnet) := by
  rw [getFreeSubnet_eq] at h
  obtain ⟨a, s₁, hpick, h⟩ := bind_eq_ok.mp h
  cases h
  obtain ⟨hfree, -⟩ := pureStep_eq_ok.mp hpick
  obtain ⟨range, -, hfree⟩ := exceptBind_eq_ok.mp hfree
  obtain ⟨first, -, hfree⟩ := exceptBind_eq_ok.mp hfree
  cases hsearch : search Addr.nextSibling (fun a => decide (a.toText ∈ s.network.reservedSubnetsOf))
      (s.network.reservedSubnetsOf.length + 1) first with
  | none =>
    rw [hsearch] at hfree
    cases hfree
  | some b =>
    rw [hsearch] at hfree
    obtain rfl : b = a := Except.ok.inj hfree
    obtain ⟨n, -, -, htaken, -⟩ := search_eq_some_iff.mp hsearch
    intro hin
    refine of_decide_eq_false htaken
      (reservedSubnetsOf_of_mem ?_ (ne_empty_of_parse (parse_toText b)))
    exact List.mem_append_left _ (List.mem_append_left _ hin)

theorem newZnet_ok {nodeId : Nat} {mycelium : Bool} {subnet : String}
    {seeds : List MyceliumNetworkModel} {z : Znet}
    (h : newZnet env nodeId mycelium subnet seeds s = .ok z s')
    (hsubnet : subnet = "" ∨ subnet ∉ s.network.networks.map (·.subnet)) :
    z.nodeId = some nodeId ∧ z.ipRange = s.network.ipRange ∧
      (∃ k, z.wireguardPrivateKey = (env.keypair k).privateKey) ∧
      z.subnet ∉ s.network.networks.map (·.subnet) := by
  obtain ⟨keys, s₁, hkeys, h⟩ := bind_eq_ok.mp h
  cases hkeys
  obtain ⟨t, s₂, hchoose, h⟩ := bind_eq_ok.mp h
  have ht : t ∉ s.network.networks.map (·.subnet) ∧ s₂.network.ipRange = s.network.ipRange := by
    unfold chooseSubnet at hchoose
    split at hchoose
    · let s₁ : Session := { s with clock := s.clock + 1 }
      have hfree : getFreeSubnet s₁ = .ok t s₂ := hchoose
      have hnew : t ∉ s₁.network.networks.map (·.subnet) := getFreeSubnet_new hfree
      have hkeep : unreserved s₂ = unreserved s₁ := keeps_getFreeSubnet.of_ok hfree
      have hrange : (unreserved s₂).ipRange = (unreserved s₁).ipRange := by rw [hkeep]
      exact ⟨hnew, hrange⟩
    · rename_i hne
      cases hchoose
      exact ⟨hsubnet.resolve_left hne, rfl⟩
  have hz := znetOn_subnet h
  obtain ⟨s₃, s₄, hget, h⟩ := bind_eq_ok.mp h
  cases hget
  obtain ⟨port, s₅, -, h⟩ := bind_eq_ok.mp h
  obtain ⟨m, s₆, -, h⟩ := bind_eq_ok.mp h
  cases h
  refine ⟨rfl, ht.2, ⟨_, rfl⟩, ?_⟩
  rw [hz]
  exact ht.1


/-- Rebuilding the peers keeps what was laid out. -/
theorem LaidOut.generatePeers {name ipRange : String} {ws : List (Nat × Workload)}
    (hlaid : LaidOut env name ipRange ws s.network) (h : generatePeers env s = .ok ⟨⟩ s') :
    LaidOut env name ipRange ws s'.network ∧ ∀ z ∈ s'.network.networks,
      PeersRead env s'.network.accessPoints s'.network.networks z := by
  obtain ⟨hsame, hread, hrest⟩ := generatePeers_reads h
  have hname : (unrouted s').name = (unrouted s).name := by rw [hrest]
  have hrange : (unrouted s').ipRange = (unrouted s).ipRange := by rw [hrest]
  have hpoints : (unrouted s').accessPoints = (unrouted s).accessPoints := by rw [hrest]
  change s'.network.accessPoints = s.network.accessPoints at hpoints
  rw [hpoints]
  refine ⟨⟨hname.trans hlaid.sameName, hrange.trans hlaid.sameRange, hlaid.ids, ?_, ?_, ?_, ?_⟩, hread⟩
  · have hsubnets : s'.network.networks.map (·.subnet) = s.network.networks.map (·.subnet) :=
      Forall2.map_eq hsame fun _ _ ⟨_, hz⟩ => by rw [hz]
    rw [hsubnets]
    exact hlaid.subnets
  · refine Forall2.trans hlaid.handedOut hsame ?_
    intro p z z' hout hz
    obtain ⟨peers, rfl⟩ := hz
    exact ⟨hout.node, hout.name, hout.type, hout.subnet, hout.metadata⟩
  · intro z' hz'
    obtain ⟨z, hz, _, rfl⟩ := Forall2.exists_left hsame hz'
    exact hlaid.keys z hz
  · intro a ha
    rw [hpoints] at ha
    obtain ⟨z, hz, hnode⟩ := hlaid.points a ha
    obtain ⟨z', hz', _, rfl⟩ := Forall2.exists_right hsame hz
    exact ⟨_, hz', hnode⟩

/-- A workload that is handed out has the data of its network. -/
theorem LaidOut.getUpdatedNetwork {name ipRange : String} {ws : List (Nat × Workload)} {n : Network}
    (hlaid : LaidOut env name ipRange ws n) {z : Znet} (hz : z ∈ n.networks) {data : WorkloadData}
    (hdata : data.subnet = some z.subnet) : n.getUpdatedNetwork data = .network z := by
  have hfind : n.networks.find? (fun net => some net.subnet = data.subnet) = some z := by
    cases hfind : n.networks.find? (fun net => some net.subnet = data.subnet) with
    | none =>
      have hnot := List.find?_eq_none.mp hfind z hz
      simp [hdata] at hnot
    | some net =>
      have hnet := List.mem_of_find?_eq_some hfind
      have hsubnet : some net.subnet = data.subnet := by simpa using List.find?_some hfind
      rw [hdata, Option.some.injEq] at hsubnet
      exact congrArg some (List.inj_on_of_nodup_map hlaid.subnets hnet hz hsubnet)
  unfold Network.getUpdatedNetwork
  rw [hfind]


theorem getUpdatedNetwork_subnet (n : Network) (data : WorkloadData) :
    (n.getUpdatedNetwork data).subnet = data.subnet := by
  unfold Network.getUpdatedNetwork
  cases hfind : n.networks.find? (fun net => some net.subnet = data.subnet) with
  | none => rfl
  | some net =>
    have hsubnet : some net.subnet = data.subnet := by simpa using List.find?_some hfind
    exact hsubnet

variable {name ipRange : String} {ws : List (Nat × Workload)}

theorem BuiltSound.of_unreserved (h : BuiltSound env name ipRange ⟨s, ws⟩)
    (hkeep : unreserved s' = unreserved s) : BuiltSound env name ipRange ⟨s', ws⟩ := by
  obtain ⟨⟨hname, hrange, hids, hsubnets, hout, hkeys, hpoints⟩, hnodes, husers, hpeers⟩ := h
  have hsound : ∀ n : Network, n = unreserved s →
      LaidOut env name ipRange ws n ∧ n.nodes.map (·.nodeId) = ws.map (fun p => some p.1) ∧
        (n.networks = [] → n.userAccesses = []) ∧
        ∀ z ∈ n.networks, PeersRead env n.accessPoints n.networks z := by
    intro n hn
    rw [hn]
    exact ⟨⟨hname, hrange, hids, hsubnets, hout, hkeys, hpoints⟩, hnodes, husers, hpeers⟩
  obtain ⟨⟨hname, hrange, hids, hsubnets, hout, hkeys, hpoints⟩, hnodes, husers, hpeers⟩ :=
    hsound _ hkeep
  exact ⟨⟨hname, hrange, hids, hsubnets, hout, hkeys, hpoints⟩, hnodes, husers, hpeers⟩

/-- A node that is not in the network has no workload yet. -/
theorem LaidOut.new_id {n : Network} {nodeId : Nat} (h : LaidOut env name ipRange ws n)
    (hnew : n.nodeExists nodeId = false) : nodeId ∉ ws.map Prod.fst := by
  intro hin
  obtain ⟨p, hp, rfl⟩ := List.mem_map.mp hin
  obtain ⟨z, hz, hout⟩ := Forall2.exists_right h.handedOut hp
  have hexists : n.nodeExists p.1 = true :=
    List.any_eq_true.mpr ⟨z, hz, decide_eq_true hout.node⟩
  rw [hnew] at hexists
  cases hexists

/-- Pushing a network with its workload. -/
theorem LaidOut.push {n : Network} {p : Nat × Workload} {z : Znet}
    (h : LaidOut env name ipRange ws n) (hid : p.1 ∉ ws.map Prod.fst)
    (hout : HandedOut name p z) (hsubnet : z.subnet ∉ n.networks.map (·.subnet))
    (hz : z.ipRange = ipRange ∧ env.publicKey z.wireguardPrivateKey ≠ none) :
    LaidOut env name ipRange (ws ++ [p]) { n with networks := n.networks ++ [z] } := by
  refine ⟨h.sameName, h.sameRange, ?_, ?_, ?_, ?_, ?_⟩
  · rw [List.map_append, List.map_singleton, List.nodup_append]
    refine ⟨h.ids, List.nodup_singleton _, ?_⟩
    intro a ha b hb hab
    rw [List.mem_singleton.mp hb] at hab
    exact hid (hab ▸ ha)
  · show ((n.networks ++ [z]).map (·.subnet)).Nodup
    rw [List.map_append, List.map_singleton, List.nodup_append]
    refine ⟨h.subnets, List.nodup_singleton _, ?_⟩
    intro a ha b hb hab
    rw [List.mem_singleton.mp hb] at hab
    exact hsubnet (hab ▸ ha)
  · exact List.rel_append h.handedOut (.cons hout .nil)
  · intro z' hz'
    rcases List.mem_append.mp hz' with hz' | hz'
    · exact h.keys z' hz'
    · rw [List.mem_singleton.mp hz']
      exact hz
  · intro a ha
    obtain ⟨z', hz', hnode⟩ := h.points a ha
    exact ⟨z', List.mem_append_left _ hz', hnode⟩

theorem joinNode_built {nodeId : Nat} {description : String} {z : Znet} {w : Workload}
    (h : BuiltSound env name ipRange ⟨s, ws⟩) (hnew : s.network.nodeExists nodeId = false)
    (hnode : z.nodeId = some nodeId) (hsubnet : z.subnet ∉ s.network.networks.map (·.subnet))
    (hz : z.ipRange = ipRange ∧ env.publicKey z.wireguardPrivateKey ≠ none)
    (hjoin : joinNode env nodeId description z s = .ok w s') :
    BuiltSound env name ipRange ⟨s', ws ++ [(nodeId, w)]⟩ := by
  obtain ⟨_, s₁, hpush, hrest⟩ := bind_eq_ok.mp hjoin
  cases hpush
  obtain ⟨_, s₂, hrebuild, hworkload⟩ := bind_eq_ok.mp hrest
  have hpeers : generatePeers env (pushed z s) = .ok ⟨⟩ s₂ := hrebuild
  have hkeep : unrouted s₂ = unrouted (pushed z s) := keeps_unrouted_generatePeers.of_ok hpeers
  have hname : (unrouted s₂).name = (unrouted s).name := by rw [hkeep]; rfl
  have hnodes : (unrouted s₂).nodes = (unrouted s).nodes := by rw [hkeep]; rfl
  cases hworkload
  have hout : HandedOut name (nodeId, ⟨0, s₂.network.name, .network,
      s₂.network.updateNetworkDeployments.getUpdatedNetwork (.network z), "", description, none⟩) z :=
    ⟨hnode, hname.trans h.laidOut.sameName, rfl, getUpdatedNetwork_subnet _ _, rfl⟩
  have hpushed := h.laidOut.push (h.laidOut.new_id hnew) hout hsubnet hz
  obtain ⟨⟨hname', hrange, hids, hsubnets, hout, hkeys, hpoints⟩, hread⟩ :=
    LaidOut.generatePeers hpushed hpeers
  refine ⟨⟨hname', hrange, hids, hsubnets, hout, hkeys, hpoints⟩, ?_, ?_, hread⟩
  · show (s₂.network.nodes ++ [Node.fresh (some nodeId)]).map (·.nodeId) = _
    have hbefore : s.network.nodes.map (·.nodeId) = ws.map fun p => some p.1 := h.nodes
    have hsame : s₂.network.nodes = s.network.nodes := hnodes
    rw [hsame, List.map_append, List.map_append, hbefore]
    rfl
  · -- the network has at least the node that joined
    intro hempty
    have hlength := hout.length_eq
    have hnone : s₂.network.networks = [] := hempty
    rw [hnone] at hlength
    simp at hlength

theorem joinAccess_built {nodeId : Nat} {subnet endpoint text : String} {key : Option String}
    {keys : WireGuardKeys} (h : BuiltSound env name ipRange ⟨s, ws⟩)
    (hexists : s.network.nodeExists nodeId = true)
    (hjoin : joinAccess env nodeId subnet endpoint key keys s = .ok text s') :
    BuiltSound env name ipRange ⟨s', ws⟩ := by
  obtain ⟨_, s₁, hpush, hrest⟩ := bind_eq_ok.mp hjoin
  cases hpush
  obtain ⟨_, s₂, hrebuild, hupdate⟩ := bind_eq_ok.mp hrest
  obtain ⟨_, s₃, hdeployments, haccess⟩ := bind_eq_ok.mp hupdate
  cases hdeployments
  obtain ⟨_, s₄, haccesses, hconfig⟩ := bind_eq_ok.mp haccess
  cases haccesses
  obtain ⟨_, s₅, hget, htext⟩ := bind_eq_ok.mp hconfig
  cases hget
  obtain ⟨-, rfl⟩ := pureStep_eq_ok.mp htext
  have hpeers : generatePeers env (pushedAccess ⟨subnet, keys.publicKey, nodeId⟩ s) = .ok ⟨⟩ s₂ :=
    hrebuild
  have hkeep : unrouted s₂ = unrouted (pushedAccess ⟨subnet, keys.publicKey, nodeId⟩ s) :=
    keeps_unrouted_generatePeers.of_ok hpeers
  have hnodes : (unrouted s₂).nodes = (unrouted s).nodes := by rw [hkeep]; rfl
  obtain ⟨z, hz, hznode⟩ := List.any_eq_true.mp hexists
  have hpushed : LaidOut env name ipRange ws
      (pushedAccess ⟨subnet, keys.publicKey, nodeId⟩ s).network := by
    obtain ⟨⟨hname, hrange, hids, hsubnets, hout, hkeys, hpoints⟩, -, -, -⟩ := h
    refine ⟨hname, hrange, hids, hsubnets, hout, hkeys, ?_⟩
    intro a ha
    rcases List.mem_append.mp ha with ha | ha
    · exact hpoints a ha
    · rw [List.mem_singleton.mp ha]
      exact ⟨z, hz, of_decide_eq_true hznode⟩
  obtain ⟨⟨hname, hrange, hids, hsubnets, hout, hkeys, hpoints⟩, hread⟩ :=
    LaidOut.generatePeers hpushed hpeers
  refine ⟨⟨hname, hrange, hids, hsubnets, hout, hkeys, hpoints⟩, ?_, ?_, hread⟩
  · have hsame : s₂.network.nodes = s.network.nodes := hnodes
    show s₂.network.nodes.map (·.nodeId) = _
    rw [hsame]
    exact h.nodes
  · intro hempty
    have hnone : s₂.network.networks = [] := hempty
    obtain ⟨hsame, -, -⟩ := generatePeers_reads hpeers
    obtain ⟨z', hz', -⟩ := Forall2.exists_right hsame hz
    rw [hnone] at hz'
    cases hz'


theorem accessKeys_exists {nodeId : Nat} {ipv4 : Bool} {r : String × Option String × WireGuardKeys}
    (h : accessKeys env nodeId ipv4 s = .ok r s') : s.network.nodeExists nodeId = true := by
  obtain ⟨s₁, s₂, hget, h⟩ := bind_eq_ok.mp h
  cases hget
  cases hexists : s.network.nodeExists nodeId with
  | true => rfl
  | false =>
    rw [hexists] at h
    cases h

/-! One call, and a run. -/

theorem BuiltSound.addNode {b : Built} {nodeId : Nat} {mycelium : Bool} {description subnet : String}
    {seeds : List MyceliumNetworkModel}
    (hpublic : ∀ k, env.publicKey (env.keypair k).privateKey = some (env.keypair k).publicKey)
    (h : BuiltSound env name ipRange b)
    (hc : (Extension.addNode nodeId mycelium description subnet seeds).Completes env b) :
    BuiltSound env name ipRange
      (b.step env (.addNode nodeId mycelium description subnet seeds)) := by
  obtain ⟨s, ws⟩ := b
  have hget : (get : NetM Session) s = .ok s s := rfl
  cases hexists : s.network.nodeExists nodeId with
  | true =>
    have hrun : Primitives.addNode env nodeId mycelium description subnet seeds s = .ok none s := by
      unfold Primitives.addNode
      rw [bind_of_ok hget, if_pos hexists]
      rfl
    have hstep : Built.step env ⟨s, ws⟩ (.addNode nodeId mycelium description subnet seeds) =
        ⟨s, ws⟩ := by
      simp [Built.step, hrun]
    rw [hstep]
    exact h
  | false =>
    have hstart : Primitives.addNode env nodeId mycelium description subnet seeds s =
        (newZnet env nodeId mycelium subnet seeds >>= fun z => joinNode env nodeId description z >>=
          fun w => pure (some w)) s := by
      unfold Primitives.addNode
      rw [bind_of_ok hget, if_neg (by rw [hexists]; decide)]
    cases hz : newZnet env nodeId mycelium subnet seeds s with
    | error e s₁ =>
      have hstep : Built.step env ⟨s, ws⟩ (.addNode nodeId mycelium description subnet seeds) =
          ⟨s₁, ws⟩ := by
        simp only [Built.step, hstart, bind_of_error hz]
      rw [hstep]
      exact h.of_unreserved ((keeps_newZnet nodeId mycelium subnet seeds).of_error hz)
    | ok z s₁ =>
      obtain ⟨hsubnet, hjoins⟩ := hc hexists z s₁ hz
      obtain ⟨w, s₂, hjoin⟩ := exists_ok_of_returned hjoins
      have hreturn : (joinNode env nodeId description z >>= fun w => pure (some w)) s₁ =
          .ok (some w) s₂ := by
        rw [bind_of_ok hjoin]
        rfl
      have hstep : Built.step env ⟨s, ws⟩ (.addNode nodeId mycelium description subnet seeds) =
          ⟨s₂, ws ++ [(nodeId, w)]⟩ := by
        simp only [Built.step, hstart, bind_of_ok hz, hreturn]
        rfl
      rw [hstep]
      obtain ⟨hnode, hrange, ⟨k, hkey⟩, hnew⟩ := newZnet_ok hz hsubnet
      have hkeep : unreserved s₁ = unreserved s :=
        (keeps_newZnet nodeId mycelium subnet seeds).of_ok hz
      have hnetworks : (unreserved s₁).networks = (unreserved s).networks := by rw [hkeep]
      change s₁.network.networks = s.network.networks at hnetworks
      apply joinNode_built (h.of_unreserved hkeep) _ hnode _ _ hjoin
      · unfold Network.nodeExists
        rw [hnetworks]
        exact hexists
      · rw [hnetworks]
        exact hnew
      · refine ⟨hrange.trans h.laidOut.sameRange, ?_⟩
        rw [hkey, hpublic]
        exact Option.some_ne_none _

theorem BuiltSound.addAccess {b : Built} {nodeId : Nat} {ipv4 : Bool}
    (h : BuiltSound env name ipRange b)
    (hc : (Extension.addAccess nodeId ipv4).Completes env b) :
    BuiltSound env name ipRange (b.step env (.addAccess nodeId ipv4)) := by
  obtain ⟨s, ws⟩ := b
  show BuiltSound env name ipRange ⟨after (Primitives.addAccess env nodeId ipv4) s, ws⟩
  unfold Primitives.addAccess
  cases hkeys : accessKeys env nodeId ipv4 s with
  | error e s₁ =>
    rw [after_bind_of_error hkeys]
    exact h.of_unreserved ((keeps_unreserved_of_network
      ((keeps_accessKeys nodeId ipv4).comp Session.network)).of_error hkeys)
  | ok r s₁ =>
    obtain ⟨endpoint, key, keys⟩ := r
    have hsame : s₁.network = s.network :=
      ((keeps_accessKeys nodeId ipv4).comp Session.network).of_ok hkeys
    have hexists : s₁.network.nodeExists nodeId = true := by
      rw [hsame]
      exact accessKeys_exists hkeys
    have h₁ : BuiltSound env name ipRange ⟨s₁, ws⟩ :=
      h.of_unreserved (congrArg (fun n => { n with reservedSubnets := [] }) hsame)
    rw [after_bind_of_ok hkeys]
    cases hfree : getFreeSubnet s₁ with
    | error e s₂ =>
      rw [after_bind_of_error hfree]
      exact h₁.of_unreserved (keeps_getFreeSubnet.of_error hfree)
    | ok subnet s₂ =>
      rw [after_bind_of_ok hfree]
      obtain ⟨text, s₃, hjoin⟩ := exists_ok_of_returned (hc _ _ _ _ hkeys _ _ hfree)
      have hkeep : unreserved s₂ = unreserved s₁ := keeps_getFreeSubnet.of_ok hfree
      have hnetworks : (unreserved s₂).networks = (unreserved s₁).networks := by rw [hkeep]
      change s₂.network.networks = s₁.network.networks at hnetworks
      rw [after_of_ok hjoin]
      apply joinAccess_built (h₁.of_unreserved hkeep) _ hjoin
      unfold Network.nodeExists
      rw [hnetworks]
      exact hexists

theorem BuiltSound.step {b : Built}
    (hpublic : ∀ k, env.publicKey (env.keypair k).privateKey = some (env.keypair k).publicKey)
    (h : BuiltSound env name ipRange b) (c : Extension) (hc : c.Completes env b) :
    BuiltSound env name ipRange (b.step env c) := by
  cases c with
  | addNode nodeId mycelium description subnet seeds => exact h.addNode hpublic hc
  | addAccess nodeId ipv4 => exact h.addAccess hc

end

end ThreefoldSdk.Primitives
