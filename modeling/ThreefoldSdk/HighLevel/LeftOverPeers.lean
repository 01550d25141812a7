import ThreefoldSdk.HighLevel.LeavingOperations
import ThreefoldSdk.Primitives.BuiltNetwork
import ThreefoldSdk.Primitives.LoadedContracts
import ThreefoldSdk.Primitives.NeighbourPeers

/-! What the other nodes of a network keep of a node that left it, and what is loaded then. -/

namespace ThreefoldSdk.HighLevel
open Zos Primitives Frame

/-- The operations of a deletion were executed: deleted contracts are not listed any more, the
deployments of updated ones have the workloads that were sent, and the rest is as it was. -/
structure Executed (ts : List TwinDeployment) (source source' : NetworkSource) : Prop where
  contracts : source'.contracts = source.contracts.filter fun c =>
    !ts.any fun t => decide (t.operation = .delete ∧ t.deployment.contractId = some c.contractID)
  untouched : ∀ id, (∀ t ∈ ts, t.deployment.contractId ≠ some id) →
    source'.answers.deployment id = source.answers.deployment id
  updated : ∀ id, (∃ t ∈ ts, t.operation = .update ∧ t.deployment.contractId = some id) →
    ∃ t ∈ ts, t.deployment.contractId = some id ∧ t.operation = .update ∧
      ∃ d, source'.answers.deployment id = .ok d ∧
        d.workloads.map (·.name) = t.deployment.workloads.map (·.name)
  nodeTwin : source'.answers.nodeTwin = source.answers.nodeTwin
  privateIps : ∀ nodeId name ips, source.answers.privateIps nodeId name = .ok ips →
    ∃ ips', source'.answers.privateIps nodeId name = .ok ips'
  stored : source'.stored = source.stored
  userAccesses : source'.userAccesses = source.userAccesses

/-- Only what is sent changes. -/
def execute (ts : List TwinDeployment) (source : NetworkSource) : NetworkSource :=
  { source with
    contracts := source.contracts.filter fun c =>
      !ts.any fun t => decide (t.operation = .delete ∧ t.deployment.contractId = some c.contractID)
    answers := { source.answers with
      deployment := fun id =>
        match ts.find? fun t => decide (t.operation = .update ∧ t.deployment.contractId = some id) with
        | some t => .ok t.deployment
        | none => source.answers.deployment id } }

/-- A network that is loaded from its contracts. Peers without an endpoint are the access points
`points` and nodes, as `generatePeers` leaves them; no two have one key. -/
structure OnGrid (v : Validators) (env : NetworkEnv) (source : NetworkSource)
    (points : List AccessPoint) (net : Network) : Prop where
  loaded : Network.load source env (.fresh net.name net.ipRange) = .ok net
  known : networkKnown net.name source.contracts = true
  unstored : source.stored = none
  contracts : (source.contracts.map (·.contractID)).Nodup
  real : ∀ c ∈ source.contracts, c.contractID ≠ 0
  nodes : ((contractsNamed net.name source.contracts).map (·.nodeID)).Nodup
  answers : ∀ c ∈ contractsNamed net.name source.contracts, Answers v source c
  peers : ∀ z ∈ net.networks, PeersRead env points net.networks z
  keys : ((net.networks.map fun z => env.publicKey z.wireguardPrivateKey) ++
    points.map fun a => some a.wireguardPublicKey).Nodup

/-- `_delete` of machines without which nothing needs their node. A contract of the network that
holds machines is the one of their node. -/
structure Removes (v : Validators) (load : Bool → String → String → Except GridError AnyNetwork)
    (source : NetworkSource) (net : Network) (nodeId : Nat) (deployment : Deployment)
    (names : List String) (types : List WorkloadTypes) (ts : List TwinDeployment) : Prop where
  run : delete v load true (.ok nodeId) deployment names types = .ok ts
  removed : ∃ d remaining first rest node, fromObj v deployment = .ok d ∧
    filterWorkloads d names types = .ok (remaining, first :: rest) ∧
    loadNetwork load first = .ok (.network net) ∧ Placed net d remaining node ∧
    node.nodeId = some nodeId ∧ NothingNeeds net nodeId (machineIps (first :: rest)) ∧
    ∀ c ∈ contractsNamed net.name source.contracts, some c.contractID = d.contractId →
      some c.contractID = node.contractId

/-- The peer has the subnet or the public key of the node. -/
def OfNode (env : NetworkEnv) (net : Network) (nodeId : Nat) (p : Peer) : Prop :=
  ∃ z ∈ net.networks, z.nodeId = some nodeId ∧
    (p.subnet = z.subnet ∨ env.publicKey z.wireguardPrivateKey = some p.wireguardPublicKey)

/-- What is loaded afterwards: no node has a peer of the node that left, and the access points are
those on the nodes that are left. -/
structure Disappeared (env : NetworkEnv) (points : List AccessPoint) (net : Network) (nodeId : Nat)
    (n : Network) : Prop where
  removed : n.nodeExists nodeId = false
  neighbours : ∀ z ∈ n.networks, ∀ p ∈ z.peers, ¬OfNode env net nodeId p
  accessPoints : ∀ a, a ∈ n.accessPoints ↔ a ∈ points ∧ n.nodeExists a.nodeId = true

def Disappears (env : NetworkEnv) (points : List AccessPoint) (net : Network) (nodeId : Nat)
    (source : NetworkSource) : Prop :=
  ∃ n, Network.load source env (.fresh net.name net.ipRange) = .ok n ∧
    Disappeared env points net nodeId n

/-- No node that stays had a peer of the node that leaves. -/
def NoPeerStays (env : NetworkEnv) (net : Network) (nodeId : Nat) : Prop :=
  ∀ z ∈ net.networks, (∃ node ∈ stayingNodes net nodeId, node.nodeId = z.nodeId) →
    ∀ p ∈ z.peers, ¬OfNode env net nodeId p

section
variable {v : Validators} {env : NetworkEnv} {source source' : NetworkSource} {name ipRange : String}
  {points : List AccessPoint} {net : Network} {nodeId : Nat} {c : GqlNodeContract}
  {ts : List TwinDeployment}

/-! One contract. -/

theorem mem_given {g : Znet × Nat} (h : g ∈ Network.given source name c) :
    g.1.nodeId = some c.nodeID ∧ g.2 = c.contractID := by
  unfold Network.given at h
  split at h
  · obtain ⟨w, -, hg⟩ := List.mem_flatMap.mp h
    obtain ⟨z, -, rfl⟩ := List.mem_map.mp hg
    exact ⟨rfl, rfl⟩
  · cases h

theorem loads_of_name {w : Workload} (h : w.name ≠ name) : Network.loads name w = .ok none := by
  unfold Network.loads
  split
  · rw [if_pos h]
  · rfl

theorem Executed.deployment_same (h : Executed ts source source')
    (huntouched : ∀ t ∈ ts, t.deployment.contractId ≠ some c.contractID) :
    loadDeployment source'.answers c = loadDeployment source.answers c := by
  unfold loadDeployment
  rw [h.nodeTwin, h.untouched _ huntouched]

theorem Executed.reservedIps (h : Executed ts source source') {nodeId : Nat} {ips : List String}
    (hips : getReservedIps source.answers name nodeId = .ok ips) :
    ∃ ips', getReservedIps source'.answers name nodeId = .ok ips' := by
  obtain ⟨_, htwin, hrest⟩ := exceptBind_eq_ok.mp hips
  split at hrest
  · rename_i ips₀ hok
    obtain ⟨ips', hips'⟩ := h.privateIps _ _ _ hok
    refine ⟨ips', ?_⟩
    unfold getReservedIps
    rw [h.nodeTwin, htwin, hips']
    rfl
  · cases hrest

/-- A contract that no operation is on loads as before. -/
theorem Executed.contract_untouched (h : Executed ts source source')
    (huntouched : ∀ t ∈ ts, t.deployment.contractId ≠ some c.contractID)
    (hloads : Network.ContractLoads source name ipRange c) :
    Network.ContractLoads source' name ipRange c ∧
      Network.given source' name c = Network.given source name c := by
  have hsame := h.deployment_same huntouched
  constructor
  · obtain ⟨d, hd, hws⟩ := hloads
    refine ⟨d, hsame.trans hd, fun w hw => ?_⟩
    obtain ⟨found, hfound, hrest⟩ := hws w hw
    refine ⟨found, hfound, fun z hz => ?_⟩
    obtain ⟨hrange, haccesses, ips, hips⟩ := hrest z hz
    rw [h.userAccesses]
    exact ⟨hrange, haccesses, h.reservedIps hips⟩
  · unfold Network.given
    rw [hsame]

/-- A contract that the network workload was taken out of gives nothing, if it is still there. -/
theorem Executed.contract_taken (h : Executed ts source source')
    (hon : ∃ t ∈ ts, t.deployment.contractId = some c.contractID)
    (htakes : ∀ t ∈ ts, t.deployment.contractId = some c.contractID →
      TakesOut name (some c.contractID) (t.deployment, t.operation))
    (hlisted : ∀ t ∈ ts, t.deployment.contractId = some c.contractID → t.operation ≠ .delete)
    (hloads : Network.ContractLoads source name ipRange c) :
    Network.ContractLoads source' name ipRange c ∧ Network.given source' name c = [] := by
  have hupdates : ∀ t ∈ ts, t.deployment.contractId = some c.contractID → t.operation = .update ∧
      ∀ w ∈ t.deployment.workloads, w.name ≠ name := by
    intro t ht hid
    rcases (htakes t ht hid).2 with hdelete | hupdate
    · exact absurd hdelete (hlisted t ht hid)
    · exact hupdate
  obtain ⟨t₀, ht₀, hid₀⟩ := hon
  obtain ⟨t, ht, hid, -, d, hd, hnames⟩ :=
    h.updated c.contractID ⟨t₀, ht₀, (hupdates t₀ ht₀ hid₀).1, hid₀⟩
  have hnone : ∀ w ∈ d.workloads, Network.loads name w = .ok none := by
    intro w hw
    have hname : w.name ∈ t.deployment.workloads.map (·.name) := hnames ▸ List.mem_map_of_mem hw
    obtain ⟨w', hw', heq⟩ := List.mem_map.mp hname
    exact loads_of_name (heq ▸ (hupdates t ht hid).2 w' hw')
  have hload : loadDeployment source'.answers c = .ok d := by
    obtain ⟨d₀, hd₀, -⟩ := hloads
    obtain ⟨_, htwin, -⟩ := exceptBind_eq_ok.mp hd₀
    unfold loadDeployment
    rw [h.nodeTwin, htwin, hd]
    rfl
  constructor
  · exact ⟨d, hload, fun w hw => ⟨none, hnone w hw, nofun⟩⟩
  · unfold Network.given
    rw [hload]
    refine List.flatMap_eq_nil_iff.mpr fun w hw => ?_
    unfold Network.givenBy
    rw [hnone w hw]
    rfl

/-! The nodes and networks of a network on the grid. -/

theorem OnGrid.given (h : OnGrid v env source points net) :
    Network.LoadedFromContracts source env net.name net.ipRange net :=
  Network.load_given h.unstored h.loaded

theorem OnGrid.freshlyLoaded (h : OnGrid v env source points net) : FreshlyLoaded v net :=
  Network.load_freshlyLoaded h.known h.nodes h.answers h.loaded

/-- A node is there with a contract that is listed. -/
theorem OnGrid.contract_of_node (h : OnGrid v env source points net) {x : Node} (hx : x ∈ net.nodes) :
    ∃ c ∈ contractsNamed net.name source.contracts, x.nodeId = some c.nodeID ∧
      x.contractId = some c.contractID := by
  have hin : Network.ids x ∈ net.nodes.map Network.ids := List.mem_map_of_mem hx
  rw [h.given.nodes] at hin
  obtain ⟨g, hg, hids⟩ := List.mem_map.mp hin
  obtain ⟨c, hc, hg⟩ := List.mem_flatMap.mp hg
  obtain ⟨hnode, hcontract⟩ := mem_given hg
  refine ⟨c, hc, ?_, ?_⟩
  · rw [← hnode]
    exact (congrArg Prod.fst hids).symm
  · rw [← hcontract]
    exact (congrArg Prod.snd hids).symm

theorem OnGrid.node_of_given (h : OnGrid v env source points net)
    (hc : c ∈ contractsNamed net.name source.contracts) {g : Znet × Nat}
    (hg : g ∈ Network.given source net.name c) :
    ∃ x ∈ net.nodes, x.nodeId = g.1.nodeId ∧ x.contractId = some c.contractID := by
  have hin : (g.1.nodeId, some g.2) ∈ net.nodes.map Network.ids := by
    rw [h.given.nodes]
    exact List.mem_map_of_mem (f := fun g : Znet × Nat => (g.1.nodeId, some g.2))
      (List.mem_flatMap.mpr ⟨c, hc, hg⟩)
  obtain ⟨x, hx, hids⟩ := List.mem_map.mp hin
  rw [(mem_given hg).2] at hids
  exact ⟨x, hx, congrArg Prod.fst hids, congrArg Prod.snd hids⟩

theorem OnGrid.contract_unique (h : OnGrid v env source points net) {c' : GqlNodeContract}
    (hc : c ∈ contractsNamed net.name source.contracts)
    (hc' : c' ∈ contractsNamed net.name source.contracts) (hid : c.contractID = c'.contractID) :
    c = c' :=
  List.inj_on_of_nodup_map h.contracts (List.mem_filter.mp hc).1 (List.mem_filter.mp hc').1 hid

theorem OnGrid.contracts_nodup (h : OnGrid v env source points net) :
    (net.nodes.map (·.contractId)).Nodup := by
  refine List.Nodup.map_on (fun x hx y hy hxy => ?_) h.freshlyLoaded.nodes.of_map
  obtain ⟨c, hc, hxid, hxc⟩ := h.contract_of_node hx
  obtain ⟨c', hc', hyid, hyc⟩ := h.contract_of_node hy
  have hsame : c = c' :=
    h.contract_unique hc hc' (Option.some.inj (hxc.symm.trans (hxy.trans hyc)))
  refine List.inj_on_of_nodup_map h.freshlyLoaded.nodes hx hy ?_
  rw [hxid, hyid, hsame]

theorem Removes.takenOut (h : OnGrid v env source points net)
    {load : Bool → String → String → Except GridError AnyNetwork} {deployment : Deployment}
    {names : List String} {types : List WorkloadTypes}
    (hremoves : Removes v load source net nodeId deployment names types ts) :
    ∃ d node, TakenOut net nodeId d ts ∧ node ∈ net.nodes ∧
      ∀ c ∈ contractsNamed net.name source.contracts, some c.contractID = d.contractId →
        some c.contractID = node.contractId := by
  obtain ⟨d, remaining, first, rest, node, hdecoded, hfilter, hload, hplaced, hid, hnothing, hown⟩ :=
    hremoves.removed
  refine ⟨d, node, ?_, hplaced.member, hown⟩
  refine delete_takenOut h.freshlyLoaded (fun x hx => ?_) h.contracts_nodup (fun x hx => ?_) hplaced hid
    hdecoded hfilter hload hnothing hremoves.run
  · obtain ⟨c, -, hnode, -⟩ := h.contract_of_node hx
    rw [hnode]
    exact Option.some_ne_none _
  · obtain ⟨c, hc, -, hcontract⟩ := h.contract_of_node hx
    rw [hcontract]
    exact fun hzero => h.real c (List.mem_filter.mp hc).1 (Option.some.inj hzero)

/-! What is loaded afterwards. -/

/-- A contract that is still listed: it is that of a node that stays, or it gives nothing. -/
theorem contract_afterwards (h : OnGrid v env source points net) (hexec : Executed ts source source')
    {d : Deployment} {node : Node} (htaken : TakenOut net nodeId d ts) (hnode : node ∈ net.nodes)
    (hown : ∀ c ∈ contractsNamed net.name source.contracts, some c.contractID = d.contractId →
      some c.contractID = node.contractId)
    (hc : c ∈ contractsNamed net.name source'.contracts) :
    c ∈ contractsNamed net.name source.contracts ∧
      Network.ContractLoads source' net.name net.ipRange c ∧
      ∀ g ∈ Network.given source' net.name c, g ∈ Network.given source net.name c ∧
        ∃ x ∈ stayingNodes net nodeId, x.nodeId = g.1.nodeId := by
  obtain ⟨hin, hname⟩ := List.mem_filter.mp hc
  rw [hexec.contracts] at hin
  obtain ⟨hin, hkept⟩ := List.mem_filter.mp hin
  have hbefore : c ∈ contractsNamed net.name source.contracts := List.mem_filter.mpr ⟨hin, hname⟩
  have hloads := h.given.loads c hbefore
  have hlisted : ∀ t ∈ ts, t.deployment.contractId = some c.contractID → t.operation ≠ .delete := by
    intro t ht hid hdelete
    rw [List.any_eq_true.mpr ⟨t, ht, decide_eq_true ⟨hdelete, hid⟩⟩] at hkept
    cases hkept
  by_cases hx : ∃ x ∈ net.nodes, x.contractId = some c.contractID
  · obtain ⟨x, hx, hcontract⟩ := hx
    by_cases hstays : x ∈ stayingNodes net nodeId
    · have huntouched := htaken.staying x hstays
      rw [hcontract] at huntouched
      obtain ⟨hloads', hsame⟩ := hexec.contract_untouched huntouched hloads
      refine ⟨hbefore, hloads', fun g hg => ?_⟩
      rw [hsame] at hg
      obtain ⟨c', hc', hxid, hxc⟩ := h.contract_of_node hx
      obtain rfl := h.contract_unique hbefore hc' (Option.some.inj (hcontract.symm.trans hxc))
      exact ⟨hg, x, hstays, hxid.trans (mem_given hg).1.symm⟩
    · have htakes := htaken.leaving x hx hstays
      rw [hcontract] at htakes
      obtain ⟨hloads', hnone⟩ := hexec.contract_taken htakes.1 htakes.2 hlisted hloads
      refine ⟨hbefore, hloads', fun g hg => ?_⟩
      rw [hnone] at hg
      cases hg
  · have huntouched : ∀ t ∈ ts, t.deployment.contractId ≠ some c.contractID := by
      intro t ht hid
      rcases htaken.contracts t ht with hmachines | hzero | ⟨x, hxin, hxid⟩
      · exact hx ⟨node, hnode, (hown c hbefore (hid.symm.trans hmachines)).symm⟩
      · exact h.real c hin (Option.some.inj (hid.symm.trans hzero))
      · exact hx ⟨x, hxin, hxid.symm.trans hid⟩
    obtain ⟨hloads', hsame⟩ := hexec.contract_untouched huntouched hloads
    refine ⟨hbefore, hloads', fun g hg => ?_⟩
    rw [hsame] at hg
    obtain ⟨x, hxin, -, hxc⟩ := h.node_of_given hbefore hg
    exact absurd ⟨x, hxin, hxc⟩ hx

/-- The networks that are given afterwards are those of the nodes that stay. -/
theorem mem_allGiven_afterwards (h : OnGrid v env source points net)
    (hexec : Executed ts source source') {d : Deployment} {node : Node}
    (htaken : TakenOut net nodeId d ts) (hnode : node ∈ net.nodes)
    (hown : ∀ c ∈ contractsNamed net.name source.contracts, some c.contractID = d.contractId →
      some c.contractID = node.contractId) (g : Znet × Nat) :
    g ∈ Network.allGiven source' net.name ↔ g ∈ Network.allGiven source net.name ∧
      ∃ x ∈ stayingNodes net nodeId, x.nodeId = g.1.nodeId := by
  constructor
  · intro hg
    obtain ⟨c, hc, hg⟩ := List.mem_flatMap.mp hg
    obtain ⟨hbefore, -, hgiven⟩ := contract_afterwards h hexec htaken hnode hown hc
    obtain ⟨hg, hx⟩ := hgiven g hg
    exact ⟨List.mem_flatMap.mpr ⟨c, hbefore, hg⟩, hx⟩
  · rintro ⟨hg, x, hx, hxid⟩
    obtain ⟨c, hc, hg⟩ := List.mem_flatMap.mp hg
    obtain ⟨y, hy, hyid, hyc⟩ := h.node_of_given hc hg
    have hxy : x = y := List.inj_on_of_nodup_map h.freshlyLoaded.nodes
      (stayingNodes_sublist.subset hx) hy (hxid.trans hyid.symm)
    have huntouched := htaken.staying x hx
    rw [hxy, hyc] at huntouched
    obtain ⟨hin, hname⟩ := List.mem_filter.mp hc
    have hlisted : c ∈ contractsNamed net.name source'.contracts := by
      refine List.mem_filter.mpr ⟨?_, hname⟩
      rw [hexec.contracts]
      refine List.mem_filter.mpr ⟨hin, ?_⟩
      rw [Bool.not_eq_true']
      refine List.any_eq_false.mpr fun t ht hdelete => ?_
      exact huntouched t ht (of_decide_eq_true hdelete).2
    refine List.mem_flatMap.mpr ⟨c, hlisted, ?_⟩
    rw [(hexec.contract_untouched huntouched (h.given.loads c hc)).2]
    exact hg

theorem readable_of_publicKeys {nets : List Znet} {keys : List String}
    (h : Network.publicKeys env nets = .ok keys) :
    ∀ z ∈ nets, env.publicKey z.wireguardPrivateKey ≠ none := by
  induction nets generalizing keys with
  | nil => exact fun z hz => absurd hz List.not_mem_nil
  | cons z nets ih =>
    obtain ⟨key, hkey, hrest⟩ := exceptBind_eq_ok.mp h
    obtain ⟨rest, hrest, -⟩ := exceptBind_eq_ok.mp hrest
    refine List.forall_mem_cons.mpr ⟨fun hnone => ?_, ih hrest⟩
    unfold getPublicKey at hkey
    rw [hnone] at hkey
    cases hkey

/-- What is loaded afterwards: the networks of the nodes that stay, and access points from their
peers. -/
theorem load_afterwards (h : OnGrid v env source points net) (hexec : Executed ts source source')
    {d : Deployment} {node : Node} (htaken : TakenOut net nodeId d ts) (hnode : node ∈ net.nodes)
    (hown : ∀ c ∈ contractsNamed net.name source.contracts, some c.contractID = d.contractId →
      some c.contractID = node.contractId) :
    ∃ n, Network.load source' env (.fresh net.name net.ipRange) = .ok n ∧
      (∀ z, z ∈ n.networks ↔ z ∈ net.networks ∧ ∃ x ∈ stayingNodes net nodeId, x.nodeId = z.nodeId) ∧
      ∃ keys, (∀ k, k ∈ keys ↔ ∃ z ∈ n.networks, env.publicKey z.wireguardPrivateKey = some k) ∧
        n.accessPoints = n.networks.flatMap (Network.readPoints keys) := by
  have hiff := mem_allGiven_afterwards h hexec htaken hnode hown
  have hstored : source'.stored = none := hexec.stored.trans h.unstored
  obtain ⟨keys, hkeys, -⟩ := h.given.points
  have hreadable := readable_of_publicKeys hkeys
  rw [h.given.networks] at hreadable
  obtain ⟨n, hn⟩ : ∃ n, Network.load source' env (.fresh net.name net.ipRange) = .ok n :=
    Network.load_runs hstored
      (fun c hc => (contract_afterwards h hexec htaken hnode hown hc).2.1)
      (fun g hg => hreadable g.1 (List.mem_map_of_mem ((hiff g).mp hg).1))
  have hgiven := Network.load_given hstored hn
  obtain ⟨keys', hkeys', hpoints⟩ := hgiven.points
  obtain ⟨keys'', hkeys'', hmem⟩ := Network.publicKeys_ok (readable_of_publicKeys hkeys')
  obtain rfl := Except.ok.inj (hkeys'.symm.trans hkeys'')
  refine ⟨n, hn, fun z => ?_, keys', hmem, hpoints⟩
  rw [hgiven.networks, h.given.networks, List.mem_map, List.mem_map]
  constructor
  · rintro ⟨g, hg, rfl⟩
    obtain ⟨hbefore, hx⟩ := (hiff g).mp hg
    exact ⟨⟨g, hbefore, rfl⟩, hx⟩
  · rintro ⟨⟨g, hg, rfl⟩, hx⟩
    exact ⟨g, (hiff g).mpr ⟨hg, hx⟩, rfl⟩

/-- When a node stays, only the one of the machines leaves. -/
theorem staying_of_ne {x y : Node} (hx : x ∈ stayingNodes net nodeId) (hy : y ∈ net.nodes)
    (hyid : y.nodeId ≠ some nodeId) : y ∈ stayingNodes net nodeId := by
  unfold stayingNodes at hx ⊢
  split at hx
  · cases hx
  · rename_i hlast
    rw [if_neg hlast]
    exact List.mem_filter.mpr ⟨hy, decide_eq_true hyid⟩

theorem OnGrid.node_of_network (h : OnGrid v env source points net) {z : Znet}
    (hz : z ∈ net.networks) : ∃ x ∈ net.nodes, x.nodeId = z.nodeId := by
  rw [h.given.networks] at hz
  obtain ⟨g, hg, rfl⟩ := List.mem_map.mp hz
  obtain ⟨c, hc, hg⟩ := List.mem_flatMap.mp hg
  obtain ⟨x, hx, hid, -⟩ := h.node_of_given hc hg
  exact ⟨x, hx, hid⟩

/-- The access points are read from the peers of the nodes that stay. -/
theorem accessPoints_afterwards (h : OnGrid v env source points net) (hno : NoPeerStays env net nodeId)
    {n : Network}
    (hnetworks : ∀ z, z ∈ n.networks ↔ z ∈ net.networks ∧
      ∃ x ∈ stayingNodes net nodeId, x.nodeId = z.nodeId) {keys : List String}
    (hkeys : ∀ k, k ∈ keys ↔ ∃ z ∈ n.networks, env.publicKey z.wireguardPrivateKey = some k)
    (hread : n.accessPoints = n.networks.flatMap (Network.readPoints keys)) (a : AccessPoint) :
    a ∈ n.accessPoints ↔ a ∈ points ∧ n.nodeExists a.nodeId = true := by
  rw [hread]
  constructor
  · intro ha
    obtain ⟨z, hz, ha⟩ := List.mem_flatMap.mp ha
    obtain ⟨p, hp, rfl⟩ := List.mem_map.mp ha
    obtain ⟨hp, hpread⟩ := List.mem_filter.mp hp
    obtain ⟨hkey, hempty⟩ := of_decide_eq_true hpread
    obtain ⟨hzin, x, hx, hxid⟩ := (hnetworks z).mp hz
    rcases (h.peers z hzin).known p hp hempty with ⟨a, ha, hid, hsubnet, hpublic⟩ | ⟨z', hz', hpublic⟩
    · rw [hid, hsubnet, hpublic]
      exact ⟨ha, List.any_eq_true.mpr ⟨z, hz, decide_eq_true hid⟩⟩
    · -- the peer of a node: of one that stays, or of the one that left
      obtain ⟨y, hy, hyid⟩ := h.node_of_network hz'
      by_cases hgone : y.nodeId = some nodeId
      · exact absurd ⟨z', hz', hyid.symm.trans hgone, Or.inr hpublic⟩ (hno z hzin ⟨x, hx, hxid⟩ p hp)
      · refine absurd ((hkeys _).mpr ⟨z', (hnetworks z').mpr ⟨hz', y, ?_, hyid⟩, hpublic⟩) hkey
        exact staying_of_ne hx hy hgone
  · rintro ⟨ha, hexists⟩
    obtain ⟨z, hz, hid⟩ := List.any_eq_true.mp hexists
    have hid : z.nodeId = some a.nodeId := of_decide_eq_true hid
    obtain ⟨p, hp, hempty, hsubnet, hpublic⟩ :=
      (h.peers z ((hnetworks z).mp hz).1).listed a ha hid
    have hkey : p.wireguardPublicKey ∉ keys := by
      intro hin
      obtain ⟨z', hz', hz'key⟩ := (hkeys _).mp hin
      have hleft := List.mem_map_of_mem (f := fun z : Znet => env.publicKey z.wireguardPrivateKey)
        ((hnetworks z').mp hz').1
      have hright := List.mem_map_of_mem (f := fun a : AccessPoint => some a.wireguardPublicKey) ha
      refine (List.nodup_append.mp h.keys).2.2 _ hleft _ hright ?_
      show env.publicKey z'.wireguardPrivateKey = some a.wireguardPublicKey
      rw [hz'key, hpublic]
    refine List.mem_flatMap.mpr ⟨z, hz, List.mem_map.mpr ⟨p, ?_, ?_⟩⟩
    · exact List.mem_filter.mpr ⟨hp, decide_eq_true ⟨hkey, hempty⟩⟩
    · rw [hid, hsubnet, hpublic]
      rfl

/-- Once the operations of a deletion are executed, the node that leaves has disappeared exactly when
no node that stays had a peer of it. -/
theorem removedNode_disappears_iff (h : OnGrid v env source points net)
    {load : Bool → String → String → Except GridError AnyNetwork} {deployment : Deployment}
    {names : List String} {types : List WorkloadTypes}
    (hremoves : Removes v load source net nodeId deployment names types ts)
    (hexec : Executed ts source source') :
    Disappears env points net nodeId source' ↔ NoPeerStays env net nodeId := by
  obtain ⟨d, node, htaken, hnode, hown⟩ := hremoves.takenOut h
  obtain ⟨n, hn, hnetworks, keys, hkeys, hread⟩ := load_afterwards h hexec htaken hnode hown
  constructor
  · rintro ⟨n', hn', hgone⟩
    obtain rfl := Except.ok.inj (hn.symm.trans hn')
    exact fun z hz hx => hgone.neighbours z ((hnetworks z).mpr ⟨hz, hx⟩)
  · intro hno
    refine ⟨n, hn, ?_, fun z hz => ?_, accessPoints_afterwards h hno hnetworks hkeys hread⟩
    · refine List.any_eq_false.mpr fun z hz hid => ?_
      obtain ⟨-, x, hx, hxid⟩ := (hnetworks z).mp hz
      exact nodeId_of_staying hx (hxid.trans (of_decide_eq_true hid))
    · obtain ⟨hzin, hx⟩ := (hnetworks z).mp hz
      exact hno z hzin hx

/-! A network as `generatePeers` leaves it. -/

/-- The networks are those of a network whose peers were just made. -/
def Generated (env : NetworkEnv) (net : Network) : Prop :=
  ∃ range s s', Addressed range s s' ∧ generatePeers env s = .ok ⟨⟩ s' ∧
    ∀ z, z ∈ net.networks ↔ z ∈ s'.network.networks

theorem OnGrid.network_of_node (h : OnGrid v env source points net) {x : Node} (hx : x ∈ net.nodes) :
    ∃ z ∈ net.networks, z.nodeId = x.nodeId := by
  have hin : Network.ids x ∈ net.nodes.map Network.ids := List.mem_map_of_mem hx
  rw [h.given.nodes] at hin
  obtain ⟨g, hg, hids⟩ := List.mem_map.mp hin
  refine ⟨g.1, ?_, congrArg Prod.fst hids⟩
  rw [h.given.networks]
  exact List.mem_map_of_mem hg

/-- There a peer of each node stays, unless no node does. -/
theorem noPeerStays_generated_iff (h : OnGrid v env source points net) (hgenerated : Generated env net)
    (hnode : ∃ x ∈ net.nodes, x.nodeId = some nodeId) :
    NoPeerStays env net nodeId ↔ stayingNodes net nodeId = [] := by
  obtain ⟨range, s, s', haddressed, hrun, hsame⟩ := hgenerated
  constructor
  · intro hno
    rw [List.eq_nil_iff_forall_not_mem]
    intro x hx
    obtain ⟨y, hy, hyid⟩ := hnode
    obtain ⟨r, hr, hrid⟩ := h.network_of_node hy
    obtain ⟨z, hz, hzid⟩ := h.network_of_node (stayingNodes_sublist.subset hx)
    have hne : z.nodeId ≠ r.nodeId := by
      rw [hzid, hrid, hyid]
      exact nodeId_of_staying hx
    obtain ⟨m, hm, hmne, p, hp, hsubnet⟩ :=
      generatePeers_neighbour haddressed hrun ((hsame r).mp hr) ((hsame z).mp hz) hne
    obtain ⟨w, hw, hwid⟩ := h.node_of_network ((hsame m).mpr hm)
    have hstays : w ∈ stayingNodes net nodeId := by
      apply staying_of_ne hx hw
      rw [hwid, ← hyid, ← hrid]
      exact hmne
    exact hno m ((hsame m).mpr hm) ⟨w, hstays, hwid⟩ p hp ⟨r, hr, hrid.trans hyid, Or.inl hsubnet⟩
  · intro hnil z _ hx
    obtain ⟨x, hx, -⟩ := hx
    rw [hnil] at hx
    cases hx

theorem executed_execute (ts : List TwinDeployment) (source : NetworkSource) :
    Executed ts source (execute ts source) where
  contracts := rfl
  untouched id h := by
    unfold execute
    dsimp only
    rw [List.find?_eq_none.mpr fun t ht hupdate => h t ht (of_decide_eq_true hupdate).2]
  updated id h := by
    obtain ⟨t, ht, hupdate⟩ := h
    unfold execute
    dsimp only
    cases hfind : ts.find? fun t =>
        decide (t.operation = .update ∧ t.deployment.contractId = some id) with
    | none => exact absurd (decide_eq_true hupdate) (List.find?_eq_none.mp hfind t ht)
    | some t' =>
      have hmeets := List.find?_some hfind
      obtain ⟨hop, hid⟩ := of_decide_eq_true hmeets
      exact ⟨t', List.mem_of_find?_eq_some hfind, hid, hop, t'.deployment, rfl, rfl⟩
  nodeTwin := rfl
  privateIps _ _ ips h := ⟨ips, h⟩
  stored := rfl
  userAccesses := rfl

end

/-! The access node 11 with the hidden node 12, on which the only machine is deleted. -/

def pairWorkload (subnet key : String) (peers : List Peer) : Workload :=
  ⟨0, "net", .network, .network ⟨subnet, "10.1.0.0/16", key, 2000, peers, none, none⟩, "", "",
    some ⟨0, .ok, ""⟩⟩

def peerOf11 : Peer :=
  ⟨"10.1.2.0/24", "public of k11", ["10.1.2.0/24", "100.64.1.2/32", "10.1.3.0/24", "100.64.1.3/32"],
    "185.206.122.31:2000"⟩

def peerOf12 : Peer :=
  ⟨"10.1.3.0/24", "public of k12", ["10.1.3.0/24", "100.64.1.3/32"], ""⟩

def pairContracts : List GqlNodeContract :=
  [⟨5, 11, 0, ⟨"network", "net", none⟩⟩, ⟨6, 12, 0, ⟨"network", "net", none⟩⟩]

/-- The ips are those reserved on node 11. -/
def pairSource (ips : List String) : NetworkSource where
  contracts := pairContracts
  answers := {
    nodeTwin := fun _ => .ok ⟨⟩
    deployment := fun id => .ok { deploymentWith [if id = 5 then
        pairWorkload "10.1.2.0/24" "k11" [peerOf12] else pairWorkload "10.1.3.0/24" "k12" [peerOf11]]
      with contractId := some id }
    privateIps := fun nodeId _ => .ok (if nodeId = 11 then ips else ["10.1.3.2"]) }
  stored := none
  contractExists _ := .ok true
  dump := .ok ⟨⟩
  userAccesses _ := some []

def pairZnets : List Znet :=
  [⟨"10.1.2.0/24", "10.1.0.0/16", "k11", 2000, [peerOf12], none, some 11⟩,
    ⟨"10.1.3.0/24", "10.1.0.0/16", "k12", 2000, [peerOf11], none, some 12⟩]

def pairNetwork (ips : List String) : Network where
  name := "net"
  ipRange := "10.1.0.0/16"
  nodes := [⟨some 11, some 5, ips⟩, ⟨some 12, some 6, ["10.1.3.2"]⟩]
  deployments := [⟨11, { deploymentWith [pairWorkload "10.1.2.0/24" "k11" [peerOf12]] with
      contractId := some 5 }⟩,
    ⟨12, { deploymentWith [pairWorkload "10.1.3.0/24" "k12" [peerOf11]] with contractId := some 6 }⟩]
  reservedSubnets := []
  networks := pairZnets
  accessPoints := []
  userAccesses := []

theorem pairNetwork_onGrid (ips : List String) :
    OnGrid anyText sampleNetworkEnv (pairSource ips) [] (pairNetwork ips) where
  loaded := rfl
  known := rfl
  unstored := rfl
  contracts := show (pairContracts.map (·.contractID)).Nodup by decide
  real := show ∀ c ∈ pairContracts, c.contractID ≠ 0 by decide
  nodes := show ((contractsNamed "net" pairContracts).map (·.nodeID)).Nodup by decide
  answers c hc := by
    have hd : ∀ d, loadDeployment (pairSource ips).answers c = .ok d →
        d = { deploymentWith [if c.contractID = 5 then
          pairWorkload "10.1.2.0/24" "k11" [peerOf12] else pairWorkload "10.1.3.0/24" "k12" [peerOf11]]
            with contractId := some c.contractID } := fun d hd => (Except.ok.inj hd).symm
    refine ⟨fun d h => ?_, fun d h => ?_, fun d h => ?_⟩
    · rw [hd d h]
    · rw [hd d h]
      split
      · rfl
      · rfl
    · rw [hd d h]
      exact List.nodup_singleton _
  peers z hz := by
    refine ⟨fun p hp hempty => Or.inr ?_, fun a ha => absurd ha List.not_mem_nil⟩
    rcases List.mem_pair.mp hz with rfl | rfl
    · rw [List.mem_singleton.mp hp]
      exact ⟨_, List.mem_cons_of_mem _ List.mem_cons_self, rfl⟩
    · rw [List.mem_singleton.mp hp] at hempty
      exact absurd hempty (by decide)
  keys := show ((pairZnets.map fun (z : Znet) => sampleNetworkEnv.publicKey z.wireguardPrivateKey) ++
    []).Nodup by decide

def pairMachines : Deployment :=
  { deploymentWith [machineAt "vm" "10.1.3.2"] with contractId := some 7 }

def pairDelete (ips : List String) : Except GridError (List TwinDeployment) :=
  delete anyText (fun _ _ _ => .ok (.network (pairNetwork ips))) true (.ok 12) pairMachines ["vm"]
    allTypes

theorem pairDelete_removes {ips : List String} {ts : List TwinDeployment}
    (h : pairDelete ips = .ok ts) :
    Removes anyText (fun _ _ _ => .ok (.network (pairNetwork ips))) (pairSource ips) (pairNetwork ips) 12
      pairMachines ["vm"] allTypes ts where
  run := h
  removed := by
    have hother : ∀ id, some id = pairMachines.contractId → id = 7 := fun id h => Option.some.inj h
    have hplaced : Placed (pairNetwork ips) pairMachines [] ⟨some 12, some 6, ["10.1.3.2"]⟩ := by
      refine ⟨List.mem_cons_of_mem _ List.mem_cons_self, ?_, nofun, nofun, List.nodup_nil⟩
      intro other hin hcontract
      rcases List.mem_pair.mp hin with rfl | rfl
      · exact absurd (hother 5 hcontract) (by decide)
      · exact absurd (hother 6 hcontract) (by decide)
    refine ⟨pairMachines, [], machineAt "vm" "10.1.3.2", [], _, by decide, by decide, ?_, hplaced, rfl,
      ⟨rfl, Or.inl rfl⟩, ?_⟩
    · have hip : (addr "10.1.3.2").isOk = true := by decide +kernel
      refine exceptBind_eq_ok.mpr ⟨⟨"net", "10.1.3.2"⟩, rfl, ?_⟩
      obtain ⟨a, ha⟩ := exists_of_isOk hip
      exact exceptBind_eq_ok.mpr ⟨a, ha, rfl⟩
    · intro c hc hcontract
      have hnot : ∀ c ∈ pairContracts, c.contractID ≠ 7 := by decide
      exact absurd (hother _ hcontract) (hnot c (List.mem_filter.mp hc).1)

/-- Without another machine both nodes leave. -/
theorem lastPair_disappears : ∃ ts, pairDelete [] = .ok ts ∧
    Disappears sampleNetworkEnv [] (pairNetwork []) 12 (execute ts (pairSource [])) := by
  have hreturns : (pairDelete []).isOk = true := by decide +kernel
  obtain ⟨ts, hrun⟩ := exists_of_isOk hreturns
  refine ⟨ts, hrun, (removedNode_disappears_iff (pairNetwork_onGrid []) (pairDelete_removes hrun)
    (executed_execute ts _)).mpr ?_⟩
  rintro z - ⟨x, hx, -⟩
  cases hx

/-- Node 11 keeps the peer of the node that left, and an access point is read from it. -/
theorem leftOverPeer_read : ¬∀ (v : Validators) (env : NetworkEnv) (source source' : NetworkSource)
    (points : List AccessPoint) (net : Network) (nodeId : Nat)
    (load : Bool → String → String → Except GridError AnyNetwork) (deployment : Deployment)
    (names : List String) (types : List WorkloadTypes) (ts : List TwinDeployment),
    OnGrid v env source points net → Removes v load source net nodeId deployment names types ts →
      Executed ts source source' → Disappears env points net nodeId source' := by
  intro h
  have hkeeps : ((pairDelete ["10.1.2.2"]).toOption.any fun ts =>
      (Network.load (execute ts (pairSource ["10.1.2.2"])) sampleNetworkEnv
        (.fresh "net" "10.1.0.0/16")).toOption.any fun n =>
          n.networks.any fun z => z.peers.any fun p => decide (p.subnet = "10.1.3.0/24")) = true := by
    decide +kernel
  obtain ⟨ts, hrun, hreads⟩ := exists_of_toOption_any hkeeps
  obtain ⟨n', hload', hpeers⟩ := exists_of_toOption_any hreads
  obtain ⟨n, hload, hgone⟩ := h _ _ _ _ _ _ _ _ _ _ _ ts (pairNetwork_onGrid ["10.1.2.2"])
    (pairDelete_removes hrun) (executed_execute ts _)
  obtain rfl := Except.ok.inj (hload'.symm.trans hload)
  obtain ⟨z, hz, hpeers⟩ := List.any_eq_true.mp hpeers
  obtain ⟨p, hp, hsubnet⟩ := List.any_eq_true.mp hpeers
  exact hgone.neighbours z hz p hp ⟨_, List.mem_cons_of_mem _ List.mem_cons_self, rfl,
    Or.inl (of_decide_eq_true hsubnet)⟩

end ThreefoldSdk.HighLevel
