import ThreefoldSdk.HighLevel.Handler
import ThreefoldSdk.Lib.Json
import ThreefoldSdk.Lib.Runs
import ThreefoldSdk.Primitives.BuiltNetwork
import ThreefoldSdk.Primitives.LoadedNetwork

/-! A network that was built by calls of `addNode` and `addAccess` and written to its contracts, and
the network that is loaded from them. -/

namespace ThreefoldSdk.HighLevel
open Zos Primitives Frame

/-- The contract has the workload that was handed out for its node as `updateWorkload` wrote it, and
no other workload of the network; its node answers. -/
structure HoldsWritten (json : MetadataJson) (source : NetworkSource) (n : Network)
    (p : Nat × Workload) (c : GqlNodeContract) : Prop where
  node : c.nodeID = p.1
  deployment : ∃ d before written rest version metadata r,
    loadDeployment source.answers c = .ok d ∧
    n.updateWorkload json p.1 { p.2 with version := version, metadata := metadata } = .ok written ∧
    d.workloads = before ++ { written with data := onWire written.data, result := some r } :: rest ∧
    r.state ≠ .deleted ∧ ∀ other ∈ before ++ rest, other.type ≠ .network ∨ other.name ≠ n.name
  reservedIps : ∃ ips, getReservedIps source.answers n.name c.nodeID = .ok ips

/-- The workloads of the network are in its contracts, which are listed in any order. -/
structure Written (json : MetadataJson) (source : NetworkSource) (n : Network)
    (workloads : List (Nat × Workload)) : Prop where
  contracts : ∃ cs, (contractsNamed n.name source.contracts).Perm cs ∧
    List.Forall₂ (HoldsWritten json source n) workloads cs
  unstored : workloads = [] → source.stored = none

/-- The public keys of the nodes and of the access points differ. -/
def DistinctKeys (env : NetworkEnv) (n : Network) : Prop :=
  ((n.networks.map fun z => env.publicKey z.wireguardPrivateKey) ++
    n.accessPoints.map fun a => some a.wireguardPublicKey).Nodup

structure SameNetwork (n n' : Network) : Prop where
  nodes : (n'.nodes.map (·.nodeId)).Perm (n.nodes.map (·.nodeId))
  networks : n'.networks.Perm n.networks
  accessPoints : ∀ a, a ∈ n'.accessPoints ↔ a ∈ n.accessPoints
  userAccesses : n'.userAccesses = n.userAccesses

/-- What is written of the network loads as the network. -/
def Reloads (env : NetworkEnv) (json : MetadataJson) (name ipRange : String) (b : Built) : Prop :=
  ∀ source : NetworkSource,
    (∀ accesses text printed, json.network accesses text = some printed →
      source.userAccesses printed = some accesses) →
    DistinctKeys env b.session.network → Written json source b.session.network b.workloads →
    ∃ n, (Network.fresh name ipRange).load source env = .ok n ∧ SameNetwork b.session.network n

section
variable {env : NetworkEnv} {json : MetadataJson} {source : NetworkSource} {name ipRange : String}
  {b : Built}

/-- A workload that was written loads as the network it was handed out for. -/
theorem loadsAs_of_written (h : BuiltSound env name ipRange b)
    (hjson : ∀ accesses text printed, json.network accesses text = some printed →
      source.userAccesses printed = some accesses)
    {p : Nat × Workload} {c : GqlNodeContract} {z : Znet} (hp : p ∈ b.workloads)
    (hwritten : HoldsWritten json source b.session.network p c) (hout : HandedOut name p z)
    (hz : z ∈ b.session.network.networks) :
    Network.LoadsAs source name b.session.network.userAccesses c z := by
  obtain ⟨hnode, ⟨d, before, written, rest, version, metadata, r, hd, hupdate, hws, hstate, hothers⟩,
    ips, hips⟩ := hwritten
  rw [h.laidOut.sameName] at hips hothers
  have hknown : (b.session.network.nodes.any fun node => node.nodeId = some p.1) = true := by
    have hin : some p.1 ∈ b.session.network.nodes.map (·.nodeId) := by
      rw [h.nodes]
      exact List.mem_map_of_mem hp
    obtain ⟨node, hin, hid⟩ := List.mem_map.mp hin
    exact List.any_eq_true.mpr ⟨node, hin, decide_eq_true hid⟩
  have hdata : b.session.network.getUpdatedNetwork p.2.data = .network z :=
    h.laidOut.getUpdatedNetwork hz hout.subnet
  obtain ⟨printed, hprinted, hupdate⟩ := exceptBind_eq_ok.mp hupdate
  cases hupdate
  unfold Network.getUpdatedMetadata at hprinted
  rw [if_pos hknown] at hprinted
  refine ⟨d, before, _, rest, { z with nodeId := none }, ips, hd, hws, ?_, ?_, ?_, ?_, hips⟩
  · intro other hin
    unfold Network.loads
    rcases hothers other hin with htype | hname
    · split
      · rename_i heq _
        exact absurd heq htype
      · rfl
    · split
      · rw [if_pos hname]
      · rfl
  · simp only [Network.loads, hout.type, hdata, hout.name, onWire, Network.notDeleted, hstate]
    simp
  · rw [hnode, ← hout.node]
  · cases hprint : json.network b.session.network.userAccesses metadata with
    | none =>
      rw [hprint] at hprinted
      cases hprinted
    | some text =>
      rw [hprint] at hprinted
      cases hprinted
      exact hjson _ _ _ hprint

/-- The contracts of the network, in the order they are listed in, load as its networks. -/
theorem loadsAs_contracts (h : BuiltSound env name ipRange b)
    (hjson : ∀ accesses text printed, json.network accesses text = some printed →
      source.userAccesses printed = some accesses)
    (hwritten : Written json source b.session.network b.workloads) :
    ∃ nets, List.Forall₂ (Network.LoadsAs source name b.session.network.userAccesses)
      (contractsNamed name source.contracts) nets ∧ nets.Perm b.session.network.networks := by
  obtain ⟨cs, hperm, hcs⟩ := hwritten.contracts
  rw [h.laidOut.sameName] at hperm
  have hout : List.Forall₂ (fun z p => HandedOut name p z ∧ z ∈ b.session.network.networks)
      b.session.network.networks b.workloads :=
    Forall2.imp_mem h.laidOut.handedOut.flip fun z hz p hp => ⟨hp, hz⟩
  have hheld : List.Forall₂ (fun p c => HoldsWritten json source b.session.network p c ∧
      p ∈ b.workloads) b.workloads cs :=
    Forall2.imp_mem hcs fun p hp c hc => ⟨hc, hp⟩
  have hloads : List.Forall₂ (Network.LoadsAs source name b.session.network.userAccesses) cs
      b.session.network.networks :=
    Forall2.trans hheld.flip hout.flip fun c p z hc hz =>
      loadsAs_of_written h hjson hc.2 hc.1 hz.1 hz.2
  exact List.perm_comp_forall₂ hperm hloads

/-- The access points that are read are those of the network. -/
theorem mem_readPoints_iff (h : BuiltSound env name ipRange b)
    (hdistinct : DistinctKeys env b.session.network) {nets : List Znet}
    (hperm : nets.Perm b.session.network.networks) {keys : List String}
    (hkeys : ∀ k, k ∈ keys ↔ ∃ z ∈ nets, env.publicKey z.wireguardPrivateKey = some k)
    (a : AccessPoint) :
    a ∈ nets.flatMap (Network.readPoints keys) ↔ a ∈ b.session.network.accessPoints := by
  constructor
  · intro hin
    obtain ⟨z, hz, hin⟩ := List.mem_flatMap.mp hin
    obtain ⟨p, hp, rfl⟩ := List.mem_map.mp hin
    obtain ⟨hp, hread⟩ := List.mem_filter.mp hp
    obtain ⟨hkey, hempty⟩ := of_decide_eq_true hread
    rcases (h.peers z (hperm.mem_iff.mp hz)).known p hp hempty with
      ⟨a, ha, hnode, hsubnet, hpublic⟩ | ⟨net, hnet, hpublic⟩
    · rw [hnode, hsubnet, hpublic]
      exact ha
    · -- the peer of a hidden node has the key of a node
      exact absurd ((hkeys _).mpr ⟨net, hperm.mem_iff.mpr hnet, hpublic⟩) hkey
  · intro ha
    obtain ⟨z, hz, hnode⟩ := h.laidOut.points a ha
    obtain ⟨p, hp, hempty, hsubnet, hpublic⟩ := (h.peers z hz).listed a ha hnode
    have hkey : p.wireguardPublicKey ∉ keys := by
      intro hin
      obtain ⟨net, hnet, hnetkey⟩ := (hkeys _).mp hin
      have hleft := List.mem_map_of_mem (f := fun z : Znet => env.publicKey z.wireguardPrivateKey)
        (hperm.mem_iff.mp hnet)
      have hright := List.mem_map_of_mem (f := fun a : AccessPoint => some a.wireguardPublicKey) ha
      refine (List.nodup_append.mp hdistinct).2.2 _ hleft _ hright ?_
      show env.publicKey net.wireguardPrivateKey = some a.wireguardPublicKey
      rw [hnetkey, hpublic]
    refine List.mem_flatMap.mpr ⟨z, hperm.mem_iff.mpr hz, List.mem_map.mpr ⟨p, ?_, ?_⟩⟩
    · exact List.mem_filter.mpr ⟨hp, decide_eq_true ⟨hkey, hempty⟩⟩
    · rw [hnode, hsubnet, hpublic]
      rfl

theorem builtSound_reloads (h : BuiltSound env name ipRange b) : Reloads env json name ipRange b := by
  intro source hjson hdistinct hwritten
  obtain ⟨nets, hloads, hperm⟩ := loadsAs_contracts h hjson hwritten
  have hlength : nets.length = b.workloads.length := by
    rw [hperm.length_eq, h.laidOut.handedOut.length_eq]
  have hids : (contractsNamed name source.contracts).map (fun c => some c.nodeID) =
      nets.map (·.nodeId) := by
    refine (Forall2.map_eq hloads fun c z hz => ?_).symm
    obtain ⟨-, -, -, -, -, -, -, -, -, -, rfl, -, -⟩ := hz
    rfl
  have hnodes : b.session.network.networks.map (·.nodeId) =
      b.session.network.nodes.map (·.nodeId) := by
    rw [h.nodes]
    exact Forall2.map_eq h.laidOut.handedOut fun p z hz => hz.node
  unfold Network.load
  cases hknown : networkKnown name source.contracts with
  | false =>
    -- nothing was written
    have hnone : contractsNamed name source.contracts = [] := by
      rw [List.eq_nil_iff_forall_not_mem]
      intro c hc
      have hin := networkKnown_of_mem hc
      rw [hknown] at hin
      cases hin
    rw [hnone, List.forall₂_nil_left_iff] at hloads
    rw [hloads] at hlength hperm
    have hempty : b.session.network.networks = [] := hperm.symm.eq_nil
    have hstored : source.stored = none := hwritten.unstored (List.length_eq_zero_iff.mp hlength.symm)
    refine ⟨Network.fresh name ipRange, ?_, ?_⟩
    · show (if networkKnown name source.contracts then _ else _) = _
      rw [hknown, if_neg (by decide), hstored]
    · rw [hempty] at hnodes
      refine ⟨?_, ?_, fun a => ?_, (h.users hempty).symm⟩
      · rw [← hnodes]
        exact .refl _
      · rw [hempty]
        exact .refl _
      · refine iff_of_false List.not_mem_nil fun ha => ?_
        obtain ⟨z, hz, -⟩ := h.laidOut.points a ha
        rw [hempty] at hz
        cases hz
  | true =>
    have hranges : ∀ z ∈ nets, z.ipRange = (Network.fresh name ipRange).ipRange :=
      fun z hz => (h.laidOut.keys z (hperm.mem_iff.mp hz)).1
    obtain ⟨n, hn, hgrown⟩ :=
      Network.loadContracts_ok (n := Network.fresh name ipRange) hloads hranges
    have hnets : n.networks = nets := hgrown.networks
    have hreadable : ∀ z ∈ n.networks, env.publicKey z.wireguardPrivateKey ≠ none := by
      intro z hz
      rw [hnets] at hz
      exact (h.laidOut.keys z (hperm.mem_iff.mp hz)).2
    obtain ⟨keys, hkeys, hmem⟩ := Network.publicKeys_ok hreadable
    rw [hnets] at hmem
    refine ⟨{ n with accessPoints := n.accessPoints ++
      n.networks.flatMap (Network.readPoints keys) }, ?_, ?_, ?_, ?_, ?_⟩
    · show (if networkKnown name source.contracts then _ else _) = _
      rw [hknown, if_pos rfl]
      refine exceptBind_eq_ok.mpr ⟨n, hn, ?_⟩
      unfold Network.getAccessPoints
      exact exceptBind_eq_ok.mpr ⟨keys, hkeys, rfl⟩
    · show (n.nodes.map (·.nodeId)).Perm _
      rw [hgrown.nodes, hids, ← hnodes]
      exact hperm.map _
    · rw [← hnets] at hperm
      exact hperm
    · intro a
      have hpoints : n.accessPoints = [] := hgrown.accessPoints
      show a ∈ n.accessPoints ++ _ ↔ _
      rw [hpoints, List.nil_append, hnets]
      exact mem_readPoints_iff h hdistinct hperm hmem a
    · have hsome : contractsNamed name source.contracts ≠ [] := by
        intro hnil
        have hin : name ∈ source.contracts.map (·.parsedDeploymentData.name) :=
          List.contains_iff_mem.mp hknown
        obtain ⟨c, hc, hname⟩ := List.mem_map.mp hin
        exact List.filter_eq_nil_iff.mp hnil c hc (decide_eq_true hname)
      show n.userAccesses = _
      rw [hgrown.userAccesses, if_neg hsome]

theorem builtSound_fresh {s : Session} (h : s.network = Network.fresh name ipRange) :
    BuiltSound env name ipRange ⟨s, []⟩ := by
  constructor
  · show LaidOut env name ipRange [] s.network
    rw [h]
    refine ⟨rfl, rfl, List.nodup_nil, List.nodup_nil, .nil, ?_, ?_⟩
    · intro z hz
      cases hz
    · intro a ha
      cases ha
  · show s.network.nodes.map (·.nodeId) = []
    rw [h]
    rfl
  · show s.network.networks = [] → s.network.userAccesses = []
    rw [h]
    exact fun _ => rfl
  · show ∀ z ∈ s.network.networks, _
    rw [h]
    intro z hz
    cases hz

/-- In every state that calls reach from a new network, what is written loads as the network, when
no call throws after it began to change the network and no two nodes are given one subnet. -/
theorem network_reloads {s : Session} (hfresh : s.network = Network.fresh name ipRange)
    (hpublic : ∀ k, env.publicKey (env.keypair k).privateKey = some (env.keypair k).publicKey)
    (json : MetadataJson) (calls : List Extension)
    (h : Runs.EachMeets (Built.step env) (fun b c => c.Completes env b) ⟨s, []⟩ calls) :
    Runs.Always (Built.step env) (Reloads env json name ipRange) ⟨s, []⟩ calls := by
  have hsound : Runs.Always (Built.step env) (BuiltSound env name ipRange) ⟨s, []⟩ calls :=
    Runs.always_of_eachMeets (fun b c hb hc => hb.step hpublic c hc) (builtSound_fresh hfresh) h
  intro initial hinitial
  exact builtSound_reloads (hsound initial hinitial)

end

/-- As `sampleNetworkEnv`, with pairs of keys. -/
def pairedEnv : NetworkEnv :=
  { sampleNetworkEnv with keypair := fun clock => ⟨toString clock, "public of " ++ toString clock⟩ }

/-- A user access as `JSON.stringify` prints it. -/
def printAccess (a : UserAccess) : String :=
  "\x7b\"node_id\":" ++ toString a.nodeId ++ ",\"private_key\":" ++ Json.quote a.privateKey ++
    ",\"subnet\":" ++ Json.quote a.subnet ++ "\x7d"

/-- Metadata that hold only the user accesses and the version. -/
def accessesJson : MetadataJson where
  network accesses _ := some ("\x7b\"version\":3,\"user_accesses\":[" ++
    ",".intercalate (accesses.map printAccess) ++ "]\x7d")
  networkLight _ := none

theorem pairedEnv_public (k : Nat) :
    pairedEnv.publicKey (pairedEnv.keypair k).privateKey = some (pairedEnv.keypair k).publicKey := rfl

/-- An access node with an access point, and a hidden node. -/
theorem accessNode_reloads :
    Runs.Always (Built.step pairedEnv) (Reloads pairedEnv accessesJson "net" "10.1.0.0/16")
      ⟨emptySession, []⟩
      [.addNode 11 false "" "10.1.2.0/24" [], .addAccess 11 true, .addNode 12 false "" "" []] := by
  apply network_reloads rfl pairedEnv_public
  refine Runs.eachMeets_cons.mpr ⟨?_, Runs.eachMeets_cons.mpr ⟨?_,
    Runs.eachMeets_cons.mpr ⟨?_, Runs.eachMeets_nil⟩⟩⟩
  · decide +kernel
  · decide +kernel
  · decide +kernel

/-- Metadata without user accesses. -/
def plainJson : MetadataJson where
  network accesses _ :=
    if accesses = [] then some "\x7b\"version\":3,\"user_accesses\":[]\x7d" else none
  networkLight _ := none

/-- The workload of a node as the contract has it. -/
def savedWorkload (n : Network) (p : Nat × Workload) : Workload :=
  match n.updateWorkload plainJson p.1 { p.2 with version := 0, metadata := "" } with
  | .ok w => { w with data := onWire w.data, result := some ⟨0, .ok, ""⟩ }
  | .error _ => p.2

/-- A contract for each workload, with the number of its node. -/
def savedSource (b : Built) : NetworkSource where
  contracts := b.workloads.map fun p => ⟨p.1, p.1, 0, ⟨"network", b.session.network.name, none⟩⟩
  answers := {
    nodeTwin := fun _ => .ok ⟨⟩
    deployment := fun id =>
      .ok ⟨0, 1, some id, 0, "", "", (b.workloads.find? (·.1 = id)).toList.map
        (savedWorkload b.session.network), ⟨[], 1, []⟩⟩
    privateIps := fun _ _ => .ok [] }
  stored := none
  contractExists _ := .ok true
  dump := .ok ⟨⟩
  userAccesses text := if text = "\x7b\"version\":3,\"user_accesses\":[]\x7d" then some [] else none

theorem written_saved {b : Built} (hids : (b.workloads.map Prod.fst).Nodup)
    (hok : ∀ p ∈ b.workloads, ((b.session.network.updateWorkload plainJson p.1
      { p.2 with version := 0, metadata := "" }).toOption).isSome = true) :
    Written plainJson (savedSource b) b.session.network b.workloads := by
  refine ⟨⟨(savedSource b).contracts, ?_, ?_⟩, fun _ => rfl⟩
  · unfold contractsNamed
    rw [List.filter_eq_self.mpr]
    intro c hc
    obtain ⟨p, -, rfl⟩ := List.mem_map.mp hc
    exact decide_eq_true rfl
  · show List.Forall₂ _ b.workloads (b.workloads.map _)
    rw [List.forall₂_map_right_iff, List.forall₂_same]
    intro p hp
    have hfind : b.workloads.find? (·.1 = p.1) = some p := by
      cases hfind : b.workloads.find? (·.1 = p.1) with
      | none =>
        have hnot := List.find?_eq_none.mp hfind p hp
        simp at hnot
      | some q =>
        have hid : q.1 = p.1 := by simpa using List.find?_some hfind
        exact congrArg some (List.inj_on_of_nodup_map hids (List.mem_of_find?_eq_some hfind) hp hid)
    cases hupdate : b.session.network.updateWorkload plainJson p.1
        { p.2 with version := 0, metadata := "" } with
    | error e =>
      have hsome := hok p hp
      rw [hupdate] at hsome
      cases hsome
    | ok w =>
      refine ⟨rfl, ⟨_, [], w, [], 0, "", ⟨0, .ok, ""⟩, rfl, hupdate, ?_, by decide, ?_⟩, [], rfl⟩
      · show (b.workloads.find? (·.1 = p.1)).toList.map (savedWorkload b.session.network) = _
        rw [hfind]
        show [savedWorkload b.session.network p] = _
        unfold savedWorkload
        rw [hupdate]
        rfl
      · intro other hother
        cases hother

/-- Two nodes that are given one subnet. -/
def sharedSubnet : Built :=
  [Extension.addNode 11 false "" "10.1.2.0/24" [], .addNode 12 false "" "10.1.2.0/24" []].foldl
    (Built.step pairedEnv) ⟨emptySession, []⟩

/-- The workload of the second one gets the data of the first. -/
theorem sharedSubnet_not_reloaded :
    ¬ Runs.Always (Built.step pairedEnv) (Reloads pairedEnv plainJson "net" "10.1.0.0/16")
      ⟨emptySession, []⟩
      [.addNode 11 false "" "10.1.2.0/24" [], .addNode 12 false "" "10.1.2.0/24" []] := by
  intro h
  have hreloads : Reloads pairedEnv plainJson "net" "10.1.0.0/16" sharedSubnet :=
    h _ (List.prefix_refl _)
  have hwritten : Written plainJson (savedSource sharedSubnet) sharedSubnet.session.network
      sharedSubnet.workloads := by
    apply written_saved
    · decide +kernel
    · decide +kernel
  have hjson : ∀ accesses text printed, plainJson.network accesses text = some printed →
      (savedSource sharedSubnet).userAccesses printed = some accesses := by
    intro accesses text printed hprinted
    simp only [plainJson] at hprinted
    split at hprinted
    · rename_i hempty
      obtain rfl := Option.some.inj hprinted
      rw [hempty]
      rfl
    · cases hprinted
  have hdistinct : DistinctKeys pairedEnv sharedSubnet.session.network := by
    unfold DistinctKeys
    decide +kernel
  obtain ⟨n, hload, hsame⟩ := hreloads _ hjson hdistinct hwritten
  have hnot : (match (Network.fresh "net" "10.1.0.0/16").load (savedSource sharedSubnet) pairedEnv with
    | .ok n => decide (n.networks.Perm sharedSubnet.session.network.networks)
    | .error _ => false) = false := by decide +kernel
  rw [hload] at hnot
  exact of_decide_eq_false hnot hsame.networks

end ThreefoldSdk.HighLevel
