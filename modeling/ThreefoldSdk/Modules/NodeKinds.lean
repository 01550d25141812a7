import ThreefoldSdk.HighLevel.VmLightNetwork
import ThreefoldSdk.Modules.Creations

/-! The kinds of nodes, and when `MachinesModule._createDeployment` gives each node workloads of its
own kind. -/

namespace ThreefoldSdk.Modules
open Zos Primitives HighLevel Frame

/-- A node has either `network` and `zmachine`, or `network-light` and `zmachine-light`. -/
inductive NodeKind where
  | full
  | light
deriving DecidableEq, Repr

namespace NodeKind

def networkType : NodeKind → WorkloadTypes
  | full => .network
  | light => .networklight

def machineType : NodeKind → WorkloadTypes
  | full => .zmachine
  | light => .zmachinelight

/-- The metadata of a network's contract. -/
def networkContract (kind : NodeKind) (name projectName : String) : ContractMetadata :=
  match kind with
  | full => ⟨.zos3, "network", name, projectName⟩
  | light => ⟨.zos4, "network-light", name, projectName⟩

/-- A network or a machine of the type is one of the kind. -/
structure Has (kind : NodeKind) (type : WorkloadTypes) : Prop where
  network : type = .network ∨ type = .networklight → type = kind.networkType
  machine : type = .zmachine ∨ type = .zmachinelight → type = kind.machineType

end NodeKind

/-- What one call of `VMHL.create` meets: the answers of the nodes, what the network object
remembers, and the error of a check that refuses. -/
structure VmWorld where
  network : NetworkEnv
  endpoints : List (Nat × Option String)
  accessNodes : List Nat
  clock : Nat
  isKnown : Bool
  randomSeed : String
  refused : Option GridError
  answers : VmAnswers

/-- The grid, with the arguments of a machines model that the options of a machine leave out. -/
structure Grid where
  twinId : Nat
  projectName : String
  validators : Validators
  kind : Nat → NodeKind
  wireguard : Nat → Bool
  lookupFails : Nat → Option GridError
  load : Bool → String → String → Except GridError AnyNetwork
  world : AnyNetwork → VmOptions → VmWorld
  myceliumSeeds : List MyceliumNetworkModel
  addAccess : Bool
  accessNodeId : Nat
  ip : VmOptions → String

namespace Grid

def features (g : Grid) (nodeId : Nat) : List Features :=
  (match g.kind nodeId with
  | .full => [.network, .zmachine]
  | .light => []) ++ if g.wireguard nodeId then [.wireguard] else []

def vmEnv (g : Grid) (w : VmWorld) (o : VmOptions) : VmNetworkEnv where
  network := w.network
  validators := g.validators
  isKnown := w.isKnown
  twinId := g.twinId
  projectName := g.projectName
  features := g.features o.nodeId

def networkOptions (g : Grid) (o : VmOptions) : VmNetworkOptions where
  nodeId := o.nodeId
  mycelium := o.mycelium
  myceliumSeeds := g.myceliumSeeds
  description := o.description
  addAccess := g.addAccess
  accessNodeId := g.accessNodeId
  ip := g.ip o
  solutionProviderId := o.solutionProviderId

/-- The part of `create` on the network, of either class. -/
def joinNetwork (g : Grid) (w : VmWorld) (o : VmOptions) :
    AnyNetwork → Except GridError (List NetworkOperation × String × Option String × AnyNetwork)
  | .network n =>
    match vmNetwork (g.vmEnv w o) (g.networkOptions o) ⟨n, w.endpoints, w.accessNodes, w.clock⟩ with
    | .ok (ops, wgConfig, ip) s => .ok (ops, wgConfig, ip, .network s.network)
    | .error e _ => .error e
  | .light n => do
    let (ops, ip, n) ← vmLightNetwork (g.vmEnv w o) (g.networkOptions o) w.randomSeed n
    return (ops, "", ip, .light n)

/-- Every operation updates a deployment, or makes a contract for one network workload. -/
def NetworkOnly (ops : List NetworkOperation) : Prop :=
  ∀ op ∈ ops, op.operation = .deploy → ∃ w, op.deployment.workloads = [w] ∧ isAnyNetwork w = true

theorem networkOnly_of_deploysOn {env : VmNetworkEnv} {o : VmNetworkOptions} {type : WorkloadTypes}
    {P : Nat → Prop} {op : NetworkOperation} (h : DeploysOn env o type P op)
    (htype : type = .network ∨ type = .networklight) :
    ∃ w, op.deployment.workloads = [w] ∧ isAnyNetwork w = true := by
  obtain ⟨nodeId, w, name, -, hw, rfl⟩ := h
  refine ⟨w, rfl, decide_eq_true ?_⟩
  rw [hw]
  exact htype

theorem joinNetwork_networkOnly {g : Grid} {w : VmWorld} {o : VmOptions} {n n' : AnyNetwork}
    {ops : List NetworkOperation} {wgConfig : String} {ip : Option String}
    (h : g.joinNetwork w o n = .ok (ops, wgConfig, ip, n')) : NetworkOnly ops := by
  intro op hop hdeploy
  cases n with
  | network n =>
    unfold joinNetwork at h
    dsimp only at h
    split at h
    · rename_i hrun
      cases h
      have hextended := vmNetwork_extended (P := fun _ => True) trivial (fun _ _ _ _ _ => trivial) hrun
      rcases hextended.operations op hop with ⟨hupdate, -⟩ | hdeploys
      · rw [hupdate] at hdeploy
        cases hdeploy
      · exact networkOnly_of_deploysOn hdeploys (Or.inl rfl)
    · cases h
  | light n =>
    obtain ⟨⟨ops', ip', n₁⟩, hrun, h⟩ := exceptBind_eq_ok.mp h
    cases h
    rcases (vmLightNetwork_extended hrun).operations op hop with ⟨hupdate, -⟩ | hdeploys
    · rw [hupdate] at hdeploy
      cases hdeploy
    · exact networkOnly_of_deploysOn hdeploys (Or.inr rfl)

/-- The deployments for the network, on the network as the call leaves it. -/
def networkDeployments (g : Grid) (o : VmOptions) (ops : List NetworkOperation) (n : AnyNetwork) :
    List TwinDeployment :=
  ops.map (·.twin (networkMetadata (g.features o.nodeId) n.name g.projectName).toText n)

/-- `VMHL.create` on the grid. -/
def vm (g : Grid) (n : AnyNetwork) (o : VmOptions) : Except GridError VmCall :=
  let w := g.world n o
  match w.refused with
  | some e => .error e
  | none =>
    match h : g.joinNetwork w o n with
    | .error e => .error e
    | .ok (ops, wgConfig, ip, n') => .ok {
        answers := { w.answers with
          zmachine := decide (.zmachine ∈ g.features o.nodeId)
          machineIp := ip.getD "undefined" }
        networkDeployments := g.networkDeployments o ops n'
        wgConfig := wgConfig
        network := n'
        networkOnly := by
          intro t ht hdeploy
          obtain ⟨op, hop, rfl⟩ := List.mem_map.mp ht
          exact joinNetwork_networkOnly h op hop hdeploy }

def env (g : Grid) : CreationEnv where
  twinId := g.twinId
  light nodeId :=
    match g.lookupFails nodeId with
    | some e => .error e
    | none => .ok (decide (g.kind nodeId = .light))
  load := g.load
  vm := g.vm

end Grid

/-- A new deployment has workloads of its node's kind, and with a network it is under a contract of
that type; one that is updated has workloads of the kind of the node it lies on. -/
structure OwnKind (kind : Nat → NodeKind) (t : TwinDeployment) : Prop where
  deployed : t.operation = .deploy → ∀ w ∈ t.workloads, (kind t.nodeId).Has w.type
  contract : t.operation = .deploy → t.workloads.any isAnyNetwork = true →
    ∃ name projectName, t.metadata = ((kind t.nodeId).networkContract name projectName).toText
  updated : t.operation = .update → ∃ network d, t.network = some network ∧
    d ∈ network.deployments ∧ d.deployment.contractId = t.contractId ∧
    ∀ w ∈ t.workloads, (kind d.nodeId).Has w.type

def hasNode : AnyNetwork → Nat → Bool
  | .network n => n.nodeExists
  | .light n => n.nodeExists

/-- The network is of the class for the kind, and its nodes and workloads are of the kind. -/
structure AllOfKind (kind : Nat → NodeKind) (k : NodeKind) (n : AnyNetwork) : Prop where
  cls : n.isNetwork = decide (k = .full)
  nodes : ∀ nodeId, hasNode n nodeId = true → kind nodeId = k
  deployments : ∀ d ∈ n.deployments, kind d.nodeId = k ∧ ∀ w ∈ d.deployment.workloads, k.Has w.type

/-- What a node accepts is of its kind, so all that is loaded is; nodes that offer access with an
ipv4 are full ones. -/
structure Grid.Consistent (g : Grid) : Prop where
  load : ∀ light name ipRange n, g.load light name ipRange = .ok n →
    AllOfKind g.kind (if light then .light else .full) n
  accessNodes : ∀ n o clock offered, (g.world n o).network.accessNodes clock = .ok offered →
    ∀ nodeId ∈ offered.map Prod.fst, g.kind nodeId = .full

/-! One call. -/

section
variable {g : Grid} {kind : Nat → NodeKind} {k : NodeKind} {o : VmOptions} {n n' : AnyNetwork}
  {ops : List NetworkOperation} {wgConfig : String}

theorem NodeKind.networkType_injective : Function.Injective NodeKind.networkType := by
  intro k k' h
  cases k <;> cases k' <;> first | rfl | cases h

theorem NodeKind.has_networkType (k : NodeKind) : k.Has k.networkType := by
  cases k with
  | full => exact ⟨fun _ => rfl, by rintro (h | h) <;> cases h⟩
  | light => exact ⟨fun _ => rfl, by rintro (h | h) <;> cases h⟩

/-- What comes with a machine is of its kind, and no network. -/
theorem NodeKind.has_machine {k : NodeKind} {type : WorkloadTypes}
    (h : type = k.machineType ∨ type = .zmount ∨ type = .qsfs ∨ type = .ip ∨ type = .zlogs) :
    k.Has type ∧ type ≠ .network ∧ type ≠ .networklight := by
  cases k <;> rcases h with rfl | rfl | rfl | rfl | rfl <;>
    exact ⟨⟨by decide, by decide⟩, by decide, by decide⟩

theorem NodeKind.eq_of_has {k k' : NodeKind} (h : k.Has k'.networkType) : k' = k := by
  apply NodeKind.networkType_injective
  apply h.network
  cases k' with
  | full => exact Or.inl rfl
  | light => exact Or.inr rfl

theorem Grid.network_mem_features (g : Grid) (nodeId : Nat) :
    (.network ∈ g.features nodeId ↔ g.kind nodeId = .full) ∧
      (.zmachine ∈ g.features nodeId ↔ g.kind nodeId = .full) := by
  unfold Grid.features
  cases g.kind nodeId <;> cases g.wireguard nodeId <;> decide

theorem Grid.eq_of_light {nodeId : Nat} {light : Bool} (h : g.env.light nodeId = .ok light) :
    decide (g.kind nodeId = NodeKind.light) = light := by
  change (match g.lookupFails nodeId with
    | some e => Except.error e
    | none => .ok (decide (g.kind nodeId = NodeKind.light))) = .ok light at h
  split at h
  · cases h
  · exact Except.ok.inj h

theorem networkMetadata_eq (g : Grid) (nodeId : Nat) (name : String) :
    networkMetadata (g.features nodeId) name g.projectName =
      (g.kind nodeId).networkContract name g.projectName := by
  unfold networkMetadata
  by_cases hfull : g.kind nodeId = .full
  · rw [if_pos ((g.network_mem_features nodeId).1.mpr hfull), hfull]
    rfl
  · rw [if_neg ((g.network_mem_features nodeId).1.not.mpr hfull)]
    cases hkind : g.kind nodeId with
    | full => exact absurd hkind hfull
    | light => rfl

/-- The nodes and types in the outlines of deployments are of the kind. -/
def OutlinesOfKind (kind : Nat → NodeKind) (k : NodeKind)
    (xs : List (Nat × Option Nat × List WorkloadTypes)) : Prop :=
  ∀ x ∈ xs, kind x.1 = k ∧ ∀ type ∈ x.2.2, k.Has type

theorem outlinesOfKind_iff {ds : List NetworkDeployment} :
    OutlinesOfKind kind k (ds.map deploymentOutline) ↔
      ∀ d ∈ ds, kind d.nodeId = k ∧ ∀ w ∈ d.deployment.workloads, k.Has w.type := by
  constructor
  · intro h d hd
    obtain ⟨hnode, htypes⟩ := h _ (List.mem_map_of_mem hd)
    exact ⟨hnode, fun w hw => htypes _ (List.mem_map_of_mem hw)⟩
  · intro h x hx
    obtain ⟨d, hd, rfl⟩ := List.mem_map.mp hx
    refine ⟨(h d hd).1, fun type htype => ?_⟩
    obtain ⟨w, hw, rfl⟩ := List.mem_map.mp htype
    exact (h d hd).2 w hw

/-- An operation on the network, whose nodes have the kind. -/
inductive OfKind (g : Grid) (k : NodeKind) (o : VmOptions) (ds : List NetworkDeployment)
    (op : NetworkOperation) : Prop where
  | update (h : op.operation = .update) (nodeId : Nat)
      (hin : (nodeId, op.deployment.contractId, op.deployment.workloads.map (·.type)) ∈
        ds.map deploymentOutline)
  | deploy {env : VmNetworkEnv} {options : VmNetworkOptions}
      (h : DeploysOn env options k.networkType (fun nodeId => g.kind nodeId = k) op)

theorem ownKind_twin {op : NetworkOperation} (hk : g.kind o.nodeId = k)
    (hds : OutlinesOfKind g.kind k (n.deployments.map deploymentOutline))
    (h : OfKind g k o n.deployments op) :
    OwnKind g.kind (op.twin (networkMetadata (g.features o.nodeId) n.name g.projectName).toText n) := by
  rw [networkMetadata_eq, hk]
  cases h with
  | update h nodeId hin =>
    refine ⟨fun hdeploy => ?_, fun hdeploy => ?_, fun _ => ?_⟩
    · exact absurd (h.symm.trans hdeploy) (by decide)
    · exact absurd (h.symm.trans hdeploy) (by decide)
    · obtain ⟨hnode, htypes⟩ := hds _ hin
      obtain ⟨d, hd, heq⟩ := List.mem_map.mp hin
      have hid : d.nodeId = nodeId := congrArg Prod.fst heq
      have hcontract : d.deployment.contractId = op.deployment.contractId :=
        congrArg (fun x => x.2.1) heq
      refine ⟨n, d, rfl, hd, hcontract, fun w hw => ?_⟩
      rw [hid, hnode]
      exact htypes _ (List.mem_map_of_mem hw)
  | deploy h =>
    obtain ⟨nodeId, w, name, hnode, htype, rfl⟩ := h
    have hnode' : g.kind nodeId = k := hnode
    refine ⟨fun _ w' hw' => ?_, fun _ _ => ⟨n.name, g.projectName, ?_⟩, fun hupdate => ?_⟩
    · rw [List.mem_singleton.mp hw', htype]
      show (g.kind nodeId).Has _
      rw [hnode']
      exact k.has_networkType
    · show _ = ((g.kind nodeId).networkContract _ _).toText
      rw [hnode']
      rfl
    · exact absurd (show Operations.deploy = .update from hupdate) (by decide)

theorem hasNode_iff (n : Network) (nodeId : Nat) :
    hasNode (.network n) nodeId = true ↔ ∃ x ∈ (networkOutline n).seats, x.1 = some nodeId := by
  change (n.networks.any fun z => decide (z.nodeId = some nodeId)) = true ↔ _
  rw [List.any_eq_true]
  constructor
  · rintro ⟨z, hz, hid⟩
    exact ⟨_, List.mem_map_of_mem hz, of_decide_eq_true hid⟩
  · rintro ⟨x, hx, hid⟩
    obtain ⟨z, hz, rfl⟩ := List.mem_map.mp hx
    exact ⟨z, hz, decide_eq_true hid⟩

/-- A machine on a node of the network's kind extends it within the kind; on another node its
network workload is of the wrong kind. -/
theorem joinNetwork_kinds (hg : g.Consistent) {ip : Option String}
    (hn : AllOfKind g.kind k n)
    (h : g.joinNetwork (g.world n o) o n = .ok (ops, wgConfig, ip, n')) :
    (g.kind o.nodeId = k → AllOfKind g.kind k n' ∧ ∀ op ∈ ops, OfKind g k o n'.deployments op) ∧
    (g.kind o.nodeId ≠ k → ∃ op ∈ ops, op.nodeId = o.nodeId ∧ ∃ env options P,
      DeploysOn env options k.networkType P op) := by
  cases n with
  | network m =>
    have hk : k = .full := of_decide_eq_true hn.cls.symm
    subst hk
    have hnodes := hn.nodes
    have hds : OutlinesOfKind g.kind .full (networkOutline m).deployments :=
      outlinesOfKind_iff.mpr hn.deployments
    unfold Grid.joinNetwork at h
    dsimp only at h
    split at h
    · rename_i s hrun
      cases h
      constructor
      · intro hkind
        obtain ⟨hdeployments, hseats, hops, -⟩ :=
          vmNetwork_extended (P := fun nodeId => g.kind nodeId = .full) hkind
            (hg.accessNodes (.network m) o) hrun
        refine ⟨⟨rfl, fun nodeId hnode => ?_, ?_⟩, fun op hop => ?_⟩
        · obtain ⟨x, hx, hid⟩ := (hasNode_iff _ _).mp hnode
          rcases hseats x hx with hx | ⟨i, hi, hkind⟩
          · exact hnodes nodeId ((hasNode_iff _ _).mpr ⟨x, hx, hid⟩)
          · rw [hid] at hi
            obtain rfl := Option.some.inj hi
            exact hkind
        · apply outlinesOfKind_iff.mp
          change OutlinesOfKind g.kind .full (networkOutline s.network).deployments
          rw [hdeployments]
          exact hds
        · rcases hops op hop with ⟨hupdate, nodeId, hin⟩ | hdeploys
          · rw [← hdeployments] at hin
            exact .update hupdate nodeId hin
          · exact .deploy hdeploys
      · intro hkind
        have hnew : m.nodeExists o.nodeId = false :=
          Bool.eq_false_iff.mpr fun hexists => hkind (hnodes o.nodeId hexists)
        obtain ⟨op, hop, hid, hdeploys⟩ := (vmNetwork_extended (P := fun _ => True) trivial
          (fun _ _ _ _ _ => trivial) hrun).own hnew
        exact ⟨op, hop, hid, _, _, _, hdeploys⟩
    · cases h
  | light m =>
    have hk : k = .light := by
      cases k with
      | full => cases hn.cls
      | light => rfl
    subst hk
    obtain ⟨⟨ops', ip', m'⟩, hrun, h⟩ := exceptBind_eq_ok.mp h
    cases h
    obtain ⟨houtline, hops, hown⟩ := vmLightNetwork_extended hrun
    have hids : m'.nodeIds = m.nodeIds := congrArg Prod.fst houtline
    have hdeployments : m'.deployments.map deploymentOutline = m.deployments.map deploymentOutline :=
      congrArg Prod.snd houtline
    constructor
    · intro hkind
      refine ⟨⟨rfl, fun nodeId hnode => ?_, ?_⟩, fun op hop => ?_⟩
      · apply hn.nodes nodeId
        change m'.nodeExists nodeId = true at hnode
        unfold ZNetworkLight.nodeExists at hnode
        rw [hids] at hnode
        exact hnode
      · apply outlinesOfKind_iff.mp
        change OutlinesOfKind g.kind .light (m'.deployments.map deploymentOutline)
        rw [hdeployments]
        exact outlinesOfKind_iff.mpr hn.deployments
      · rcases hops op hop with ⟨hupdate, nodeId, hin⟩ | ⟨nodeId, w, name, hid, htype, hop⟩
        · rw [← hdeployments] at hin
          exact .update hupdate nodeId hin
        · refine .deploy ⟨nodeId, w, name, ?_, htype, hop⟩
          have hid' : nodeId = o.nodeId := hid
          rw [hid']
          exact hkind
    · intro hkind
      have hnew : m.nodeExists o.nodeId = false :=
        Bool.eq_false_iff.mpr fun hexists => hkind (hn.nodes o.nodeId hexists)
      obtain ⟨op, hop, hdeploys⟩ := hown hnew
      have hid : op.nodeId = o.nodeId := by
        obtain ⟨nodeId, w, name, hid, -, rfl⟩ := hdeploys
        exact hid
      exact ⟨op, hop, hid, _, _, _, hdeploys⟩

/-- The machine itself is of the kind of its node. -/
theorem ownKind_machine {answers : VmAnswers} {t : TwinDeployment}
    (hanswers : answers.zmachine = decide (.zmachine ∈ g.features o.nodeId))
    (h : o.create g.twinId answers n = .ok t) : OwnKind g.kind t := by
  obtain ⟨ws, hws, hrest⟩ := exceptBind_eq_ok.mp h
  cases hrest
  obtain ⟨qsfs, rfl, hqsfs⟩ := VmOptions.workloads_ok hws
  have hvm : (o.vmWorkload answers n.name).type = (g.kind o.nodeId).machineType := by
    unfold VmOptions.vmWorkload
    rw [hanswers]
    cases hkind : g.kind o.nodeId with
    | full =>
      rw [decide_eq_true ((g.network_mem_features o.nodeId).2.mpr hkind), if_pos rfl]
      rfl
    | light =>
      have hnot : .zmachine ∉ g.features o.nodeId := by
        rw [(g.network_mem_features o.nodeId).2, hkind]
        decide
      rw [decide_eq_false hnot, if_neg Bool.false_ne_true]
      rfl
  have htypes : ∀ w ∈ o.diskWorkloads ++ qsfs ++ o.ipWorkloads ++ [o.vmWorkload answers n.name] ++
      o.zlogsWorkloads, w.type = (g.kind o.nodeId).machineType ∨ w.type = .zmount ∨
        w.type = .qsfs ∨ w.type = .ip ∨ w.type = .zlogs := by
    intro w hw
    rcases List.mem_append.mp hw with hw | hw
    · rcases List.mem_append.mp hw with hw | hw
      · rcases List.mem_append.mp hw with hw | hw
        · rcases List.mem_append.mp hw with hw | hw
          · obtain ⟨d, -, rfl⟩ := List.mem_map.mp hw
            exact Or.inr (Or.inl rfl)
          · obtain ⟨d, -, -, htype⟩ := Forall2.exists_left hqsfs hw
            exact Or.inr (Or.inr (Or.inl htype))
        · exact Or.inr (Or.inr (Or.inr (Or.inl (VmOptions.type_of_mem_ip hw))))
      · rw [List.mem_singleton.mp hw]
        exact Or.inl hvm
    · exact Or.inr (Or.inr (Or.inr (Or.inr (VmOptions.type_of_mem_zlogs hw))))
  refine ⟨fun _ w hw => (NodeKind.has_machine (htypes w hw)).1, fun _ hany => ?_, fun hupdate => ?_⟩
  · obtain ⟨w, hw, hisnet⟩ := List.any_eq_true.mp hany
    obtain ⟨-, hnot, hnot'⟩ := NodeKind.has_machine (htypes w hw)
    rcases of_decide_eq_true hisnet with htype | htype
    · exact absurd htype hnot
    · exact absurd htype hnot'
  · exact absurd (show Operations.deploy = .update from hupdate) (by decide)

/-- One machine: all that is emitted is of its node's kind exactly when that is the network's. -/
theorem vmCreate_kinds (hg : g.Consistent) (hn : AllOfKind g.kind k n) {ts : List TwinDeployment}
    (h : vmCreate g.env n o = .ok (ts, wgConfig, n')) :
    (g.kind o.nodeId = k → AllOfKind g.kind k n' ∧ ∀ t ∈ ts, OwnKind g.kind t) ∧
    (g.kind o.nodeId ≠ k → ∃ t ∈ ts, ¬OwnKind g.kind t) := by
  obtain ⟨call, hcall, h⟩ := exceptBind_eq_ok.mp h
  obtain ⟨t, ht, h⟩ := exceptBind_eq_ok.mp h
  cases h
  change g.vm n o = .ok call at hcall
  unfold Grid.vm at hcall
  dsimp only at hcall
  split at hcall
  · cases hcall
  split at hcall
  · cases hcall
  rename_i ops wgConfig' ip n' hjoin
  cases hcall
  obtain ⟨hsame, hother⟩ := joinNetwork_kinds hg hn hjoin
  constructor
  · intro hkind
    obtain ⟨hn', hops⟩ := hsame hkind
    refine ⟨hn', fun t' ht' => ?_⟩
    rcases List.mem_append.mp ht' with ht' | ht'
    · obtain ⟨op, hop, rfl⟩ := List.mem_map.mp ht'
      exact ownKind_twin hkind (outlinesOfKind_iff.mpr hn'.deployments) (hops op hop)
    · rw [List.mem_singleton.mp ht']
      exact ownKind_machine rfl ht
  · intro hkind
    obtain ⟨op, hop, hid, env, options, P, nodeId, w, name, -, htype, rfl⟩ := hother hkind
    refine ⟨_, List.mem_append_left _ (List.mem_map_of_mem hop), fun hown => hkind ?_⟩
    have hhas := hown.deployed rfl w (List.mem_singleton_self w)
    rw [htype] at hhas
    have hnode : nodeId = o.nodeId := hid
    rw [← hnode]
    exact (NodeKind.eq_of_has hhas).symm

theorem createMachines_kinds (hg : g.Consistent) (hn : AllOfKind g.kind k n) {text : String}
    {model : MachinesModel} {ms : List VmOptions} {names : List String} {ts : List TwinDeployment}
    (h : createMachines g.env text model names n ms = .ok (ts, n', wgConfig)) :
    (∀ t ∈ ts, OwnKind g.kind t) ↔ ∀ m ∈ ms, g.kind m.nodeId = k := by
  induction ms generalizing n n' names ts wgConfig with
  | nil =>
    cases h
    exact iff_of_true (fun t ht => absurd ht List.not_mem_nil)
      fun m hm => absurd hm List.not_mem_nil
  | cons m ms ih =>
    unfold createMachines at h
    split_ifs at h
    · cases h
    obtain ⟨⟨ts₁, wg₁, n₁⟩, hcreate, hrest⟩ := exceptBind_eq_ok.mp h
    obtain ⟨⟨ts₂, n₂, wg₂⟩, hms, hrest⟩ := exceptBind_eq_ok.mp hrest
    cases hrest
    obtain ⟨hsame, hother⟩ := vmCreate_kinds hg hn hcreate
    by_cases hkind : g.kind m.nodeId = k
    · obtain ⟨hn₁, hown⟩ := hsame hkind
      rw [List.forall_mem_append, List.forall_mem_cons, ih hn₁ hms]
      exact ⟨fun h => ⟨hkind, h.2⟩, fun h => ⟨hown, h.2⟩⟩
    · obtain ⟨t, ht, hnot⟩ := hother hkind
      exact iff_of_false (fun h => hnot (h t (List.mem_append_left _ ht)))
        fun h => hkind (h m List.mem_cons_self)

/-- All that is emitted is of the kind of its node exactly when the nodes of the machines are of one
kind. -/
theorem machinesDeployment_ownKind_iff (hg : g.Consistent) {model : MachinesModel}
    {ts : List TwinDeployment} {network : Option AnyNetwork}
    (h : machinesDeployment g.env g.projectName model = .ok (ts, network, wgConfig)) :
    (∀ t ∈ ts, OwnKind g.kind t) ↔
      ∀ m ∈ model.machines, ∀ m' ∈ model.machines, g.kind m.nodeId = g.kind m'.nodeId := by
  unfold machinesDeployment at h
  cases hms : model.machines with
  | nil =>
    rw [hms] at h
    cases h
    exact iff_of_true (fun t ht => absurd ht List.not_mem_nil)
      fun m hm => absurd hm List.not_mem_nil
  | cons first rest =>
    rw [hms] at h
    obtain ⟨⟨n, light⟩, hopen, h⟩ := exceptBind_eq_ok.mp h
    obtain ⟨⟨ts', n', wg'⟩, hcreate, h⟩ := exceptBind_eq_ok.mp h
    cases h
    obtain ⟨light', hlight, hopen⟩ := exceptBind_eq_ok.mp hopen
    obtain ⟨loaded, hload, hopen⟩ := exceptBind_eq_ok.mp hopen
    cases hopen
    -- the class of the network is that of the first machine's node
    have hkind : (if light then NodeKind.light else .full) = g.kind first.nodeId := by
      rw [← Grid.eq_of_light hlight]
      cases g.kind first.nodeId <;> rfl
    have hn : AllOfKind g.kind (g.kind first.nodeId) n := by
      rw [← hkind]
      exact hg.load _ _ _ _ hload
    rw [createMachines_kinds hg hn hcreate]
    constructor
    · intro h m hm m' hm'
      rw [h m hm, h m' hm']
    · intro h m hm
      exact h m hm first List.mem_cons_self

end

/-! Machines on fresh networks. -/

/-- Node 13 is a light one, the rest are full. -/
def mixedGrid : Grid where
  twinId := 7
  projectName := ""
  validators := anyText
  kind nodeId := if nodeId = 13 then .light else .full
  wireguard nodeId := decide (nodeId ≠ 13)
  lookupFails _ := none
  load light name ipRange := .ok (if light then .light ⟨name, ipRange, none, none, [], none, []⟩
    else .network ⟨name, ipRange, [], [], [], [], [], []⟩)
  world _ _ := ⟨sampleNetworkEnv, [], [], 0, true, "seed", none,
    ⟨true, true, "", "", fun _ => ([], []), id, fun name _ => name⟩⟩
  myceliumSeeds := []
  addAccess := false
  accessNodeId := 0
  ip _ := ""

theorem mixedGrid_consistent : mixedGrid.Consistent where
  load light name ipRange n h := by
    cases h
    cases light with
    | true => exact ⟨rfl, nofun, nofun⟩
    | false => exact ⟨rfl, nofun, nofun⟩
  accessNodes n o clock offered h nodeId hnode := by
    cases h
    rw [List.mem_singleton.mp hnode]
    rfl

def plainMachine (name : String) (nodeId : Nat) : VmOptions where
  name := name
  nodeId := nodeId
  flist := ""
  cpu := 1
  memory := 1024
  rootfsSize := 2 * 1024 ^ 3
  disks := []
  publicIp := false
  publicIp6 := false
  planetary := false
  mycelium := true
  entrypoint := ""
  env := ⟨[], List.nodup_nil⟩
  contractMetadata := ""
  metadata := ""
  description := ""
  qsfsDisks := []
  corex := false
  solutionProviderId := none
  zlogsOutput := ""
  gpus := []

/-- A machine on each of the two nodes. -/
def machinesOn (first second : Nat) : MachinesModel :=
  ⟨"web", ⟨"net", "10.1.0.0/16"⟩, [plainMachine "web1" first, plainMachine "web2" second], "", ""⟩

theorem fullNodes_ownKind : ∃ ts network wg,
    machinesDeployment mixedGrid.env "" (machinesOn 11 12) = .ok (ts, network, wg) ∧
      ∀ t ∈ ts, OwnKind mixedGrid.kind t := by
  have hreturns : (machinesDeployment mixedGrid.env "" (machinesOn 11 12)).isOk = true := by
    decide +kernel
  obtain ⟨⟨ts, network, wg⟩, h⟩ := exists_of_isOk hreturns
  refine ⟨ts, network, wg, h, (machinesDeployment_ownKind_iff mixedGrid_consistent h).mpr ?_⟩
  decide

/-- The second machine's node is a full one and gets a `network-light`. -/
theorem mixedNodes_not_ownKind : ¬∀ (g : Grid) (model : MachinesModel) (ts : List TwinDeployment)
    (network : Option AnyNetwork) (wg : String), g.Consistent →
      machinesDeployment g.env g.projectName model = .ok (ts, network, wg) →
        ∀ t ∈ ts, OwnKind g.kind t := by
  intro h
  have hmixed : (machinesDeployment mixedGrid.env "" (machinesOn 13 11)).toOption.any (fun r =>
      r.1.any fun t => decide (t.operation = .deploy ∧ t.nodeId = 11 ∧
        ∃ w ∈ t.workloads, w.type = .networklight)) = true := by
    decide +kernel
  obtain ⟨⟨ts, network, wg⟩, hrun, hmixed⟩ := exists_of_toOption_any hmixed
  obtain ⟨t, ht, hlight⟩ := List.any_eq_true.mp hmixed
  obtain ⟨hdeploy, hnode, w, hw, htype⟩ := of_decide_eq_true hlight
  have hhas := (h mixedGrid _ ts network wg mixedGrid_consistent hrun t ht).deployed hdeploy w hw
  rw [hnode] at hhas
  have hfull := hhas.network (Or.inr htype)
  rw [htype] at hfull
  cases hfull

end ThreefoldSdk.Modules
