import ThreefoldSdk.HighLevel.FilterWorkloads
import ThreefoldSdk.Primitives.DeleteNode
import ThreefoldSdk.Primitives.FreshlyLoaded

/-! `HighLevelBase._deleteMachineNetwork`: the ips of machines are released, and their node leaves
the network when nothing there needs it. -/

namespace ThreefoldSdk.HighLevel
open Zos Primitives Ipv4 Frame

/-- The variables of the loop. The operations are on one network object, which is put in at the
end. -/
structure Release where
  network : Option AnyNetwork
  operations : List (Deployment × Operations)
  remaining : List Workload
  deletedNodes : List Nat
  deletedIps : List String

structure MachineNetwork where
  twinDeployments : List TwinDeployment
  remaining : List Workload
  deletedNodes : List Nat
  deletedIps : List String
  network : Option AnyNetwork

section
variable (v : Validators) (load : Bool → String → String → Except GridError AnyNetwork)
  (isKnown : Bool) (deployment : Deployment) (nodeId : Nat)

/-- `new Network(..)` or `new ZNetworkLight(..)`, and its `load`. -/
def loadNetwork (workload : Workload) : Except GridError AnyNetwork := do
  let iface ← notNull workload.data.firstInterface
  let ip ← addr iface.ip
  load (decide (workload.type = .zmachinelight)) iface.network (ip.mask 16).toText

/-- Whether the node has to stay: an ip is reserved on it, or it is an access node and not the
last. -/
def staysInNetwork (network : AnyNetwork) : Bool :=
  decide ((network.getNodeReservedIps nodeId).length ≠ 0) ||
    match network with
    | .network n => n.hasAccessPoint nodeId && decide (n.nodes.length ≠ 1)
    | .light _ => false

/-- The deployments of the network under a contract: one that has only the network is deleted,
another one is updated without it. All of them are decoded. -/
def leaveOperations (name : String) (contractId : Option Nat) :
    List NetworkDeployment → Except GridError (List (Deployment × Operations))
  | [] => .ok []
  | d :: ds => do
    let o ← fromObj v d.deployment
    let rest ← leaveOperations name contractId ds
    if o.contractId ≠ contractId then return rest
    else if o.workloads.length = 1 then return (o, .delete) :: rest
    else
      return ({ o with workloads := o.workloads.filter fun item => decide (item.name ≠ name) },
        .update) :: rest

/-- What follows the deletion of the machines' node, whose contract was `contractId`. -/
def leaveNode (machineIp : String) (network : AnyNetwork) (contractId : Option Nat) (st : Release) :
    Except GridError Release :=
  if contractId = deployment.contractId then
    if st.remaining.length = 1 then
      .ok { st with operations := st.operations ++ [(deployment, .delete)], remaining := [] }
    else
      .ok { st with
        remaining := st.remaining.filter fun item => decide (item.name ≠ network.name)
        deletedIps := st.deletedIps ++ [machineIp]
        deletedNodes := st.deletedNodes ++ [nodeId] }
  else do
    let operations ← leaveOperations v network.name contractId network.deployments
    return { st with operations := st.operations ++ operations }

/-- The last node leaves too, if no ip is reserved on it. A loaded node has an id. -/
def leaveLastNode : AnyNetwork → Except GridError (AnyNetwork × List (Deployment × Operations))
  | .light n => .ok (.light n, [])
  | .network n =>
    match n.nodes with
    | [node] =>
      if (n.getNodeReservedIps (node.nodeId.getD 0)).length = 0 then do
        let (contractId, n') ← n.deleteNode isKnown (node.nodeId.getD 0)
        let operations ← leaveOperations v n'.name contractId n'.deployments
        return (.network n', operations)
      else .ok (.network n, [])
    | _ => .ok (.network n, [])

/-- One round, on a network that is loaded. -/
def releaseOn (network : AnyNetwork) (st : Release) (workload : Workload) :
    Except GridError Release := do
  let iface ← notNull workload.data.firstInterface
  let network := network.deleteReservedIp nodeId iface.ip
  let st : Release := { st with
    network := some network
    operations := if st.remaining.length = 0 then st.operations ++ [(deployment, .delete)]
      else st.operations }
  if staysInNetwork nodeId network then return { st with deletedIps := st.deletedIps ++ [iface.ip] }
  else do
    let (contractId, network) ← network.deleteNode isKnown nodeId
    let st ← leaveNode v deployment nodeId iface.ip network contractId st
    let (network, operations) ← leaveLastNode v isKnown network
    return { st with network := some network, operations := st.operations ++ operations }

def releaseMachine (st : Release) (workload : Workload) : Except GridError Release := do
  let network ← match st.network with
    | some n => .ok n
    | none => loadNetwork load workload
  releaseOn v isKnown deployment nodeId network st workload

def deleteMachineNetwork (remainingWorkloads deletedMachineWorkloads : List Workload) :
    Except GridError MachineNetwork := do
  let st ← deletedMachineWorkloads.foldlM (releaseMachine v load isKnown deployment nodeId)
    ⟨none, [], remainingWorkloads, [], []⟩
  return ⟨st.operations.map fun op => .make op.1 op.2 0 0 "" st.network, st.remaining,
    st.deletedNodes, st.deletedIps, st.network⟩

end

/-! When the node should leave, and what the operations do to its network workload. -/

/-- The network after the ips of the machines are released. -/
def releaseIps (nodeId : Nat) (n : Network) (ips : List String) : Network :=
  ips.foldl (fun n ip => n.deleteReservedIp nodeId ip) n

/-- The ips of the machines, each of its first interface. -/
def machineIps (machines : List Workload) : List String :=
  machines.filterMap fun m => m.data.firstInterface.map (·.ip)

/-- No ip remains reserved on the node, and it has no access point or is the only node. -/
def NothingNeeds (n : Network) (nodeId : Nat) (ips : List String) : Prop :=
  (releaseIps nodeId n ips).getNodeReservedIps nodeId = [] ∧
    (n.hasAccessPoint nodeId = false ∨ n.nodes.length = 1)

/-- The operation deletes the deployment of the contract, or leaves it without the network
workload. -/
def TakesOut (name : String) (contractId : Option Nat) (op : Deployment × Operations) : Prop :=
  op.1.contractId = contractId ∧
    (op.2 = .delete ∨ op.2 = .update ∧ ∀ w ∈ op.1.workloads, w.name ≠ name)

/-- The network workload under the contract is removed: where it is in the deployment of the
machines it is not among the remaining workloads, and the deployment is deleted when none remain;
where it is in another deployment, an operation takes it out. -/
def NetworkRemoved (name : String) (deployment : Deployment) (contractId : Option Nat)
    (operations : List (Deployment × Operations)) (remaining : List Workload) : Prop :=
  (deployment.contractId = contractId ∧ (∀ w ∈ remaining, w.name ≠ name) ∧
      (remaining = [] → ∃ op ∈ operations, op.1.contractId = contractId ∧ op.2 = .delete)) ∨
    (deployment.contractId ≠ contractId ∧ ∃ op ∈ operations, TakesOut name contractId op)

def MachineNetwork.operations (r : MachineNetwork) : List (Deployment × Operations) :=
  r.twinDeployments.map fun t => (t.deployment, t.operation)

/-- The network workload of the node is removed exactly when nothing needs it; otherwise no
operation is on its contract; and of no node it both remains and is taken out. -/
structure LeavesRightly (net : Network) (deployment : Deployment) (node : Node) (nodeId : Nat)
    (ips : List String) (r : MachineNetwork) : Prop where
  removed_iff : NetworkRemoved net.name deployment node.contractId r.operations r.remaining ↔
    NothingNeeds net nodeId ips
  untouched : ¬NothingNeeds net nodeId ips →
    ∀ op ∈ r.operations, op.1.contractId ≠ node.contractId
  notBoth : ∀ other ∈ net.nodes, other.contractId = deployment.contractId →
    (∃ w ∈ r.remaining, w.name = net.name) →
      ∀ op ∈ r.operations, ¬TakesOut net.name other.contractId op

/-- The deployment of the machines is on the node, and what remains of it has its network
workload. -/
structure Placed (net : Network) (deployment : Deployment) (remaining : List Workload) (node : Node) :
    Prop where
  member : node ∈ net.nodes
  own : ∀ other ∈ net.nodes, other.contractId = deployment.contractId → other.nodeId = node.nodeId
  real : deployment.contractId ≠ some 0
  kept : deployment.contractId = node.contractId → ∃ w ∈ remaining, w.name = net.name
  names : (remaining.map (·.name)).Nodup

theorem NetworkRemoved.mono {name : String} {deployment : Deployment} {contractId : Option Nat}
    {ops ops' : List (Deployment × Operations)} {remaining : List Workload}
    (h : NetworkRemoved name deployment contractId ops remaining) (hsub : ops ⊆ ops') :
    NetworkRemoved name deployment contractId ops' remaining := by
  rcases h with ⟨hid, hnone, hdelete⟩ | ⟨hid, op, hop, htakes⟩
  · refine Or.inl ⟨hid, hnone, fun hnil => ?_⟩
    obtain ⟨op, hop, hof⟩ := hdelete hnil
    exact ⟨op, hsub hop, hof⟩
  · exact Or.inr ⟨hid, op, hsub hop, htakes⟩

/-! What releasing ips and deleting nodes changes of a network. -/

section
variable {nodeId : Nat} {n : Network}

theorem find_map_node (nodes : List Node) (f : Node → Node)
    (hf : ∀ node, (f node).nodeId = node.nodeId) :
    (nodes.map f).find? (fun node => node.nodeId = some nodeId) =
      (nodes.find? fun node => node.nodeId = some nodeId).map f := by
  rw [List.find?_map]
  congr 2
  funext node
  exact congrArg (fun id => decide (id = some nodeId)) (hf node)

theorem getNodeReservedIps_delete (ip : String) :
    (n.deleteReservedIp nodeId ip).getNodeReservedIps nodeId =
      (n.getNodeReservedIps nodeId).filter (· ≠ ip) := by
  unfold Network.getNodeReservedIps Network.deleteReservedIp
  rw [find_map_node]
  · cases hfind : n.nodes.find? fun node => node.nodeId = some nodeId with
    | none => rfl
    | some node =>
      have hid : node.nodeId = some nodeId := by simpa using List.find?_some hfind
      dsimp only [Option.map_some]
      rw [if_pos hid]
  · intro node
    split
    · rfl
    · rfl

theorem releaseIps_append (ips ips' : List String) :
    releaseIps nodeId n (ips ++ ips') = releaseIps nodeId (releaseIps nodeId n ips) ips' :=
  List.foldl_append

/-- Releasing more ips leaves none reserved where none is. -/
theorem reserved_nil_of_release {ips : List String} (h : n.getNodeReservedIps nodeId = []) :
    (releaseIps nodeId n ips).getNodeReservedIps nodeId = [] := by
  induction ips generalizing n with
  | nil => exact h
  | cons ip ips ih =>
    have hone : (n.deleteReservedIp nodeId ip).getNodeReservedIps nodeId = [] := by
      rw [getNodeReservedIps_delete, h, List.filter_nil]
    exact ih hone

theorem NothingNeeds.append {ips : List String} (h : NothingNeeds n nodeId ips) (ips' : List String) :
    NothingNeeds n nodeId (ips ++ ips') := by
  refine ⟨?_, h.2⟩
  rw [releaseIps_append]
  exact reserved_nil_of_release h.1

/-- All but the reserved ips. -/
structure ReleasedFrom (n n' : Network) : Prop where
  name : n'.name = n.name
  deployments : n'.deployments = n.deployments
  accessPoints : n'.accessPoints = n.accessPoints
  reservedSubnets : n'.reservedSubnets = n.reservedSubnets
  nodes : n'.nodes.map (fun node => (node.nodeId, node.contractId)) =
    n.nodes.map fun node => (node.nodeId, node.contractId)

theorem releasedFrom_delete (ip : String) : ReleasedFrom n (n.deleteReservedIp nodeId ip) where
  name := rfl
  deployments := rfl
  accessPoints := rfl
  reservedSubnets := rfl
  nodes := by
    unfold Network.deleteReservedIp
    rw [List.map_map]
    apply List.map_congr_left
    intro node _
    rw [Function.comp_apply]
    split
    · rfl
    · rfl

theorem ReleasedFrom.trans {n' n'' : Network} (h : ReleasedFrom n n') (h' : ReleasedFrom n' n'') :
    ReleasedFrom n n'' where
  name := h'.name.trans h.name
  deployments := h'.deployments.trans h.deployments
  accessPoints := h'.accessPoints.trans h.accessPoints
  reservedSubnets := h'.reservedSubnets.trans h.reservedSubnets
  nodes := h'.nodes.trans h.nodes

theorem releasedFrom_release (ips : List String) : ReleasedFrom n (releaseIps nodeId n ips) := by
  induction ips generalizing n with
  | nil => exact ⟨rfl, rfl, rfl, rfl, rfl⟩
  | cons ip ips ih => exact (releasedFrom_delete ip).trans ih

theorem ReleasedFrom.hasAccessPoint {n' : Network} (h : ReleasedFrom n n') (nodeId : Nat) :
    n'.hasAccessPoint nodeId = n.hasAccessPoint nodeId := by
  unfold Network.hasAccessPoint
  rw [h.accessPoints]

theorem ReleasedFrom.length {n' : Network} (h : ReleasedFrom n n') :
    n'.nodes.length = n.nodes.length := by
  have hlength := congrArg List.length h.nodes
  rw [List.length_map, List.length_map] at hlength
  exact hlength

theorem ReleasedFrom.mem {n' : Network} (h : ReleasedFrom n n')
    {node' : Node} (hmem : node' ∈ n'.nodes) :
    ∃ node ∈ n.nodes, node.nodeId = node'.nodeId ∧ node.contractId = node'.contractId := by
  have hpair : (node'.nodeId, node'.contractId) ∈
      n.nodes.map fun node => (node.nodeId, node.contractId) := by
    rw [← h.nodes]
    exact List.mem_map_of_mem (f := fun node : Node => (node.nodeId, node.contractId)) hmem
  obtain ⟨node, hnode, heq⟩ := List.mem_map.mp hpair
  exact ⟨node, hnode, congrArg Prod.fst heq, congrArg Prod.snd heq⟩

/-- The node stays exactly while something needs it. -/
theorem staysInNetwork_eq_false_iff (ips : List String) :
    staysInNetwork nodeId (.network (releaseIps nodeId n ips)) = false ↔
      NothingNeeds n nodeId ips := by
  have hsame : ReleasedFrom n (releaseIps nodeId n ips) := releasedFrom_release ips
  unfold staysInNetwork NothingNeeds
  rw [Bool.or_eq_false_iff]
  dsimp only
  rw [hsame.hasAccessPoint, hsame.length, Bool.and_eq_false_iff, decide_eq_false_iff_not,
    decide_eq_false_iff_not, not_not, not_not]
  exact and_congr List.length_eq_zero_iff Iff.rfl

/-- A node is deleted where no subnet is reserved; no other node is added. -/
theorem deleteNode_ok (hfree : n.reservedSubnets = []) (id : Nat) :
    ∃ contractId n', n.deleteNode true id = .ok (contractId, n') ∧ n'.name = n.name ∧
      n'.deployments = n.deployments ∧ n'.reservedSubnets = [] ∧
      (n'.nodes = n.nodes.filter fun node => node.nodeId ≠ some id) ∧
      ((∀ node ∈ n.nodes, node.nodeId ≠ some id) → contractId = some 0) := by
  have hempty : n.reservedSubnets.isEmpty = true := List.isEmpty_iff.mpr hfree
  unfold Network.deleteNode
  rw [if_pos hempty]
  refine ⟨_, _, rfl, rfl, rfl, hfree, rfl, fun hnone => ?_⟩
  have hgone : (n.nodes.filter fun node => node.nodeId = some id) = [] := by
    rw [List.filter_eq_nil_iff]
    intro node hnode
    rw [decide_eq_true_eq]
    exact hnone node hnode
  rw [hgone]
  rfl

end

/-! The rounds. -/

section
variable {v : Validators} {net : Network} {deployment : Deployment} {node : Node} {nodeId : Nat}

theorem leaveOperations_ok {name : String} {contractId : Option Nat} {ds : List NetworkDeployment}
    (h : ∀ d ∈ ds, ∃ o, fromObj v d.deployment = .ok o) :
    ∃ ops, leaveOperations v name contractId ds = .ok ops ∧
      ((∃ d ∈ ds, d.deployment.contractId = contractId) → ∃ op ∈ ops, TakesOut name contractId op) := by
  induction ds with
  | nil =>
    refine ⟨[], rfl, fun hd => ?_⟩
    obtain ⟨d, hd, -⟩ := hd
    cases hd
  | cons d ds ih =>
    obtain ⟨o, ho⟩ := h d List.mem_cons_self
    obtain ⟨rest, hrest, htakes⟩ := ih fun x hx => h x (List.mem_cons_of_mem _ hx)
    have hcontract : o.contractId = d.deployment.contractId := by rw [(fromObj_eq ho).1]
    have hrun : leaveOperations v name contractId (d :: ds) =
        if o.contractId ≠ contractId then .ok rest
        else if o.workloads.length = 1 then .ok ((o, .delete) :: rest)
        else .ok (({ o with workloads := o.workloads.filter fun item => decide (item.name ≠ name) },
          .update) :: rest) := by
      rw [leaveOperations, ho, hrest]
      show (if o.contractId ≠ contractId then (pure rest : Except GridError _) else _) = _
      split
      · rfl
      · split
        · rfl
        · rfl
    rw [hrun]
    by_cases hid : o.contractId = contractId
    · rw [if_neg (not_not_intro hid)]
      split
      · exact ⟨_, rfl, fun _ => ⟨_, List.mem_cons_self, hid, Or.inl rfl⟩⟩
      · refine ⟨_, rfl, fun _ => ⟨_, List.mem_cons_self, hid, Or.inr ⟨rfl, fun w hw => ?_⟩⟩⟩
        exact of_decide_eq_true (List.mem_filter.mp hw).2
    · rw [if_pos hid]
      refine ⟨rest, rfl, fun hd => ?_⟩
      obtain ⟨x, hx, hxid⟩ := hd
      rcases List.mem_cons.mp hx with rfl | hx
      · exact absurd (hcontract.trans hxid) hid
      · exact htakes ⟨x, hx, hxid⟩

/-- A network that the node has left. -/
structure Without (net : Network) (node : Node) (n : Network) : Prop where
  name : n.name = net.name
  deployments : n.deployments = net.deployments
  unreserved : n.reservedSubnets = []
  gone : ∀ other ∈ n.nodes, other.nodeId ≠ node.nodeId

theorem leaveLastNode_ok (hloaded : FreshlyLoaded v net) {n : Network} (h : Without net node n) :
    ∃ n' ops, leaveLastNode v true (.network n) = .ok (.network n', ops) ∧ Without net node n' := by
  unfold leaveLastNode
  dsimp only
  split
  · rename_i last hlast
    split
    · obtain ⟨contractId, n', hdelete, hname, hdeployments, hfree, hnodes, -⟩ :=
        deleteNode_ok h.unreserved (last.nodeId.getD 0)
      have hdecodes : ∀ d ∈ n'.deployments, ∃ o, fromObj v d.deployment = .ok o := by
        rw [hdeployments, h.deployments]
        exact hloaded.decodes
      obtain ⟨ops, hops, -⟩ := @leaveOperations_ok v n'.name contractId _ hdecodes
      refine ⟨n', ops, ?_, hname.trans h.name, hdeployments.trans h.deployments, hfree, ?_⟩
      · rw [hdelete]
        show (leaveOperations v n'.name contractId n'.deployments >>= fun operations =>
          Except.ok (AnyNetwork.network n', operations)) = _
        rw [hops]
        rfl
      · intro other hother
        rw [hnodes] at hother
        exact h.gone other (List.mem_filter.mp hother).1
    · exact ⟨n, [], rfl, h⟩
  · exact ⟨n, [], rfl, h⟩

/-- So far something needs the node: its ips were released, and an operation there is only deletes
the deployment of which nothing remains. -/
structure Waiting (net : Network) (deployment : Deployment) (remaining : List Workload) (nodeId : Nat)
    (ips : List String) (st : Release) : Prop where
  network : st.network = some (.network (releaseIps nodeId net ips))
  kept : st.remaining = remaining
  operations : ∀ op ∈ st.operations, op = (deployment, .delete) ∧ remaining = []
  needed : ¬NothingNeeds net nodeId ips

/-- The node has left the network, and its network workload is removed. -/
structure Left (net : Network) (deployment : Deployment) (node : Node) (st : Release) : Prop where
  network : ∃ n, st.network = some (.network n) ∧ Without net node n
  removed : NetworkRemoved net.name deployment node.contractId st.operations st.remaining

theorem length_le_one_of_names {ws : List Workload} {name : String} (hnames : (ws.map (·.name)).Nodup)
    (hall : ∀ w ∈ ws, w.name = name) : ws.length ≤ 1 := by
  have hreplicate : ws.map (·.name) = List.replicate ws.length name := by
    rw [List.eq_replicate_iff]
    refine ⟨List.length_map _, fun b hb => ?_⟩
    obtain ⟨w, hw, rfl⟩ := List.mem_map.mp hb
    exact hall w hw
  rw [hreplicate, List.nodup_replicate] at hnames
  exact hnames

/-- The network workload goes: with the deployment of the machines, or from another one. -/
theorem leaveNode_ok {remaining : List Workload} (hloaded : FreshlyLoaded v net)
    (hplaced : Placed net deployment remaining node) {n : Network} (hwithout : Without net node n)
    {st : Release} (hremaining : st.remaining = remaining) (machineIp : String) :
    ∃ st', leaveNode v deployment nodeId machineIp (.network n) node.contractId st = .ok st' ∧
      NetworkRemoved net.name deployment node.contractId st'.operations st'.remaining := by
  have hname : (AnyNetwork.network n).name = net.name := hwithout.name
  unfold leaveNode
  rw [hname, hremaining]
  by_cases hown : node.contractId = deployment.contractId
  · rw [if_pos hown]
    split
    · refine ⟨_, rfl, Or.inl ⟨hown.symm, (fun w hw => nomatch hw), fun _ => ?_⟩⟩
      exact ⟨(deployment, .delete), List.mem_append_right _ (List.mem_singleton_self _), hown.symm, rfl⟩
    · rename_i hlength
      refine ⟨_, rfl, Or.inl ⟨hown.symm, fun w hw => of_decide_eq_true (List.mem_filter.mp hw).2, ?_⟩⟩
      intro hnil
      -- with distinct names, only the network workload itself can be all that remained
      have hall : ∀ w ∈ remaining, w.name = net.name := by
        intro w hw
        by_contra hne
        exact List.filter_eq_nil_iff.mp hnil w hw (decide_eq_true hne)
      obtain ⟨w, hw, -⟩ := hplaced.kept hown.symm
      have hpos : 0 < remaining.length := List.length_pos_of_mem hw
      have hle := length_le_one_of_names hplaced.names hall
      exact absurd (by omega) hlength
  · rw [if_neg hown]
    have hdecodes : ∀ d ∈ (AnyNetwork.network n).deployments, ∃ o, fromObj v d.deployment = .ok o := by
      show ∀ d ∈ n.deployments, _
      rw [hwithout.deployments]
      exact hloaded.decodes
    obtain ⟨ops, hops, htakes⟩ := @leaveOperations_ok v net.name node.contractId _ hdecodes
    rw [hops]
    refine ⟨_, rfl, Or.inr ⟨fun h => hown h.symm, ?_⟩⟩
    have hheld : ∃ d ∈ (AnyNetwork.network n).deployments, d.deployment.contractId =
        node.contractId := by
      show ∃ d ∈ n.deployments, _
      rw [hwithout.deployments]
      exact hloaded.held node hplaced.member
    obtain ⟨op, hop, htakes⟩ := htakes hheld
    exact ⟨op, List.mem_append_right _ hop, htakes⟩

theorem deleteNode_released {remaining : List Workload} (hloaded : FreshlyLoaded v net)
    (hplaced : Placed net deployment remaining node) (hid : node.nodeId = some nodeId)
    (ips : List String) :
    ∃ n, (AnyNetwork.network (releaseIps nodeId net ips)).deleteNode true nodeId =
      .ok (node.contractId, .network n) ∧ Without net node n := by
  have hsame : ReleasedFrom net (releaseIps nodeId net ips) := releasedFrom_release ips
  have hfree : (releaseIps nodeId net ips).reservedSubnets = [] :=
    hsame.reservedSubnets.trans hloaded.unreserved
  have hcontains : ∃ other ∈ (releaseIps nodeId net ips).nodes, other.nodeId = some nodeId := by
    have hpair : (node.nodeId, node.contractId) ∈
        (releaseIps nodeId net ips).nodes.map fun node => (node.nodeId, node.contractId) := by
      rw [hsame.nodes]
      exact List.mem_map_of_mem
        (f := fun node : Node => (node.nodeId, node.contractId)) hplaced.member
    obtain ⟨other, hother, heq⟩ := List.mem_map.mp hpair
    exact ⟨other, hother, (congrArg Prod.fst heq).trans hid⟩
  obtain ⟨other, hother, hotherid, hdelete⟩ := Network.deleteNode_of_free hfree hcontains
  obtain ⟨found, hfound, hfoundid, hfoundcontract⟩ := hsame.mem hother
  have hnode : found = node :=
    List.inj_on_of_nodup_map hloaded.nodes hfound hplaced.member
      (hfoundid.trans (hotherid.trans hid.symm))
  subst hnode
  let left : Network := { releaseIps nodeId net ips with
    nodes := (releaseIps nodeId net ips).nodes.filter fun node => node.nodeId ≠ some nodeId
    networks := (releaseIps nodeId net ips).networks.filter fun net => net.nodeId ≠ some nodeId }
  refine ⟨left, ?_, hsame.name, hsame.deployments, hfree, ?_⟩
  · show Except.map _ ((releaseIps nodeId net ips).deleteNode true nodeId) = _
    rw [hdelete, hfoundcontract]
    rfl
  · intro x hx
    rw [hid]
    exact of_decide_eq_true (List.mem_filter.mp hx).2

/-- The round up to the test whether the node stays. -/
def Release.start (deployment : Deployment) (n : Network) (st : Release) : Release :=
  { st with
    network := some (.network n)
    operations := if st.remaining.length = 0 then st.operations ++ [(deployment, .delete)]
      else st.operations }

theorem subset_start (n : Network) (st : Release) :
    st.operations ⊆ (st.start deployment n).operations := by
  show st.operations ⊆ if st.remaining.length = 0 then _ else _
  split
  · exact List.subset_append_left _ _
  · exact List.Subset.refl _

theorem releaseOn_eq {m : Workload}
    {iface : ZNetworkInterface} (hiface : m.data.firstInterface = some iface)
    (n : Network) (st : Release) :
    releaseOn v true deployment nodeId (.network n) st m =
      if staysInNetwork nodeId (.network (n.deleteReservedIp nodeId iface.ip)) then
        .ok { st.start deployment (n.deleteReservedIp nodeId iface.ip) with
          deletedIps := st.deletedIps ++ [iface.ip] }
      else (AnyNetwork.network (n.deleteReservedIp nodeId iface.ip)).deleteNode true nodeId >>= fun r =>
        leaveNode v deployment nodeId iface.ip r.2 r.1
            (st.start deployment (n.deleteReservedIp nodeId iface.ip)) >>= fun st₂ =>
          leaveLastNode v true r.2 >>= fun last =>
            .ok { st₂ with network := some last.1, operations := st₂.operations ++ last.2 } := by
  unfold releaseOn
  rw [hiface]
  rfl

/-- One machine, while the node is in the network. -/
theorem releaseOn_ok {remaining : List Workload} (hloaded : FreshlyLoaded v net)
    (hplaced : Placed net deployment remaining node) (hid : node.nodeId = some nodeId) {st : Release}
    {ips : List String} (hremaining : st.remaining = remaining)
    (hoperations : ∀ op ∈ st.operations, op = (deployment, .delete) ∧ remaining = []) {m : Workload}
    {iface : ZNetworkInterface} (hiface : m.data.firstInterface = some iface) :
    ∃ st', releaseOn v true deployment nodeId (.network (releaseIps nodeId net ips)) st m = .ok st' ∧
      (NothingNeeds net nodeId (ips ++ [iface.ip]) → Left net deployment node st') ∧
      (¬NothingNeeds net nodeId (ips ++ [iface.ip]) →
        Waiting net deployment remaining nodeId (ips ++ [iface.ip]) st') := by
  let st₁ := st.start deployment ((releaseIps nodeId net ips).deleteReservedIp nodeId iface.ip)
  have hops₁ : ∀ op ∈ st₁.operations, op = (deployment, .delete) ∧ remaining = [] := by
    intro op hop
    have hop : op ∈ if st.remaining.length = 0 then st.operations ++ [(deployment, .delete)]
      else st.operations := hop
    split_ifs at hop with hnil
    · rcases List.mem_append.mp hop with hop | hop
      · exact hoperations op hop
      · exact ⟨List.mem_singleton.mp hop, hremaining ▸ List.length_eq_zero_iff.mp hnil⟩
    · exact hoperations op hop
  have hrelease : (releaseIps nodeId net ips).deleteReservedIp nodeId iface.ip =
      releaseIps nodeId net (ips ++ [iface.ip]) := by
    rw [releaseIps_append]
    rfl
  rw [releaseOn_eq hiface, hrelease]
  by_cases hnothing : NothingNeeds net nodeId (ips ++ [iface.ip])
  · have hleaves := (staysInNetwork_eq_false_iff (ips ++ [iface.ip])).mpr hnothing
    obtain ⟨n, hdelete, hwithout⟩ := deleteNode_released hloaded hplaced hid (ips ++ [iface.ip])
    obtain ⟨st₂, hst₂, hremoved⟩ :=
      @leaveNode_ok v net deployment node nodeId remaining hloaded hplaced n
      hwithout (st.start deployment (releaseIps nodeId net (ips ++ [iface.ip]))) hremaining iface.ip
    obtain ⟨n', ops, hlast, hwithout'⟩ := leaveLastNode_ok hloaded hwithout
    rw [hleaves, if_neg Bool.false_ne_true, hdelete]
    refine ⟨{ st₂ with network := some (.network n'), operations := st₂.operations ++ ops }, ?_, ?_,
      fun hneeded => absurd hnothing hneeded⟩
    · show (leaveNode v deployment nodeId iface.ip (.network n) node.contractId
        (st.start deployment (releaseIps nodeId net (ips ++ [iface.ip]))) >>= fun st₂ =>
        leaveLastNode v true (.network n) >>= fun last =>
          Except.ok { st₂ with network := some last.1, operations := st₂.operations ++ last.2 }) = _
      rw [hst₂]
      show (leaveLastNode v true (.network n) >>= fun last =>
        Except.ok { st₂ with network := some last.1, operations := st₂.operations ++ last.2 }) = _
      rw [hlast]
      rfl
    · intro _
      exact ⟨⟨n', rfl, hwithout'⟩, hremoved.mono (List.subset_append_left _ _)⟩
  · have hstays : staysInNetwork nodeId (.network (releaseIps nodeId net (ips ++ [iface.ip]))) =
      true := by
      rw [← Bool.not_eq_false]
      exact fun hleaves => hnothing ((staysInNetwork_eq_false_iff _).mp hleaves)
    rw [if_pos hstays]
    exact ⟨_, rfl, fun h => absurd h hnothing, fun _ => ⟨rfl, hremaining, hops₁, hnothing⟩⟩

/-- One machine, after the node has left. -/
theorem releaseMachine_left {load : Bool → String → String → Except GridError AnyNetwork}
    (hloaded : FreshlyLoaded v net) (hreal : deployment.contractId ≠ some 0)
    (hid : node.nodeId = some nodeId) {st : Release} (h : Left net deployment node st) {m : Workload}
    {iface : ZNetworkInterface} (hiface : m.data.firstInterface = some iface) :
    ∃ st', releaseMachine v load true deployment nodeId st m = .ok st' ∧
      Left net deployment node st' := by
  obtain ⟨n, hn, hwithout⟩ := h.network
  have hsame : ReleasedFrom n (n.deleteReservedIp nodeId iface.ip) := releasedFrom_delete iface.ip
  have hwithout₁ : Without net node (n.deleteReservedIp nodeId iface.ip) := by
    refine ⟨hwithout.name, hwithout.deployments, hwithout.unreserved, fun other hother => ?_⟩
    obtain ⟨before, hbefore, hbeforeid, -⟩ := hsame.mem hother
    rw [← hbeforeid]
    exact hwithout.gone before hbefore
  have hremoved : NetworkRemoved net.name deployment node.contractId
      (st.start deployment (n.deleteReservedIp nodeId iface.ip)).operations st.remaining :=
    h.removed.mono (subset_start _ st)
  have hopen : releaseMachine v load true deployment nodeId st m =
      releaseOn v true deployment nodeId (.network n) st m := by
    unfold releaseMachine
    rw [hn]
    rfl
  rw [hopen, releaseOn_eq hiface]
  split
  · exact ⟨_, rfl, ⟨⟨_, rfl, hwithout₁⟩, hremoved⟩⟩
  · obtain ⟨contractId, n₂, hdelete, hname, hdeployments, hfree, hnodes, hnone⟩ :=
      deleteNode_ok hwithout₁.unreserved nodeId
    have hwithout₂ : Without net node n₂ := by
      refine ⟨hname.trans hwithout₁.name, hdeployments.trans hwithout₁.deployments, hfree, ?_⟩
      intro other hother
      rw [hnodes] at hother
      exact hwithout₁.gone other (List.mem_filter.mp hother).1
    -- the node is not there any more, so the call finds no contract
    have hzero : contractId = some 0 := hnone fun other hother => by
      rw [← hid]
      exact hwithout₁.gone other hother
    have hdecodes : ∀ d ∈ n₂.deployments, ∃ o, fromObj v d.deployment = .ok o := by
      rw [hwithout₂.deployments]
      exact hloaded.decodes
    obtain ⟨ops, hops, -⟩ := @leaveOperations_ok v n₂.name contractId _ hdecodes
    obtain ⟨n₃, ops', hlast, hwithout₃⟩ := leaveLastNode_ok hloaded hwithout₂
    have hother : contractId ≠ deployment.contractId := by
      rw [hzero]
      exact hreal.symm
    have hleave : leaveNode v deployment nodeId iface.ip (.network n₂) contractId
        (st.start deployment (n.deleteReservedIp nodeId iface.ip)) =
        .ok { st.start deployment (n.deleteReservedIp nodeId iface.ip) with
          operations := (st.start deployment (n.deleteReservedIp nodeId iface.ip)).operations ++
            ops } := by
      unfold leaveNode
      rw [if_neg hother]
      show (leaveOperations v n₂.name contractId n₂.deployments >>= fun operations => _) = _
      rw [hops]
      rfl
    have hdeleteAny : (AnyNetwork.network (n.deleteReservedIp nodeId iface.ip)).deleteNode true nodeId =
        .ok (contractId, .network n₂) := by
      show Except.map _ ((n.deleteReservedIp nodeId iface.ip).deleteNode true nodeId) = _
      rw [hdelete]
      rfl
    rw [hdeleteAny]
    refine ⟨{ st.start deployment (n.deleteReservedIp nodeId iface.ip) with
      network := some (.network n₃)
      operations := (st.start deployment (n.deleteReservedIp nodeId iface.ip)).operations ++ ops ++ ops' },
      ?_, ⟨n₃, rfl, hwithout₃⟩, ?_⟩
    · show (leaveNode v deployment nodeId iface.ip (.network n₂) contractId
          (st.start deployment (n.deleteReservedIp nodeId iface.ip)) >>= fun st₂ =>
        leaveLastNode v true (.network n₂) >>= fun last =>
          Except.ok { st₂ with network := some last.1, operations := st₂.operations ++ last.2 }) = _
      rw [hleave]
      show (leaveLastNode v true (.network n₂) >>= fun last => _) = _
      rw [hlast]
      rfl
    · apply hremoved.mono
      rw [List.append_assoc]
      exact List.subset_append_left _ _

theorem releaseAll_left {load : Bool → String → String → Except GridError AnyNetwork}
    (hloaded : FreshlyLoaded v net) (hreal : deployment.contractId ≠ some 0)
    (hid : node.nodeId = some nodeId) {machines : List Workload}
    (hifaces : ∀ m ∈ machines, ∃ iface, m.data.firstInterface = some iface) {st : Release}
    (h : Left net deployment node st) :
    ∃ st', machines.foldlM (releaseMachine v load true deployment nodeId) st = .ok st' ∧
      Left net deployment node st' := by
  induction machines generalizing st with
  | nil => exact ⟨st, rfl, h⟩
  | cons m machines ih =>
    obtain ⟨iface, hiface⟩ := hifaces m List.mem_cons_self
    obtain ⟨st₁, hst₁, hleft⟩ := releaseMachine_left hloaded hreal hid h hiface
    obtain ⟨st', hst', hleft'⟩ := ih (fun x hx => hifaces x (List.mem_cons_of_mem _ hx)) hleft
    refine ⟨st', ?_, hleft'⟩
    rw [List.foldlM_cons]
    exact exceptBind_eq_ok.mpr ⟨st₁, hst₁, hst'⟩

theorem machineIps_cons {m : Workload} {iface : ZNetworkInterface}
    (h : m.data.firstInterface = some iface) (machines : List Workload) :
    machineIps (m :: machines) = iface.ip :: machineIps machines := by
  unfold machineIps
  rw [List.filterMap_cons, h]
  rfl

/-- The rounds: the node leaves in the first one after which nothing needs it. -/
theorem releaseAll_waiting {load : Bool → String → String → Except GridError AnyNetwork}
    {remaining : List Workload} (hloaded : FreshlyLoaded v net)
    (hplaced : Placed net deployment remaining node) (hid : node.nodeId = some nodeId)
    {machines : List Workload} (hifaces : ∀ m ∈ machines, ∃ iface, m.data.firstInterface = some iface)
    {ips : List String} {st : Release} (h : Waiting net deployment remaining nodeId ips st) :
    ∃ st', machines.foldlM (releaseMachine v load true deployment nodeId) st = .ok st' ∧
      (NothingNeeds net nodeId (ips ++ machineIps machines) → Left net deployment node st') ∧
      (¬NothingNeeds net nodeId (ips ++ machineIps machines) →
        Waiting net deployment remaining nodeId (ips ++ machineIps machines) st') := by
  induction machines generalizing st ips with
  | nil =>
    rw [show machineIps [] = [] from rfl, List.append_nil]
    exact ⟨st, rfl, fun hnothing => absurd hnothing h.needed, fun _ => h⟩
  | cons m machines ih =>
    obtain ⟨iface, hiface⟩ := hifaces m List.mem_cons_self
    have hrest := fun x hx => hifaces x (List.mem_cons_of_mem m hx)
    obtain ⟨st₁, hst₁, hleft, hwaiting⟩ :=
      releaseOn_ok hloaded hplaced hid h.kept h.operations hiface
    have hopen : releaseMachine v load true deployment nodeId st m = .ok st₁ := by
      unfold releaseMachine
      rw [h.network]
      exact hst₁
    rw [machineIps_cons hiface, List.append_cons, List.foldlM_cons]
    by_cases hnothing : NothingNeeds net nodeId (ips ++ [iface.ip])
    · obtain ⟨st', hst', hleft'⟩ :=
        releaseAll_left hloaded hplaced.real hid hrest (hleft hnothing)
      exact ⟨st', exceptBind_eq_ok.mpr ⟨st₁, hopen, hst'⟩, fun _ => hleft',
        fun hneeded => absurd (hnothing.append _) hneeded⟩
    · obtain ⟨st', hst', hboth⟩ := ih hrest (hwaiting hnothing)
      exact ⟨st', exceptBind_eq_ok.mpr ⟨st₁, hopen, hst'⟩, hboth⟩

/-- The end of the rounds: the network was removed, and nothing needs it. -/
theorem leavesRightly_of_left (hloaded : FreshlyLoaded v net) {remaining : List Workload}
    (hplaced : Placed net deployment remaining node) {ips : List String} {r : MachineNetwork}
    (hnothing : NothingNeeds net nodeId ips)
    (hremoved : NetworkRemoved net.name deployment node.contractId r.operations r.remaining) :
    LeavesRightly net deployment node nodeId ips r := by
  refine ⟨iff_of_true hremoved hnothing, fun hneeded => absurd hnothing hneeded, ?_⟩
  intro other hother hown hkept
  have hsame : other = node :=
    List.inj_on_of_nodup_map hloaded.nodes hother hplaced.member (hplaced.own other hother hown)
  subst hsame
  obtain ⟨w, hw, hname⟩ := hkept
  rcases hremoved with ⟨-, hnone, -⟩ | ⟨hid, -⟩
  · exact absurd hname (hnone w hw)
  · exact absurd hown.symm hid

theorem leavesRightly_of_waiting (hloaded : FreshlyLoaded v net) {remaining : List Workload}
    (hplaced : Placed net deployment remaining node) {ips : List String} {r : MachineNetwork}
    (hneeded : ¬NothingNeeds net nodeId ips) (hremaining : r.remaining = remaining)
    (hoperations : ∀ op ∈ r.operations, op = (deployment, .delete) ∧ remaining = []) :
    LeavesRightly net deployment node nodeId ips r := by
  -- a deployment of which nothing remains does not have the network workload
  have huntouched : ∀ op ∈ r.operations, op.1.contractId ≠ node.contractId := by
    intro op hop hcontract
    obtain ⟨rfl, hnil⟩ := hoperations op hop
    obtain ⟨w, hw, -⟩ := hplaced.kept hcontract
    rw [hnil] at hw
    cases hw
  refine ⟨iff_of_false ?_ hneeded, fun _ => huntouched, ?_⟩
  · intro hremoved
    rcases hremoved with ⟨hid, hnone, -⟩ | ⟨-, op, hop, htakes⟩
    · obtain ⟨w, hw, hname⟩ := hplaced.kept hid
      exact hnone w (hremaining ▸ hw) hname
    · exact huntouched op hop htakes.1
  · intro other hother hown hkept op hop htakes
    have hsame : other = node :=
      List.inj_on_of_nodup_map hloaded.nodes hother hplaced.member (hplaced.own other hother hown)
    subst hsame
    exact huntouched op hop htakes.1

/-- For every freshly loaded network and all machines that are deleted, the node leaves the network
exactly when nothing needs it. -/
theorem deleteMachineNetwork_leavesRightly
    {load : Bool → String → String → Except GridError AnyNetwork} {remaining : List Workload}
    (hloaded : FreshlyLoaded v net) (hplaced : Placed net deployment remaining node)
    (hid : node.nodeId = some nodeId) {first : Workload} {rest : List Workload}
    (hload : loadNetwork load first = .ok (.network net))
    (hifaces : ∀ m ∈ first :: rest, ∃ iface, m.data.firstInterface = some iface) :
    ∃ r, deleteMachineNetwork v load true deployment nodeId remaining (first :: rest) = .ok r ∧
      LeavesRightly net deployment node nodeId (machineIps (first :: rest)) r := by
  obtain ⟨iface, hiface⟩ := hifaces first List.mem_cons_self
  have hrest := fun x hx => hifaces x (List.mem_cons_of_mem first hx)
  let start : Release := ⟨none, [], remaining, [], []⟩
  obtain ⟨st₁, hst₁, hleft, hwaiting⟩ := @releaseOn_ok v net deployment node nodeId remaining hloaded
    hplaced hid start [] rfl (fun op hop => nomatch hop) first iface hiface
  have hopen : releaseMachine v load true deployment nodeId start first = .ok st₁ := by
    unfold releaseMachine
    show (loadNetwork load first >>= fun network =>
      releaseOn v true deployment nodeId network start first) = _
    rw [hload]
    exact hst₁
  have hresult : ∀ st, (first :: rest).foldlM (releaseMachine v load true deployment nodeId) start =
      .ok st → ∃ r, deleteMachineNetwork v load true deployment nodeId remaining (first :: rest) = .ok r ∧
        r.operations = st.operations ∧ r.remaining = st.remaining := by
    intro st hst
    refine ⟨⟨st.operations.map fun op => .make op.1 op.2 0 0 "" st.network, st.remaining,
      st.deletedNodes, st.deletedIps, st.network⟩, exceptBind_eq_ok.mpr ⟨st, hst, rfl⟩, ?_, rfl⟩
    unfold MachineNetwork.operations
    rw [List.map_map]
    exact List.map_id _
  have hips : machineIps (first :: rest) = [iface.ip] ++ machineIps rest :=
    machineIps_cons hiface rest
  rw [hips]
  by_cases hnothing : NothingNeeds net nodeId [iface.ip]
  · obtain ⟨st, hst, hleft'⟩ := releaseAll_left hloaded hplaced.real hid hrest
      (hleft hnothing)
    obtain ⟨r, hr, hops, hremaining⟩ := hresult st (exceptBind_eq_ok.mpr ⟨st₁, hopen, hst⟩)
    refine ⟨r, hr, leavesRightly_of_left hloaded hplaced (hnothing.append _) ?_⟩
    rw [hops, hremaining]
    exact hleft'.removed
  · obtain ⟨st, hst, hleft', hwaiting'⟩ := releaseAll_waiting hloaded hplaced hid hrest
      (hwaiting hnothing)
    obtain ⟨r, hr, hops, hremaining⟩ := hresult st (exceptBind_eq_ok.mpr ⟨st₁, hopen, hst⟩)
    refine ⟨r, hr, ?_⟩
    by_cases hall : NothingNeeds net nodeId ([iface.ip] ++ machineIps rest)
    · refine leavesRightly_of_left hloaded hplaced hall ?_
      rw [hops, hremaining]
      exact (hleft' hall).removed
    · have hw := hwaiting' hall
      exact leavesRightly_of_waiting hloaded hplaced hall (hremaining.trans hw.kept)
        (hops ▸ hw.operations)

end

/-! Two machines on node 11 of a network that node 12 is in too. -/

def netWorkload (name subnet : String) : Workload :=
  ⟨0, name, .network, .network ⟨subnet, "10.1.0.0/16", "k", 2000, [], none, none⟩, "", "", none⟩

/-- The network workloads are in the contracts 5 and 6, the machines in contract 7. -/
def loadedNetwork : Network where
  name := "net"
  ipRange := "10.1.0.0/16"
  nodes := [⟨some 11, some 5, ["10.1.2.2", "10.1.2.3"]⟩, ⟨some 12, some 6, ["10.1.3.2"]⟩]
  deployments := [⟨11, { deploymentWith [netWorkload "net" "10.1.2.0/24"] with contractId := some 5 }⟩,
    ⟨12, { deploymentWith [netWorkload "net" "10.1.3.0/24"] with contractId := some 6 }⟩]
  reservedSubnets := []
  networks := []
  accessPoints := []
  userAccesses := []

def machineAt (name ip : String) : Workload :=
  ⟨0, name, .zmachine, .zmachine ⟨"http://hub.grid.tf/f.flist", ⟨"", [⟨"net", ip⟩], false, none⟩, 0,
    ⟨1, 256 * 1024 ^ 2⟩, [], "/init", ⟨[], List.nodup_nil⟩, false, none⟩, "", "", none⟩

theorem freshlyLoaded_loadedNetwork : FreshlyLoaded anyText loadedNetwork := by
  refine ⟨rfl, by decide, by decide, ?_⟩
  intro d hd
  have hvalid : d.deployment.valid anyText = true := by
    revert d
    decide
  exact ⟨_, fromObj_of_valid hvalid⟩

theorem bothMachines_leaveRightly : ∃ r, deleteMachineNetwork anyText
      (fun _ _ _ => .ok (.network loadedNetwork)) true
      (deploymentWith [machineAt "a" "10.1.2.2", machineAt "b" "10.1.2.3"]) 11 []
      [machineAt "a" "10.1.2.2", machineAt "b" "10.1.2.3"] = .ok r ∧
    LeavesRightly loadedNetwork (deploymentWith [machineAt "a" "10.1.2.2", machineAt "b" "10.1.2.3"])
      ⟨some 11, some 5, ["10.1.2.2", "10.1.2.3"]⟩ 11 ["10.1.2.2", "10.1.2.3"] r := by
  have hload : loadNetwork (fun _ _ _ => .ok (.network loadedNetwork)) (machineAt "a" "10.1.2.2") =
      .ok (.network loadedNetwork) := by decide +kernel
  have hplaced : Placed loadedNetwork
      (deploymentWith [machineAt "a" "10.1.2.2", machineAt "b" "10.1.2.3"]) []
      ⟨some 11, some 5, ["10.1.2.2", "10.1.2.3"]⟩ :=
    ⟨by decide, by decide, by decide, by decide, by decide⟩
  have hifaces : ∀ m ∈ [machineAt "a" "10.1.2.2", machineAt "b" "10.1.2.3"],
      ∃ iface, m.data.firstInterface = some iface := by
    intro m hm
    rcases List.mem_pair.mp hm with rfl | rfl
    · exact ⟨_, rfl⟩
    · exact ⟨_, rfl⟩
  exact deleteMachineNetwork_leavesRightly freshlyLoaded_loadedNetwork hplaced rfl hload hifaces

end ThreefoldSdk.HighLevel
