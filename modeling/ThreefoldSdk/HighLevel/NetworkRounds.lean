import ThreefoldSdk.HighLevel.LeavingOperations

/-! What the rounds of `_deleteMachineNetwork` do on the contract of the deployment that machines are
deleted from, whichever class their network is of. -/

namespace ThreefoldSdk.HighLevel
open Zos Primitives Frame

def nodesOf : AnyNetwork → List Node
  | .network n => n.nodes
  | .light n => n.node.toList

/-- The network after the ips of the machines are released. -/
def releaseAnyIps (nodeId : Nat) (n : AnyNetwork) (ips : List String) : AnyNetwork :=
  ips.foldl (fun n ip => n.deleteReservedIp nodeId ip) n

/-- The contract with the network workload of the node. -/
def contractOn (nodeId : Nat) (n : AnyNetwork) : Option Nat :=
  ((nodesOf n).filter fun node => node.nodeId = some nodeId).getLast?.bind (·.contractId)

/-- The kept workloads, without the network workload when the node leaves and it is in the
deployment. -/
def withoutNetwork (n : AnyNetwork) (d : Deployment) (nodeId : Nat) (kept : List Workload) :
    List Workload :=
  if contractOn nodeId n = d.contractId then kept.filter fun w => decide (w.name ≠ n.name) else kept

/-- The workloads that have to remain. The network is that of the first machine that is deleted. -/
def mustRemain (load : Bool → String → String → Except GridError AnyNetwork) (d : Deployment)
    (nodeId : Nat) (kept machines : List Workload) : List Workload :=
  match machines with
  | [] => kept
  | first :: _ =>
    match loadNetwork load first with
    | .error _ => kept
    | .ok n =>
      if staysInNetwork nodeId (releaseAnyIps nodeId n (machineIps machines)) then kept
      else withoutNetwork n d nodeId kept

/-- What `load` makes of a network: it is of the class that was asked for, one that is not known has
no node, the contract of the deployment is the network's on no other node, and where it is, the
deployment has the network workload. -/
structure Hosts (isKnown light : Bool) (n : AnyNetwork) (d : Deployment) (nodeId : Nat) : Prop where
  cls : n.isNetwork = !light
  known : isKnown = false → nodesOf n = []
  own : ∀ x ∈ nodesOf n, x.contractId = d.contractId → x.nodeId = some nodeId
  workload : contractOn nodeId n = d.contractId →
    ∃ w ∈ d.workloads, isAnyNetwork w = true ∧ w.name = n.name

/-- The round up to the test whether the node stays, on a network of either class. -/
def Release.opened (d : Deployment) (n : AnyNetwork) (st : Release) : Release :=
  { st with
    network := some n
    operations := if st.remaining.length = 0 then st.operations ++ [(d, .delete)]
      else st.operations }

/-- So far something needs the node: only its ips were released. -/
structure Staying (n₀ : AnyNetwork) (d : Deployment) (nodeId : Nat) (kept : List Workload)
    (ips : List String) (st : Release) : Prop where
  network : st.network = some (releaseAnyIps nodeId n₀ ips)
  remaining : st.remaining = kept
  operations : ∀ op ∈ st.operations, op = (d, .delete) ∧ kept = []
  stays : staysInNetwork nodeId (releaseAnyIps nodeId n₀ ips) = true
  emptied : kept = [] → (d, .delete) ∈ st.operations

/-- The node has left. On the contract there is nothing but deletions; in a `Network` there are
none while something remains, and what remains is right. -/
structure Departed (n₀ : AnyNetwork) (d : Deployment) (nodeId : Nat) (kept : List Workload)
    (ips : List String) (st : Release) : Prop where
  left : staysInNetwork nodeId (releaseAnyIps nodeId n₀ ips) = false
  network : ∃ n, st.network = some n ∧ n.isNetwork = n₀.isNetwork ∧
    (n₀.isNetwork = true → ∀ x ∈ nodesOf n, x.nodeId ≠ some nodeId ∧ x.contractId ≠ d.contractId)
  deletes : ∀ op ∈ st.operations, op.1.contractId = d.contractId → op = (d, .delete)
  emptied : withoutNetwork n₀ d nodeId kept = [] → (d, .delete) ∈ st.operations
  remaining : n₀.isNetwork = true → st.remaining = withoutNetwork n₀ d nodeId kept ∧
    (withoutNetwork n₀ d nodeId kept ≠ [] →
      ∀ op ∈ st.operations, op.1.contractId ≠ d.contractId)

/-- What `_deleteMachineNetwork` does on the contract, and what it leaves of the deployment. -/
structure OnOwn (n₀ : AnyNetwork) (d : Deployment) (remaining : List Workload)
    (r : MachineNetwork) : Prop where
  network : ∃ n, r.network = some n ∧ n.isNetwork = n₀.isNetwork
  deletes : ∀ op ∈ r.operations, op.1.contractId = d.contractId → op = (d, .delete)
  emptied : remaining = [] → (d, .delete) ∈ r.operations
  remaining : n₀.isNetwork = true → r.remaining = remaining ∧
    (remaining ≠ [] → ∀ op ∈ r.operations, op.1.contractId ≠ d.contractId)

section
variable {v : Validators} {isKnown : Bool} {n n' n₀ : AnyNetwork} {d : Deployment} {id nodeId : Nat}
  {st st' : Release} {kept : List Workload} {ips : List String}

/-! What changes of a network. -/

/-- All but the reserved ips. -/
structure SameNodes (n n' : AnyNetwork) : Prop where
  cls : n'.isNetwork = n.isNetwork
  name : n'.name = n.name
  nodes : (nodesOf n').map (fun x => (x.nodeId, x.contractId)) =
    (nodesOf n).map fun x => (x.nodeId, x.contractId)

theorem SameNodes.refl (n : AnyNetwork) : SameNodes n n := ⟨rfl, rfl, rfl⟩

theorem SameNodes.trans {n'' : AnyNetwork} (h : SameNodes n n') (h' : SameNodes n' n'') :
    SameNodes n n'' := ⟨h'.cls.trans h.cls, h'.name.trans h.name, h'.nodes.trans h.nodes⟩

theorem sameNodes_delete (ip : String) : SameNodes n (n.deleteReservedIp nodeId ip) := by
  cases n with
  | network n =>
    refine ⟨rfl, rfl, ?_⟩
    exact (releasedFrom_delete ip).nodes
  | light n =>
    change SameNodes _ (AnyNetwork.light (n.deleteReservedIp nodeId ip))
    unfold ZNetworkLight.deleteReservedIp
    split
    · refine ⟨rfl, rfl, ?_⟩
      change (n.node.map _).toList.map _ = n.node.toList.map _
      cases n.node with
      | none => rfl
      | some node => rfl
    · exact SameNodes.refl _

theorem releaseAnyIps_append (ips ips' : List String) :
    releaseAnyIps nodeId n (ips ++ ips') = releaseAnyIps nodeId (releaseAnyIps nodeId n ips) ips' :=
  List.foldl_append

theorem sameNodes_release (ips : List String) : SameNodes n (releaseAnyIps nodeId n ips) := by
  induction ips generalizing n with
  | nil => exact SameNodes.refl n
  | cons ip ips ih => exact (sameNodes_delete ip).trans ih

theorem SameNodes.contractOn (h : SameNodes n n') : contractOn nodeId n' = contractOn nodeId n := by
  have hpairs : ∀ m : AnyNetwork, HighLevel.contractOn nodeId m =
      (((nodesOf m).map fun x => (x.nodeId, x.contractId)).filter
        fun p => p.1 = some nodeId).getLast?.bind Prod.snd := by
    intro m
    rw [List.filter_map, List.getLast?_map, Option.bind_map]
    rfl
  rw [hpairs, hpairs, h.nodes]

theorem SameNodes.mem (h : SameNodes n n') {x' : Node} (hx : x' ∈ nodesOf n') :
    ∃ x ∈ nodesOf n, x.nodeId = x'.nodeId ∧ x.contractId = x'.contractId := by
  have hpair := List.mem_map_of_mem (f := fun x : Node => (x.nodeId, x.contractId)) hx
  rw [h.nodes] at hpair
  obtain ⟨x, hin, heq⟩ := List.mem_map.mp hpair
  exact ⟨x, hin, congrArg Prod.fst heq, congrArg Prod.snd heq⟩

/-- Only the reserved ips of the node change. -/
theorem getNodeReservedIps_deleteLight {n : ZNetworkLight} (ip : String) :
    (n.deleteReservedIp nodeId ip).getNodeReservedIps nodeId =
      (n.getNodeReservedIps nodeId).filter (· ≠ ip) := by
  unfold ZNetworkLight.deleteReservedIp
  by_cases hexists : n.nodeExists nodeId = true
  · rw [if_pos hexists]
    change (if n.nodeExists nodeId = true then (n.node.map _).elim [] Node.reservedIps else []) =
      (if n.nodeExists nodeId = true then n.node.elim [] Node.reservedIps else []).filter _
    rw [if_pos hexists, if_pos hexists]
    cases n.node with
    | none => rfl
    | some node => rfl
  · rw [if_neg hexists]
    unfold ZNetworkLight.getNodeReservedIps
    rw [if_neg hexists]
    rfl

theorem staysInNetwork_light {n : ZNetworkLight} :
    staysInNetwork nodeId (.light n) = false ↔ n.getNodeReservedIps nodeId = [] := by
  unfold staysInNetwork
  rw [Bool.or_false, decide_eq_false_iff_not, not_not]
  exact List.length_eq_zero_iff

/-- A node that leaves would also leave after more ips are released. -/
theorem leaves_release (h : staysInNetwork nodeId n = false) (ips : List String) :
    staysInNetwork nodeId (releaseAnyIps nodeId n ips) = false := by
  induction ips generalizing n with
  | nil => exact h
  | cons ip ips ih =>
    refine ih ?_
    cases n with
    | network n =>
      have hnow : NothingNeeds n nodeId [] := (staysInNetwork_eq_false_iff []).mp h
      exact (staysInNetwork_eq_false_iff [ip]).mpr (hnow.append [ip])
    | light n =>
      rw [staysInNetwork_light] at h
      change staysInNetwork nodeId (.light (n.deleteReservedIp nodeId ip)) = false
      rw [staysInNetwork_light, getNodeReservedIps_deleteLight, h, List.filter_nil]

theorem deleteNode_light_ok {n n' : ZNetworkLight} {c : Option Nat}
    (h : n.deleteNode true nodeId = .ok (c, n')) : n'.name = n.name ∧ ∃ node, n.node = some node ∧
      c = if node.nodeId = some nodeId then node.contractId else some 0 := by
  unfold ZNetworkLight.deleteNode at h
  rw [if_neg (by decide)] at h
  cases hnode : n.node with
  | none =>
    rw [hnode] at h
    cases h
  | some node =>
    rw [hnode] at h
    dsimp only at h
    by_cases hid : node.nodeId = some nodeId
    · rw [if_neg (not_not.mpr hid)] at h
      split at h
      · cases h
        exact ⟨rfl, node, rfl, (if_pos hid).symm⟩
      · split_ifs at h
        cases h
        exact ⟨rfl, node, rfl, (if_pos hid).symm⟩
    · rw [if_pos hid] at h
      split at h
      · cases h
        exact ⟨rfl, node, rfl, (if_neg hid).symm⟩
      · split_ifs at h
        cases h
        exact ⟨rfl, node, rfl, (if_neg hid).symm⟩

/-- The contract of a deleted node; there is none, so 0, when the node is not there. -/
theorem deleteNode_contract {c : Option Nat} (hknown : isKnown = false → nodesOf n = [])
    (hreal : id ≠ 0) (h : n.deleteNode isKnown nodeId = .ok (c, n')) :
    (c = some id ↔ contractOn nodeId n = some id) ∧ n'.name = n.name ∧
      n'.isNetwork = n.isNetwork := by
  have hzero : (some 0 : Option Nat) ≠ some id := fun heq => hreal (Option.some.inj heq).symm
  have hnone : isKnown = false → contractOn nodeId n ≠ some id := by
    intro hk
    rw [contractOn, hknown hk]
    exact nofun
  cases n with
  | network m =>
    obtain ⟨⟨c', m'⟩, hm, hok⟩ := exceptMap_eq_ok.mp h
    cases hok
    unfold Network.deleteNode at hm
    cases hk : isKnown with
    | false =>
      rw [hk] at hm
      cases hm
      exact ⟨iff_of_false hzero (hnone hk), rfl, rfl⟩
    | true =>
      rw [hk, if_neg (by decide)] at hm
      split_ifs at hm
      cases hm
      have helim : ∀ gone : Option Node, gone.elim (some 0) (·.contractId) = some id ↔
          gone.bind (·.contractId) = some id := by
        intro gone
        cases gone with
        | none => exact iff_of_false hzero nofun
        | some node => exact Iff.rfl
      exact ⟨helim _, rfl, rfl⟩
  | light m =>
    obtain ⟨⟨c', m'⟩, hm, hok⟩ := exceptMap_eq_ok.mp h
    cases hok
    cases hk : isKnown with
    | false =>
      rw [hk] at hm
      cases hm
      exact ⟨iff_of_false hzero (hnone hk), rfl, rfl⟩
    | true =>
      rw [hk] at hm
      obtain ⟨hname, node, hnode, rfl⟩ := deleteNode_light_ok hm
      refine ⟨?_, hname, rfl⟩
      change _ ↔ (m.node.toList.filter fun x => x.nodeId = some nodeId).getLast?.bind _ = some id
      rw [hnode, Option.toList_some, List.filter_singleton]
      by_cases hid : node.nodeId = some nodeId
      · rw [if_pos hid, hid]
        simp
      · rw [if_neg hid]
        simp [hid, hzero]

/-- Afterwards a `Network` has the node no more. -/
theorem deleteNode_gone {m m' : Network} {c : Option Nat} (hknown : isKnown = false → m.nodes = [])
    (h : m.deleteNode isKnown nodeId = .ok (c, m')) :
    ∀ x ∈ m'.nodes, x ∈ m.nodes ∧ x.nodeId ≠ some nodeId := by
  intro x hx
  unfold Network.deleteNode at h
  cases hk : isKnown with
  | false =>
    rw [hk] at h
    cases h
    rw [hknown hk] at hx
    cases hx
  | true =>
    rw [hk, if_neg (by decide)] at h
    split_ifs at h
    cases h
    obtain ⟨hin, hne⟩ := List.mem_filter.mp hx
    exact ⟨hin, of_decide_eq_true hne⟩

/-! The rounds. -/

/-- What one round does. -/
theorem releaseOn_cases {m : Workload} (h : releaseOn v isKnown d nodeId n st m = .ok st') :
    ∃ iface, m.data.firstInterface = some iface ∧
      ((staysInNetwork nodeId (n.deleteReservedIp nodeId iface.ip) = true ∧
          st' = { st.opened d (n.deleteReservedIp nodeId iface.ip) with
            deletedIps := st.deletedIps ++ [iface.ip] }) ∨
        (staysInNetwork nodeId (n.deleteReservedIp nodeId iface.ip) = false ∧
          ∃ c n₂ st₂ n₃ ops, (n.deleteReservedIp nodeId iface.ip).deleteNode isKnown nodeId =
              .ok (c, n₂) ∧
            leaveNode v d nodeId iface.ip n₂ c (st.opened d (n.deleteReservedIp nodeId iface.ip)) =
              .ok st₂ ∧
            leaveLastNode v isKnown n₂ = .ok (n₃, ops) ∧
            st' = { st₂ with network := some n₃, operations := st₂.operations ++ ops })) := by
  obtain ⟨iface, hiface⟩ := firstInterface_of_run h
  refine ⟨iface, hiface, ?_⟩
  unfold releaseOn at h
  rw [hiface] at h
  change (if staysInNetwork nodeId (n.deleteReservedIp nodeId iface.ip) = true then
      Except.ok { st.opened d (n.deleteReservedIp nodeId iface.ip) with
        deletedIps := st.deletedIps ++ [iface.ip] }
    else (n.deleteReservedIp nodeId iface.ip).deleteNode isKnown nodeId >>= fun r =>
      leaveNode v d nodeId iface.ip r.2 r.1
          (st.opened d (n.deleteReservedIp nodeId iface.ip)) >>= fun st₂ =>
        leaveLastNode v isKnown r.2 >>= fun last =>
          .ok { st₂ with network := some last.1, operations := st₂.operations ++ last.2 }) = _ at h
  by_cases hstays : staysInNetwork nodeId (n.deleteReservedIp nodeId iface.ip) = true
  · rw [if_pos hstays] at h
    exact Or.inl ⟨hstays, (Except.ok.inj h).symm⟩
  · rw [if_neg hstays] at h
    obtain ⟨⟨c, n₂⟩, hdelete, h⟩ := exceptBind_eq_ok.mp h
    obtain ⟨st₂, hleave, h⟩ := exceptBind_eq_ok.mp h
    obtain ⟨⟨n₃, ops⟩, hlast, h⟩ := exceptBind_eq_ok.mp h
    exact Or.inr ⟨Bool.eq_false_iff.mpr hstays, c, n₂, st₂, n₃, ops, hdelete, hleave, hlast,
      (Except.ok.inj h).symm⟩

/-- The operations of a node that leaves are on its contract. -/
theorem leaveOperations_contract {name : String} {c : Option Nat} {ds : List NetworkDeployment}
    {ops : List (Deployment × Operations)} (h : leaveOperations v name c ds = .ok ops) :
    ∀ op ∈ ops, op.1.contractId = c := fun op hop => ((leaveOperations_takeOut h).1 op hop).1

/-- The last node has another contract, so what is emitted for it is not on the deployment's. -/
theorem leaveLastNode_apart {m : Network} {ops : List (Deployment × Operations)} (hreal : id ≠ 0)
    (hapart : ∀ x ∈ m.nodes, x.nodeId ≠ some nodeId ∧ x.contractId ≠ some id)
    (h : leaveLastNode v isKnown (.network m) = .ok (n', ops)) :
    n'.isNetwork = true ∧ (∀ x ∈ nodesOf n', x ∈ m.nodes) ∧
      ∀ op ∈ ops, op.1.contractId ≠ some id := by
  unfold leaveLastNode at h
  dsimp only at h
  split at h
  · rename_i last hlast
    split_ifs at h
    · obtain ⟨⟨c, m'⟩, hdelete, h⟩ := exceptBind_eq_ok.mp h
      obtain ⟨ops', hops, h⟩ := exceptBind_eq_ok.mp h
      cases h
      have hboth : (∀ x ∈ m'.nodes, x ∈ m.nodes) ∧ c ≠ some id := by
        unfold Network.deleteNode at hdelete
        cases hk : isKnown with
        | false =>
          rw [hk] at hdelete
          cases hdelete
          exact ⟨fun x hx => hx, fun heq => hreal (Option.some.inj heq).symm⟩
        | true =>
          rw [hk, if_neg (by decide)] at hdelete
          split_ifs at hdelete
          cases hdelete
          refine ⟨fun x hx => (List.mem_filter.mp hx).1, ?_⟩
          cases hgone : (m.nodes.filter fun x => x.nodeId = some (last.nodeId.getD 0)).getLast? with
          | none => exact fun heq => hreal (Option.some.inj heq).symm
          | some x =>
            exact (hapart x (List.mem_filter.mp (List.mem_of_getLast? hgone)).1).2
      refine ⟨rfl, hboth.1, fun op hop => ?_⟩
      rw [leaveOperations_contract hops op hop]
      exact hboth.2
    · cases h
      exact ⟨rfl, fun x hx => hx, fun op hop => absurd hop List.not_mem_nil⟩
  · cases h
    exact ⟨rfl, fun x hx => hx, fun op hop => absurd hop List.not_mem_nil⟩

theorem leaveLastNode_light {m : ZNetworkLight} {ops : List (Deployment × Operations)}
    (h : leaveLastNode v isKnown (.light m) = .ok (n', ops)) : n' = .light m ∧ ops = [] := by
  cases h
  exact ⟨rfl, rfl⟩

theorem opened_operations {op : Deployment × Operations}
    (hop : op ∈ (st.opened d n).operations) :
    op ∈ st.operations ∨ op = (d, .delete) ∧ st.remaining = [] := by
  have hop : op ∈ if st.remaining.length = 0 then st.operations ++ [(d, .delete)]
    else st.operations := hop
  split_ifs at hop with hnil
  · rcases List.mem_append.mp hop with hop | hop
    · exact Or.inl hop
    · exact Or.inr ⟨List.mem_singleton.mp hop, List.length_eq_zero_iff.mp hnil⟩
  · exact Or.inl hop

theorem subset_opened : st.operations ⊆ (st.opened d n).operations := by
  show st.operations ⊆ if st.remaining.length = 0 then _ else _
  split
  · exact List.subset_append_left _ _
  · exact List.Subset.refl _

theorem delete_mem_opened (h : st.remaining = []) : (d, .delete) ∈ (st.opened d n).operations := by
  show _ ∈ if st.remaining.length = 0 then _ else _
  rw [if_pos (List.length_eq_zero_iff.mpr h)]
  exact List.mem_append_right _ (List.mem_singleton_self _)

/-- What `leaveNode` does for any contract. -/
theorem leaveNode_cases {ip : String} {c : Option Nat}
    (h : leaveNode v d nodeId ip n c st = .ok st') :
    (c = d.contractId ∧ st.remaining.length = 1 ∧ st'.remaining = [] ∧
        st'.operations = st.operations ++ [(d, .delete)]) ∨
      (c = d.contractId ∧ st.remaining.length ≠ 1 ∧ st'.operations = st.operations ∧
        st'.remaining = st.remaining.filter fun w => decide (w.name ≠ n.name)) ∨
      (c ≠ d.contractId ∧ st'.remaining = st.remaining ∧ ∃ ops,
        st'.operations = st.operations ++ ops ∧ ∀ op ∈ ops, op.1.contractId = c) := by
  unfold leaveNode at h
  split_ifs at h with hown hlength
  · cases h
    exact Or.inl ⟨hown, hlength, rfl, rfl⟩
  · cases h
    exact Or.inr (Or.inl ⟨hown, hlength, rfl, rfl⟩)
  · obtain ⟨ops, hops, h⟩ := exceptBind_eq_ok.mp h
    cases h
    exact Or.inr (Or.inr ⟨hown, rfl, ops, rfl, leaveOperations_contract hops⟩)

/-- With distinct names, a deployment of which only the network workload is kept has one
workload. -/
theorem length_of_only_network (hnames : (kept.map (·.name)).Nodup)
    (hin : ∃ w ∈ kept, w.name = n.name)
    (honly : (kept.filter fun w => decide (w.name ≠ n.name)) = []) : kept.length = 1 := by
  have hall : ∀ w ∈ kept, w.name = n.name := by
    intro w hw
    by_contra hne
    exact List.filter_eq_nil_iff.mp honly w hw (decide_eq_true hne)
  obtain ⟨w, hw, -⟩ := hin
  have hle := length_le_one_of_names hnames hall
  have hpos : 0 < kept.length := List.length_pos_of_mem hw
  omega

/-- A round from which the node still stays. -/
theorem staying_opened (hops : ∀ op ∈ st.operations, op = (d, .delete) ∧ kept = [])
    (hremaining : st.remaining = kept)
    (hstays : staysInNetwork nodeId (releaseAnyIps nodeId n₀ ips) = true)
    (deletedIps : List String) :
    Staying n₀ d nodeId kept ips
      { st.opened d (releaseAnyIps nodeId n₀ ips) with deletedIps := deletedIps } where
  network := rfl
  remaining := hremaining
  operations op hop := by
    rcases opened_operations (n := releaseAnyIps nodeId n₀ ips) hop with hop | ⟨hop, hnil⟩
    · exact hops op hop
    · exact ⟨hop, hremaining ▸ hnil⟩
  stays := hstays
  emptied hnil := delete_mem_opened (n := releaseAnyIps nodeId n₀ ips) (hremaining.trans hnil)

/-- The round in which the node leaves. -/
theorem departed_of_leave (hid : d.contractId = some id) (hreal : id ≠ 0) {light : Bool}
    (hhosts : Hosts isKnown light n₀ d nodeId) (hnames : (kept.map (·.name)).Nodup)
    (hkept : contractOn nodeId n₀ = d.contractId → ∃ w ∈ kept, w.name = n₀.name)
    (hops : ∀ op ∈ st.operations, op = (d, .delete) ∧ kept = []) (hremaining : st.remaining = kept)
    (hleft : staysInNetwork nodeId (releaseAnyIps nodeId n₀ ips) = false) {c : Option Nat}
    {n₂ n₃ : AnyNetwork} {ip : String} {st₂ : Release} {ops : List (Deployment × Operations)}
    (hdelete : (releaseAnyIps nodeId n₀ ips).deleteNode isKnown nodeId = .ok (c, n₂))
    (hleave : leaveNode v d nodeId ip n₂ c (st.opened d (releaseAnyIps nodeId n₀ ips)) = .ok st₂)
    (hlast : leaveLastNode v isKnown n₂ = .ok (n₃, ops)) :
    Departed n₀ d nodeId kept ips
      { st₂ with network := some n₃, operations := st₂.operations ++ ops } := by
  have hsame : SameNodes n₀ (releaseAnyIps nodeId n₀ ips) := sameNodes_release ips
  have hknown : isKnown = false → nodesOf (releaseAnyIps nodeId n₀ ips) = [] := by
    intro hk
    have hmap := hsame.nodes
    rw [hhosts.known hk] at hmap
    exact List.map_eq_nil_iff.mp hmap
  obtain ⟨hcontract, hname, hcls⟩ := deleteNode_contract hknown hreal hdelete
  rw [hsame.contractOn] at hcontract
  rw [hsame.name] at hname
  rw [hsame.cls] at hcls
  have hremaining₁ : (st.opened d (releaseAnyIps nodeId n₀ ips)).remaining = kept := hremaining
  -- the last node is another one, so its contract is another one too
  have hlast' : n₃.isNetwork = n₀.isNetwork ∧
      (n₀.isNetwork = true → ∀ x ∈ nodesOf n₃, x.nodeId ≠ some nodeId ∧
        x.contractId ≠ d.contractId) ∧ ∀ op ∈ ops, op.1.contractId ≠ d.contractId := by
    cases hn : n₂ with
    | light m =>
      rw [hn] at hlast hcls
      obtain ⟨rfl, rfl⟩ := leaveLastNode_light hlast
      exact ⟨hcls, fun hnet => absurd (hcls.trans hnet) Bool.false_ne_true,
        fun op hop => absurd hop List.not_mem_nil⟩
    | network m =>
      rw [hn] at hlast hcls hdelete
      have hapart : ∀ x ∈ m.nodes, x.nodeId ≠ some nodeId ∧ x.contractId ≠ some id := by
        intro x hx
        cases hm : releaseAnyIps nodeId n₀ ips with
        | light m₁ =>
          rw [hm] at hdelete
          obtain ⟨r, -, hr⟩ := exceptMap_eq_ok.mp hdelete
          cases hr
        | network m₁ =>
          rw [hm] at hdelete hknown
          obtain ⟨r, hr, hok⟩ := exceptMap_eq_ok.mp hdelete
          cases hok
          obtain ⟨hin, hne⟩ := deleteNode_gone hknown hr x hx
          refine ⟨hne, fun hcontract => hne ?_⟩
          have hin' : x ∈ nodesOf (releaseAnyIps nodeId n₀ ips) := hm ▸ hin
          obtain ⟨y, hy, hyid, hycontract⟩ := hsame.mem hin'
          rw [← hyid]
          exact hhosts.own y hy ((hycontract.trans hcontract).trans hid.symm)
      obtain ⟨hnet, hsub, hops⟩ := leaveLastNode_apart hreal hapart hlast
      rw [hid]
      exact ⟨hnet.trans hcls, fun _ x hx => hapart x (hsub x hx), hops⟩
  obtain ⟨hcls₃, hapart₃, hopsLast⟩ := hlast'
  have hopened : ∀ op ∈ (st.opened d (releaseAnyIps nodeId n₀ ips)).operations,
      op = (d, .delete) ∧ kept = [] := by
    intro op hop
    rcases opened_operations hop with hop | ⟨hop, hnil⟩
    · exact hops op hop
    · exact ⟨hop, hremaining ▸ hnil⟩
  have hwithout : st₂.remaining = withoutNetwork n₀ d nodeId kept ∧
      (∀ op ∈ st₂.operations, op.1.contractId = d.contractId →
        op = (d, .delete) ∧ withoutNetwork n₀ d nodeId kept = []) ∧
      (withoutNetwork n₀ d nodeId kept = [] → (d, .delete) ∈ st₂.operations) := by
    unfold withoutNetwork
    rcases leaveNode_cases hleave with ⟨hown, hlength, hrem, hopsEq⟩ |
      ⟨hown, hlength, hopsEq, hrem⟩ |
      ⟨hother, hrem, ops₂, hopsEq, hcontracts⟩
    · rw [hremaining₁] at hlength
      have hon : contractOn nodeId n₀ = d.contractId := by
        rw [hid] at hown ⊢
        exact hcontract.mp hown
      obtain ⟨w, hw⟩ := List.length_eq_one_iff.mp hlength
      have hnil : (kept.filter fun w => decide (w.name ≠ n₀.name)) = [] := by
        obtain ⟨x, hx, hxname⟩ := hkept hon
        rw [hw] at hx ⊢
        rw [List.mem_singleton.mp hx] at hxname
        simp [hxname]
      rw [if_pos hon, hnil, hrem, hopsEq]
      refine ⟨rfl, fun op hop _ => ?_, fun _ =>
        List.mem_append_right _ (List.mem_singleton_self _)⟩
      rcases List.mem_append.mp hop with hop | hop
      · exact ⟨(hopened op hop).1, rfl⟩
      · exact ⟨List.mem_singleton.mp hop, rfl⟩
    · rw [hremaining₁] at hlength hrem
      have hon : contractOn nodeId n₀ = d.contractId := by
        rw [hid] at hown ⊢
        exact hcontract.mp hown
      have hsome : (kept.filter fun w => decide (w.name ≠ n₀.name)) ≠ [] := fun honly =>
        hlength (length_of_only_network hnames (hkept hon) honly)
      rw [if_pos hon, hrem, hopsEq, hname]
      refine ⟨rfl, fun op hop _ => ?_, fun hnil => absurd hnil hsome⟩
      obtain ⟨w, hw, -⟩ := hkept hon
      rw [(hopened op hop).2] at hw
      cases hw
    · have hon : contractOn nodeId n₀ ≠ d.contractId := by
        rw [hid] at hother ⊢
        exact fun heq => hother (hcontract.mpr heq)
      rw [if_neg hon, hrem, hopsEq]
      refine ⟨hremaining₁, fun op hop hcon => ?_, fun hnil =>
        List.mem_append_left _ (delete_mem_opened (hremaining.trans hnil))⟩
      rcases List.mem_append.mp hop with hop | hop
      · exact hopened op hop
      · exact absurd ((hcontracts op hop).symm.trans hcon) hother
  obtain ⟨hrem, hown, hdeleted⟩ := hwithout
  refine ⟨hleft, ⟨n₃, rfl, hcls₃, hapart₃⟩, fun op hop hcon => ?_,
    fun hnil => List.mem_append_left _ (hdeleted hnil), fun _ => ⟨hrem, fun hsome op hop hcon => ?_⟩⟩
  · rcases List.mem_append.mp hop with hop | hop
    · exact (hown op hop hcon).1
    · exact absurd hcon (hopsLast op hop)
  · rcases List.mem_append.mp hop with hop | hop
    · exact hsome (hown op hop hcon).2
    · exact hopsLast op hop hcon

/-- Deleting a node that is not there finds no contract. -/
theorem deleteNode_absent {m m' : Network} {c : Option Nat}
    (habsent : ∀ x ∈ m.nodes, x.nodeId ≠ some nodeId)
    (h : m.deleteNode isKnown nodeId = .ok (c, m')) : c = some 0 ∧ ∀ x ∈ m'.nodes, x ∈ m.nodes := by
  unfold Network.deleteNode at h
  cases hk : isKnown with
  | false =>
    rw [hk] at h
    cases h
    exact ⟨rfl, fun x hx => hx⟩
  | true =>
    rw [hk, if_neg (by decide)] at h
    split_ifs at h
    cases h
    have hgone : (m.nodes.filter fun x => x.nodeId = some nodeId) = [] :=
      List.filter_eq_nil_iff.mpr fun x hx hid => habsent x hx (of_decide_eq_true hid)
    refine ⟨?_, fun x hx => (List.mem_filter.mp hx).1⟩
    rw [hgone]
    rfl

/-- After the node has left, opening a round changes nothing of that. -/
theorem Departed.opened (h : Departed n₀ d nodeId kept ips st) (hn : st.network = some n)
    (ip : String) :
    Departed n₀ d nodeId kept (ips ++ [ip]) (st.opened d (n.deleteReservedIp nodeId ip)) := by
  obtain ⟨left, ⟨n', hn', hcls, hapart⟩, hdeletes, hemptied, hremaining⟩ := h
  obtain rfl := Option.some.inj (hn.symm.trans hn')
  have hsame : SameNodes n (n.deleteReservedIp nodeId ip) := sameNodes_delete ip
  refine ⟨?_, ⟨_, rfl, hsame.cls.trans hcls, fun hnet x hx => ?_⟩, fun op hop hcon => ?_,
    fun hnil => subset_opened (n := n.deleteReservedIp nodeId ip) (hemptied hnil),
    fun hnet => ⟨(hremaining hnet).1, fun hsome op hop => ?_⟩⟩
  · rw [releaseAnyIps_append]
    exact leaves_release left [ip]
  · obtain ⟨y, hy, hyid, hycontract⟩ := hsame.mem hx
    rw [← hyid, ← hycontract]
    exact hapart hnet y hy
  · rcases opened_operations hop with hop | ⟨hop, -⟩
    · exact hdeletes op hop hcon
    · exact hop
  · rcases opened_operations hop with hop | ⟨-, hnil⟩
    · exact (hremaining hnet).2 hsome op hop
    · exact absurd ((hremaining hnet).1.symm.trans hnil) hsome

/-- What `leaveNode` adds on the contract of the deployment. -/
theorem leaveNode_adds {ip : String} {c : Option Nat}
    (h : leaveNode v d nodeId ip n c st = .ok st') :
    st.operations ⊆ st'.operations ∧ (∀ op ∈ st'.operations, op.1.contractId = d.contractId →
      op ∈ st.operations ∨ op = (d, .delete) ∧ c = d.contractId) ∧
    (c ≠ d.contractId → st'.remaining = st.remaining) := by
  rcases leaveNode_cases h with ⟨hown, -, -, hops⟩ | ⟨hown, -, hops, -⟩ |
    ⟨hother, hrem, ops, hops, hcontracts⟩
  · rw [hops]
    refine ⟨List.subset_append_left _ _, fun op hop _ => ?_, fun hne => absurd hown hne⟩
    rcases List.mem_append.mp hop with hop | hop
    · exact Or.inl hop
    · exact Or.inr ⟨List.mem_singleton.mp hop, hown⟩
  · rw [hops]
    exact ⟨List.Subset.refl _, fun op hop _ => Or.inl hop, fun hne => absurd hown hne⟩
  · rw [hops]
    refine ⟨List.subset_append_left _ _, fun op hop hcon => ?_, fun _ => hrem⟩
    rcases List.mem_append.mp hop with hop | hop
    · exact Or.inl hop
    · exact absurd ((hcontracts op hop).symm.trans hcon) hother

/-- The rounds after that. -/
theorem departed_releaseOn (hid : d.contractId = some id) (hreal : id ≠ 0)
    (h : Departed n₀ d nodeId kept ips st) (hn : st.network = some n) {m : Workload}
    (hrun : releaseOn v isKnown d nodeId n st m = .ok st') :
    ∃ iface, m.data.firstInterface = some iface ∧
      Departed n₀ d nodeId kept (ips ++ [iface.ip]) st' := by
  obtain ⟨iface, hiface, hcases⟩ := releaseOn_cases hrun
  refine ⟨iface, hiface, ?_⟩
  have hopened := h.opened hn iface.ip
  rcases hcases with ⟨-, rfl⟩ | ⟨-, c, n₂, st₂, n₃, ops, hdelete, hleave, hlast, rfl⟩
  · exact ⟨hopened.left, hopened.network, hopened.deletes, hopened.emptied, hopened.remaining⟩
  obtain ⟨left, ⟨n₁, hn₁, hcls, hapart⟩, hdeletes, hemptied, hremaining⟩ := hopened
  obtain rfl : n.deleteReservedIp nodeId iface.ip = n₁ := Option.some.inj hn₁
  obtain ⟨hsub, hadds, hkeeps⟩ := leaveNode_adds hleave
  have hdeletes₂ : ∀ op ∈ st₂.operations, op.1.contractId = d.contractId → op = (d, .delete) := by
    intro op hop hcon
    rcases hadds op hop hcon with hop | ⟨hop, -⟩
    · exact hdeletes op hop hcon
    · exact hop
  cases hm : n.deleteReservedIp nodeId iface.ip with
  | light m =>
    rw [hm] at hdelete hcls
    have hlight : n₀.isNetwork ≠ true := fun hnet =>
      absurd (hcls.trans hnet) Bool.false_ne_true
    obtain ⟨r, -, hr⟩ := exceptMap_eq_ok.mp hdelete
    cases hr
    obtain ⟨rfl, rfl⟩ := leaveLastNode_light hlast
    rw [List.append_nil]
    exact ⟨left, ⟨_, rfl, hcls, fun hnet => absurd hnet hlight⟩, hdeletes₂,
      fun hnil => hsub (hemptied hnil), fun hnet => absurd hnet hlight⟩
  | network m =>
    rw [hm] at hdelete hcls hapart
    have hnet : n₀.isNetwork = true := hcls.symm
    obtain ⟨⟨c', m'⟩, hgone, hr⟩ := exceptMap_eq_ok.mp hdelete
    cases hr
    obtain ⟨rfl, hnodes⟩ := deleteNode_absent (fun x hx => (hapart hnet x hx).1) hgone
    have hzero : (some 0 : Option Nat) ≠ d.contractId := by
      rw [hid]
      exact fun heq => hreal (Option.some.inj heq).symm
    have hapart' : ∀ x ∈ m'.nodes, x.nodeId ≠ some nodeId ∧ x.contractId ≠ some id := by
      rw [← hid]
      exact fun x hx => hapart hnet x (hnodes x hx)
    obtain ⟨hcls₃, hsub₃, hopsLast⟩ := leaveLastNode_apart hreal hapart' hlast
    rw [← hid] at hopsLast hapart'
    refine ⟨left, ⟨n₃, rfl, hcls₃.trans hcls, fun _ x hx => hapart' x (hsub₃ x hx)⟩,
      fun op hop hcon => ?_, fun hnil => List.mem_append_left _ (hsub (hemptied hnil)),
      fun _ => ⟨(hkeeps hzero).trans (hremaining hnet).1, fun hsome op hop hcon => ?_⟩⟩
    · rcases List.mem_append.mp hop with hop | hop
      · exact hdeletes₂ op hop hcon
      · exact absurd hcon (hopsLast op hop)
    · rcases List.mem_append.mp hop with hop | hop
      · rcases hadds op hop hcon with hop | ⟨-, hown⟩
        · exact (hremaining hnet).2 hsome op hop hcon
        · exact hzero hown
      · exact hopsLast op hop hcon

/-- A round while the node is in the network. -/
theorem staying_releaseOn (hid : d.contractId = some id) (hreal : id ≠ 0) {light : Bool}
    (hhosts : Hosts isKnown light n₀ d nodeId) (hnames : (kept.map (·.name)).Nodup)
    (hkept : contractOn nodeId n₀ = d.contractId → ∃ w ∈ kept, w.name = n₀.name)
    (hops : ∀ op ∈ st.operations, op = (d, .delete) ∧ kept = []) (hremaining : st.remaining = kept)
    {m : Workload}
    (hrun : releaseOn v isKnown d nodeId (releaseAnyIps nodeId n₀ ips) st m = .ok st') :
    ∃ iface, m.data.firstInterface = some iface ∧
      (Staying n₀ d nodeId kept (ips ++ [iface.ip]) st' ∨
        Departed n₀ d nodeId kept (ips ++ [iface.ip]) st') := by
  obtain ⟨iface, hiface, hcases⟩ := releaseOn_cases hrun
  have hrelease : (releaseAnyIps nodeId n₀ ips).deleteReservedIp nodeId iface.ip =
      releaseAnyIps nodeId n₀ (ips ++ [iface.ip]) := by
    rw [releaseAnyIps_append]
    rfl
  rw [hrelease] at hcases
  refine ⟨iface, hiface, ?_⟩
  rcases hcases with ⟨hstays, rfl⟩ | ⟨hleft, c, n₂, st₂, n₃, ops, hdelete, hleave, hlast, rfl⟩
  · exact Or.inl (staying_opened hops hremaining hstays _)
  · exact Or.inr (departed_of_leave hid hreal hhosts hnames hkept hops hremaining hleft hdelete
      hleave hlast)

/-- The rounds, from one that has gone either way. -/
theorem releaseRest_either {load : Bool → String → String → Except GridError AnyNetwork}
    (hid : d.contractId = some id) (hreal : id ≠ 0) {light : Bool}
    (hhosts : Hosts isKnown light n₀ d nodeId) (hnames : (kept.map (·.name)).Nodup)
    (hkept : contractOn nodeId n₀ = d.contractId → ∃ w ∈ kept, w.name = n₀.name)
    {machines : List Workload}
    (h : Staying n₀ d nodeId kept ips st ∨ Departed n₀ d nodeId kept ips st)
    (hrun : machines.foldlM (releaseMachine v load isKnown d nodeId) st = .ok st') :
    Staying n₀ d nodeId kept (ips ++ machineIps machines) st' ∨
      Departed n₀ d nodeId kept (ips ++ machineIps machines) st' := by
  induction machines generalizing st ips with
  | nil =>
    cases hrun
    rw [show machineIps [] = [] from rfl, List.append_nil]
    exact h
  | cons m machines ih =>
    rw [List.foldlM_cons] at hrun
    obtain ⟨st₁, hone, hrest⟩ := exceptBind_eq_ok.mp hrun
    obtain ⟨iface, hiface, hnext⟩ : ∃ iface, m.data.firstInterface = some iface ∧
        (Staying n₀ d nodeId kept (ips ++ [iface.ip]) st₁ ∨
          Departed n₀ d nodeId kept (ips ++ [iface.ip]) st₁) := by
      rcases h with h | h
      · unfold releaseMachine at hone
        rw [h.network] at hone
        exact staying_releaseOn hid hreal hhosts hnames hkept h.operations h.remaining hone
      · obtain ⟨n, hn, -⟩ := h.network
        unfold releaseMachine at hone
        rw [hn] at hone
        obtain ⟨iface, hiface, hdeparted⟩ := departed_releaseOn hid hreal h hn hone
        exact ⟨iface, hiface, Or.inr hdeparted⟩
    rw [machineIps_cons hiface, List.append_cons]
    exact ih hnext hrest

theorem deleteMachineNetwork_onOwn {load : Bool → String → String → Except GridError AnyNetwork}
    (hid : d.contractId = some id) (hreal : id ≠ 0) {first : Workload} {rest : List Workload}
    (hload : loadNetwork load first = .ok n₀) {light : Bool}
    (hhosts : Hosts isKnown light n₀ d nodeId) (hnames : (kept.map (·.name)).Nodup)
    (hkept : contractOn nodeId n₀ = d.contractId → ∃ w ∈ kept, w.name = n₀.name)
    {r : MachineNetwork}
    (h : deleteMachineNetwork v load isKnown d nodeId kept (first :: rest) = .ok r) :
    OnOwn n₀ d (mustRemain load d nodeId kept (first :: rest)) r := by
  obtain ⟨st, hst, h⟩ := exceptBind_eq_ok.mp h
  cases h
  rw [List.foldlM_cons] at hst
  obtain ⟨st₁, hone, hrest⟩ := exceptBind_eq_ok.mp hst
  obtain ⟨n, hn, hone⟩ := exceptBind_eq_ok.mp hone
  obtain rfl := Except.ok.inj (hload.symm.trans hn)
  change releaseOn v isKnown d nodeId (releaseAnyIps nodeId n₀ []) _ first = _ at hone
  obtain ⟨iface, hiface, hfirst⟩ := staying_releaseOn hid hreal hhosts hnames hkept
    (fun op hop => absurd hop List.not_mem_nil) rfl hone
  have hends := releaseRest_either hid hreal hhosts hnames hkept hfirst hrest
  rw [List.nil_append, List.singleton_append, ← machineIps_cons hiface] at hends
  have hops : MachineNetwork.operations
      ⟨st.operations.map fun op => .make op.1 op.2 0 0 "" st.network,
      st.remaining, st.deletedNodes, st.deletedIps, st.network⟩ = st.operations := by
    unfold MachineNetwork.operations
    rw [List.map_map]
    exact List.map_id _
  have hmust : mustRemain load d nodeId kept (first :: rest) =
      if staysInNetwork nodeId (releaseAnyIps nodeId n₀ (machineIps (first :: rest))) then kept
      else withoutNetwork n₀ d nodeId kept := by
    show (match loadNetwork load first with
      | .error _ => kept
      | .ok n =>
        if staysInNetwork nodeId (releaseAnyIps nodeId n (machineIps (first :: rest))) = true
        then kept else withoutNetwork n d nodeId kept) = _
    rw [hload]
  rw [hmust]
  rcases hends with hends | hends
  · rw [if_pos hends.stays]
    refine ⟨⟨_, hends.network, (sameNodes_release _).cls⟩, fun op hop _ => ?_, fun hnil => ?_,
      fun _ => ⟨hends.remaining, fun hsome op hop => ?_⟩⟩
    · rw [hops] at hop
      exact (hends.operations op hop).1
    · rw [hops]
      exact hends.emptied hnil
    · rw [hops] at hop
      exact absurd (hends.operations op hop).2 hsome
  · rw [if_neg (Bool.eq_false_iff.mp hends.left)]
    obtain ⟨n, hn, hcls, -⟩ := hends.network
    refine ⟨⟨n, hn, hcls⟩, ?_, ?_, ?_⟩
    · rw [hops]
      exact hends.deletes
    · rw [hops]
      exact hends.emptied
    · rw [hops]
      exact hends.remaining

end

end ThreefoldSdk.HighLevel
