import ThreefoldSdk.Lib.Frame
import ThreefoldSdk.Primitives.LightIps

/-! Loading a light network from its contracts (`ZNetworkLight.load`), and whose data its operations
touch afterwards. -/

namespace ThreefoldSdk.Primitives
open Zos Ipv4 Frame

/-- `parsedDeploymentData`. -/
structure DeploymentData where
  type : String
  name : String
  projectName : Option String
deriving DecidableEq

structure GqlNodeContract where
  contractID : Nat
  nodeID : Nat
  updatedAt : Nat
  parsedDeploymentData : DeploymentData
deriving DecidableEq

/-- What the nodes answer: the deployment of a contract, and the private ips of a network. -/
structure NodeAnswers where
  /-- The request for the twin of a node. -/
  nodeTwin : Nat → Except GridError Unit
  deployment : Nat → Except GridError Deployment
  privateIps : Nat → String → Except GridError (List String)

section
variable (answers : NodeAnswers)

/-- `zos.deployment.get`. -/
def loadDeployment (c : GqlNodeContract) : Except GridError Deployment := do
  answers.nodeTwin c.nodeID
  match answers.deployment c.contractID with
  | .ok d => return d
  | .error e => throw (e.withPrefix s!"Failed to load network deployment {c.contractID}")

/-- `zos.network.list_private_ips`. -/
def getReservedIps (name : String) (nodeId : Nat) : Except GridError (List String) := do
  answers.nodeTwin nodeId
  match answers.privateIps nodeId name with
  | .ok ips => return ips
  | .error e => throw (e.withPrefix s!"Failed to list reserved ips from node {nodeId}")

end

/-- The contracts of a network, by the name in their deployment data. -/
def contractsNamed (name : String) (contracts : List GqlNodeContract) : List GqlNodeContract :=
  contracts.filter fun c => c.parsedDeploymentData.name = name

/-- `exists`. -/
def networkKnown (name : String) (contracts : List GqlNodeContract) : Bool :=
  (contracts.map (·.parsedDeploymentData.name)).contains name

namespace ZNetworkLight
variable (answers : NodeAnswers)

/-- A workload of the network that is not deleted; a workload without a result throws. -/
def loads (name : String) (w : Workload) : Except GridError (Option NetworkLight) :=
  match w.type, w.data with
  | .networklight, .networklight z =>
    if w.name ≠ name then .ok none
    else
      match w.result with
      | none => .error .typeError
      | some r => .ok (if r.state = .deleted then none else some z)
  | _, _ => .ok none

def loadWorkload (c : GqlNodeContract) (d : Deployment) (n : ZNetworkLight) (w : Workload) :
    Except GridError ZNetworkLight := do
  match ← loads n.name w with
  | none => return n
  | some z =>
    let reservedIps ← getReservedIps answers n.name c.nodeID
    return { n with
      node := some ⟨some c.nodeID, some c.contractID, reservedIps⟩
      network := some { z with nodeId := some c.nodeID }
      deployments := n.deployments ++ [⟨c.nodeID, d⟩] }

def loadContract (n : ZNetworkLight) (c : GqlNodeContract) : Except GridError ZNetworkLight := do
  let d ← loadDeployment answers c
  d.workloads.foldlM (loadWorkload answers c d) n

/-- `NodeIds` takes the nodes of all light networks of the user. -/
def load (contracts : List GqlNodeContract) (n : ZNetworkLight) : Except GridError ZNetworkLight :=
  if networkKnown n.name contracts then
    (contractsNamed n.name contracts).foldlM (loadContract answers)
      { n with nodeIds := some (contracts.map (·.nodeID)) }
  else .ok n

/-- A light network as its constructor makes it. -/
def fresh (name ipRange : String) : ZNetworkLight := ⟨name, ipRange, none, none, [], none, []⟩

/-- What the object holds of a node. -/
def dataOf (n : ZNetworkLight) (nodeId : Nat) : Option Node × Option NetworkLight :=
  (n.node.filter (·.nodeId = some nodeId), n.network.filter (·.nodeId = some nodeId))

end ZNetworkLight

/-- The network has a workload on the node, with these data. -/
def LightWorkload (answers : NodeAnswers) (contracts : List GqlNodeContract) (name : String)
    (nodeId : Nat) (z : NetworkLight) : Prop :=
  ∃ c ∈ contractsNamed name contracts, c.nodeID = nodeId ∧
    ∃ d, loadDeployment answers c = .ok d ∧
      ∃ w ∈ d.workloads, ZNetworkLight.loads name w = .ok (some z)

/-- The operations for a node touch its data of the network only. -/
structure Apart (answers : NodeAnswers) (contracts : List GqlNodeContract) (n : ZNetworkLight)
    (nodeId : Nat) : Prop where
  nodeExists : n.nodeExists nodeId = true ↔ ∃ z, LightWorkload answers contracts n.name nodeId z
  getNodeSubnet : ∀ t, n.getNodeSubnet nodeId = .ok (some t) →
    ∃ z, LightWorkload answers contracts n.name nodeId z ∧ z.subnet = t
  getNodeReservedIps : ∀ ip ∈ n.getNodeReservedIps nodeId,
    (∃ z, LightWorkload answers contracts n.name nodeId z) ∧
      ∃ ips, getReservedIps answers n.name nodeId = .ok ips ∧ ip ∈ ips
  deleteReservedIp : ∀ ip other, other ≠ nodeId →
    (n.deleteReservedIp nodeId ip).dataOf other = n.dataOf other
  deleteNode : ∀ id n', n.deleteNode (networkKnown n.name contracts) nodeId = .ok (id, n') →
    ∀ other, other ≠ nodeId → n'.dataOf other = n.dataOf other

/-- Whether the deployment of a contract has a workload of the network. -/
def holdsWorkload (answers : NodeAnswers) (name : String) (c : GqlNodeContract) : Bool :=
  match loadDeployment answers c with
  | .ok d => d.workloads.any fun w => (ZNetworkLight.loads name w).toOption.join.isSome
  | .error _ => false

/-- The node of the last contract of the network with a workload of it. -/
def lastNode (answers : NodeAnswers) (contracts : List GqlNodeContract) (name : String) :
    Option Nat :=
  ((contractsNamed name contracts).filter (holdsWorkload answers name)).getLast?.map (·.nodeID)

/-- What is loaded once the workloads of some contracts are, the last one on the node `last`. -/
structure Loaded (answers : NodeAnswers) (contracts : List GqlNodeContract) (start : ZNetworkLight)
    (last : Option Nat) (n : ZNetworkLight) : Prop where
  name : n.name = start.name
  nodeIds : n.nodeIds = start.nodeIds
  unloaded : last = none → n.node = none ∧ n.network = none
  loaded : ∀ k ∈ last, ∃ id ips z, n.node = some ⟨some k, some id, ips⟩ ∧
    n.network = some { z with nodeId := some k } ∧ LightWorkload answers contracts start.name k z ∧
    getReservedIps answers start.name k = .ok ips

section
variable {answers : NodeAnswers} {contracts : List GqlNodeContract} {n n' start : ZNetworkLight}

theorem Loaded.loadWorkload {last : Option Nat} {c : GqlNodeContract} {d : Deployment} {w : Workload}
    (h : Loaded answers contracts start last n) (hc : c ∈ contractsNamed start.name contracts)
    (hd : loadDeployment answers c = .ok d) (hw : w ∈ d.workloads)
    (hload : ZNetworkLight.loadWorkload answers c d n w = .ok n') :
    Loaded answers contracts start
      (if (ZNetworkLight.loads start.name w).toOption.join.isSome then some c.nodeID else last) n' := by
  obtain ⟨loaded, hloads, hload⟩ := exceptBind_eq_ok.mp hload
  rw [h.name] at hloads
  rw [hloads]
  cases loaded with
  | none =>
    cases hload
    exact h
  | some z =>
    obtain ⟨ips, hips, hload⟩ := exceptBind_eq_ok.mp hload
    cases hload
    rw [h.name] at hips
    refine ⟨h.name, h.nodeIds, (fun hnone => nomatch hnone), fun k hk => ?_⟩
    obtain rfl := Option.some.inj (Option.mem_def.mp hk)
    exact ⟨c.contractID, ips, z, rfl, rfl, ⟨c, hc, rfl, d, hd, w, hw, hloads⟩, hips⟩

theorem Loaded.loadWorkloads {last : Option Nat} {c : GqlNodeContract} {d : Deployment}
    (hc : c ∈ contractsNamed start.name contracts) (hd : loadDeployment answers c = .ok d)
    {ws : List Workload} (hws : ∀ w ∈ ws, w ∈ d.workloads)
    (h : Loaded answers contracts start last n)
    (hload : ws.foldlM (ZNetworkLight.loadWorkload answers c d) n = .ok n') :
    Loaded answers contracts start
      (if ws.any fun w => (ZNetworkLight.loads start.name w).toOption.join.isSome
        then some c.nodeID else last) n' := by
  induction ws generalizing n last with
  | nil =>
    cases hload
    exact h
  | cons w ws ih =>
    rw [List.foldlM_cons] at hload
    obtain ⟨n₁, hone, hrest⟩ := exceptBind_eq_ok.mp hload
    have hstep := h.loadWorkload hc hd (hws w List.mem_cons_self) hone
    have hall := ih (fun w' hw' => hws w' (List.mem_cons_of_mem _ hw')) hstep hrest
    rw [List.any_cons]
    cases hw : (ZNetworkLight.loads start.name w).toOption.join.isSome with
    | false =>
      rw [hw] at hall
      exact hall
    | true =>
      rw [hw] at hall
      rw [Bool.true_or, if_pos rfl]
      split at hall <;> exact hall

theorem Loaded.loadContracts {last : Option Nat} {cs : List GqlNodeContract}
    (hcs : ∀ c ∈ cs, c ∈ contractsNamed start.name contracts)
    (h : Loaded answers contracts start last n)
    (hload : cs.foldlM (ZNetworkLight.loadContract answers) n = .ok n') :
    Loaded answers contracts start
      (((cs.filter (holdsWorkload answers start.name)).getLast?.map (·.nodeID)).or last) n' := by
  induction cs generalizing n last with
  | nil =>
    cases hload
    exact h
  | cons c cs ih =>
    rw [List.foldlM_cons] at hload
    obtain ⟨n₁, hone, hrest⟩ := exceptBind_eq_ok.mp hload
    obtain ⟨d, hd, hone⟩ := exceptBind_eq_ok.mp hone
    have hholds : holdsWorkload answers start.name c = d.workloads.any fun w =>
        (ZNetworkLight.loads start.name w).toOption.join.isSome := by
      unfold holdsWorkload
      rw [hd]
    have hstep := h.loadWorkloads (hcs c List.mem_cons_self) hd (fun w hw => hw) hone
    have hall := ih (fun c' hc' => hcs c' (List.mem_cons_of_mem _ hc')) hstep hrest
    rw [← hholds] at hall
    cases hc : holdsWorkload answers start.name c with
    | false =>
      rw [List.filter_cons_of_neg (by rw [hc]; decide)]
      rw [hc] at hall
      exact hall
    | true =>
      rw [List.filter_cons_of_pos hc, List.getLast?_cons]
      rw [hc, if_pos rfl] at hall
      cases hlast : (cs.filter (holdsWorkload answers start.name)).getLast? with
      | none =>
        rw [hlast] at hall
        exact hall
      | some c' =>
        rw [hlast] at hall
        exact hall

theorem isSome_of_lightWorkload {name : String} {k : Nat} {z : NetworkLight}
    (h : LightWorkload answers contracts name k z) : (lastNode answers contracts name).isSome := by
  obtain ⟨c, hc, -, d, hd, w, hw, hloads⟩ := h
  have hholds : holdsWorkload answers name c = true := by
    unfold holdsWorkload
    rw [hd]
    refine List.any_eq_true.mpr ⟨w, hw, ?_⟩
    rw [hloads]
    rfl
  have hne : (contractsNamed name contracts).filter (holdsWorkload answers name) ≠ [] :=
    List.ne_nil_of_mem (List.mem_filter.mpr ⟨hc, hholds⟩)
  rw [lastNode, Option.isSome_map, List.getLast?_isSome]
  exact hne

theorem mem_nodeIDs_of_lightWorkload {name : String} {k : Nat} {z : NetworkLight}
    (h : LightWorkload answers contracts name k z) : k ∈ contracts.map (·.nodeID) := by
  obtain ⟨c, hc, rfl, -⟩ := h
  exact List.mem_map_of_mem (List.mem_filter.mp hc).1

theorem networkKnown_of_mem {name : String} {c : GqlNodeContract}
    (h : c ∈ contractsNamed name contracts) : networkKnown name contracts = true := by
  obtain ⟨hc, hname⟩ := List.mem_filter.mp h
  unfold networkKnown
  rw [List.contains_iff_mem]
  exact List.mem_map.mpr ⟨c, hc, of_decide_eq_true hname⟩

/-- What `load` leaves of a new object. -/
theorem load_ok {name ipRange : String} {n : ZNetworkLight}
    (h : (ZNetworkLight.fresh name ipRange).load answers contracts = .ok n) :
    n.name = name ∧
      (networkKnown name contracts = false → n = ZNetworkLight.fresh name ipRange) ∧
      (networkKnown name contracts = true → n.nodeIds = some (contracts.map (·.nodeID)) ∧
        Loaded answers contracts { ZNetworkLight.fresh name ipRange with
          nodeIds := some (contracts.map (·.nodeID)) } (lastNode answers contracts name) n) := by
  unfold ZNetworkLight.load at h
  change (if networkKnown name contracts then _ else _) = _ at h
  cases hknown : networkKnown name contracts with
  | false =>
    rw [hknown] at h
    cases h
    exact ⟨rfl, fun _ => rfl, fun htrue => nomatch htrue⟩
  | true =>
    rw [hknown] at h
    let start : ZNetworkLight := { ZNetworkLight.fresh name ipRange with
      nodeIds := some (contracts.map (·.nodeID)) }
    have hstart : Loaded answers contracts start none start :=
      ⟨rfl, rfl, fun _ => ⟨rfl, rfl⟩, fun k hk => nomatch hk⟩
    have hall := hstart.loadContracts (fun c hc => hc) h
    rw [Option.or_none] at hall
    exact ⟨hall.name, (fun hfalse => nomatch hfalse), fun _ => ⟨hall.nodeIds, hall⟩⟩

/-- After `load`, the operations for a node touch its data only exactly when it is the last node of
the network, or nothing was loaded and the node has no light network at all. -/
theorem lightNetwork_apart_iff {name ipRange : String}
    (h : (ZNetworkLight.fresh name ipRange).load answers contracts = .ok n) (nodeId : Nat) :
    Apart answers contracts n nodeId ↔ lastNode answers contracts name = some nodeId ∨
      (lastNode answers contracts name = none ∧
        (networkKnown name contracts = false ∨ nodeId ∉ contracts.map (·.nodeID))) := by
  obtain ⟨hname, hfresh, hloaded⟩ := load_ok h
  cases hknown : networkKnown name contracts with
  | false =>
    -- nothing is loaded
    obtain rfl := hfresh hknown
    have hempty : ∀ k z, ¬ LightWorkload answers contracts name k z := by
      rintro k z ⟨c, hc, -⟩
      rw [networkKnown_of_mem hc] at hknown
      cases hknown
    have hlast : lastNode answers contracts name = none := by
      have hnil : contractsNamed name contracts = [] := by
        rw [List.eq_nil_iff_forall_not_mem]
        intro c hc
        rw [networkKnown_of_mem hc] at hknown
        cases hknown
      rw [lastNode, hnil]
      rfl
    refine iff_of_true ?_ (Or.inr ⟨hlast, Or.inl rfl⟩)
    refine ⟨iff_of_false (fun hin => nomatch hin) fun ⟨z, hz⟩ => hempty _ z hz,
      (fun t ht => nomatch ht), (fun ip hip => nomatch hip), fun ip other _ => rfl,
      fun id n' hdel other _ => ?_⟩
    have hstays : (ZNetworkLight.fresh name ipRange).deleteNode (networkKnown name contracts) nodeId =
        .ok (some 0, ZNetworkLight.fresh name ipRange) := by
      rw [hknown]
      rfl
    rw [hname, hstays] at hdel
    cases hdel
    rfl
  | true =>
    obtain ⟨hids, hl⟩ := hloaded hknown
    have hexists : n.nodeExists nodeId = true ↔ nodeId ∈ contracts.map (·.nodeID) := by
      rw [ZNetworkLight.nodeExists, hids, Option.getD_some, List.contains_iff_mem]
    cases hlast : lastNode answers contracts name with
    | none =>
      rw [hlast] at hl
      obtain ⟨hnode, hnetwork⟩ := hl.unloaded rfl
      have hempty : ¬ ∃ z, LightWorkload answers contracts n.name nodeId z := by
        rintro ⟨z, hz⟩
        rw [hname] at hz
        have hsome := isSome_of_lightWorkload hz
        rw [hlast] at hsome
        cases hsome
      simp only [reduceCtorEq, Bool.true_eq_false, false_or, true_and]
      constructor
      · intro hapart hin
        exact hempty (hapart.nodeExists.mp (hexists.mpr hin))
      · intro hnot
        have hfalse : n.nodeExists nodeId = false := by
          rw [Bool.eq_false_iff]
          exact hexists.not.mpr hnot
        refine ⟨iff_of_false (hexists.not.mpr hnot) hempty, fun t ht => ?_, fun ip hip => ?_,
          fun ip other _ => ?_, fun id n' hdel other _ => ?_⟩
        · rw [ZNetworkLight.getNodeSubnet, hnetwork] at ht
          cases ht
        · rw [ZNetworkLight.getNodeReservedIps, hfalse] at hip
          cases hip
        · rw [ZNetworkLight.deleteReservedIp, hfalse]
          rfl
        · rw [ZNetworkLight.deleteNode, hname, hknown, hnode] at hdel
          cases hdel
    | some k =>
      rw [hlast] at hl
      obtain ⟨id, ips, z, hnode, hnetwork, hwork, hips⟩ := hl.loaded k rfl
      simp only [reduceCtorEq, false_and, or_false, Option.some.injEq]
      constructor
      · -- deleting another node gives up the one that was loaded
        intro hapart
        by_contra hne
        have hdel : n.deleteNode (networkKnown n.name contracts) nodeId =
            .ok (some 0, { n with
              node := some (.fresh none)
              reservedSubnets := n.reservedSubnets.filter (· = z.subnet) }) := by
          unfold ZNetworkLight.deleteNode
          rw [hname, hknown, hnode, hnetwork]
          simp only [Bool.not_true, Bool.false_eq_true, ↓reduceIte, ne_eq, Option.some.injEq, hne,
            not_false_eq_true]
        have hsame := congrArg Prod.fst (hapart.deleteNode _ _ hdel k hne)
        simp [ZNetworkLight.dataOf, hnode, Node.fresh, Option.filter_some] at hsame
      · rintro rfl
        refine ⟨iff_of_true (hexists.mpr (mem_nodeIDs_of_lightWorkload hwork)) ⟨z, ?_⟩,
          fun t ht => ⟨z, ?_, ?_⟩, fun ip hip => ⟨⟨z, ?_⟩, ips, ?_, ?_⟩, fun ip other hne => ?_,
          fun id' n' hdel other hne => ?_⟩
        · rw [hname]
          exact hwork
        · rw [hname]
          exact hwork
        · rw [ZNetworkLight.getNodeSubnet, hnetwork] at ht
          simpa using ht
        · rw [hname]
          exact hwork
        · rw [hname]
          exact hips
        · have htrue := hexists.mpr (mem_nodeIDs_of_lightWorkload hwork)
          rw [ZNetworkLight.getNodeReservedIps, htrue, if_pos rfl, hnode] at hip
          exact hip
        · have htrue := hexists.mpr (mem_nodeIDs_of_lightWorkload hwork)
          rw [ZNetworkLight.deleteReservedIp, htrue, if_pos rfl]
          simp [ZNetworkLight.dataOf, hnode, Ne.symm hne, Option.filter_some]
        · unfold ZNetworkLight.deleteNode at hdel
          rw [hname, hknown, hnode, hnetwork] at hdel
          simp only [Bool.not_true, Bool.false_eq_true, ↓reduceIte, ne_eq, not_true_eq_false,
            Except.ok.injEq, Prod.mk.injEq] at hdel
          obtain ⟨-, rfl⟩ := hdel
          simp [ZNetworkLight.dataOf, hnode, hnetwork]

end

/-- A light network on a node. -/
def lightDeployment (name : String) (id : Nat) : Deployment where
  version := 0
  twinId := 5
  contractId := some id
  expiration := 0
  metadata := ""
  description := ""
  workloads := [⟨0, name, .networklight, .networklight ⟨"10.1.2.0/24", none, none, none⟩, "", "",
    some ⟨0, .ok, ""⟩⟩]
  signatureRequirement := ⟨[], 1, []⟩

/-- The network `a` on node 11, and the network `b` on node 12. -/
def twoLightNetworks : List GqlNodeContract :=
  [⟨1, 11, 0, "network-light", "a", none⟩, ⟨2, 12, 0, "network-light", "b", none⟩]

def twoLightAnswers : NodeAnswers where
  nodeTwin _ := .ok ⟨⟩
  deployment id := .ok (lightDeployment (if id = 1 then "a" else "b") id)
  privateIps _ _ := .ok ["10.1.2.2"]

theorem lightNetwork_loads : ∃ n,
    (ZNetworkLight.fresh "b" "10.1.0.0/16").load twoLightAnswers twoLightNetworks = .ok n := ⟨_, rfl⟩

theorem lightNetwork_apart_twelve : ∃ n,
    (ZNetworkLight.fresh "b" "10.1.0.0/16").load twoLightAnswers twoLightNetworks = .ok n ∧
      Apart twoLightAnswers twoLightNetworks n 12 := by
  obtain ⟨n, hload⟩ := lightNetwork_loads
  refine ⟨n, hload, (lightNetwork_apart_iff hload 12).mpr (Or.inl ?_)⟩
  decide

/-- The node of the network `a` counts as one of the network `b`. -/
theorem lightNetwork_not_apart : ∃ n,
    (ZNetworkLight.fresh "b" "10.1.0.0/16").load twoLightAnswers twoLightNetworks = .ok n ∧
      ¬ ∀ nodeId, Apart twoLightAnswers twoLightNetworks n nodeId := by
  obtain ⟨n, hload⟩ := lightNetwork_loads
  obtain ⟨hname, -, hloaded⟩ := load_ok hload
  obtain ⟨hids, -⟩ := hloaded (by decide)
  refine ⟨n, hload, fun h => ?_⟩
  have hin : n.nodeExists 11 = true := by
    rw [ZNetworkLight.nodeExists, hids]
    decide
  obtain ⟨z, c, hc, hnode, -⟩ := (h 11).nodeExists.mp hin
  have honly : contractsNamed "b" twoLightNetworks = [⟨2, 12, 0, "network-light", "b", none⟩] := by
    decide
  rw [hname, honly, List.mem_singleton] at hc
  rw [hc] at hnode
  cases hnode

end ThreefoldSdk.Primitives
