import ThreefoldSdk.HighLevel.Instances
import ThreefoldSdk.HighLevel.VmNetwork
import ThreefoldSdk.Primitives.Decoding
import ThreefoldSdk.Primitives.Outline

/-! What the parts of `VMHL.create` leave of the outline of a network, and the operations that they
emit for it. -/

namespace ThreefoldSdk.HighLevel
open Zos Primitives Ipv4 Frame

/-- The operation updates a deployment of the network, and keeps its contract and types. -/
def UpdatesIn (x : Outline) (op : NetworkOperation) : Prop :=
  op.operation = .update ∧ ∃ nodeId,
    (nodeId, op.deployment.contractId, op.deployment.workloads.map (·.type)) ∈ x.deployments

/-- The operation makes a contract for a network workload of the type, on a node with `P`. -/
def DeploysOn (env : VmNetworkEnv) (o : VmNetworkOptions) (type : WorkloadTypes) (P : Nat → Prop)
    (op : NetworkOperation) : Prop :=
  ∃ nodeId w name, P nodeId ∧ w.type = type ∧ op = deployNetwork env o nodeId w name

/-- Nodes with `P` were added, among them the machine's own, and each got a contract. -/
structure Extended (env : VmNetworkEnv) (o : VmNetworkOptions) (P : Nat → Prop) (n n' : Network)
    (ops : List NetworkOperation) : Prop where
  deployments : (networkOutline n').deployments = (networkOutline n).deployments
  seats : ∀ p ∈ (networkOutline n').seats, p ∈ (networkOutline n).seats ∨ ∃ k, p.1 = some k ∧ P k
  operations : ∀ op ∈ ops, UpdatesIn (networkOutline n) op ∨ DeploysOn env o .network P op
  own : n.nodeExists o.nodeId = false →
    ∃ op ∈ ops, op.nodeId = o.nodeId ∧ DeploysOn env o .network P op

section
variable {env : VmNetworkEnv} {o : VmNetworkOptions} {n : Network} {s s' : Session}

/-! The parts. -/

theorem keeps_neededAccessNode : Keeps Session.network (neededAccessNode env o) := by
  unfold neededAccessNode
  split
  · refine (keeps_capacityAccessNodes.comp Session.network).bind fun offered =>
      (keeps_get _).bind fun s => ?_
    dsimp only
    split
    · exact keeps_pure _ _
    · refine Keeps.bind ?_ fun _ => keeps_pure _ _
      unfold pickAccessNode
      dsimp only
      split
      · exact (keeps_randomChoice _).comp Session.network
      · refine Keeps.bind (fun _ => rfl) fun _ => ?_
        split
        · exact Keeps.bind (keeps_throw _ _) fun _ => keeps_pure _ _
        · exact keeps_pure _ _
  · exact keeps_pure _ _

theorem capacityAccessNodes_ok {env : NetworkEnv} {offered : List (Nat × PublicConfig)}
    (h : capacityAccessNodes env s = .ok offered s') :
    env.accessNodes s.clock = .ok offered ∧ s' = { s with clock := s.clock + 1 } := by
  obtain ⟨clock, s₁, hrequest, h⟩ := bind_eq_ok.mp h
  obtain ⟨hoffered, rfl⟩ := pureStep_eq_ok.mp h
  obtain ⟨clock', s₂, htick, hanswer⟩ := bind_eq_ok.mp hrequest
  cases htick
  cases hfails : env.fails s.clock with
  | some e =>
    rw [hfails] at hanswer
    cases hanswer
  | none =>
    rw [hfails] at hanswer
    cases hanswer
    exact ⟨hoffered, rfl⟩

/-- The node that is given, or the one that is drawn. -/
theorem pickAccessNode_ok {offered : List (Nat × PublicConfig)} {k : Nat}
    (h : pickAccessNode env o offered s = .ok k s') :
    let filtered := (offered.filter fun p => p.2.ipv4 ≠ "").map Prod.fst
    (o.accessNodeId = 0 ∧ filtered[env.network.random s.clock % filtered.length]? = some k) ∨
      (o.accessNodeId ≠ 0 ∧ k = o.accessNodeId ∧ k ∈ filtered) := by
  intro filtered
  unfold pickAccessNode at h
  by_cases hgiven : o.accessNodeId = 0
  · refine Or.inl ⟨hgiven, ?_⟩
    rw [if_pos hgiven] at h
    obtain ⟨clock, s₁, htick, h⟩ := bind_eq_ok.mp h
    cases htick
    obtain ⟨hfound, -⟩ := pureStep_eq_ok.mp h
    cases hat : filtered[env.network.random s.clock % filtered.length]? with
    | none =>
      rw [hat] at hfound
      cases hfound
    | some x =>
      rw [hat] at hfound
      cases hfound
      rfl
  · refine Or.inr ⟨hgiven, ?_⟩
    rw [if_neg hgiven] at h
    obtain ⟨clock, s₁, htick, h⟩ := bind_eq_ok.mp h
    cases htick
    by_cases hin : o.accessNodeId ∈ filtered
    · rw [if_neg (not_not_intro hin)] at h
      cases h
      exact ⟨rfl, hin⟩
    · rw [if_pos hin] at h
      cases h

theorem keeps_outline_myceliumOperation :
    Keeps (fun s => networkOutline s.network) (myceliumOperation env o) := by
  refine (keeps_get _).bind fun s => ?_
  split
  · exact (keeps_outline_checkMycelium _ _ _).bind fun _ => keeps_pure _ _
  · exact keeps_pure _ _

theorem keeps_extendNetwork (znet : Option Workload) :
    Keeps Session.network (extendNetwork env o znet) :=
  (keeps_get _).bind fun _ => (keeps_pureStep _ _).bind fun _ => keeps_pure _ _

theorem outline_startNetwork {needsAccess : Bool} {znet : Option Workload}
    {r : List NetworkOperation × String} (h : startNetwork env o needsAccess znet s = .ok r s') :
    networkOutline s'.network = networkOutline s.network := by
  cases znet with
  | none =>
    cases h
    rfl
  | some w =>
    cases needsAccess with
    | true =>
      obtain ⟨text, s₁, haccess, h⟩ := bind_eq_ok.mp h
      obtain ⟨_, s₂, hget, h⟩ := bind_eq_ok.mp h
      cases hget
      cases h
      exact outline_addAccess haccess
    | false =>
      obtain ⟨_, s₂, hget, h⟩ := bind_eq_ok.mp h
      cases hget
      cases h
      rfl

theorem outline_addedOperations {access : Option (Nat × Workload)} {hasAccessNode : Bool}
    {znet : Option Workload} {r : List NetworkOperation × String}
    (h : addedOperations env o access hasAccessNode znet s = .ok r s') :
    networkOutline s'.network = networkOutline s.network := by
  unfold addedOperations at h
  split at h
  · obtain ⟨ops, s₁, hextend, h⟩ := bind_eq_ok.mp h
    cases h
    exact congrArg networkOutline ((keeps_extendNetwork znet).of_ok hextend)
  · exact outline_startNetwork h

theorem keeps_deployAccessNode (access : Option (Nat × Workload)) :
    Keeps Session.network (deployAccessNode env o access) := by
  cases access with
  | none => exact keeps_pure _ _
  | some p => exact (keeps_get _).bind fun _ => keeps_pure _ _

/-! The operations. -/

theorem types_fromObj {v : Validators} {d o : Deployment} (h : fromObj v d = .ok o) :
    o.contractId = d.contractId ∧ o.workloads.map (·.type) = d.workloads.map (·.type) := by
  obtain ⟨rfl, -⟩ := fromObj_eq h
  exact ⟨rfl, List.map_map⟩

theorem types_renewNetwork {ws ws' : List Workload} (h : renewNetwork n ws = .ok ws') :
    ws'.map (·.type) = ws.map (·.type) := by
  induction ws generalizing ws' with
  | nil =>
    cases h
    rfl
  | cons w ws ih =>
    have hpassed : ∀ {rest : Except GridError (List Workload)}, rest = renewNetwork n ws →
        (rest >>= fun rest => Except.ok (w :: rest)) = .ok ws' →
          ws'.map (·.type) = (w :: ws).map (·.type) := by
      intro rest hrest h
      obtain ⟨ws'', hws, h⟩ := exceptBind_eq_ok.mp h
      cases h
      rw [List.map_cons, List.map_cons, ih (hrest ▸ hws)]
    unfold renewNetwork at h
    split at h
    · obtain ⟨range, -, h⟩ := exceptBind_eq_ok.mp h
      obtain ⟨subnet, -, h⟩ := exceptBind_eq_ok.mp h
      split at h
      · cases h
        rfl
      · exact hpassed rfl h
    · exact hpassed rfl h

theorem networkUpdates_ok {v : Validators} {ds : List NetworkDeployment}
    {ops : List NetworkOperation} (h : networkUpdates v n ds = .ok ops) :
    ∀ op ∈ ops, op.operation = .update ∧ ∃ nodeId,
      (nodeId, op.deployment.contractId, op.deployment.workloads.map (·.type)) ∈
        ds.map deploymentOutline := by
  induction ds generalizing ops with
  | nil =>
    cases h
    exact fun op hop => nomatch hop
  | cons d ds ih =>
    obtain ⟨o, ho, h⟩ := exceptBind_eq_ok.mp h
    obtain ⟨ws, hws, h⟩ := exceptBind_eq_ok.mp h
    obtain ⟨rest, hrest, h⟩ := exceptBind_eq_ok.mp h
    cases h
    intro op hop
    rcases List.mem_cons.mp hop with rfl | hop
    · obtain ⟨hcontract, htypes⟩ := types_fromObj ho
      refine ⟨rfl, d.nodeId, List.mem_cons.mpr (Or.inl ?_)⟩
      unfold deploymentOutline
      rw [← hcontract, ← htypes, ← types_renewNetwork hws]
    · obtain ⟨hupdate, nodeId, hin⟩ := ih hrest op hop
      exact ⟨hupdate, nodeId, List.mem_cons_of_mem _ hin⟩

theorem myceliumUpdate_ok {v : Validators} {ds : List NetworkDeployment} {nodeId : Nat}
    {getUpdatedNetwork : WorkloadData → WorkloadData} {seed : String} {d : Deployment}
    (h : myceliumUpdate v ds nodeId (renewMycelium getUpdatedNetwork seed) = .ok (some d)) :
    (nodeId, d.contractId, d.workloads.map (·.type)) ∈ ds.map deploymentOutline := by
  unfold myceliumUpdate at h
  split at h
  · cases h
  · rename_i x hfind
    obtain ⟨o, ho, h⟩ := exceptBind_eq_ok.mp h
    obtain ⟨ws, hws, h⟩ := exceptBind_eq_ok.mp h
    cases h
    obtain ⟨hcontract, htypes⟩ := types_fromObj ho
    have hrenewed : ws.map (·.type) = o.workloads.map (·.type) := by
      refine Forall2.map_eq (R := fun w w' => w'.type = w.type) ((mapM_eq_ok.mp hws).imp ?_) ?_
      · intro w w' hw
        obtain ⟨data, -, hw⟩ := exceptBind_eq_ok.mp hw
        cases hw
        rfl
      · exact fun w w' hw => hw
    have hnode : x.nodeId = nodeId := by simpa using List.find?_some hfind
    refine List.mem_map.mpr ⟨x, List.mem_of_find?_eq_some hfind, ?_⟩
    unfold deploymentOutline
    rw [hnode, hrenewed, htypes]
    exact congrArg (fun id => (nodeId, id, _)) hcontract.symm

theorem addMycelium_ok {env : NetworkEnv} {v : Validators} {nodeId : Nat}
    {seeds : List MyceliumNetworkModel} {d : Deployment}
    (h : addMycelium env v nodeId seeds s = .ok (some d) s') :
    (nodeId, d.contractId, d.workloads.map (·.type)) ∈ (networkOutline s.network).deployments := by
  have houtline : networkOutline s'.network = networkOutline s.network :=
    (keeps_outline_addMycelium nodeId seeds).of_ok h
  obtain ⟨clock, s₁, htick, h⟩ := bind_eq_ok.mp h
  obtain ⟨seed, s₂, hseed, h⟩ := bind_eq_ok.mp h
  obtain ⟨_, s₃, hset, h⟩ := bind_eq_ok.mp h
  obtain ⟨_, s₄, hupdate, h⟩ := bind_eq_ok.mp h
  obtain ⟨_, s₅, hget, h⟩ := bind_eq_ok.mp h
  cases hget
  obtain ⟨hfound, rfl⟩ := pureStep_eq_ok.mp h
  rw [← houtline]
  exact myceliumUpdate_ok hfound

theorem checkMycelium_ok {env : NetworkEnv} {v : Validators} {nodeId : Nat}
    {seeds : List MyceliumNetworkModel} {mycelium : Bool} {d : Deployment}
    (h : checkMycelium env v nodeId seeds mycelium s = .ok (some d) s') :
    (nodeId, d.contractId, d.workloads.map (·.type)) ∈ (networkOutline s.network).deployments := by
  obtain ⟨_, s₁, hget, h⟩ := bind_eq_ok.mp h
  cases hget
  by_cases hmycelium : (!mycelium) = true
  · rw [if_pos hmycelium] at h
    cases h
  rw [if_neg hmycelium] at h
  cases hnet : s.network.networks.find? fun net => net.nodeId = some nodeId with
  | none =>
    rw [hnet] at h
    obtain ⟨clock, s₂, -, h⟩ := bind_eq_ok.mp h
    cases h
  | some net =>
    rw [hnet] at h
    dsimp only at h
    -- only a network without mycelium is updated, or one without a seed for it
    cases hkey : present (net.mycelium.map (·.hexKey)) with
    | none =>
      rw [hkey] at h
      exact addMycelium_ok h
    | some key =>
      cases hseed : seedFor seeds nodeId with
      | none =>
        rw [hkey, hseed] at h
        exact addMycelium_ok h
      | some seed =>
        rw [hkey, hseed] at h
        dsimp only at h
        by_cases hother : seed ≠ key
        · rw [if_pos hother] at h
          cases h
        · rw [if_neg hother] at h
          cases h

theorem myceliumOperation_ok {ops : List NetworkOperation}
    (h : myceliumOperation env o s = .ok ops s') :
    ∀ op ∈ ops, UpdatesIn (networkOutline s.network) op := by
  obtain ⟨_, s₁, hget, h⟩ := bind_eq_ok.mp h
  cases hget
  by_cases hexists : s.network.nodeExists o.nodeId = true
  · rw [if_pos hexists] at h
    obtain ⟨d, s₂, hcheck, h⟩ := bind_eq_ok.mp h
    cases h
    intro op hop
    obtain ⟨x, hx, rfl⟩ := Option.map_eq_some_iff.mp (Option.mem_toList.mp hop)
    obtain rfl := hx
    exact ⟨rfl, o.nodeId, checkMycelium_ok hcheck⟩
  · rw [if_neg hexists] at h
    cases h
    exact fun op hop => nomatch hop

/-- The access node that is needed is one that is offered. -/
theorem neededAccessNode_offered {i : Nat} {hasAccessNode : Bool}
    (h : neededAccessNode env o s = .ok (some i, hasAccessNode) s') :
    ∃ clock offered, env.network.accessNodes clock = .ok offered ∧ i ∈ offered.map Prod.fst := by
  unfold neededAccessNode at h
  split at h
  · obtain ⟨offered, s₁, hoffered, h⟩ := bind_eq_ok.mp h
    obtain ⟨hanswer, -⟩ := capacityAccessNodes_ok hoffered
    obtain ⟨_, s₂, -, h⟩ := bind_eq_ok.mp h
    split at h
    · cases h
    · obtain ⟨picked, s₃, hpick, h⟩ := bind_eq_ok.mp h
      cases h
      refine ⟨_, offered, hanswer, ?_⟩
      have hfiltered : i ∈ (offered.filter fun p => p.2.ipv4 ≠ "").map Prod.fst := by
        rcases pickAccessNode_ok hpick with ⟨-, hdrawn⟩ | ⟨-, -, hin⟩
        · exact List.mem_of_getElem? hdrawn
        · exact hin
      obtain ⟨p, hp, hid⟩ := List.mem_map.mp hfiltered
      exact List.mem_map.mpr ⟨p, (List.mem_filter.mp hp).1, hid⟩
  · cases h

/-- An access node that is added gets a workload, and later its contract. -/
theorem addAccessNode_ok {k : Option Nat} {subnet : String}
    {r : Option (Nat × Workload) × String} (h : addAccessNode env o subnet k s = .ok r s') :
    (r.1 = none ∧ networkOutline s'.network = networkOutline s.network) ∨
      ∃ i w t, k = some i ∧ r.1 = some (i, w) ∧ w.type = .network ∧
        networkOutline s'.network = (networkOutline s.network).push i t := by
  cases k with
  | none =>
    cases h
    exact Or.inl ⟨rfl, rfl⟩
  | some i =>
    obtain ⟨w, s₁, hadd, h⟩ := bind_eq_ok.mp h
    obtain ⟨text, s₂, haccess, h⟩ := bind_eq_ok.mp h
    cases h
    have hsame : networkOutline s'.network = networkOutline s₁.network := outline_addAccess haccess
    rcases outline_addNode hadd with ⟨-, rfl, rfl⟩ | ⟨-, ⟨w', rfl, htype⟩, t, -, hpush⟩
    · exact Or.inl ⟨rfl, hsame⟩
    · exact Or.inr ⟨i, w', t, rfl, rfl, htype, hsame.trans hpush⟩

theorem addedOperations_ok {access : Option (Nat × Workload)} {hasAccessNode : Bool}
    {znet : Option Workload} {r : List NetworkOperation × String}
    (h : addedOperations env o access hasAccessNode znet s = .ok r s') :
    (∀ op ∈ r.1, UpdatesIn (networkOutline s.network) op ∨
      ∃ w w' name, znet = some w ∧ w'.type = w.type ∧ op = deployNetwork env o o.nodeId w' name) ∧
    ∀ w, znet = some w → ∃ w' name, w'.type = w.type ∧ deployNetwork env o o.nodeId w' name ∈ r.1 := by
  unfold addedOperations at h
  split at h
  · obtain ⟨ops, s₁, hextend, h⟩ := bind_eq_ok.mp h
    cases h
    obtain ⟨_, s₂, hget, hextend⟩ := bind_eq_ok.mp hextend
    cases hget
    obtain ⟨updates, s₃, hfetched, hextend⟩ := bind_eq_ok.mp hextend
    obtain ⟨hupdates, rfl⟩ := pureStep_eq_ok.mp hfetched
    cases hextend
    constructor
    · intro op hop
      rcases List.mem_append.mp hop with hop | hop
      · exact Or.inl (networkUpdates_ok hupdates op hop)
      · obtain ⟨w, hw, rfl⟩ := Option.map_eq_some_iff.mp (Option.mem_toList.mp hop)
        exact Or.inr ⟨w, w, _, hw, rfl, rfl⟩
    · intro w hw
      refine ⟨w, s'.network.name, rfl, List.mem_append_right _ ?_⟩
      rw [hw]
      exact List.mem_singleton_self _
  · cases znet with
    | none =>
      cases h
      refine ⟨fun op hop => absurd hop List.not_mem_nil, fun w hw => ?_⟩
      cases hw
    | some w =>
      unfold startNetwork at h
      dsimp only at h
      split at h
      · obtain ⟨text, s₁, -, h⟩ := bind_eq_ok.mp h
        obtain ⟨t, s₂, -, h⟩ := bind_eq_ok.mp h
        cases h
        refine ⟨fun op hop => Or.inr ⟨w, _, _, rfl, ?_, List.mem_singleton.mp hop⟩, ?_⟩
        · rfl
        · rintro w' hw'
          obtain rfl := Option.some.inj hw'
          exact ⟨{ w with data := t.network.getUpdatedNetwork w.data }, _, rfl,
            List.mem_singleton_self _⟩
      · obtain ⟨_, s₂, -, h⟩ := bind_eq_ok.mp h
        cases h
        refine ⟨fun op hop => Or.inr ⟨w, _, _, rfl, rfl, List.mem_singleton.mp hop⟩, ?_⟩
        rintro w' hw'
        obtain rfl := Option.some.inj hw'
        exact ⟨_, _, rfl, List.mem_singleton_self _⟩

theorem deployAccessNode_ok {access : Option (Nat × Workload)} {ops : List NetworkOperation}
    (h : deployAccessNode env o access s = .ok ops s') :
    (∀ op ∈ ops, ∃ i w w' name, access = some (i, w) ∧ w'.type = w.type ∧
      op = deployNetwork env o i w' name) ∧
    ∀ i w, access = some (i, w) → ∃ w' name, w'.type = w.type ∧
      deployNetwork env o i w' name ∈ ops := by
  cases access with
  | none =>
    cases h
    refine ⟨fun op hop => absurd hop List.not_mem_nil, fun i w hw => ?_⟩
    cases hw
  | some p =>
    obtain ⟨t, s₁, -, h⟩ := bind_eq_ok.mp h
    cases h
    constructor
    · intro op hop
      exact ⟨p.1, p.2, { p.2 with data := t.network.getUpdatedNetwork p.2.data }, _, rfl, rfl,
        List.mem_singleton.mp hop⟩
    · rintro i w hw
      cases hw
      exact ⟨{ w with data := t.network.getUpdatedNetwork w.data }, _, rfl,
        List.mem_singleton_self _⟩

theorem keeps_outline_userSubnet : Keeps (fun s => networkOutline s.network) (userSubnet o) := by
  unfold userSubnet
  split
  · exact keeps_pure _ _
  · refine (keeps_pureStep _ _).bind fun ip => Keeps.bind (fun _ => rfl) fun reserved => ?_
    dsimp only
    split
    · exact Keeps.bind (keeps_throw _ _) fun _ => Keeps.bind (fun _ => rfl) fun _ => keeps_pure _ _
    · exact Keeps.bind (fun _ => rfl) fun _ => keeps_pure _ _

theorem keeps_outline_accessSubnet : Keeps (fun s => networkOutline s.network) (accessSubnet env o) := by
  unfold accessSubnet
  split
  · exact keeps_outline_of_unreserved keeps_getFreeSubnet
  · exact keeps_pure _ _

theorem pickedIp_ok {nodeId : Nat} {subnet : String} {r : String × Network}
    (h : n.getFreeIP nodeId subnet = .ok r) : ∃ nodes, r.2 = { n with nodes := nodes } := by
  obtain ⟨a, -, h⟩ := exceptBind_eq_ok.mp h
  dsimp only at h
  cases hreserve : reserveOn nodeId (plainText a) n.nodes with
  | none =>
    rw [hreserve] at h
    exact absurd h nofun
  | some nodes =>
    rw [hreserve] at h
    obtain rfl := Except.ok.inj h
    exact ⟨nodes, rfl⟩

theorem validateUserIP_ok {nodeId : Nat} {ip : String} {r : Option String × Network}
    (h : n.validateUserIP nodeId ip = .ok r) : ∃ nodes, r.2 = { n with nodes := nodes } := by
  unfold Network.validateUserIP at h
  split at h
  · cases h
  · obtain ⟨a', -, h⟩ := exceptBind_eq_ok.mp h
    obtain ⟨text, -, h⟩ := exceptBind_eq_ok.mp h
    obtain ⟨net, -, h⟩ := exceptBind_eq_ok.mp h
    dsimp only at h
    split at h
    · cases h
    · split at h
      · cases h
        exact ⟨_, rfl⟩
      · cases h
        exact ⟨n.nodes, rfl⟩

/-- Taking an ip changes the nodes only. -/
theorem machineIp_ok {ip : Option String} (h : machineIp o s = .ok ip s') :
    ∃ nodes, s'.network = { s.network with nodes := nodes } := by
  obtain ⟨_, s₁, hget, h⟩ := bind_eq_ok.mp h
  cases hget
  split at h
  · obtain ⟨r, s₂, hpick, h⟩ := bind_eq_ok.mp h
    obtain ⟨hfree, rfl⟩ := pureStep_eq_ok.mp hpick
    cases h
    exact pickedIp_ok hfree
  · obtain ⟨r, s₂, hcheck, h⟩ := bind_eq_ok.mp h
    obtain ⟨hvalid, rfl⟩ := pureStep_eq_ok.mp hcheck
    cases h
    exact validateUserIP_ok hvalid

theorem mem_push {x : Outline} {k : Nat} {t : String} {p : Option Nat × String}
    (h : p ∈ (x.push k t).seats) : p ∈ x.seats ∨ p.1 = some k := by
  rcases List.mem_append.mp h with h | h
  · exact Or.inl h
  · rw [List.mem_singleton.mp h]
    exact Or.inr rfl

/-- Every node that is added gets a contract of the network's type, the machine's own among them. -/
theorem joinNetwork_extended {P : Nat → Prop} (hown : P o.nodeId)
    (hoffered : ∀ clock offered, env.network.accessNodes clock = .ok offered →
      ∀ i ∈ offered.map Prod.fst, P i)
    {t : String} {r : List NetworkOperation × String} (h : joinNetwork env o t s = .ok r s') :
    Extended env o P s.network s'.network r.1 := by
  obtain ⟨u, s₁, hsubnet, h⟩ := bind_eq_ok.mp h
  obtain ⟨⟨k, hasAccessNode⟩, s₂, hneeded, h⟩ := bind_eq_ok.mp h
  obtain ⟨⟨access, wgConfig⟩, s₃, haccess, h⟩ := bind_eq_ok.mp h
  obtain ⟨mycelium, s₄, hmycelium, h⟩ := bind_eq_ok.mp h
  obtain ⟨znet, s₅, hadd, h⟩ := bind_eq_ok.mp h
  obtain ⟨clock, s₆, hrequest, h⟩ := bind_eq_ok.mp h
  obtain ⟨⟨joined, wgConfig'⟩, s₇, hjoined, h⟩ := bind_eq_ok.mp h
  obtain ⟨deployed, s₈, hdeploy, h⟩ := bind_eq_ok.mp h
  cases h
  have h₂ : networkOutline s₂.network = networkOutline s.network := by
    have hsame : s₂.network = s₁.network := keeps_neededAccessNode.of_ok hneeded
    rw [hsame]
    exact keeps_outline_accessSubnet.of_ok hsubnet
  have h₄ : networkOutline s₄.network = networkOutline s₃.network :=
    keeps_outline_myceliumOperation.of_ok hmycelium
  have hrest : networkOutline s'.network = networkOutline s₅.network := by
    have hdeployed : s'.network = s₇.network := (keeps_deployAccessNode _).of_ok hdeploy
    have hasked : s₆.network = s₅.network := (keeps_request.comp Session.network).of_ok hrequest
    rw [hdeployed, outline_addedOperations hjoined, hasked]
  -- the access node is one that is offered
  have haccess' : (access = none ∧ networkOutline s₃.network = networkOutline s.network) ∨
      ∃ i w t, P i ∧ access = some (i, w) ∧ w.type = .network ∧
        networkOutline s₃.network = (networkOutline s.network).push i t := by
    rcases addAccessNode_ok haccess with ⟨hnone, hsame⟩ | ⟨i, w, t, rfl, hsome, htype, hpush⟩
    · exact Or.inl ⟨hnone, hsame.trans h₂⟩
    · obtain ⟨clock', offered, hanswer, hin⟩ := neededAccessNode_offered hneeded
      rw [h₂] at hpush
      exact Or.inr ⟨i, w, t, hoffered clock' offered hanswer i hin, hsome, htype, hpush⟩
  have hdeployments₃ : (networkOutline s₃.network).deployments =
      (networkOutline s.network).deployments := by
    rcases haccess' with ⟨-, hsame⟩ | ⟨i, w, t, -, -, -, hpush⟩
    · rw [hsame]
    · rw [hpush]
      rfl
  have hdeployments₅ : (networkOutline s₅.network).deployments =
      (networkOutline s.network).deployments := by
    rcases outline_addNode hadd with ⟨-, -, rfl⟩ | ⟨-, -, t, -, hpush⟩
    · rw [h₄, hdeployments₃]
    · rw [hpush, ← hdeployments₃, ← h₄]
      rfl
  have hasked : networkOutline s₆.network = networkOutline s₅.network := by
    have hsame : s₆.network = s₅.network := (keeps_request.comp Session.network).of_ok hrequest
    rw [hsame]
  have hznet : ∀ w, znet = some w → w.type = .network := by
    intro w hw
    rcases outline_addNode hadd with ⟨-, hnone, -⟩ | ⟨-, ⟨w', hw', htype⟩, -⟩
    · rw [hnone] at hw
      cases hw
    · obtain rfl := Option.some.inj (hw'.symm.trans hw)
      exact htype
  obtain ⟨hops, hstarted⟩ := addedOperations_ok hjoined
  obtain ⟨hdeploys, hdeployed⟩ := deployAccessNode_ok hdeploy
  constructor
  · rw [hrest, hdeployments₅]
  · intro p hp
    rw [hrest] at hp
    have hp₃ : p ∈ (networkOutline s₃.network).seats ∨ p.1 = some o.nodeId := by
      rcases outline_addNode hadd with ⟨-, -, rfl⟩ | ⟨-, -, t, -, hpush⟩
      · rw [h₄] at hp
        exact Or.inl hp
      · rw [hpush, h₄] at hp
        exact mem_push hp
    rcases hp₃ with hp₃ | hp₃
    · rcases haccess' with ⟨-, hsame⟩ | ⟨i, w, t, hi, -, -, hpush⟩
      · rw [hsame] at hp₃
        exact Or.inl hp₃
      · rw [hpush] at hp₃
        exact (mem_push hp₃).imp_right fun hid => ⟨i, hid, hi⟩
    · exact Or.inr ⟨_, hp₃, hown⟩
  · intro op hop
    rcases List.mem_append.mp hop with hop | hop
    · rcases List.mem_append.mp hop with hop | hop
      · left
        obtain ⟨hupdate, nodeId, hin⟩ := myceliumOperation_ok hmycelium op hop
        rw [hdeployments₃] at hin
        exact ⟨hupdate, nodeId, hin⟩
      · rcases hops op hop with ⟨hupdate, nodeId, hin⟩ | ⟨w, w', name, hw, htype, rfl⟩
        · left
          rw [hasked, hdeployments₅] at hin
          exact ⟨hupdate, nodeId, hin⟩
        · right
          exact ⟨o.nodeId, w', name, hown, htype.trans (hznet w hw), rfl⟩
    · right
      obtain ⟨i, w, w', name, hsome, htype, rfl⟩ := hdeploys op hop
      rcases haccess' with ⟨hnone, -⟩ | ⟨i', w'', t, hi, hsome', htype', -⟩
      · rw [hnone] at hsome
        cases hsome
      · rw [hsome'] at hsome
        cases hsome
        exact ⟨i, w', name, hi, htype.trans htype', rfl⟩
  · intro hnew
    rcases outline_addNode hadd with ⟨hexists, -, -⟩ | ⟨-, ⟨w, rfl, htype⟩, -⟩
    · -- the node was added as access node
      rcases haccess' with ⟨-, hsame⟩ | ⟨i, w, t, hi, rfl, htype, hpush⟩
      · rw [nodeExists_outline, h₄, hsame, ← nodeExists_outline, hnew] at hexists
        cases hexists
      · have hid : i = o.nodeId := by
          by_contra hne
          rw [nodeExists_outline, h₄, hpush] at hexists
          rw [nodeExists_outline] at hnew
          unfold Outline.subnetOf Outline.push at hexists
          unfold Outline.subnetOf at hnew
          rw [Option.isSome_map] at hexists hnew
          rw [List.find?_append, List.find?_cons_of_neg (by simpa using hne), List.find?_nil,
            Option.or_none, hnew] at hexists
          cases hexists
        obtain ⟨w', name, htype', hin⟩ := hdeployed i w rfl
        refine ⟨_, List.mem_append_right _ hin, hid, i, w', name, hi, htype'.trans htype, rfl⟩
    · obtain ⟨w', name, htype', hin⟩ := hstarted w rfl
      refine ⟨_, List.mem_append_left _ (List.mem_append_right _ hin), rfl, o.nodeId, w', name, hown,
        htype'.trans htype, rfl⟩

/-- What the part of `create` on a network emits. -/
theorem vmNetwork_extended {P : Nat → Prop} (hown : P o.nodeId)
    (hoffered : ∀ clock offered, env.network.accessNodes clock = .ok offered →
      ∀ i ∈ offered.map Prod.fst, P i)
    {r : List NetworkOperation × String × Option String} (h : vmNetwork env o s = .ok r s') :
    Extended env o P s.network s'.network r.1 := by
  obtain ⟨t, s₁, hsubnet, h⟩ := bind_eq_ok.mp h
  obtain ⟨joined, s₂, hjoin, h⟩ := bind_eq_ok.mp h
  obtain ⟨ip, s₃, hip, h⟩ := bind_eq_ok.mp h
  cases h
  have h₁ : networkOutline s₁.network = networkOutline s.network :=
    keeps_outline_userSubnet.of_ok hsubnet
  obtain ⟨hdeployments, hseats, hops, hnew⟩ := joinNetwork_extended hown hoffered hjoin
  obtain ⟨nodes, hnodes⟩ := machineIp_ok hip
  rw [h₁] at hdeployments hseats hops
  rw [nodeExists_outline, h₁, ← nodeExists_outline] at hnew
  refine ⟨?_, ?_, hops, hnew⟩
  · rw [hnodes]
    exact hdeployments
  · rw [hnodes]
    exact hseats

end

end ThreefoldSdk.HighLevel
