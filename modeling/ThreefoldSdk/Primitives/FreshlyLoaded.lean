import ThreefoldSdk.Primitives.Decoding
import ThreefoldSdk.Primitives.LoadedNetwork

/-! What holds of a network right after `load`, when it is read from its contracts. -/

namespace ThreefoldSdk.Primitives
open Zos Frame

/-- What `load` leaves: no subnet is reserved yet, there is one entry for each node, and the
deployment of its contract is there; nodes answer with deployments that can be decoded. -/
structure FreshlyLoaded (v : Validators) (net : Network) : Prop where
  unreserved : net.reservedSubnets = []
  nodes : (net.nodes.map (·.nodeId)).Nodup
  held : ∀ node ∈ net.nodes, ∃ d ∈ net.deployments, d.deployment.contractId = node.contractId
  decodes : ∀ d ∈ net.deployments, ∃ o, fromObj v d.deployment = .ok o

/-- A node answers for a contract with the deployment of that contract, which it has accepted. -/
structure Answers (v : Validators) (source : NetworkSource) (c : GqlNodeContract) : Prop where
  contract : ∀ d, loadDeployment source.answers c = .ok d → d.contractId = some c.contractID
  valid : ∀ d, loadDeployment source.answers c = .ok d → d.valid v = true
  names : ∀ d, loadDeployment source.answers c = .ok d → (d.workloads.map (·.name)).Nodup

/-- One contract adds nothing, or its node and its deployment. -/
def Adds (c : GqlNodeContract) (d : Deployment) (n n' : Network) : Prop :=
  n'.name = n.name ∧ n'.reservedSubnets = n.reservedSubnets ∧
    ((n'.nodes = n.nodes ∧ n'.deployments = n.deployments) ∨
      ∃ ips, n'.nodes = n.nodes ++ [⟨some c.nodeID, some c.contractID, ips⟩] ∧
        n'.deployments = n.deployments ++ [⟨c.nodeID, d⟩])

namespace Network
variable {source : NetworkSource} {c : GqlNodeContract} {d : Deployment} {n n' : Network}

theorem loads_name {name : String} {w : Workload} {z : Znet} (h : loads name w = .ok (some z)) :
    w.name = name := by
  unfold loads at h
  split at h
  · split_ifs at h with hname
    · cases h
    · exact not_not.mp hname
  · cases h

theorem loadWorkload_cases {w : Workload} (h : loadWorkload source c d n w = .ok n') :
    n' = n ∨ w.name = n.name ∧ ∃ ips, n'.name = n.name ∧ n'.reservedSubnets = n.reservedSubnets ∧
      n'.nodes = n.nodes ++ [⟨some c.nodeID, some c.contractID, ips⟩] ∧
      n'.deployments = n.deployments ++ [⟨c.nodeID, d⟩] := by
  unfold loadWorkload at h
  obtain ⟨found, hfound, hrest⟩ := exceptBind_eq_ok.mp h
  cases found with
  | none =>
    cases hrest
    exact Or.inl rfl
  | some z =>
    obtain ⟨accesses, -, hrest⟩ := exceptBind_eq_ok.mp hrest
    obtain ⟨ips, -, hrest⟩ := exceptBind_eq_ok.mp hrest
    dsimp only at hrest
    split_ifs at hrest with hrange
    · cases hrest
    · cases hrest
      exact Or.inr ⟨loads_name hfound, ips, rfl, rfl, rfl, rfl⟩

/-- Workloads under other names are passed over. -/
theorem loadWorkloads_others {ws : List Workload} (hnames : ∀ w ∈ ws, w.name ≠ n.name)
    (h : ws.foldlM (loadWorkload source c d) n = .ok n') : n' = n := by
  induction ws with
  | nil =>
    cases h
    rfl
  | cons w ws ih =>
    rw [List.foldlM_cons] at h
    obtain ⟨n₁, hone, hrest⟩ := exceptBind_eq_ok.mp h
    rcases loadWorkload_cases hone with rfl | ⟨hname, -⟩
    · exact ih (fun x hx => hnames x (List.mem_cons_of_mem _ hx)) hrest
    · exact absurd hname (hnames w List.mem_cons_self)

theorem loadWorkloads_adds {ws : List Workload} (hnames : (ws.map (·.name)).Nodup)
    (h : ws.foldlM (loadWorkload source c d) n = .ok n') : Adds c d n n' := by
  induction ws with
  | nil =>
    cases h
    exact ⟨rfl, rfl, Or.inl ⟨rfl, rfl⟩⟩
  | cons w ws ih =>
    rw [List.map_cons, List.nodup_cons] at hnames
    rw [List.foldlM_cons] at h
    obtain ⟨n₁, hone, hrest⟩ := exceptBind_eq_ok.mp h
    rcases loadWorkload_cases hone with rfl | ⟨hname, ips, hname₁, hreserved, hnodes, hdeployments⟩
    · exact ih hnames.2 hrest
    · -- no later workload has the name of the network
      have hothers : ∀ x ∈ ws, x.name ≠ n₁.name := by
        intro x hx heq
        apply hnames.1
        rw [hname, ← hname₁, ← heq]
        exact List.mem_map_of_mem hx
      rw [loadWorkloads_others hothers hrest]
      exact ⟨hname₁, hreserved, Or.inr ⟨ips, hnodes, hdeployments⟩⟩

theorem loadContract_adds {v : Validators} (hanswers : Answers v source c)
    (h : loadContract source n c = .ok n') :
    ∃ d, loadDeployment source.answers c = .ok d ∧ Adds c d n n' := by
  unfold loadContract at h
  obtain ⟨d, hd, hrest⟩ := exceptBind_eq_ok.mp h
  exact ⟨d, hd, loadWorkloads_adds (hanswers.names d hd) hrest⟩

/-- What the contracts loaded so far have added, one node each at most. -/
structure LoadedFrom (v : Validators) (cs : List GqlNodeContract) (n n' : Network) : Prop where
  reserved : n'.reservedSubnets = n.reservedSubnets
  nodes : ∃ ids, n'.nodes.map (·.nodeId) = n.nodes.map (·.nodeId) ++ ids ∧
    ids.Sublist (cs.map fun c => some c.nodeID)
  held : (∀ node ∈ n.nodes, ∃ d ∈ n.deployments, d.deployment.contractId = node.contractId) →
    ∀ node ∈ n'.nodes, ∃ d ∈ n'.deployments, d.deployment.contractId = node.contractId
  decodes : (∀ d ∈ n.deployments, ∃ o, fromObj v d.deployment = .ok o) →
    ∀ d ∈ n'.deployments, ∃ o, fromObj v d.deployment = .ok o

theorem loadContracts_from {v : Validators} {cs : List GqlNodeContract}
    (hanswers : ∀ c ∈ cs, Answers v source c) (h : cs.foldlM (loadContract source) n = .ok n') :
    LoadedFrom v cs n n' := by
  induction cs generalizing n with
  | nil =>
    cases h
    exact ⟨rfl, ⟨[], (List.append_nil _).symm, List.Sublist.refl _⟩, id, id⟩
  | cons c cs ih =>
    rw [List.foldlM_cons] at h
    obtain ⟨n₁, hone, hrest⟩ := exceptBind_eq_ok.mp h
    have hc := hanswers c List.mem_cons_self
    obtain ⟨d, hd, -, hreserved, hadded⟩ := loadContract_adds hc hone
    have htail := ih (fun x hx => hanswers x (List.mem_cons_of_mem _ hx)) hrest
    obtain ⟨ids, hids, hsub⟩ := htail.nodes
    refine ⟨htail.reserved.trans hreserved, ?_, fun hheld => htail.held ?_, fun hdecodes =>
      htail.decodes ?_⟩
    · rcases hadded with ⟨hnodes, -⟩ | ⟨ips, hnodes, -⟩
      · exact ⟨ids, hnodes ▸ hids, hsub.cons _⟩
      · refine ⟨some c.nodeID :: ids, ?_, hsub.cons_cons _⟩
        rw [hids, hnodes, List.map_append, List.append_assoc]
        rfl
    · rcases hadded with ⟨hnodes, hdeployments⟩ | ⟨ips, hnodes, hdeployments⟩
      · rw [hnodes, hdeployments]
        exact hheld
      · rw [hnodes, hdeployments]
        intro node hnode
        rcases List.mem_append.mp hnode with hnode | hnode
        · obtain ⟨held, hmem, hid⟩ := hheld node hnode
          exact ⟨held, List.mem_append_left _ hmem, hid⟩
        · rw [List.mem_singleton.mp hnode]
          exact ⟨_, List.mem_append_right _ (List.mem_singleton_self _), hc.contract d hd⟩
    · rcases hadded with ⟨-, hdeployments⟩ | ⟨ips, -, hdeployments⟩
      · rw [hdeployments]
        exact hdecodes
      · rw [hdeployments]
        intro x hx
        rcases List.mem_append.mp hx with hx | hx
        · exact hdecodes x hx
        · rw [List.mem_singleton.mp hx]
          exact ⟨_, fromObj_of_valid (hc.valid d hd)⟩

/-- A network that is loaded from its contracts, of which no two are on one node. -/
theorem load_freshlyLoaded {v : Validators} {env : NetworkEnv} {name ipRange : String}
    (hknown : networkKnown name source.contracts = true)
    (hnodes : ((contractsNamed name source.contracts).map (·.nodeID)).Nodup)
    (hanswers : ∀ c ∈ contractsNamed name source.contracts, Answers v source c)
    (h : load source env (fresh name ipRange) = .ok n) : FreshlyLoaded v n := by
  unfold load at h
  rw [if_pos (show networkKnown (fresh name ipRange).name source.contracts = true from hknown)] at h
  obtain ⟨n₁, hloaded, hpoints⟩ := exceptBind_eq_ok.mp h
  obtain ⟨keys, -, hrest⟩ := exceptBind_eq_ok.mp hpoints
  cases hrest
  have hfrom := loadContracts_from hanswers hloaded
  obtain ⟨ids, hids, hsub⟩ := hfrom.nodes
  refine ⟨hfrom.reserved, ?_, hfrom.held (fun node hnode => nomatch hnode),
    hfrom.decodes (fun d hd => nomatch hd)⟩
  show (n₁.nodes.map (·.nodeId)).Nodup
  rw [hids]
  show ids.Nodup
  apply hsub.nodup
  have hmap := hnodes.map (Option.some_injective _)
  rw [List.map_map] at hmap
  exact hmap

end Network

end ThreefoldSdk.Primitives
