import ThreefoldSdk.Primitives.LoadedNetwork

/-! The networks that each contract gives to the network that is loaded from it. -/

namespace ThreefoldSdk.Primitives.Network
open Zos Frame

/-- The network of a workload, with the id of the contract. -/
def givenBy (name : String) (c : GqlNodeContract) (w : Workload) : List (Znet × Nat) :=
  (loads name w).toOption.join.toList.map fun z => ({ z with nodeId := some c.nodeID }, c.contractID)

def given (source : NetworkSource) (name : String) (c : GqlNodeContract) : List (Znet × Nat) :=
  match loadDeployment source.answers c with
  | .ok d => d.workloads.flatMap (givenBy name c)
  | .error _ => []

/-- Loading the workload does not throw. -/
def WorkloadLoads (source : NetworkSource) (name ipRange : String) (c : GqlNodeContract)
    (w : Workload) : Prop :=
  ∃ found, loads name w = .ok found ∧ ∀ z, found = some z → z.ipRange = ipRange ∧
    (∃ accesses, source.userAccesses w.metadata = some accesses) ∧
    ∃ ips, getReservedIps source.answers name c.nodeID = .ok ips

def ContractLoads (source : NetworkSource) (name ipRange : String) (c : GqlNodeContract) : Prop :=
  ∃ d, loadDeployment source.answers c = .ok d ∧
    ∀ w ∈ d.workloads, WorkloadLoads source name ipRange c w

/-- The ids of a node and of its contract. -/
def ids (node : Node) : Option Nat × Option Nat := (node.nodeId, node.contractId)

/-- The networks were added, each with its node. -/
structure Given (gs : List (Znet × Nat)) (n n' : Network) : Prop where
  name : n'.name = n.name
  ipRange : n'.ipRange = n.ipRange
  accessPoints : n'.accessPoints = n.accessPoints
  networks : n'.networks = n.networks ++ gs.map Prod.fst
  nodes : n'.nodes.map ids = n.nodes.map ids ++ gs.map fun g => (g.1.nodeId, some g.2)

theorem Given.nil (n : Network) : Given [] n n :=
  ⟨rfl, rfl, rfl, (List.append_nil _).symm, (List.append_nil _).symm⟩

theorem Given.append {gs gs' : List (Znet × Nat)} {n n' n'' : Network} (h : Given gs n n')
    (h' : Given gs' n' n'') : Given (gs ++ gs') n n'' where
  name := h'.name.trans h.name
  ipRange := h'.ipRange.trans h.ipRange
  accessPoints := h'.accessPoints.trans h.accessPoints
  networks := by rw [h'.networks, h.networks, List.map_append, List.append_assoc]
  nodes := by rw [h'.nodes, h.nodes, List.map_append, List.append_assoc]

/-! A loop whose rounds give networks. -/

section
variable {α : Type} {f : Network → α → Except GridError Network} {P : α → Prop}
  {give : α → List (Znet × Nat)} {name ipRange : String}

theorem foldlM_given {n n' : Network} {xs : List α}
    (hstep : ∀ n n' x, n.name = name → n.ipRange = ipRange → f n x = .ok n' →
      P x ∧ Given (give x) n n')
    (hname : n.name = name) (hrange : n.ipRange = ipRange) (h : xs.foldlM f n = .ok n') :
    (∀ x ∈ xs, P x) ∧ Given (xs.flatMap give) n n' := by
  induction xs generalizing n with
  | nil =>
    cases h
    exact ⟨fun x hx => absurd hx List.not_mem_nil, .nil _⟩
  | cons x xs ih =>
    rw [List.foldlM_cons] at h
    obtain ⟨n₁, hone, hrest⟩ := exceptBind_eq_ok.mp h
    obtain ⟨hx, hgiven⟩ := hstep n n₁ x hname hrange hone
    obtain ⟨hxs, hgiven'⟩ := ih (hgiven.name.trans hname) (hgiven.ipRange.trans hrange) hrest
    rw [List.flatMap_cons]
    exact ⟨List.forall_mem_cons.mpr ⟨hx, hxs⟩, hgiven.append hgiven'⟩

theorem foldlM_runs {n : Network} {xs : List α}
    (hstep : ∀ n n' x, n.name = name → n.ipRange = ipRange → f n x = .ok n' →
      P x ∧ Given (give x) n n')
    (hruns : ∀ n x, n.name = name → n.ipRange = ipRange → P x → ∃ n', f n x = .ok n')
    (hname : n.name = name) (hrange : n.ipRange = ipRange) (h : ∀ x ∈ xs, P x) :
    ∃ n', xs.foldlM f n = .ok n' := by
  induction xs generalizing n with
  | nil => exact ⟨n, rfl⟩
  | cons x xs ih =>
    obtain ⟨hx, hxs⟩ := List.forall_mem_cons.mp h
    obtain ⟨n₁, hone⟩ := hruns n x hname hrange hx
    obtain ⟨-, hgiven⟩ := hstep n n₁ x hname hrange hone
    obtain ⟨n', hrest⟩ := ih (hgiven.name.trans hname) (hgiven.ipRange.trans hrange) hxs
    refine ⟨n', ?_⟩
    rw [List.foldlM_cons]
    exact exceptBind_eq_ok.mpr ⟨n₁, hone, hrest⟩

end

section
variable {source : NetworkSource} {env : NetworkEnv} {name ipRange : String} {c : GqlNodeContract}
  {n n' : Network}

theorem loadWorkload_given {d : Deployment} {w : Workload} (hname : n.name = name)
    (hrange : n.ipRange = ipRange) (h : loadWorkload source c d n w = .ok n') :
    WorkloadLoads source name ipRange c w ∧ Given (givenBy name c w) n n' := by
  obtain ⟨found, hfound, hrest⟩ := exceptBind_eq_ok.mp h
  rw [hname] at hfound
  unfold givenBy
  rw [hfound]
  cases found with
  | none =>
    cases hrest
    exact ⟨⟨none, hfound, nofun⟩, .nil _⟩
  | some z =>
    obtain ⟨accesses, haccesses, hrest⟩ := exceptBind_eq_ok.mp hrest
    obtain ⟨ips, hips, hrest⟩ := exceptBind_eq_ok.mp hrest
    have hparsed : source.userAccesses w.metadata = some accesses := by
      unfold parseMetadata at haccesses
      split at haccesses
      · rename_i hsome
        rw [hsome, Except.ok.inj haccesses]
      · cases haccesses
    dsimp only at hrest
    split_ifs at hrest with hsame
    · cases hrest
    cases hrest
    constructor
    · refine ⟨some z, hfound, fun z' hz' => ?_⟩
      obtain rfl := Option.some.inj hz'
      rw [hname] at hips
      exact ⟨(not_not.mp hsame).trans hrange, ⟨accesses, hparsed⟩, ips, hips⟩
    · exact ⟨rfl, rfl, rfl, rfl, List.map_append⟩

theorem loadWorkload_runs {d : Deployment} {w : Workload} (hname : n.name = name)
    (hrange : n.ipRange = ipRange) (h : WorkloadLoads source name ipRange c w) :
    ∃ n', loadWorkload source c d n w = .ok n' := by
  obtain ⟨found, hfound, hloads⟩ := h
  rw [← hname] at hfound
  cases found with
  | none => exact ⟨n, exceptBind_eq_ok.mpr ⟨none, hfound, rfl⟩⟩
  | some z =>
    obtain ⟨hsame, ⟨accesses, haccesses⟩, ips, hips⟩ := hloads z rfl
    rw [← hname] at hips
    have hparsed : parseMetadata source w.metadata = .ok accesses := by
      unfold parseMetadata
      rw [haccesses]
    refine ⟨{ n with userAccesses := accesses }.pushLoaded
      ⟨some c.nodeID, some c.contractID, ips⟩ c.nodeID z d, ?_⟩
    refine exceptBind_eq_ok.mpr ⟨some z, hfound, exceptBind_eq_ok.mpr ⟨accesses, hparsed,
      exceptBind_eq_ok.mpr ⟨ips, hips, ?_⟩⟩⟩
    exact if_neg (not_not_intro (hsame.trans hrange.symm))

theorem loadContract_given (hname : n.name = name) (hrange : n.ipRange = ipRange)
    (h : loadContract source n c = .ok n') :
    ContractLoads source name ipRange c ∧ Given (given source name c) n n' := by
  obtain ⟨d, hd, hrest⟩ := exceptBind_eq_ok.mp h
  obtain ⟨hloads, hgiven⟩ :=
    foldlM_given (fun _ _ _ hname hrange h => loadWorkload_given hname hrange h) hname hrange hrest
  unfold given
  rw [hd]
  exact ⟨⟨d, hd, hloads⟩, hgiven⟩

theorem loadContract_runs (hname : n.name = name) (hrange : n.ipRange = ipRange)
    (h : ContractLoads source name ipRange c) : ∃ n', loadContract source n c = .ok n' := by
  obtain ⟨d, hd, hloads⟩ := h
  obtain ⟨n', hrest⟩ := foldlM_runs (f := loadWorkload source c d) (n := n)
    (fun _ _ _ hname hrange h => loadWorkload_given hname hrange h)
    (fun _ _ hname hrange h => loadWorkload_runs hname hrange h) hname hrange hloads
  exact ⟨n', exceptBind_eq_ok.mpr ⟨d, hd, hrest⟩⟩

/-- The networks of all contracts of the network. -/
def allGiven (source : NetworkSource) (name : String) : List (Znet × Nat) :=
  (contractsNamed name source.contracts).flatMap (given source name)

/-- What is loaded from contracts that are listed. -/
structure LoadedFromContracts (source : NetworkSource) (env : NetworkEnv) (name ipRange : String)
    (n : Network) : Prop where
  sameName : n.name = name
  loads : ∀ c ∈ contractsNamed name source.contracts, ContractLoads source name ipRange c
  networks : n.networks = (allGiven source name).map Prod.fst
  nodes : n.nodes.map ids = (allGiven source name).map fun g => (g.1.nodeId, some g.2)
  points : ∃ keys, publicKeys env n.networks = .ok keys ∧
    n.accessPoints = n.networks.flatMap (readPoints keys)

/-- Without a stored file, a network whose name is not listed loads from no contracts. -/
theorem load_eq (h : source.stored = none) :
    load source env (fresh name ipRange) =
      (contractsNamed name source.contracts).foldlM (loadContract source) (fresh name ipRange) >>=
        getAccessPoints env := by
  unfold load
  cases hknown : networkKnown (fresh name ipRange).name source.contracts with
  | true =>
    rw [if_pos rfl]
    rfl
  | false =>
    have hnone : contractsNamed name source.contracts = [] := by
      rw [List.eq_nil_iff_forall_not_mem]
      intro c hc
      have hin : networkKnown name source.contracts = true := networkKnown_of_mem hc
      rw [show (fresh name ipRange).name = name from rfl, hin] at hknown
      cases hknown
    rw [if_neg Bool.false_ne_true, h, hnone]
    rfl

theorem load_given (hstored : source.stored = none)
    (h : load source env (fresh name ipRange) = .ok n) :
    LoadedFromContracts source env name ipRange n := by
  rw [load_eq hstored] at h
  obtain ⟨n₁, hloaded, hrest⟩ := exceptBind_eq_ok.mp h
  obtain ⟨hloads, hgiven⟩ := foldlM_given
    (fun _ _ _ hname hrange h => loadContract_given hname hrange h) rfl rfl hloaded
  obtain ⟨keys, hkeys, hrest⟩ := exceptBind_eq_ok.mp hrest
  cases hrest
  refine ⟨hgiven.name, hloads, hgiven.networks, hgiven.nodes, keys, hkeys, ?_⟩
  show n₁.accessPoints ++ _ = _
  rw [hgiven.accessPoints]
  rfl

theorem load_runs (hstored : source.stored = none)
    (h : ∀ c ∈ contractsNamed name source.contracts, ContractLoads source name ipRange c)
    (hkeys : ∀ g ∈ allGiven source name, env.publicKey g.1.wireguardPrivateKey ≠ none) :
    ∃ n, load source env (fresh name ipRange) = .ok n := by
  obtain ⟨n₁, hloaded⟩ := foldlM_runs (f := loadContract source) (n := fresh name ipRange)
    (fun _ _ _ hname hrange h => loadContract_given hname hrange h)
    (fun _ _ hname hrange h => loadContract_runs hname hrange h) rfl rfl h
  obtain ⟨-, hgiven⟩ := foldlM_given
    (fun _ _ _ hname hrange h => loadContract_given hname hrange h) rfl rfl hloaded
  have hnetworks : n₁.networks = (allGiven source name).map Prod.fst := hgiven.networks
  have hreadable : ∀ z ∈ n₁.networks, env.publicKey z.wireguardPrivateKey ≠ none := by
    intro z hz
    rw [hnetworks] at hz
    obtain ⟨g, hg, rfl⟩ := List.mem_map.mp hz
    exact hkeys g hg
  obtain ⟨keys, hkeys, -⟩ := publicKeys_ok hreadable
  refine ⟨{ n₁ with accessPoints := n₁.accessPoints ++ n₁.networks.flatMap (readPoints keys) }, ?_⟩
  rw [load_eq hstored]
  exact exceptBind_eq_ok.mpr ⟨n₁, hloaded, exceptBind_eq_ok.mpr ⟨keys, hkeys, rfl⟩⟩

end

end ThreefoldSdk.Primitives.Network
