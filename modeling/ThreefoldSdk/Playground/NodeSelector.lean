import ThreefoldSdk.Lib.Frame
import ThreefoldSdk.Primitives.Network

/-! The automatic choice of a node (`utils/nodeSelector.ts`), in exact arithmetic: what a request asks
for, and which of the candidates is taken while other machines of the form have nodes already. -/

namespace ThreefoldSdk.Playground.NodeSelector
open Primitives Frame

structure SelectedLocation where
  subregion : Option String
  country : Option String
  region : Option String

/-- The memory is in MB, the disks are in GB. -/
structure SelectionDetailsFilters where
  ipv4 : Option Bool
  ipv6 : Option Bool
  hasGPU : Option Bool
  cpu : Option ℚ
  memory : Option ℚ
  ssdDisks : Option (List ℚ)
  hddDisks : Option (List ℚ)
  rootFilesystemSize : Option ℚ
  solutionDisk : Option ℚ
  certified : Option Bool
  dedicated : Option Bool
  planetary : Option Bool
  mycelium : Option Bool
  wireguard : Option Bool

/-- Of the farm, the id is read. -/
structure NormalizeNodeFiltersOptions where
  size : ℕ
  page : ℤ
  twinId : ℕ
  location : SelectedLocation
  farm : Option ℕ
  gateway : Option Bool

structure FilterOptions where
  page : ℤ
  size : Option ℕ
  farmId : Option ℕ
  cru : Option ℚ
  mru : Option ℚ
  hru : Option ℚ
  sru : Option ℚ
  publicIPs : Option Bool
  hasIPv6 : Option Bool
  hasGPU : Option Bool
  certified : Option Bool
  availableFor : Option ℕ
  region : Option String
  country : Option String
  gateway : Option Bool
  healthy : Bool
  rentableOrRentedBy : Option ℕ
  planetary : Option Bool
  mycelium : Option Bool
  wireguard : Option Bool

/-- A machine of the form that has its node: the memory is in MB, the disk is in GB. -/
structure SelectedMachine where
  farmId : ℕ
  nodeId : ℕ
  memory : ℚ
  disk : ℚ
  publicIp : Bool

structure Resources where
  mru : ℚ
  sru : ℚ
deriving DecidableEq

structure NodeInfo where
  nodeId : ℕ
  farmId : ℕ
  rentedByTwinId : ℕ
  rentContractId : ℕ
  total_resources : Resources
  used_resources : Resources
deriving DecidableEq

/-- The contract ids of the public ips, zero for those that are free. -/
structure Farm where
  publicIps : List ℕ

def orUndefined (flag : Option Bool) : Option Bool := flag.filter id

def nonzero (value : ℚ) : Option ℚ := if value = 0 then none else some value

def round (x : ℚ) : ℚ := ⌊x + 1 / 2⌋

/-- The SSD of a request, with the solution disk and the root file system. -/
def ssdSize (filters : SelectionDetailsFilters) : ℚ :=
  (filters.ssdDisks.getD []).foldl (· + ·)
    (filters.solutionDisk.getD 0 + filters.rootFilesystemSize.getD 0)

def normalizeNodeFilters (filters : SelectionDetailsFilters)
    (options : Option NormalizeNodeFiltersOptions) : FilterOptions where
  page := max 1 ((options.map (·.page)).getD 1)
  size := options.map (·.size)
  farmId := options.bind (·.farm)
  cru := filters.cpu
  mru := (filters.memory.filter fun memory => memory ≠ 0).map fun memory => round (memory / 1024)
  hru := nonzero ((filters.hddDisks.getD []).foldl (· + ·) 0)
  sru := nonzero (ssdSize filters)
  publicIPs := orUndefined filters.ipv4
  hasIPv6 := orUndefined filters.ipv6
  hasGPU := orUndefined filters.hasGPU
  certified := orUndefined filters.certified
  availableFor := if filters.dedicated = some true then none else options.map (·.twinId)
  region := options.bind fun options =>
    (options.location.region.filter fun region => region ≠ "").or options.location.subregion
  country := options.bind (·.location.country)
  gateway := options.bind (·.gateway)
  healthy := true
  rentableOrRentedBy := if filters.dedicated = some true then options.map (·.twinId) else none
  planetary := filters.planetary
  mycelium := filters.mycelium
  wireguard := filters.wireguard

section
variable (getFarm : ℕ → Option Farm) (machines : List SelectedMachine)

def machinesWithSameNode (node : NodeInfo) : List SelectedMachine :=
  machines.filter fun m => m.nodeId = node.nodeId

/-- The part of `isNodeValid` about public ips, whose farm is not always known. -/
def hasPublicIps (node : NodeInfo) (filters : FilterOptions) : Bool :=
  if filters.publicIPs = some true then
    let ipsCount := (machines.filter fun m => m.publicIp && m.farmId = node.farmId).length + 1
    if ipsCount > 1 then
      match getFarm node.farmId with
      | some farm =>
        decide ((farm.publicIps.filter fun contract_id => contract_id = 0).length ≥ ipsCount)
      | none => true
    else true
  else true

/-- A turn of the loop over the machines of the node. -/
def withoutMachine (left : Resources) (machine : SelectedMachine) : Resources where
  -- the memory is in MB, and counted as if it were in GB
  mru := left.mru - machine.memory * 10 ^ 9
  sru := left.sru - machine.disk * 10 ^ 9

def isNodeValid (node : NodeInfo) (filters : FilterOptions) : Bool :=
  let requiredMru := filters.mru.getD 0 * 10 ^ 9
  let requiredSru := filters.sru.getD 0 * 10 ^ 9
  let left := (machinesWithSameNode machines node).foldl withoutMachine
    ⟨node.total_resources.mru - node.used_resources.mru,
      node.total_resources.sru - node.used_resources.sru⟩
  decide (left.mru ≥ requiredMru) && decide (left.sru ≥ requiredSru) &&
    hasPublicIps getFarm machines node filters

/-- The first rented node whose contract is in no grace period. -/
def findRentedNode (gracePeriod : ℕ → Except GridError Bool) :
    List NodeInfo → Except GridError (Option NodeInfo)
  | [] => .ok none
  | node :: rentedNodes => do
    if ← gracePeriod node.rentContractId then findRentedNode gracePeriod rentedNodes
    else return some node

/-- `shuffled` is what `shuffle` makes of the nodes; `gracePeriod` is the state of a contract. -/
def selectValidNode (twinId : ℕ) (gracePeriod : ℕ → Except GridError Bool)
    (nodes shuffled : List NodeInfo) (filters : FilterOptions) (oldSelectedNodeId : Option ℕ) :
    Except GridError (Option NodeInfo) := do
  let rentedNode ← findRentedNode gracePeriod (nodes.filter fun n => n.rentedByTwinId = twinId)
  let node :=
    if oldSelectedNodeId.getD 0 ≠ 0 ∨ rentedNode.isSome = true then
      (nodes.find? fun n => some n.nodeId = oldSelectedNodeId).or rentedNode
    else none
  match node.filter fun node => isNodeValid getFarm machines node filters with
  -- the old node or the rented one is taken while it is valid, else the first of the shuffled ones
  | some node => return some node
  | none => return shuffled.find? fun node => isNodeValid getFarm machines node filters

end

def NodeInfo.freeMru (node : NodeInfo) : ℚ := node.total_resources.mru - node.used_resources.mru
def NodeInfo.freeSru (node : NodeInfo) : ℚ := node.total_resources.sru - node.used_resources.sru

section
variable (machines : List SelectedMachine) (filters : SelectionDetailsFilters) (node : NodeInfo)

/-- The bytes that the machines of the node and the request get when they are deployed. -/
def memoryBytes : ℚ :=
  (((machinesWithSameNode machines node).map (·.memory)).sum + filters.memory.getD 0) * 1024 ^ 2

def ssdBytes : ℚ :=
  (((machinesWithSameNode machines node).map (·.disk)).sum + ssdSize filters) * 1024 ^ 3

/-- What the form counts for them. -/
def countedMemory : ℚ :=
  (((machinesWithSameNode machines node).map (·.memory)).sum +
    round (filters.memory.getD 0 / 1024)) * 10 ^ 9

def countedSsd : ℚ :=
  (((machinesWithSameNode machines node).map (·.disk)).sum + ssdSize filters) * 10 ^ 9

/-- The node is not overcommitted. -/
structure HasRoom : Prop where
  memory : memoryBytes machines filters node ≤ node.freeMru
  ssd : ssdBytes machines filters node ≤ node.freeSru

/-- What is free on the node holds what is counted, and not what is deployed. -/
structure BetweenCounts : Prop where
  memory : countedMemory machines filters node ≤ node.freeMru
  ssd : countedSsd machines filters node ≤ node.freeSru
  short : node.freeMru < memoryBytes machines filters node ∨
    node.freeSru < ssdBytes machines filters node

end

section
variable {getFarm : ℕ → Option Farm} {machines : List SelectedMachine} {node : NodeInfo}
  {twinId : ℕ} {gracePeriod : ℕ → Except GridError Bool} {nodes shuffled : List NodeInfo}
  {filters : FilterOptions} {oldSelectedNodeId : Option ℕ}

theorem foldl_withoutMachine (same : List SelectedMachine) (left : Resources) :
    same.foldl withoutMachine left =
      ⟨left.mru - (same.map (·.memory)).sum * 10 ^ 9, left.sru - (same.map (·.disk)).sum * 10 ^ 9⟩ := by
  induction same generalizing left with
  | nil => simp
  | cons machine same ih =>
    rw [List.foldl_cons, ih, List.map_cons, List.map_cons, List.sum_cons, List.sum_cons]
    congr 1
    · unfold withoutMachine
      ring
    · unfold withoutMachine
      ring

theorem normalizeNodeFilters_mru (request : SelectionDetailsFilters)
    (options : Option NormalizeNodeFiltersOptions) :
    (normalizeNodeFilters request options).mru.getD 0 = round (request.memory.getD 0 / 1024) := by
  have hzero : round ((0 : ℚ) / 1024) = 0 := by
    unfold round
    norm_num
  unfold normalizeNodeFilters
  dsimp only
  cases request.memory with
  | none => exact hzero.symm
  | some memory =>
    rw [Option.filter_some]
    split_ifs with hmemory
    · rfl
    · have hsame : memory = 0 := not_not.mp fun hne => hmemory (decide_eq_true hne)
      rw [Option.getD_some, hsame, hzero]
      rfl

theorem normalizeNodeFilters_sru (request : SelectionDetailsFilters)
    (options : Option NormalizeNodeFiltersOptions) :
    (normalizeNodeFilters request options).sru.getD 0 = ssdSize request := by
  unfold normalizeNodeFilters nonzero
  dsimp only
  split_ifs with hzero
  · exact hzero.symm
  · rfl

/-- A node is valid when what is counted is free on it, and it has the public ips. -/
theorem isNodeValid_iff (request : SelectionDetailsFilters)
    (options : Option NormalizeNodeFiltersOptions) :
    isNodeValid getFarm machines node (normalizeNodeFilters request options) = true ↔
      countedMemory machines request node ≤ node.freeMru ∧
        countedSsd machines request node ≤ node.freeSru ∧
          hasPublicIps getFarm machines node (normalizeNodeFilters request options) = true := by
  have hcount : ∀ free same asked : ℚ,
      free - same * 10 ^ 9 ≥ asked * 10 ^ 9 ↔ (same + asked) * 10 ^ 9 ≤ free := by
    intro free same asked
    rw [ge_iff_le, le_sub_iff_add_le', ← add_mul]
  unfold isNodeValid
  dsimp only
  rw [Bool.and_eq_true, Bool.and_eq_true, decide_eq_true_iff, decide_eq_true_iff, and_assoc,
    foldl_withoutMachine, normalizeNodeFilters_mru, normalizeNodeFilters_sru, hcount, hcount]
  exact Iff.rfl

theorem mem_of_findRentedNode (h : findRentedNode gracePeriod nodes = .ok (some node)) :
    node ∈ nodes := by
  induction nodes with
  | nil => cases h
  | cons rented nodes ih =>
    obtain ⟨grace, -, h⟩ := exceptBind_eq_ok.mp h
    cases grace with
    | true => exact List.mem_cons_of_mem _ (ih h)
    | false =>
      cases h
      exact List.mem_cons_self

theorem selectValidNode_valid (hshuffled : shuffled.Perm nodes)
    (h : selectValidNode getFarm machines twinId gracePeriod nodes shuffled filters
      oldSelectedNodeId = .ok (some node)) :
    node ∈ nodes ∧ isNodeValid getFarm machines node filters = true := by
  obtain ⟨rentedNode, hrented, h⟩ := exceptBind_eq_ok.mp h
  dsimp only at h
  split at h
  · rename_i taken htaken
    cases h
    obtain ⟨hnode, hvalid⟩ := Option.filter_eq_some_iff.mp htaken
    refine ⟨?_, hvalid⟩
    split_ifs at hnode
    rcases Option.or_eq_some_iff.mp hnode with hfound | ⟨-, hfound⟩
    · exact List.mem_of_find?_eq_some hfound
    · subst hfound
      exact List.mem_of_mem_filter (mem_of_findRentedNode hrented)
  · have hfound := Except.ok.inj h
    exact ⟨hshuffled.mem_iff.mp (List.mem_of_find?_eq_some hfound),
      List.find?_some (p := fun node => isNodeValid getFarm machines node filters) hfound⟩

/-- Without an old node and a rented one, the first valid node of the shuffled ones is selected. -/
theorem selectValidNode_first (hvalid : isNodeValid getFarm machines node filters = true) :
    selectValidNode getFarm machines twinId (fun _ => .ok true) nodes (node :: shuffled) filters
      none = .ok (some node) := by
  have hnone : ∀ rented, findRentedNode (fun _ => .ok true) rented = .ok none := fun rented => by
    induction rented with
    | nil => rfl
    | cons _ _ ih => exact ih
  unfold selectValidNode
  rw [hnone]
  refine congrArg Except.ok ?_
  exact List.find?_cons_of_pos hvalid

end

/-- For the machines and the candidates of a form no selection overcommits a node exactly when no
candidate with the public ips is between the counts. -/
theorem selectValidNode_hasRoom_iff (getFarm : ℕ → Option Farm) (machines : List SelectedMachine)
    (twinId : ℕ) (nodes : List NodeInfo) (request : SelectionDetailsFilters)
    (options : Option NormalizeNodeFiltersOptions) :
    (∀ gracePeriod shuffled oldSelectedNodeId node, shuffled.Perm nodes →
      selectValidNode getFarm machines twinId gracePeriod nodes shuffled
        (normalizeNodeFilters request options) oldSelectedNodeId = .ok (some node) →
      HasRoom machines request node) ↔
    ∀ node ∈ nodes, hasPublicIps getFarm machines node (normalizeNodeFilters request options) = true →
      ¬BetweenCounts machines request node := by
  constructor
  · intro hall node hnode hips hbetween
    have hvalid : isNodeValid getFarm machines node (normalizeNodeFilters request options) = true :=
      (isNodeValid_iff request options).mpr ⟨hbetween.memory, hbetween.ssd, hips⟩
    -- no rent contract is out of its grace period, and the node comes first
    have hroom := hall _ (node :: nodes.erase node) none node (List.perm_cons_erase hnode).symm
      (selectValidNode_first hvalid)
    rcases hbetween.short with hshort | hshort
    · exact absurd hroom.memory hshort.not_ge
    · exact absurd hroom.ssd hshort.not_ge
  · intro hall gracePeriod shuffled oldSelectedNodeId node hshuffled h
    obtain ⟨hnode, hvalid⟩ := selectValidNode_valid hshuffled h
    obtain ⟨hmemory, hssd, hips⟩ := (isNodeValid_iff request options).mp hvalid
    have hnot := hall node hnode hips
    exact ⟨le_of_not_gt fun hshort => hnot ⟨hmemory, hssd, .inl hshort⟩,
      le_of_not_gt fun hshort => hnot ⟨hmemory, hssd, .inr hshort⟩⟩

/-- One machine with a GB of memory and ten of SSD. -/
def oneGB : SelectionDetailsFilters where
  ipv4 := none
  ipv6 := none
  hasGPU := none
  cpu := some 1
  memory := some 1024
  ssdDisks := some [10]
  hddDisks := none
  rootFilesystemSize := none
  solutionDisk := none
  certified := none
  dedicated := none
  planetary := none
  mycelium := none
  wireguard := none

/-- The bytes of the memory are free by the thousand. -/
def thousands : NodeInfo := ⟨11, 1, 0, 0, ⟨10 ^ 9, 10 ^ 12⟩, ⟨0, 0⟩⟩

theorem thousands_not_hasRoom :
    selectValidNode (fun _ => none) [] 7 (fun _ => .ok false) [thousands] [thousands]
      (normalizeNodeFilters oneGB none) none = .ok (some thousands) ∧
    ¬HasRoom [] oneGB thousands := by
  refine ⟨by decide +kernel, fun h => ?_⟩
  have hmemory := h.memory
  revert hmemory
  decide +kernel

end ThreefoldSdk.Playground.NodeSelector
