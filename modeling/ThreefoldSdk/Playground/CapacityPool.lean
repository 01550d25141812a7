import ThreefoldSdk.Playground.NodeSelector
import ThreefoldSdk.Primitives.Nodes

/-! The nodes that the selector offers (`_loadValidNodes` in `utils/nodeSelector.ts`): pages are asked
for until one has a node whose storage pools are accepted. -/

namespace ThreefoldSdk.Playground.NodeSelector
open Primitives Frame Rounding

/-- All sizes are in bytes. -/
structure CapacityPoolCheckModel where
  nodeId : ℕ
  rootfsDisks : List ℚ
  ssdDisks : List ℚ
  hddDisks : List ℚ

/-- `@IsInt` and `@Min` of a disk. -/
def diskAllowed (disk : ℚ) : Prop := disk.isInt = true ∧ 250 * 1024 ^ 2 ≤ disk

instance (disk : ℚ) : Decidable (diskAllowed disk) := inferInstanceAs (Decidable (_ ∧ _))

def CapacityPoolCheckModel.Valid (options : CapacityPoolCheckModel) : Prop :=
  1 ≤ options.nodeId ∧ (∀ disk ∈ options.rootfsDisks, diskAllowed disk) ∧
    (∀ disk ∈ options.ssdDisks, diskAllowed disk) ∧ ∀ disk ∈ options.hddDisks, diskAllowed disk

instance (options : CapacityPoolCheckModel) : Decidable options.Valid :=
  inferInstanceAs (Decidable (_ ∧ _))

/-- `checkNodeCapacityPool` of the module `capacity`, whose input is validated. -/
def capacityCheck (client : NodeClient) (options : CapacityPoolCheckModel) : Except GridError Unit :=
  if options.Valid then
    client.verifyNodeStoragePoolCapacity options.ssdDisks options.hddDisks options.rootfsDisks
      options.nodeId
  else .error (.validation "Validation failed.")

def normalizeError : GridError → String
  | .base cls m =>
    if cls = "InsufficientBalanceError" then
      "Failed to apply Transaction due to account balance is too low."
    else m
  | .other _ m => m
  | .typeError => ""

/-- The SSD disks in bytes; those of no size are left out. -/
def ssdDisksOf (filters : SelectionDetailsFilters) : List ℚ :=
  ((filters.solutionDisk.getD 0 :: filters.ssdDisks.getD []).filter fun disk => disk ≠ 0).map g2b

def rootfsDisksOf (filters : SelectionDetailsFilters) : List ℚ :=
  [g2b (filters.rootFilesystemSize.getD 0)]

def poolCheck (filters : SelectionDetailsFilters) (node : NodeInfo) : CapacityPoolCheckModel where
  nodeId := node.nodeId
  ssdDisks := ssdDisksOf filters
  rootfsDisks := rootfsDisksOf filters
  -- these go on in GB
  hddDisks := filters.hddDisks.getD []

def checkNodeCapacityPool (client : NodeClient) (filters : SelectionDetailsFilters)
    (node : NodeInfo) : Except String Unit :=
  if node.nodeId = 0 then .error "Node ID is required."
  else
    match capacityCheck client (poolCheck filters node) with
    | .ok _ => .ok ()
    | .error e =>
      match e with
      | .base "DiskAllocationError" _ => .error ("Although node " ++ toString node.nodeId ++
          " appears to have sufficient storage capacity for your workload, it lacks a single " ++
          "internal partition capable of accommodating it. Please select a different node.")
      | e => .error (normalizeError e)

/-- `pages` are those that the pagination has left before the page -1. -/
def loadValidNodes (client : NodeClient) (filters : SelectionDetailsFilters)
    (loadNodes : ℕ → Except GridError (List NodeInfo)) : List ℕ → Except GridError (List NodeInfo)
  | [] => .ok []
  | page :: pages => do
    let nodes ← loadNodes page
    let validNodes := nodes.filter fun n => (checkNodeCapacityPool client filters n).isOk
    if validNodes.length > 0 then return validNodes
    else loadValidNodes client filters loadNodes pages

/-- The pools of the node hold all disks, with all sizes in bytes. -/
def HoldsDisks (client : NodeClient) (filters : SelectionDetailsFilters) (node : NodeInfo) : Prop :=
  client.verifyNodeStoragePoolCapacity (ssdDisksOf filters) ((filters.hddDisks.getD []).map g2b)
    (rootfsDisksOf filters) node.nodeId = .ok ()

/-- The validator lets the sizes pass that the selector hands on. -/
def SizesPass (filters : SelectionDetailsFilters) : Prop :=
  (∀ disk ∈ rootfsDisksOf filters, diskAllowed disk) ∧
    (∀ disk ∈ ssdDisksOf filters, diskAllowed disk) ∧
      ∀ disk ∈ filters.hddDisks.getD [], diskAllowed disk

section
variable {client : NodeClient} {filters : SelectionDetailsFilters} {node : NodeInfo}
  {nodes : List NodeInfo} {loadNodes : ℕ → Except GridError (List NodeInfo)} {pages : List ℕ}

theorem checkNodeCapacityPool_isOk (h : (checkNodeCapacityPool client filters node).isOk = true) :
    (poolCheck filters node).Valid ∧
      client.verifyNodeStoragePoolCapacity (ssdDisksOf filters) (filters.hddDisks.getD [])
        (rootfsDisksOf filters) node.nodeId = .ok () := by
  unfold checkNodeCapacityPool at h
  split_ifs at h with hid
  · cases h
  · unfold capacityCheck at h
    split_ifs at h with hvalid
    · refine ⟨hvalid, ?_⟩
      split at h
      · assumption
      · split at h <;> cases h
    · cases h

theorem checkNodeCapacityPool_isOk_of_verify (hvalid : (poolCheck filters node).Valid)
    (hverify : client.verifyNodeStoragePoolCapacity (ssdDisksOf filters) (filters.hddDisks.getD [])
      (rootfsDisksOf filters) node.nodeId = .ok ()) :
    (checkNodeCapacityPool client filters node).isOk = true := by
  have hid : node.nodeId ≠ 0 := Nat.one_le_iff_ne_zero.mp hvalid.1
  have hcheck : capacityCheck client (poolCheck filters node) = .ok () :=
    (if_pos hvalid).trans hverify
  unfold checkNodeCapacityPool
  rw [if_neg hid, hcheck]
  rfl

theorem loadValidNodes_checked (h : loadValidNodes client filters loadNodes pages = .ok nodes)
    (hnode : node ∈ nodes) : (checkNodeCapacityPool client filters node).isOk = true := by
  induction pages with
  | nil =>
    cases h
    cases hnode
  | cons page pages ih =>
    obtain ⟨loaded, -, h⟩ := exceptBind_eq_ok.mp h
    dsimp only at h
    split_ifs at h with hvalid
    · cases h
      exact (List.mem_filter.mp hnode).2
    · exact ih h

/-- No HDD is asked for, or the node is checked for it in bytes already. -/
theorem holdsDisks_of_checked (hhdd : filters.hddDisks.getD [] = [] ∨ ¬SizesPass filters)
    (h : (checkNodeCapacityPool client filters node).isOk = true) :
    HoldsDisks client filters node := by
  obtain ⟨hvalid, hverify⟩ := checkNodeCapacityPool_isOk h
  rcases hhdd with hnone | hrefused
  · unfold HoldsDisks
    rwa [hnone, List.map_nil, ← hnone]
  · exact absurd hvalid.2 hrefused

end

/-- The largest of the disks, or zero. -/
def largest (disks : List ℚ) : ℚ := disks.foldr max 0

/-- A node that has a pool for each disk it is checked for, large enough for the largest of them. -/
def exactPools (filters : SelectionDetailsFilters) : NodeClient where
  getNodeTwinId := fun nodeId => .ok nodeId
  statistics := fun _ => .error .typeError
  storagePools := fun _ =>
    let ssdDisks := ssdDisksOf filters ++ rootfsDisksOf filters
    let hddDisks := filters.hddDisks.getD []
    .ok (ssdDisks.map (fun _ => ⟨.SSD, double.above (largest ssdDisks), 0⟩) ++
      hddDisks.map fun _ => ⟨.HDD, double.above (largest hddDisks), 0⟩)

def anyNode : NodeInfo := ⟨1, 1, 0, 0, ⟨0, 0⟩, ⟨0, 0⟩⟩

section
variable {filters : SelectionDetailsFilters} {disks : List ℚ}

theorem diskAllowed_pos {disk : ℚ} (h : diskAllowed disk) : 0 < disk :=
  lt_of_lt_of_le (by norm_num) h.2

theorem le_largest : ∀ disk ∈ disks, disk ≤ largest disks := by
  induction disks with
  | nil => exact fun disk hdisk => absurd hdisk List.not_mem_nil
  | cons first disks ih =>
    refine List.forall_mem_cons.mpr ⟨le_max_left _ _, fun disk hdisk => ?_⟩
    exact (ih disk hdisk).trans (le_max_right _ _)

theorem largest_mem (hne : disks ≠ []) (hpos : ∀ disk ∈ disks, 0 ≤ disk) : largest disks ∈ disks := by
  induction disks with
  | nil => exact absurd rfl hne
  | cons first disks ih =>
    obtain ⟨hfirst, hpos⟩ := List.forall_mem_cons.mp hpos
    change max first (largest disks) ∈ _
    rcases max_choice first (largest disks) with hmax | hmax
    · rw [hmax]
      exact List.mem_cons_self
    · rw [hmax]
      by_cases hrest : disks = []
      · rw [hrest] at hmax ⊢
        rw [← hmax, largest, List.foldr_nil, max_eq_left hfirst]
        exact List.mem_cons_self
      · exact List.mem_cons_of_mem _ (ih hrest hpos)

theorem exactPools_checked (h : SizesPass filters) :
    (checkNodeCapacityPool (exactPools filters) filters anyNode).isOk = true := by
  obtain ⟨hroot, hssd, hhdd⟩ := h
  refine checkNodeCapacityPool_isOk_of_verify ⟨le_rfl, hroot, hssd, hhdd⟩
    (verifyNodeStoragePoolCapacity_of_enough _ _ rfl le_largest le_largest ?_ ?_)
  · rw [(poolSizes_above _ _ _ _ rfl).1, countP_above]
  · rw [(poolSizes_above _ _ _ _ rfl).2, countP_above]

/-- In bytes the largest HDD disk is more than any pool. -/
theorem exactPools_not_holdsDisks (h : SizesPass filters) (hhdd : filters.hddDisks.getD [] ≠ []) :
    ¬HoldsDisks (exactPools filters) filters anyNode := by
  intro hholds
  obtain ⟨pools, ssdPools, hddPools, left, hpools, -, hfit, -⟩ :=
    verifyNodeStoragePoolCapacity_eq_ok_iff.mp hholds
  cases hpools
  rw [(poolSizes_above _ _ _ _ rfl).2] at hfit
  have hpos : ∀ disk ∈ filters.hddDisks.getD [], 0 < disk :=
    fun disk hdisk => diskAllowed_pos (h.2.2 disk hdisk)
  have hlargest := largest_mem hhdd fun disk hdisk => (hpos disk hdisk).le
  -- the first disk in descending order is as large as the largest one
  have hsorted := sortArrayDesc_perm ((filters.hddDisks.getD []).map g2b)
  have horder : (sortArrayDesc ((filters.hddDisks.getD []).map g2b)).Pairwise (· ≥ ·) :=
    List.pairwise_insertionSort _ _
  have hmem : g2b (largest (filters.hddDisks.getD [])) ∈
      sortArrayDesc ((filters.hddDisks.getD []).map g2b) :=
    hsorted.mem_iff.mpr (List.mem_map_of_mem hlargest)
  cases hdisks : sortArrayDesc ((filters.hddDisks.getD []).map g2b) with
  | nil =>
    rw [hdisks] at hmem
    cases hmem
  | cons disk disks =>
    rw [hdisks] at horder hmem hfit
    have hge : g2b (largest (filters.hddDisks.getD [])) ≤ disk := by
      rcases List.mem_cons.mp hmem with heq | hmem
      · exact heq.le
      · exact (List.pairwise_cons.mp horder).1 _ hmem
    obtain ⟨s, s', hget, hfit⟩ := bind_eq_ok.mp hfit
    cases hget
    cases hplace : allocateDiskToPools (sortArrayDesc ((filters.hddDisks.getD []).map fun _ =>
        double.above (largest (filters.hddDisks.getD [])))) disk with
    | none =>
      rw [hplace] at hfit
      cases hfit
    | some placed =>
      obtain ⟨front, pool, rest, heq, -, hle⟩ := allocateDiskToPools_eq_some hplace
      have hpool : pool ∈ (filters.hddDisks.getD []).map fun _ =>
          double.above (largest (filters.hddDisks.getD [])) := by
        apply (sortArrayDesc_perm _).mem_iff.mp
        rw [heq]
        exact List.mem_append_right _ List.mem_cons_self
      obtain ⟨_, -, rfl⟩ := List.mem_map.mp hpool
      have hbound : double.above (largest (filters.hddDisks.getD [])) ≤
          2 * largest (filters.hddDisks.getD []) := above_le (hpos _ hlargest)
      have hlt := hpos _ hlargest
      have hbytes := (hge.trans hle).trans hbound
      unfold g2b at hbytes
      norm_num at hbytes
      linarith

end

/-- For a request all candidates that may be offered hold it exactly when it asks for no HDD, or when
the validator refuses a size; it refuses all HDD disks of less than 262144000 GB. -/
theorem loadValidNodes_holdsDisks_iff (filters : SelectionDetailsFilters) :
    (∀ client loadNodes pages nodes, loadValidNodes client filters loadNodes pages = .ok nodes →
      ∀ node ∈ nodes, HoldsDisks client filters node) ↔
    filters.hddDisks.getD [] = [] ∨ ¬SizesPass filters := by
  constructor
  · intro hall
    by_contra hnot
    obtain ⟨hhdd, hsizes⟩ := not_or.mp hnot
    have hpass := not_not.mp hsizes
    refine exactPools_not_holdsDisks hpass hhdd
      (hall (exactPools filters) (fun _ => .ok [anyNode]) [1] [anyNode] ?_ _ List.mem_cons_self)
    have hvalid : [anyNode].filter (fun n =>
        (checkNodeCapacityPool (exactPools filters) filters n).isOk) = [anyNode] :=
      List.filter_eq_self.mpr fun node hnode =>
        List.mem_singleton.mp hnode ▸ exactPools_checked hpass
    refine exceptBind_eq_ok.mpr ⟨[anyNode], rfl, ?_⟩
    dsimp only
    rw [hvalid]
    rfl
  · intro hcase client loadNodes pages nodes h node hnode
    exact holdsDisks_of_checked hcase (loadValidNodes_checked h hnode)

/-- One machine with an HDD disk of 262144000 GB and a root file system of one GB. -/
def largeHdd : SelectionDetailsFilters where
  ipv4 := none
  ipv6 := none
  hasGPU := none
  cpu := some 1
  memory := some 1024
  ssdDisks := none
  hddDisks := some [262144000]
  rootFilesystemSize := some 1
  solutionDisk := none
  certified := none
  dedicated := none
  planetary := none
  mycelium := none
  wireguard := none

/-- 256 MB of HDD are enough for it. -/
theorem largeHdd_not_holdsDisks :
    loadValidNodes (exactPools largeHdd) largeHdd (fun _ => .ok [anyNode]) [1] = .ok [anyNode] ∧
    ¬HoldsDisks (exactPools largeHdd) largeHdd anyNode := by
  refine ⟨by decide +kernel, fun h => ?_⟩
  have hok : (exactPools largeHdd |>.verifyNodeStoragePoolCapacity (ssdDisksOf largeHdd)
      ((largeHdd.hddDisks.getD []).map g2b) (rootfsDisksOf largeHdd) anyNode.nodeId).isOk = true :=
    congrArg Except.isOk h
  revert hok
  decide +kernel

end ThreefoldSdk.Playground.NodeSelector
