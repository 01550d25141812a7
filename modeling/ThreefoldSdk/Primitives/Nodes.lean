import ThreefoldSdk.Lib.Frame
import ThreefoldSdk.Lib.Packing
import ThreefoldSdk.Lib.Rounding
import ThreefoldSdk.Primitives.Network

/-! The capacity of nodes (`primitives/nodes.ts`): what is free on a node, in exact arithmetic, and
whether disks fit into its pools, in that of the numbers of JavaScript. -/

namespace ThreefoldSdk.Primitives
open Packing Frame Rounding

structure NodeResources where
  cru : ℚ
  mru : ℚ
  hru : ℚ
  sru : ℚ
  ipv4u : ℚ

structure RMBNodeCapacity where
  total : NodeResources
  used : NodeResources

inductive DiskTypes where
  | SSD
  | HDD
deriving DecidableEq

def DiskTypes.toText : DiskTypes → String
  | SSD => "ssd"
  | HDD => "hdd"

structure StoragePool where
  type : DiskTypes
  size : ℚ
  used : ℚ

/-- The sizes in GB that a node is asked for. -/
structure FilterOptions where
  hru : Option ℚ
  sru : Option ℚ
  mru : Option ℚ

/-- The answers to the requests for the twin of a node, and to `zos.statistics.get` and
`zos.storage.pools` by a twin. -/
structure NodeClient where
  getNodeTwinId : Nat → Except GridError Nat
  statistics : Nat → Except GridError RMBNodeCapacity
  storagePools : Nat → Except GridError (List StoragePool)

def g2b (GB : ℚ) : ℚ := GB * 1024 ^ 3

/-- `toFixed(2)`. -/
def toFixedText (x : ℚ) : String :=
  let cents := ⌊|x| * 100 + 1 / 2⌋.toNat
  let digits := toString (cents % 100)
  (if x < 0 then "-" else "") ++ toString (cents / 100) ++ "." ++
    (if digits.length = 1 then "0" ++ digits else digits)

def gbText (bytes : ℚ) : String := toFixedText (bytes / 1024 ^ 3)

/-- Hands back the pools after the disk took its place, if it found one. -/
def allocateDiskToPools : List ℚ → ℚ → Option (List ℚ)
  | [], _ => none
  | pool :: diskPools, disk =>
    if pool ≥ disk then some (double.sub pool disk :: diskPools)
    else (allocateDiskToPools diskPools disk).map (pool :: ·)

def sortArrayDesc (array : List ℚ) : List ℚ := array.insertionSort (· ≥ ·)

/-- The state is the pools, which keep the disks that were placed before one that does not fit. -/
def fitDisksInDisksPool (type : DiskTypes) : List ℚ → EStateM GridError (List ℚ) Unit
  | [] => return
  | disk :: disks => do
    let pools ← get
    match allocateDiskToPools pools disk with
    | none => throw (.other "Error" ("Cannot fit the required " ++ type.toText.toUpper ++
        " disk with size " ++ gbText disk ++ " GB."))
    | some pools =>
      set (sortArrayDesc pools)
      fitDisksInDisksPool type disks

def poolsText (pools : List ℚ) : String :=
  ",".intercalate (pools.map fun disk => gbText disk ++ "GB ")

def allocationError (nodeId : Nat) (ssdPools hddPools : List ℚ) : GridError → GridError
  | .base _ m | .other _ m => .base "DiskAllocationError" (m ++ ", on Node " ++ toString nodeId ++
      " with disk pools:\n         SSD:  " ++ poolsText ssdPools ++ " \n         HDD:  " ++
      poolsText hddPools ++ "\n    Please select another Node.\n")
  | .typeError => .typeError

namespace NodeClient
variable (client : NodeClient)

/-- `getNodeFreeResources` of the source `zos`. -/
def getNodeFreeResources (nodeId : Nat) : Except GridError NodeResources := do
  let nodeTwinId ← client.getNodeTwinId nodeId
  match client.statistics nodeTwinId with
  | .ok node => return {
      cru := node.total.cru
      mru := node.total.mru - node.used.mru
      sru := node.total.sru - node.used.sru
      hru := node.total.hru - node.used.hru
      ipv4u := 0 }
  | .error e => throw (e.withPrefix s!"Error getting node {nodeId}")

def nodeHasResources (nodeId : Nat) (options : FilterOptions) : Except GridError Bool := do
  let resources ← client.getNodeFreeResources nodeId
  let lacks (free : ℚ) (asked : Option ℚ) : Bool :=
    asked.any fun size => decide (size > 0 ∧ free < g2b size)
  return !(lacks resources.mru options.mru || lacks resources.sru options.sru ||
    lacks resources.hru options.hru)

/-- The pools of a node. -/
def poolsOf (nodeId : Nat) : Except GridError (List StoragePool) :=
  match client.getNodeTwinId nodeId >>= client.storagePools with
  | .ok pools => .ok pools
  | .error e => .error (e.withPrefix s!"Error getting node {nodeId}")

/-- The sizes that are free in the pools of a type. -/
def freeSizes (type : DiskTypes) (pools : List StoragePool) : List ℚ :=
  (pools.filter fun disk => disk.type = type).map fun disk => disk.size - disk.used

/-- `ssdPools` and `hddPools`. -/
def poolSizes (type : DiskTypes) (pools : List StoragePool) : List ℚ :=
  (pools.filter fun disk => disk.type = type).map fun disk => double.sub disk.size disk.used

def verifyNodeStoragePoolCapacity (ssdDisks hddDisks rootFileSystemDisks : List ℚ)
    (nodeId : Nat) : Except GridError Unit := do
  let pools ← client.poolsOf nodeId
  let ssdPools := sortArrayDesc (poolSizes .SSD pools)
  let hddPools := sortArrayDesc (poolSizes .HDD pools)
  match fitDisksInDisksPool .SSD (sortArrayDesc ssdDisks) ssdPools with
  | .error e ssdPools => throw (allocationError nodeId ssdPools hddPools e)
  | .ok _ ssdPools =>
    match fitDisksInDisksPool .HDD (sortArrayDesc hddDisks) hddPools with
    | .error e hddPools => throw (allocationError nodeId ssdPools hddPools e)
    | .ok _ hddPools =>
      match fitDisksInDisksPool .SSD (sortArrayDesc rootFileSystemDisks) ssdPools with
      | .error e ssdPools => throw (allocationError nodeId ssdPools hddPools e)
      | .ok _ _ => return

end NodeClient

/-! Disks that are accepted fit. -/

section
variable {pools pools' disks items : List ℚ} {disk : ℚ} {type : DiskTypes} {e : ℤ}

theorem sortArrayDesc_perm (array : List ℚ) : (sortArrayDesc array).Perm array :=
  List.perm_insertionSort _ _

theorem allocateDiskToPools_eq_some (h : allocateDiskToPools pools disk = some pools') :
    ∃ front pool rest, pools = front ++ pool :: rest ∧
      pools' = front ++ double.sub pool disk :: rest ∧ disk ≤ pool := by
  induction pools generalizing pools' with
  | nil => cases h
  | cons pool pools ih =>
    rw [allocateDiskToPools] at h
    split_ifs at h with hfits
    · cases h
      exact ⟨[], pool, pools, rfl, rfl, hfits⟩
    · obtain ⟨after, hafter, rfl⟩ := Option.map_eq_some_iff.mp h
      obtain ⟨front, pool', rest, rfl, rfl, hle⟩ := ih hafter
      exact ⟨pool :: front, pool', rest, rfl, rfl, hle⟩

/-- The disk is a number of steps of size `2 ^ e`. -/
def Steps (e : ℤ) (disk : ℚ) : Prop := ∃ n : ℕ, disk = n * 2 ^ e

/-- What is left of a pool is exact, where all is in steps of one size. -/
theorem sub_of_steps {pool : ℚ} (hpool : double.Whole e pool) (hdisk : Steps e disk)
    (hle : disk ≤ pool) : double.sub pool disk = pool - disk ∧ double.Whole e (pool - disk) := by
  obtain ⟨n, rfl⟩ := hdisk
  have hleft : double.Whole e (pool - n * 2 ^ e) := hpool.sub hle
  exact ⟨hleft.round_eq, hleft⟩

/-- What packs into the pools that are left packs, with the disks placed, into those before. -/
theorem fitDisksInDisksPool_packs (hpools : ∀ pool ∈ pools, double.Whole e pool)
    (hdisks : ∀ disk ∈ disks, Steps e disk)
    (h : fitDisksInDisksPool type disks pools = .ok () pools') :
    (∀ pool ∈ pools', double.Whole e pool) ∧
      ∀ items, Packs pools' items → Packs pools (disks ++ items) := by
  induction disks generalizing pools with
  | nil =>
    cases h
    exact ⟨hpools, fun items hitems => hitems⟩
  | cons disk disks ih =>
    obtain ⟨s, s', hget, h⟩ := bind_eq_ok.mp h
    cases hget
    obtain ⟨hdisk, hdisks⟩ := List.forall_mem_cons.mp hdisks
    cases hplace : allocateDiskToPools pools disk with
    | none =>
      rw [hplace] at h
      cases h
    | some placed =>
      rw [hplace] at h
      obtain ⟨_, s₁, hset, h⟩ := bind_eq_ok.mp h
      cases hset
      obtain ⟨front, pool, rest, rfl, rfl, hle⟩ := allocateDiskToPools_eq_some hplace
      obtain ⟨hfront, hpool, hrest⟩ := List.forall_mem_append.mp hpools |>.imp_right
        List.forall_mem_cons.mp
      obtain ⟨hsub, hleft⟩ := sub_of_steps hpool hdisk hle
      rw [hsub] at h
      have hplaced : ∀ pool' ∈ front ++ (pool - disk) :: rest, double.Whole e pool' :=
        List.forall_mem_append.mpr ⟨hfront, List.forall_mem_cons.mpr ⟨hleft, hrest⟩⟩
      have hsorted := sortArrayDesc_perm (front ++ (pool - disk) :: rest)
      obtain ⟨hafter, hpacks⟩ := ih (fun pool' hmem => hplaced pool' (hsorted.mem_iff.mp hmem))
        hdisks h
      exact ⟨hafter, fun items hitems => ((hpacks items hitems).perm_bins hsorted.symm).place hle⟩

/-- Disks that are fitted into sorted pools pack into them as they were given. -/
theorem packs_of_sorted {free : List ℚ} (hfree : ∀ pool ∈ free, double.Whole e pool)
    (hdisks : ∀ disk ∈ disks, Steps e disk) (hperm : pools.Perm free)
    (h : fitDisksInDisksPool type (sortArrayDesc disks) pools = .ok () pools') :
    (∀ pool ∈ pools', double.Whole e pool) ∧
      ∀ items, Packs pools' items → Packs free (disks ++ items) := by
  have hsorted := sortArrayDesc_perm disks
  obtain ⟨hafter, hpacks⟩ := fitDisksInDisksPool_packs
    (fun pool hpool => hfree pool (hperm.mem_iff.mp hpool))
    (fun disk hdisk => hdisks disk (hsorted.mem_iff.mp hdisk)) h
  exact ⟨hafter, fun items hitems =>
    ((hpacks items hitems).perm_bins hperm.symm).perm_items (hsorted.append_right items)⟩

/-- The pools of a node are accepted when the three kinds of disks are fitted in turn. -/
theorem verifyNodeStoragePoolCapacity_eq_ok_iff {client : NodeClient}
    {ssdDisks hddDisks rootFileSystemDisks : List ℚ} {nodeId : Nat} :
    client.verifyNodeStoragePoolCapacity ssdDisks hddDisks rootFileSystemDisks nodeId = .ok () ↔
      ∃ pools ssdPools hddPools left, client.poolsOf nodeId = .ok pools ∧
        fitDisksInDisksPool .SSD (sortArrayDesc ssdDisks)
          (sortArrayDesc (NodeClient.poolSizes .SSD pools)) = .ok () ssdPools ∧
        fitDisksInDisksPool .HDD (sortArrayDesc hddDisks)
          (sortArrayDesc (NodeClient.poolSizes .HDD pools)) = .ok () hddPools ∧
        fitDisksInDisksPool .SSD (sortArrayDesc rootFileSystemDisks) ssdPools = .ok () left := by
  constructor
  · intro h
    obtain ⟨pools, hpools, h⟩ := exceptBind_eq_ok.mp h
    dsimp only at h
    cases hssd : fitDisksInDisksPool .SSD (sortArrayDesc ssdDisks)
        (sortArrayDesc (NodeClient.poolSizes .SSD pools)) with
    | error e left =>
      rw [hssd] at h
      cases h
    | ok u ssdPools =>
      rw [hssd] at h
      dsimp only at h
      cases hhdd : fitDisksInDisksPool .HDD (sortArrayDesc hddDisks)
          (sortArrayDesc (NodeClient.poolSizes .HDD pools)) with
      | error e left =>
        rw [hhdd] at h
        cases h
      | ok u' hddPools =>
        rw [hhdd] at h
        dsimp only at h
        cases hroot : fitDisksInDisksPool .SSD (sortArrayDesc rootFileSystemDisks) ssdPools with
        | error e left =>
          rw [hroot] at h
          cases h
        | ok u'' left => exact ⟨pools, ssdPools, hddPools, left, hpools, hssd, hhdd, hroot⟩
  · rintro ⟨pools, ssdPools, hddPools, left, hpools, hssd, hhdd, hroot⟩
    refine exceptBind_eq_ok.mpr ⟨pools, hpools, ?_⟩
    dsimp only
    rw [hssd]
    dsimp only
    rw [hhdd]
    dsimp only
    rw [hroot]
    rfl

/-! Pools that are large enough. -/

theorem exists_of_allocated {pool : ℚ} (hmem : pool ∈ pools) (hfits : disk ≤ pool) :
    ∃ pools', allocateDiskToPools pools disk = some pools' := by
  induction pools with
  | nil => cases hmem
  | cons first pools ih =>
    by_cases hfirst : first ≥ disk
    · exact ⟨_, if_pos hfirst⟩
    · have hrest : pool ∈ pools := by
        rcases List.mem_cons.mp hmem with rfl | hrest
        · exact absurd hfits hfirst
        · exact hrest
      obtain ⟨after, hafter⟩ := ih hrest
      exact ⟨first :: after, by rw [allocateDiskToPools, if_neg hfirst, hafter]; rfl⟩

/-- With as many pools left as there are disks, all of them large enough, each disk is placed. -/
theorem fitDisksInDisksPool_of_enough {room : ℚ} (hdisks : ∀ disk ∈ disks, disk ≤ room)
    (pools : List ℚ) (henough : disks.length ≤ pools.countP fun pool => decide (room ≤ pool)) (type : DiskTypes) :
    ∃ left, fitDisksInDisksPool type disks pools = .ok () left ∧
      (pools.countP fun pool => decide (room ≤ pool)) ≤
        (left.countP fun pool => decide (room ≤ pool)) + disks.length := by
  induction disks generalizing pools with
  | nil => exact ⟨pools, rfl, le_rfl⟩
  | cons disk disks ih =>
    obtain ⟨hdisk, hdisks⟩ := List.forall_mem_cons.mp hdisks
    rw [List.length_cons] at henough
    obtain ⟨pool, hmem, hroom⟩ := List.countP_pos_iff.mp (lt_of_lt_of_le (Nat.succ_pos _) henough)
    obtain ⟨placed, hplaced⟩ := exists_of_allocated hmem (hdisk.trans (of_decide_eq_true hroom))
    have hcount : (pools.countP fun pool => decide (room ≤ pool)) ≤
        ((sortArrayDesc placed).countP fun pool => decide (room ≤ pool)) + 1 := by
      obtain ⟨front, changed, rest, rfl, rfl, -⟩ := allocateDiskToPools_eq_some hplaced
      rw [(sortArrayDesc_perm _).countP_eq, List.countP_append, List.countP_append,
        List.countP_cons, List.countP_cons]
      split <;> omega
    obtain ⟨left, hleft, hrest⟩ := ih hdisks (sortArrayDesc placed) (by omega)
    refine ⟨left, ?_, by rw [List.length_cons]; omega⟩
    refine bind_eq_ok.mpr ⟨pools, pools, rfl, ?_⟩
    rw [hplaced]
    exact bind_eq_ok.mpr ⟨(), sortArrayDesc placed, rfl, hleft⟩

/-- A node accepts the disks when it has a pool for each, as large as the largest of them. -/
theorem verifyNodeStoragePoolCapacity_of_enough {client : NodeClient}
    {ssdDisks hddDisks rootFileSystemDisks : List ℚ} {nodeId : Nat} {pools : List StoragePool}
    (ssdRoom hddRoom : ℚ) (hpools : client.poolsOf nodeId = .ok pools)
    (hssd : ∀ disk ∈ ssdDisks ++ rootFileSystemDisks, disk ≤ ssdRoom)
    (hhdd : ∀ disk ∈ hddDisks, disk ≤ hddRoom)
    (hssdPools : (ssdDisks ++ rootFileSystemDisks).length ≤
      (NodeClient.poolSizes .SSD pools).countP fun pool => decide (ssdRoom ≤ pool))
    (hhddPools : hddDisks.length ≤
      (NodeClient.poolSizes .HDD pools).countP fun pool => decide (hddRoom ≤ pool)) :
    client.verifyNodeStoragePoolCapacity ssdDisks hddDisks rootFileSystemDisks nodeId = .ok () := by
  have hlength : ∀ disks : List ℚ, (sortArrayDesc disks).length = disks.length :=
    fun disks => (sortArrayDesc_perm disks).length_eq
  have hle : ∀ {disks : List ℚ} {room : ℚ}, (∀ disk ∈ disks, disk ≤ room) →
      ∀ disk ∈ sortArrayDesc disks, disk ≤ room :=
    fun h disk hdisk => h disk ((sortArrayDesc_perm _).mem_iff.mp hdisk)
  obtain ⟨hssd, hroot⟩ := List.forall_mem_append.mp hssd
  rw [List.length_append] at hssdPools
  obtain ⟨ssdPools, hfitSsd, hleft⟩ := fitDisksInDisksPool_of_enough (hle hssd)
    (sortArrayDesc (NodeClient.poolSizes .SSD pools))
    (by rw [hlength, (sortArrayDesc_perm _).countP_eq]; omega) .SSD
  rw [hlength, (sortArrayDesc_perm _).countP_eq] at hleft
  obtain ⟨hddPools, hfitHdd, -⟩ := fitDisksInDisksPool_of_enough (hle hhdd)
    (sortArrayDesc (NodeClient.poolSizes .HDD pools))
    (by rw [hlength, (sortArrayDesc_perm _).countP_eq]; exact hhddPools) .HDD
  obtain ⟨left, hfitRoot, -⟩ := fitDisksInDisksPool_of_enough (hle hroot) ssdPools
    (by rw [hlength]; omega) .SSD
  exact verifyNodeStoragePoolCapacity_eq_ok_iff.mpr
    ⟨pools, ssdPools, hddPools, left, hpools, hfitSsd, hfitHdd, hfitRoot⟩

/-- Pools that hold the next power of two, one for each item of the lists. -/
theorem poolSizes_above {α β : Type} (xs : List α) (ys : List β) (ssdRoom hddRoom : ℚ)
    {pools : List StoragePool} (hpools : pools = xs.map (fun _ => ⟨.SSD, double.above ssdRoom, 0⟩) ++
      ys.map fun _ => ⟨.HDD, double.above hddRoom, 0⟩) :
    NodeClient.poolSizes .SSD pools = xs.map (fun _ => double.above ssdRoom) ∧
      NodeClient.poolSizes .HDD pools = ys.map fun _ => double.above hddRoom := by
  have hsub : ∀ room, double.sub (double.above room) 0 = double.above room := by
    intro room
    rw [Format.sub, sub_zero, round_above]
  constructor <;> simp [hpools, NodeClient.poolSizes, hsub]

theorem countP_above {α : Type} (xs : List α) (room : ℚ) :
    ((xs.map fun _ => double.above room).countP fun pool => decide (room ≤ pool)) = xs.length := by
  rw [List.countP_eq_length.mpr, List.length_map]
  intro pool hpool
  obtain ⟨_, -, rfl⟩ := List.mem_map.mp hpool
  exact decide_eq_true (lt_above _ _).le

/-! Pools that the disks pack into. -/

/-- Free sizes in steps of one size are those of the pools. -/
theorem poolSizes_eq {pools : List StoragePool}
    (h : ∀ pool ∈ pools, double.Whole e (pool.size - pool.used)) (type : DiskTypes) :
    NodeClient.poolSizes type pools = NodeClient.freeSizes type pools ∧
      ∀ free ∈ NodeClient.freeSizes type pools, double.Whole e free := by
  constructor
  · refine List.map_congr_left fun pool hpool => ?_
    exact (h pool (List.mem_filter.mp hpool).1).round_eq
  · intro free hfree
    obtain ⟨pool, hpool, rfl⟩ := List.mem_map.mp hfree
    exact h pool (List.mem_filter.mp hpool).1

/-- A node whose pools are accepted has room for each disk: the SSD pools for the SSD disks and root
file systems, the HDD pools for the HDD disks. All sizes are in steps of one size, with at most
`2 ^ 53` of them free in a pool. -/
theorem verifyNodeStoragePoolCapacity_packs {client : NodeClient}
    {ssdDisks hddDisks rootFileSystemDisks : List ℚ} {nodeId : Nat}
    (hfree : ∀ pools, client.poolsOf nodeId = .ok pools →
      ∀ pool ∈ pools, double.Whole e (pool.size - pool.used))
    (hdisks : ∀ disk ∈ ssdDisks ++ hddDisks ++ rootFileSystemDisks, Steps e disk)
    (h : client.verifyNodeStoragePoolCapacity ssdDisks hddDisks rootFileSystemDisks nodeId =
      .ok ()) :
    ∃ pools, client.poolsOf nodeId = .ok pools ∧
      Packs (NodeClient.freeSizes .SSD pools) (ssdDisks ++ rootFileSystemDisks) ∧
      Packs (NodeClient.freeSizes .HDD pools) hddDisks := by
  obtain ⟨pools, ssdPools, hddPools, left, hpools, hssd, hhdd, hroot⟩ :=
    verifyNodeStoragePoolCapacity_eq_ok_iff.mp h
  obtain ⟨hssdDisks, hrootDisks⟩ := List.forall_mem_append.mp hdisks
  obtain ⟨hssdDisks, hhddDisks⟩ := List.forall_mem_append.mp hssdDisks
  have hwhole := poolSizes_eq (hfree pools hpools)
  rw [(hwhole .SSD).1] at hssd
  rw [(hwhole .HDD).1] at hhdd
  obtain ⟨hafter, hssdPacks⟩ :=
    packs_of_sorted (hwhole .SSD).2 hssdDisks (sortArrayDesc_perm _) hssd
  obtain ⟨-, hrootPacks⟩ := packs_of_sorted hafter hrootDisks (List.Perm.refl _) hroot
  obtain ⟨-, hhddPacks⟩ :=
    packs_of_sorted (hwhole .HDD).2 hhddDisks (sortArrayDesc_perm _) hhdd
  refine ⟨pools, hpools, hssdPacks _ ?_, ?_⟩
  · have hlast := hrootPacks [] (packs_nil left)
    rwa [List.append_nil] at hlast
  · have hall := hhddPacks [] (packs_nil hddPools)
    rwa [List.append_nil] at hall

end

/-- A node with two pools of SSD and one of HDD. -/
def poolClient : NodeClient where
  getNodeTwinId := fun nodeId => .ok nodeId
  statistics := fun _ => .error .typeError
  storagePools := fun _ => .ok [⟨.SSD, 100, 40⟩, ⟨.HDD, 50, 0⟩, ⟨.SSD, 80, 0⟩]

theorem poolClient_packs : ∃ pools, poolClient.poolsOf 11 = .ok pools ∧
    Packs (NodeClient.freeSizes .SSD pools) ([70, 10] ++ [50]) ∧
    Packs (NodeClient.freeSizes .HDD pools) [50] := by
  have hok : (poolClient.verifyNodeStoragePoolCapacity [70, 10] [50] [50] 11).isOk = true := by
    decide +kernel
  obtain ⟨_, haccept⟩ := exists_of_isOk hok
  refine verifyNodeStoragePoolCapacity_packs (e := 0) ?_ ?_ haccept
  · intro pools hpools
    cases hpools
    simp only [List.forall_mem_cons]
    refine ⟨⟨60, by norm_num [double], by norm_num⟩, ⟨50, by norm_num [double], by norm_num⟩,
      ⟨80, by norm_num [double], by norm_num⟩, by simp⟩
  · simp only [List.cons_append, List.nil_append, List.forall_mem_cons]
    exact ⟨⟨70, by norm_num⟩, ⟨10, by norm_num⟩, ⟨50, by norm_num⟩, ⟨50, by norm_num⟩, by simp⟩

/-- A node with one pool of `2 ^ 54` bytes. -/
def hugePool : NodeClient :=
  { poolClient with storagePools := fun _ => .ok [⟨.SSD, 2 ^ 54, 0⟩] }

/-- A byte is not seen to be missing in a pool of `2 ^ 54`. -/
theorem hugePool_not_packs : ¬ ∀ (client : NodeClient)
    (ssdDisks hddDisks rootFileSystemDisks : List ℚ) (nodeId : Nat),
    (∀ disk ∈ ssdDisks ++ hddDisks ++ rootFileSystemDisks, 0 ≤ disk) →
      client.verifyNodeStoragePoolCapacity ssdDisks hddDisks rootFileSystemDisks nodeId = .ok () →
        ∃ pools, client.poolsOf nodeId = .ok pools ∧
          Packs (NodeClient.freeSizes .SSD pools) (ssdDisks ++ rootFileSystemDisks) ∧
          Packs (NodeClient.freeSizes .HDD pools) hddDisks := by
  intro hall
  have hok : (hugePool.verifyNodeStoragePoolCapacity [1] [] [2 ^ 54] 11).isOk = true := by
    decide +kernel
  obtain ⟨_, haccept⟩ := exists_of_isOk hok
  obtain ⟨pools, hpools, hssd, -⟩ := hall hugePool [1] [] [2 ^ 54] 11 (by norm_num) haccept
  cases hpools
  have hsum := hssd.sum_le (by
    intro bin hbin
    rw [List.mem_singleton.mp hbin]
    norm_num)
  norm_num [NodeClient.freeSizes] at hsum

end ThreefoldSdk.Primitives
