import ThreefoldSdk.HighLevel.Instances

/-! The shards of a qsfs disk: what `VMHL.create` (`high_level/machine.ts`) makes of them, against
the zdbs of the qsfs zdbs deployment (`modules/qsfs_zdbs.ts`) that stores the data. -/

namespace ThreefoldSdk.HighLevel
open Zos Primitives Frame

/-- The disk size is in bytes; `count` need not be an integer. -/
structure QSFSZDBSModel where
  name : String
  count : ℚ
  nodeIds : List Nat
  nodeIds_nonempty : nodeIds ≠ []
  diskSize : Nat
  password : String
  metadata : String
  description : String
  solutionProviderId : Option Nat

namespace QSFSZDBSModel

def nodeId (o : QSFSZDBSModel) (i : ℕ) : Nat :=
  o.nodeIds.get ⟨(i - 1) % o.nodeIds.length,
    Nat.mod_lt _ (List.length_pos_iff.mpr o.nodeIds_nonempty)⟩

/-- The `i`-th zdb. -/
def zdb (contractMetadata : String) (o : QSFSZDBSModel) (i : ℕ) : ZdbOptions where
  name := o.name ++ toString i
  nodeId := o.nodeId i
  diskSize := o.diskSize
  mode := if o.count < i then .user else .seq
  password := o.password
  publicNamespace := true
  contractMetadata := contractMetadata
  metadata := o.metadata
  description := o.description
  solutionProviderId := o.solutionProviderId

def createDeployment (twinId : Nat) (contractMetadata : String) (o : QSFSZDBSModel) :
    Except GridError (List TwinDeployment) := do
  if o.count < 3 then
    throw (.validation "QSFS zdbs count can't be less than 3.")
  -- four zdbs for the meta; the loop runs while `i <= count`
  return (List.range' 1 ⌊o.count + 4⌋.toNat).map fun i => (o.zdb contractMetadata i).create twinId

end QSFSZDBSModel

/-- What a node says about a zdb; the second ip is used. -/
structure ZdbResult where
  «namespace» : String
  ip : String
  port : Nat

def zdbBackend (zdb : Zdb) (result : ZdbResult) : ZdbBackend where
  address := "[" ++ result.ip ++ "]:" ++ toString result.port
  «namespace» := result.namespace
  password := zdb.password

/-- The backends of one kind, from the workloads and what the nodes say about them. -/
def backendsOf (results : String → ZdbResult) (user : Bool) (w : Workload) : Option ZdbBackend :=
  match w.data with
  | .zdb zdb =>
    if decide (zdb.mode = .user) = user then some (zdbBackend zdb (results w.name)) else none
  | _ => none

/-- The groups and the meta of a deployment. -/
def getZdbs (results : String → ZdbResult) (ws : List Workload) :
    List ZdbBackend × List ZdbBackend :=
  (ws.filterMap (backendsOf results false), ws.filterMap (backendsOf results true))

section
variable {twinId : Nat} {contractMetadata : String} {o : QSFSZDBSModel} {ts : List TwinDeployment}

theorem length_backends (results : String → ZdbResult) (user : Bool) (is : List ℕ) :
    (((is.map fun i => (o.zdb contractMetadata i).create twinId).flatMap
      TwinDeployment.workloads).filterMap (backendsOf results user)).length =
      is.countP fun i : ℕ => decide (o.count < i) = user := by
  have hworkloads : (is.map fun i => (o.zdb contractMetadata i).create twinId).flatMap
      TwinDeployment.workloads = is.map fun i : ℕ => ZdbPrimitive.create (o.name ++ toString i)
        o.diskSize (if o.count < i then .user else .seq) o.password true o.metadata
        o.description 0 := by
    rw [List.flatMap_map, List.map_eq_flatMap]
    rfl
  rw [hworkloads, List.filterMap_map, List.length_filterMap_eq_countP]
  refine List.countP_congr fun i _ => ?_
  unfold Function.comp backendsOf ZdbPrimitive.create
  by_cases hmode : o.count < i
  · cases user <;> simp [hmode]
  · cases user <;> simp [hmode]

/-- A deployment has as many zdbs for the data as it was asked for, and four for the meta. -/
theorem zdbs_of_createDeployment (h : o.createDeployment twinId contractMetadata = .ok ts)
    (results : String → ZdbResult) :
    (getZdbs results (ts.flatMap TwinDeployment.workloads)).1.length = ⌊o.count⌋.toNat ∧
      (getZdbs results (ts.flatMap TwinDeployment.workloads)).2.length = 4 := by
  obtain ⟨hcount, hok⟩ := exceptCheck_eq_ok.mp h
  cases hok
  obtain ⟨n, hn⟩ : ∃ n : ℕ, ⌊o.count⌋ = n :=
    Int.eq_ofNat_of_zero_le (Int.floor_nonneg.mpr (by linarith))
  have hall : ⌊o.count + 4⌋.toNat = n + 4 := by
    have hfour : ⌊o.count + 4⌋ = ⌊o.count⌋ + 4 := Int.floor_add_ofNat _ _
    rw [hfour, hn]
    rfl
  have hdata : ∀ i ∈ List.range' 1 n, ¬o.count < i := by
    intro i hi
    have hle : (i : ℤ) ≤ ⌊o.count⌋ := by
      rw [hn]
      have hlast := (List.mem_range'_1.mp hi).2
      omega
    exact not_lt.mpr (Int.le_floor.mp hle)
  have hmeta : ∀ i ∈ List.range' (1 + n) 4, o.count < i := by
    intro i hi
    have hlt : ⌊o.count⌋ < (i : ℤ) := by
      rw [hn]
      have hfirst := (List.mem_range'_1.mp hi).1
      omega
    exact Int.floor_lt.mp hlt
  rw [getZdbs, length_backends, length_backends, hall, ← List.range'_append_1, List.countP_append,
    List.countP_append, hn]
  constructor
  · rw [List.countP_eq_length.mpr fun i hi => by simp [hdata i hi],
      List.countP_eq_zero.mpr fun i hi => by simp [hmeta i hi], List.length_range']
    rfl
  · rw [List.countP_eq_zero.mpr fun i hi => by simp [hdata i hi],
      List.countP_eq_length.mpr fun i hi => by simp [hmeta i hi], List.length_range']

end

/-- The shards of a disk and the zdbs behind it: enough are written to read the data back, and there
is a zdb for each. -/
structure ShardsFit (q : QuantumSafeFS) : Prop where
  minimal : 1 ≤ q.config.minimalShards
  ordered : q.config.minimalShards ≤ q.config.expectedShards
  stored : q.config.expectedShards ≤ (q.config.groups.flatMap ZdbGroup.backends).length

/-- The qsfs workloads of what `VMHL.create` returns. -/
def CreatesFitting (twinId : Nat) (env : VmAnswers) (network : AnyNetwork) (o : VmOptions) : Prop :=
  ∀ t, o.create twinId env network = .ok t → ∀ w ∈ t.workloads, ∀ q, w.data = .qsfs q → ShardsFit q

section
variable (env : VmAnswers)

/-- The disk is not refused. -/
structure Accepts (d : QSFSDiskModel) : Prop where
  groups : (env.getZdbs d.qsfsZdbsName).1 ≠ []
  metaBackends : (env.getZdbs d.qsfsZdbsName).2 ≠ []
  minimal : d.minimalShards < (env.getZdbs d.qsfsZdbsName).1.length
  expected : d.expectedShards ≤ (env.getZdbs d.qsfsZdbsName).1.length

/-- The zdbs of the disk are those of a deployment that was created. -/
def StoredIn (twinId : Nat) (zdbs : QSFSZDBSModel) (d : QSFSDiskModel) : Prop :=
  ∃ contractMetadata ts results, zdbs.createDeployment twinId contractMetadata = .ok ts ∧
    env.getZdbs d.qsfsZdbsName = getZdbs results (ts.flatMap TwinDeployment.workloads)

/-- Expected shards that are given are no fewer than the minimal ones, or than three fifths of the
zdbs where those are not given. -/
def InOrder (d : QSFSDiskModel) : Prop :=
  d.expectedShards ≠ 0 →
    if d.minimalShards = 0 then 3 * (env.getZdbs d.qsfsZdbsName).1.length ≤ 5 * d.expectedShards
    else d.minimalShards ≤ d.expectedShards

end

section
variable {twinId : Nat} {env : VmAnswers} {network : AnyNetwork} {o : VmOptions} {d : QSFSDiskModel}

/-- The workload of an accepted disk. -/
def QSFSDiskModel.workload (env : VmAnswers) (d : QSFSDiskModel) : Workload :=
  QSFSPrimitive.create env.hexKey d.name
    (if d.minimalShards ≠ 0 then d.minimalShards
      else ((env.getZdbs d.qsfsZdbsName).1.length * 3 + 4) / 5)
    (if d.expectedShards ≠ 0 then d.expectedShards else (env.getZdbs d.qsfsZdbsName).1.length)
    d.keyPrefix (env.getZdbs d.qsfsZdbsName).2 [⟨(env.getZdbs d.qsfsZdbsName).1⟩] d.encryptionKey
    (d.cache.getD (1024 ^ 3)) 32 "zdb" 0 0 "AES" "snappy"
    (env.qsfsMetadata d.qsfsZdbsName (env.getZdbs d.qsfsZdbsName).1) "" 0

/-- A disk on created zdbs is refused only for its shards. -/
theorem accepts_storedIn_iff {zdbs : QSFSZDBSModel} (h : StoredIn env twinId zdbs d) :
    Accepts env d ↔
      d.minimalShards < ⌊zdbs.count⌋.toNat ∧ d.expectedShards ≤ ⌊zdbs.count⌋.toNat := by
  obtain ⟨contractMetadata, ts, results, hts, hzdbs⟩ := h
  obtain ⟨hgroups, hmeta⟩ := zdbs_of_createDeployment hts results
  rw [← hzdbs] at hgroups hmeta
  constructor
  · intro haccepts
    rw [← hgroups]
    exact ⟨haccepts.minimal, haccepts.expected⟩
  · rintro ⟨hminimal, hexpected⟩
    rw [← hgroups] at hminimal hexpected
    refine ⟨List.ne_nil_of_length_pos (Nat.zero_lt_of_lt hminimal), ?_, hminimal, hexpected⟩
    exact List.ne_nil_of_length_pos (by omega)

theorem accepts_iff : Accepts env d ↔
    (¬((env.getZdbs d.qsfsZdbsName).1.isEmpty || (env.getZdbs d.qsfsZdbsName).2.isEmpty) = true ∧
      ¬(d.minimalShards ≠ 0 ∧ (env.getZdbs d.qsfsZdbsName).1.length ≤ d.minimalShards)) ∧
      ¬(d.expectedShards ≠ 0 ∧ (env.getZdbs d.qsfsZdbsName).1.length < d.expectedShards) := by
  rw [Bool.or_eq_true, List.isEmpty_iff, List.isEmpty_iff, not_or]
  constructor
  · intro h
    have hminimal := h.minimal
    have hexpected := h.expected
    exact ⟨⟨⟨h.groups, h.metaBackends⟩, by omega⟩, by omega⟩
  · rintro ⟨⟨⟨hgroups, hmeta⟩, hminimal⟩, hexpected⟩
    have hpos := List.length_pos_iff.mpr hgroups
    exact ⟨hgroups, hmeta, by omega, by omega⟩

theorem qsfsWorkload_eq_ok_iff {w : Workload} :
    qsfsWorkload env d = .ok w ↔ Accepts env d ∧ d.workload env = w := by
  rw [accepts_iff]
  unfold qsfsWorkload QSFSDiskModel.workload
  cases env.getZdbs d.qsfsZdbsName with
  | mk groups metaBackends =>
    refine (exceptCheck_eq_ok.trans (and_congr_right' (exceptCheck_eq_ok.trans
      (and_congr_right' exceptCheck_eq_ok)))).trans ?_
    rw [← and_assoc, ← and_assoc]
    exact and_congr_right' ⟨Except.ok.inj, congrArg Except.ok⟩

theorem workload_config : ∃ q, (d.workload env).data = .qsfs q ∧
    q.config.minimalShards = (if d.minimalShards ≠ 0 then d.minimalShards
      else ((env.getZdbs d.qsfsZdbsName).1.length * 3 + 4) / 5) ∧
    q.config.expectedShards = (if d.expectedShards ≠ 0 then d.expectedShards
      else (env.getZdbs d.qsfsZdbsName).1.length) ∧
    q.config.groups = [⟨(env.getZdbs d.qsfsZdbsName).1⟩] := ⟨_, rfl, rfl, rfl, rfl⟩

/-- Of an accepted disk, the shards fit when they are in order. -/
theorem workload_shardsFit_iff (h : Accepts env d) :
    (∀ q, (d.workload env).data = .qsfs q → ShardsFit q) ↔ InOrder env d := by
  obtain ⟨q, hq, hminimal, hexpected, hgroups⟩ := @workload_config env d
  have hpos := List.length_pos_iff.mpr h.groups
  have hfewer := h.minimal
  have henough := h.expected
  have hfits : ShardsFit q ↔ q.config.minimalShards ≤ q.config.expectedShards := by
    refine ⟨ShardsFit.ordered, fun hle => ⟨?_, hle, ?_⟩⟩
    · rw [hminimal]
      split_ifs
      · omega
      · omega
    · rw [hexpected, hgroups, List.flatMap_singleton]
      split_ifs
      · exact henough
      · exact le_rfl
  have hone : (∀ q, (d.workload env).data = .qsfs q → ShardsFit q) ↔ ShardsFit q := by
    rw [hq]
    exact ⟨fun hall => hall q rfl, fun hfit q' hq' => WorkloadData.qsfs.inj hq' ▸ hfit⟩
  rw [hone, hfits, hminimal, hexpected, InOrder]
  generalize (env.getZdbs d.qsfsZdbsName).1.length = n at *
  by_cases he : d.expectedShards = 0
  · rw [if_neg (not_not.mpr he)]
    refine iff_of_true ?_ fun hne => absurd he hne
    split_ifs
    · exact hfewer.le
    · omega
  · rw [if_pos he, forall_prop_of_true he]
    by_cases hm : d.minimalShards = 0
    · rw [if_neg (not_not.mpr hm), if_pos hm]
      omega
    · rw [if_pos hm, if_neg hm]

theorem VmOptions.workloads_eq_ok_iff {networkName : String} {ws : List Workload} :
    o.workloads env networkName = .ok ws ↔
      ((∀ d ∈ o.qsfsDisks, Accepts env d) ∧
        ¬((o.publicIp || o.publicIp6) && !env.ip) = true) ∧
      o.diskWorkloads ++ o.qsfsDisks.map (·.workload env) ++ o.ipWorkloads ++
        [o.vmWorkload env networkName] ++ o.zlogsWorkloads = ws := by
  unfold VmOptions.workloads
  rw [exceptBind_eq_ok]
  constructor
  · rintro ⟨qsfs, hqsfs, hrest⟩
    obtain ⟨haccepts, rfl⟩ := (mapM_eq_ok_iff fun _ _ => qsfsWorkload_eq_ok_iff).mp hqsfs
    obtain ⟨hip, hok⟩ := exceptCheck_eq_ok.mp hrest
    exact ⟨⟨haccepts, hip⟩, Except.ok.inj hok⟩
  · rintro ⟨⟨haccepts, hip⟩, rfl⟩
    exact ⟨_, (mapM_eq_ok_iff fun _ _ => qsfsWorkload_eq_ok_iff).mpr ⟨haccepts, rfl⟩,
      exceptCheck_eq_ok.mpr ⟨hip, rfl⟩⟩

/-- The other workloads of a machine are no qsfs. -/
theorem VmOptions.mem_qsfs {networkName : String} {qsfs : List Workload} {w : Workload}
    {q : QuantumSafeFS}
    (hw : w ∈ o.diskWorkloads ++ qsfs ++ o.ipWorkloads ++ [o.vmWorkload env networkName] ++
      o.zlogsWorkloads) (hq : w.data = .qsfs q) : w ∈ qsfs := by
  rw [List.mem_append, List.mem_append, List.mem_append, List.mem_append] at hw
  rcases hw with (((hdisk | hqsfs) | hip) | hvm) | hzlogs
  · obtain ⟨disk, -, rfl⟩ := List.mem_map.mp hdisk
    cases hq
  · exact hqsfs
  · unfold ipWorkloads at hip
    split_ifs at hip
    · rw [List.mem_singleton.mp hip] at hq
      cases hq
    · cases hip
  · rw [List.mem_singleton.mp hvm, vmWorkload] at hq
    split_ifs at hq
    · cases hq
    · cases hq
  · unfold zlogsWorkloads at hzlogs
    split_ifs at hzlogs
    · rw [List.mem_singleton.mp hzlogs] at hq
      cases hq
    · cases hzlogs

end

/-- The shards of what is created fit exactly when those of every disk are in order, or the machine
is refused; of disks on created zdbs it is when their shards are too many. -/
theorem create_shardsFit_iff (twinId : Nat) (env : VmAnswers) (network : AnyNetwork)
    (o : VmOptions) :
    (CreatesFitting twinId env network o ↔
      ((o.publicIp || o.publicIp6) = true → env.ip = true) →
        (∀ d ∈ o.qsfsDisks, Accepts env d) → ∀ d ∈ o.qsfsDisks, InOrder env d) ∧
    ∀ d ∈ o.qsfsDisks, ∀ zdbs, StoredIn env twinId zdbs d → (Accepts env d ↔
      d.minimalShards < ⌊zdbs.count⌋.toNat ∧ d.expectedShards ≤ ⌊zdbs.count⌋.toNat) := by
  refine ⟨?_, fun d _ zdbs hstored => accepts_storedIn_iff hstored⟩
  have hip : ((o.publicIp || o.publicIp6) = true → env.ip = true) ↔
      ¬((o.publicIp || o.publicIp6) && !env.ip) = true := by
    rw [Bool.and_eq_true, Bool.not_eq_true', not_and, Bool.not_eq_false]
  constructor
  · intro hall hpublic haccepts d hd
    refine (workload_shardsFit_iff (haccepts d hd)).mp fun q hq => ?_
    have hok : o.workloads env network.name = .ok _ :=
      VmOptions.workloads_eq_ok_iff.mpr ⟨⟨haccepts, hip.mp hpublic⟩, rfl⟩
    refine hall _ (exceptBind_eq_ok.mpr ⟨_, hok, rfl⟩) (d.workload env) ?_ q hq
    have hin : d.workload env ∈ o.qsfsDisks.map (·.workload env) := List.mem_map_of_mem hd
    exact List.mem_append_left _ (List.mem_append_left _ (List.mem_append_left _
      (List.mem_append_right _ hin)))
  · intro hall t ht w hw q hq
    obtain ⟨ws, hws, hok⟩ := exceptBind_eq_ok.mp ht
    cases hok
    obtain ⟨⟨haccepts, hpublic⟩, rfl⟩ := VmOptions.workloads_eq_ok_iff.mp hws
    obtain ⟨d, hd, rfl⟩ := List.mem_map.mp (VmOptions.mem_qsfs hw hq)
    have horder := hall (hip.mpr hpublic) haccepts d hd
    exact (workload_shardsFit_iff (haccepts d hd)).mpr horder q hq

/-- Ten zdbs for the data, and four for the meta. -/
def tenZdbs : VmAnswers where
  zmachine := true
  ip := false
  machineIp := "10.20.2.3"
  myceliumSeed := ""
  getZdbs := fun _ =>
    (List.replicate 10 ⟨"[::1]:9900", "data", "secret"⟩,
      List.replicate 4 ⟨"[::1]:9900", "meta", "secret"⟩)
  hexKey := id
  qsfsMetadata := fun name _ => name

/-- A machine with one qsfs disk, of which nothing but the expected shards is given. -/
def oneQsfs (expectedShards : Nat) : VmOptions where
  name := "vm"
  nodeId := 1
  flist := "https://hub.grid.tf/web.flist"
  cpu := 1
  memory := 1024
  rootfsSize := 2 * 1024 ^ 3
  disks := []
  publicIp := false
  publicIp6 := false
  planetary := false
  mycelium := false
  entrypoint := ""
  env := ⟨[], List.nodup_nil⟩
  contractMetadata := ""
  metadata := ""
  description := ""
  qsfsDisks := [⟨"zdbs", "disk", "prefix", "key", none, 0, expectedShards, "/data"⟩]
  corex := false
  solutionProviderId := none
  zlogsOutput := ""
  gpus := []

/-- Six shards are needed to read what two zdbs hold. -/
theorem twoExpected_not_shardsFit :
    ¬CreatesFitting 1 tenZdbs (.network ⟨"net", "10.20.0.0/16", [], [], [], [], [], []⟩)
      (oneQsfs 2) := by
  intro h
  have hfit := h _ rfl _ List.mem_cons_self _ rfl
  exact absurd hfit.ordered (by decide)

end ThreefoldSdk.HighLevel
