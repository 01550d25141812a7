import ThreefoldSdk.HighLevel.Checks
import ThreefoldSdk.Primitives.Nodes

/-! `TwinDeploymentHandler.checkNodesCapacity` over the nodes themselves: for which plans it accepts
only what the nodes have room for. -/

namespace ThreefoldSdk.HighLevel
open Zos Primitives Frame Rounding

/-- The checks of the handler, with the answers of `Nodes`. -/
def resourcesOf (r : Resources) (client : NodeClient) : Resources :=
  { r with
    nodeHasResources := fun nodeId hru sru mru => client.nodeHasResources nodeId
      ⟨some (hru / 1024 ^ 3), some (sru / 1024 ^ 3), some (mru / 1024 ^ 3)⟩
    verifyNodeStoragePoolCapacity := fun nodeId ssdDisks hddDisks rootfsDisks =>
      client.verifyNodeStoragePoolCapacity (ssdDisks.map (↑)) (hddDisks.map (↑))
        (rootfsDisks.map (↑)) nodeId }

/-- No node uses more than it has. -/
def Consistent (client : NodeClient) : Prop :=
  ∀ twinId capacity, client.statistics twinId = .ok capacity →
    capacity.used.mru ≤ capacity.total.mru ∧ capacity.used.sru ≤ capacity.total.sru ∧
      capacity.used.hru ≤ capacity.total.hru

/-- What a workload needs of the SSD of its node: the root file system of a machine, a disk. -/
def ssdNeed : WorkloadData → Nat
  | .zmachine d => d.size
  | .zmachinelight d => d.size
  | .zmount d => d.size
  | .volume d => d.size
  | _ => 0

def hddNeed : WorkloadData → Nat
  | .zdb d => d.size
  | _ => 0

def memoryNeed : WorkloadData → Nat
  | .zmachine d => d.computeCapacity.memory
  | .zmachinelight d => d.computeCapacity.memory
  | _ => 0

def total (need : WorkloadData → Nat) (ws : List Workload) : Nat := (ws.map fun w => need w.data).sum

def onNode (nodeId : Nat) (ts : List TwinDeployment) : List TwinDeployment :=
  ts.filter fun t => t.nodeId = nodeId

/-- Each node has what the workloads that are deployed or updated on it need. -/
def HasRoom (client : NodeClient) (ts : List TwinDeployment) : Prop :=
  ∀ nodeId free, client.getNodeFreeResources nodeId = .ok free →
    (total ssdNeed (plannedWorkloads (onNode nodeId ts)) : ℚ) ≤ free.sru ∧
      (total hddNeed (plannedWorkloads (onNode nodeId ts)) : ℚ) ≤ free.hru ∧
      (total memoryNeed (plannedWorkloads (onNode nodeId ts)) : ℚ) ≤ free.mru

/-- What a light machine needs of its node, which the check leaves out. -/
def lightNeed (need : WorkloadData → Nat) : WorkloadData → Nat
  | .zmachinelight d => need (.zmachinelight d)
  | _ => 0

/-- No light machine of the plan needs memory or a disk. -/
def NoLightNeed (ts : List TwinDeployment) : Prop :=
  ∀ w ∈ plannedWorkloads ts, lightNeed ssdNeed w.data = 0 ∧ lightNeed memoryNeed w.data = 0

/-- The type of each workload is that of its data. -/
def Typed (ts : List TwinDeployment) : Prop := ∀ t ∈ ts, ∀ w ∈ t.workloads, w.type = w.data.type

instance (ts : List TwinDeployment) : Decidable (NoLightNeed ts) :=
  inferInstanceAs (Decidable (∀ w ∈ plannedWorkloads ts,
    lightNeed ssdNeed w.data = 0 ∧ lightNeed memoryNeed w.data = 0))

instance (ts : List TwinDeployment) : Decidable (Typed ts) :=
  inferInstanceAs (Decidable (∀ t ∈ ts, ∀ w ∈ t.workloads, w.type = w.data.type))

/-! What is counted. -/

def countedSsd (ws : List Workload) : Nat :=
  (sizesOf [.zmachine] ws).sum + (sizesOf [.zmount, .volume] ws).sum

def countedMemory (ws : List Workload) : Nat :=
  ((ws.filter fun w => w.type = .zmachine).map fun w => dataMemory w.data).sum

section
variable {ws : List Workload} {ts : List TwinDeployment}

theorem sum_filter_cons (p : Workload → Bool) (f : Workload → Nat) (w : Workload)
    (ws : List Workload) : (((w :: ws).filter p).map f).sum =
      (if p w then f w else 0) + ((ws.filter p).map f).sum := by
  rw [List.filter_cons]
  split
  · rw [List.map_cons, List.sum_cons]
  · rw [zero_add]

theorem sizesOf_cons (types : List WorkloadTypes) (w : Workload) (ws : List Workload) :
    (sizesOf types (w :: ws)).sum =
      (if types.contains w.type then dataSize w.data else 0) + (sizesOf types ws).sum :=
  sum_filter_cons (fun w => types.contains w.type) (fun w => dataSize w.data) w ws

theorem countedMemory_cons (w : Workload) (ws : List Workload) :
    countedMemory (w :: ws) = (if decide (w.type = .zmachine) then dataMemory w.data else 0) +
      countedMemory ws :=
  sum_filter_cons (fun w => decide (w.type = .zmachine)) (fun w => dataMemory w.data) w ws

theorem total_cons (need : WorkloadData → Nat) (w : Workload) (ws : List Workload) :
    total need (w :: ws) = need w.data + total need ws := by
  unfold total
  rw [List.map_cons, List.sum_cons]

/-- What one workload needs, by its type. -/
theorem needs_eq (d : WorkloadData) :
    ssdNeed d = (if [WorkloadTypes.zmachine].contains d.type then dataSize d else 0) +
        (if [WorkloadTypes.zmount, .volume].contains d.type then dataSize d else 0) +
        lightNeed ssdNeed d ∧
      hddNeed d = (if [WorkloadTypes.zdb].contains d.type then dataSize d else 0) ∧
      memoryNeed d = (if decide (d.type = .zmachine) then dataMemory d else 0) +
        lightNeed memoryNeed d := by
  cases d <;> exact ⟨by simp [WorkloadData.type, ssdNeed, lightNeed, dataSize],
    by simp [WorkloadData.type, hddNeed, dataSize],
    by simp [WorkloadData.type, memoryNeed, lightNeed, dataMemory]⟩

/-- All that is needed is counted, but for the light machines. -/
theorem total_eq_counted (h : ∀ w ∈ ws, w.type = w.data.type) :
    total ssdNeed ws = countedSsd ws + total (lightNeed ssdNeed) ws ∧
      total hddNeed ws = (sizesOf [.zdb] ws).sum ∧
      total memoryNeed ws = countedMemory ws + total (lightNeed memoryNeed) ws := by
  induction ws with
  | nil => exact ⟨rfl, rfl, rfl⟩
  | cons w ws ih =>
    obtain ⟨hssd, hhdd, hmemory⟩ := ih fun w hw => h w (List.mem_cons_of_mem _ hw)
    obtain ⟨hown, hown', hown''⟩ := needs_eq w.data
    have htype := h w List.mem_cons_self
    unfold countedSsd at hssd ⊢
    simp only [total_cons, sizesOf_cons, countedMemory_cons, htype]
    omega

end

/-! When the check accepts. -/

theorem forM_eq_ok {α : Type} {f : α → Except GridError Unit} {l : List α} :
    l.forM f = .ok () ↔ ∀ x ∈ l, f x = .ok () := by
  induction l with
  | nil => exact iff_of_true rfl fun x hx => nomatch hx
  | cons x l ih =>
    change (f x >>= fun _ => l.forM f) = .ok () ↔ _
    rw [List.forall_mem_cons, ← ih]
    constructor
    · intro h
      obtain ⟨u, hx, hrest⟩ := exceptBind_eq_ok.mp h
      exact ⟨hx, hrest⟩
    · rintro ⟨hx, hrest⟩
      exact exceptBind_eq_ok.mpr ⟨(), hx, hrest⟩

theorem foldl_append_singletons {α : Type} (ts : List α) (g : List α) :
    ts.foldl (fun g t => g ++ [t]) g = g ++ ts := by
  induction ts generalizing g with
  | nil => exact (List.append_nil g).symm
  | cons t ts ih => rw [List.foldl_cons, ih, List.append_assoc, List.singleton_append]

/-- The plan is accepted when each node accepts its part of it. -/
theorem checkNodesCapacity_eq_ok {r : Resources} {ts : List TwinDeployment} :
    checkNodesCapacity r ts = .ok () ↔
      ∀ nodeId, checkNodeCapacity r nodeId (onNode nodeId ts) = .ok () := by
  unfold checkNodesCapacity
  dsimp only
  rw [forM_eq_ok]
  have hgroup : ∀ nodeId group, (nodeId, group) ∈ (ObjectMap.collect TwinDeployment.nodeId
      (fun t => [t]) (fun g t => g ++ [t]) ts).ordered arrayIndex ↔
      group ≠ [] ∧ onNode nodeId ts = group := by
    intro nodeId group
    have hfilter : (ts.filter fun t => t.nodeId = nodeId) = onNode nodeId ts := rfl
    rw [ObjectMap.mem_ordered, ObjectMap.get_collect, hfilter]
    cases onNode nodeId ts with
    | nil => exact iff_of_false nofun fun h => h.1 h.2.symm
    | cons t rest =>
      dsimp only
      rw [foldl_append_singletons, Option.some.injEq, List.singleton_append]
      exact ⟨fun h => ⟨h ▸ List.cons_ne_nil t rest, h⟩, fun h => h.2⟩
  constructor
  · intro h nodeId
    by_cases hnone : onNode nodeId ts = []
    · rw [hnone]
      rfl
    · exact h (nodeId, onNode nodeId ts) ((hgroup _ _).mpr ⟨hnone, rfl⟩)
  · rintro h ⟨nodeId, group⟩ hin
    obtain ⟨-, hgroup⟩ := (hgroup nodeId group).mp hin
    rw [← hgroup]
    exact h nodeId

section
variable {r : Resources} {client : NodeClient} {nodeId : Nat} {ts : List TwinDeployment}

theorem getNodeFreeResources_ok {free : NodeResources}
    (h : client.getNodeFreeResources nodeId = .ok free) :
    ∃ twinId capacity, client.getNodeTwinId nodeId = .ok twinId ∧
      client.statistics twinId = .ok capacity ∧ free.mru = capacity.total.mru - capacity.used.mru ∧
      free.sru = capacity.total.sru - capacity.used.sru ∧
      free.hru = capacity.total.hru - capacity.used.hru := by
  obtain ⟨twinId, htwin, h⟩ := exceptBind_eq_ok.mp h
  cases hstat : client.statistics twinId with
  | error e =>
    rw [hstat] at h
    cases h
  | ok capacity =>
    rw [hstat] at h
    cases h
    exact ⟨twinId, capacity, htwin, hstat, rfl, rfl, rfl⟩

theorem Consistent.nonneg (hc : Consistent client) {free : NodeResources}
    (h : client.getNodeFreeResources nodeId = .ok free) :
    0 ≤ free.mru ∧ 0 ≤ free.sru ∧ 0 ≤ free.hru := by
  obtain ⟨twinId, capacity, -, hstat, hmru, hsru, hhru⟩ := getNodeFreeResources_ok h
  obtain ⟨hm, hs, hh⟩ := hc twinId capacity hstat
  rw [hmru, hsru, hhru]
  exact ⟨sub_nonneg.mpr hm, sub_nonneg.mpr hs, sub_nonneg.mpr hh⟩

/-- What is asked for in bytes is compared as it is. -/
theorem g2b_div (bytes : ℚ) : g2b (bytes / 1024 ^ 3) = bytes := by
  unfold g2b
  exact div_mul_cancel₀ bytes (by norm_num)

theorem nodeHasResources_iff {free : NodeResources} {hru sru mru : Nat}
    (h : client.getNodeFreeResources nodeId = .ok free) :
    (resourcesOf r client).nodeHasResources nodeId hru sru mru = .ok true ↔
      (0 < mru → (mru : ℚ) ≤ free.mru) ∧ (0 < sru → (sru : ℚ) ≤ free.sru) ∧
        (0 < hru → (hru : ℚ) ≤ free.hru) := by
  have hlacks : ∀ (bytes : Nat) (free : ℚ),
      (some ((bytes : ℚ) / 1024 ^ 3)).any (fun size => decide (size > 0 ∧ free < g2b size)) = false ↔
        (0 < bytes → (bytes : ℚ) ≤ free) := by
    intro bytes free
    have hpos : (bytes : ℚ) / 1024 ^ 3 > 0 ↔ 0 < bytes := by
      rw [gt_iff_lt, div_pos_iff_of_pos_right (by norm_num), Nat.cast_pos]
    rw [Option.any_some, decide_eq_false_iff_not, hpos, g2b_div, not_and, not_lt]
  change (client.getNodeFreeResources nodeId >>= _) = _ ↔ _
  rw [h, ← hlacks, ← hlacks, ← hlacks]
  change Except.ok _ = Except.ok true ↔ _
  rw [Except.ok.injEq, Bool.not_eq_true', Bool.or_eq_false_iff, Bool.or_eq_false_iff, and_assoc]

/-- A node that gets workloads accepts them when it has what is counted and its pools take the
disks. -/
theorem checkNodeCapacity_eq_ok {r : Resources} : checkNodeCapacity r nodeId ts = .ok () ↔
    (plannedWorkloads ts).isEmpty = true ∨
      r.nodeHasResources nodeId (sizesOf [.zdb] (plannedWorkloads ts)).sum
          (countedSsd (plannedWorkloads ts)) (countedMemory (plannedWorkloads ts)) = .ok true ∧
        (sizesOf [.zmachine] (plannedWorkloads ts) = [] ∧
            sizesOf [.zmount, .volume] (plannedWorkloads ts) = [] ∧
            sizesOf [.zdb] (plannedWorkloads ts) = [] ∨
          r.verifyNodeStoragePoolCapacity nodeId (sizesOf [.zmount, .volume] (plannedWorkloads ts))
            (sizesOf [.zdb] (plannedWorkloads ts)) (sizesOf [.zmachine] (plannedWorkloads ts)) =
              .ok ()) := by
  unfold checkNodeCapacity
  dsimp only
  generalize plannedWorkloads ts = ws
  cases hempty : ws.isEmpty with
  | true => exact iff_of_true rfl (Or.inl rfl)
  | false =>
    simp only [Bool.not_false, if_true, Bool.true_and]
    change (r.nodeHasResources nodeId _ (countedSsd ws) (countedMemory ws) >>= _) = _ ↔ _
    cases r.nodeHasResources nodeId (sizesOf [.zdb] ws).sum (countedSsd ws) (countedMemory ws) with
    | error e => exact iff_of_false nofun fun h => by simp at h
    | ok has =>
      cases has with
      | false => exact iff_of_false nofun fun h => by simp at h
      | true =>
        have hdisks : (!(sizesOf [.zmachine] ws).isEmpty || !(sizesOf [.zmount, .volume] ws).isEmpty ||
            !(sizesOf [.zdb] ws).isEmpty) = true ↔ ¬(sizesOf [.zmachine] ws = [] ∧
              sizesOf [.zmount, .volume] ws = [] ∧ sizesOf [.zdb] ws = []) := by
          simp only [Bool.or_eq_true, Bool.not_eq_true', List.isEmpty_eq_false_iff, not_and_or,
            or_assoc, ne_eq]
        change (if _ then _ else _) = _ ↔ _
        split
        · rename_i hsome
          simp [hdisks.mp hsome]
        · rename_i hnone
          exact iff_of_true rfl (Or.inr ⟨rfl, Or.inl (not_not.mp fun h => hnone (hdisks.mpr h))⟩)

/-- A node that accepts has room for what is counted. -/
theorem checkNodeCapacity_room (hc : Consistent client)
    (h : checkNodeCapacity (resourcesOf r client) nodeId ts = .ok ()) {free : NodeResources}
    (hfree : client.getNodeFreeResources nodeId = .ok free) :
    (countedSsd (plannedWorkloads ts) : ℚ) ≤ free.sru ∧
      ((sizesOf [.zdb] (plannedWorkloads ts)).sum : ℚ) ≤ free.hru ∧
      (countedMemory (plannedWorkloads ts) : ℚ) ≤ free.mru := by
  obtain ⟨hmru, hsru, hhru⟩ := hc.nonneg hfree
  have hpositive : ∀ (n : Nat) (free : ℚ), 0 ≤ free → (0 < n → (n : ℚ) ≤ free) → (n : ℚ) ≤ free := by
    intro n free hnonneg hle
    rcases Nat.eq_zero_or_pos n with rfl | hpos
    · exact_mod_cast hnonneg
    · exact hle hpos
  by_cases hempty : (plannedWorkloads ts).isEmpty = true
  · rw [List.isEmpty_iff.mp hempty]
    exact ⟨by exact_mod_cast hsru, by exact_mod_cast hhru, by exact_mod_cast hmru⟩
  · have hhas := ((checkNodeCapacity_eq_ok.mp h).resolve_left hempty).1
    obtain ⟨hm, hs, hh⟩ := (nodeHasResources_iff hfree).mp hhas
    exact ⟨hpositive _ _ hsru hs, hpositive _ _ hhru hh, hpositive _ _ hmru hm⟩

end

/-! Nodes that have exactly what is counted. -/

/-- Each node has free what the check counts for it, and for each disk a pool that holds all of
them. -/
def exactClient (ts : List TwinDeployment) : NodeClient where
  getNodeTwinId := fun nodeId => .ok nodeId
  statistics := fun nodeId =>
    let ws := plannedWorkloads (onNode nodeId ts)
    .ok ⟨⟨0, countedMemory ws, (sizesOf [.zdb] ws).sum, countedSsd ws, 0⟩, ⟨0, 0, 0, 0, 0⟩⟩
  storagePools := fun nodeId =>
    let ws := plannedWorkloads (onNode nodeId ts)
    .ok ((sizesOf [.zmount, .volume] ws ++ sizesOf [.zmachine] ws).map (fun _ =>
        ⟨.SSD, double.above (countedSsd ws), 0⟩) ++
      (sizesOf [.zdb] ws).map fun _ => ⟨.HDD, double.above (sizesOf [.zdb] ws).sum, 0⟩)

section
variable {r : Resources} {ts : List TwinDeployment}

theorem exactClient_consistent (ts : List TwinDeployment) : Consistent (exactClient ts) := by
  intro twinId capacity h
  cases h
  exact ⟨Nat.cast_nonneg _, Nat.cast_nonneg _, Nat.cast_nonneg _⟩

theorem exactClient_verify (nodeId : Nat) :
    (exactClient ts).verifyNodeStoragePoolCapacity
      ((sizesOf [.zmount, .volume] (plannedWorkloads (onNode nodeId ts))).map (↑))
      ((sizesOf [.zdb] (plannedWorkloads (onNode nodeId ts))).map (↑))
      ((sizesOf [.zmachine] (plannedWorkloads (onNode nodeId ts))).map (↑)) nodeId = .ok () := by
  generalize hws : plannedWorkloads (onNode nodeId ts) = ws
  -- every disk is at most the sum of all, and that is less than a pool
  have hroom : ∀ (sizes all : List Nat), sizes.sum ≤ all.sum → ∀ disk ∈ sizes.map ((↑) : Nat → ℚ),
      disk ≤ (all.sum : ℚ) := by
    intro sizes all hle disk hdisk
    obtain ⟨size, hsize, rfl⟩ := List.mem_map.mp hdisk
    exact_mod_cast (List.le_sum_of_mem hsize).trans hle
  have hpools : (exactClient ts).poolsOf nodeId =
      .ok ((sizesOf [.zmount, .volume] ws ++ sizesOf [.zmachine] ws).map (fun _ =>
          ⟨.SSD, double.above (countedSsd ws), 0⟩) ++
        (sizesOf [.zdb] ws).map fun _ => ⟨.HDD, double.above (sizesOf [.zdb] ws).sum, 0⟩) := by
    rw [← hws]
    rfl
  have hall : ((sizesOf [.zmount, .volume] ws ++ sizesOf [.zmachine] ws).sum : ℚ) =
      countedSsd ws := by
    rw [List.sum_append, countedSsd, add_comm]
  obtain ⟨hssdSizes, hhddSizes⟩ := poolSizes_above
    (sizesOf [.zmount, .volume] ws ++ sizesOf [.zmachine] ws) (sizesOf [.zdb] ws) (countedSsd ws)
    (sizesOf [.zdb] ws).sum rfl
  refine verifyNodeStoragePoolCapacity_of_enough (countedSsd ws) _ hpools ?_
    (hroom _ _ le_rfl) ?_ ?_
  · rw [← List.map_append, ← hall]
    exact hroom _ _ le_rfl
  · rw [hssdSizes, ← List.map_append, countP_above, List.length_map]
  · rw [hhddSizes, countP_above, List.length_map]

theorem exactClient_free (nodeId : Nat) : ∃ free, (exactClient ts).getNodeFreeResources nodeId =
    .ok free ∧ free.mru = countedMemory (plannedWorkloads (onNode nodeId ts)) ∧
      free.sru = countedSsd (plannedWorkloads (onNode nodeId ts)) ∧
      free.hru = (sizesOf [.zdb] (plannedWorkloads (onNode nodeId ts))).sum :=
  ⟨_, rfl, sub_zero _, sub_zero _, sub_zero _⟩

theorem exactClient_accepts : checkNodesCapacity (resourcesOf r (exactClient ts)) ts = .ok () := by
  refine checkNodesCapacity_eq_ok.mpr fun nodeId => checkNodeCapacity_eq_ok.mpr (Or.inr ⟨?_, ?_⟩)
  · obtain ⟨free, hfree, hmru, hsru, hhru⟩ := @exactClient_free ts nodeId
    rw [nodeHasResources_iff hfree, hmru, hsru, hhru]
    exact ⟨fun _ => le_rfl, fun _ => le_rfl, fun _ => le_rfl⟩
  · exact Or.inr (exactClient_verify nodeId)

theorem mem_planned_onNode {w : Workload} {nodeId : Nat} :
    w ∈ plannedWorkloads (onNode nodeId ts) → w ∈ plannedWorkloads ts := by
  intro hw
  obtain ⟨t, ht, hin⟩ := List.mem_flatMap.mp hw
  exact List.mem_flatMap.mpr ⟨t, (List.mem_filter.mp ht).1, hin⟩

theorem exists_node_of_planned {w : Workload} (hw : w ∈ plannedWorkloads ts) :
    ∃ nodeId, w ∈ plannedWorkloads (onNode nodeId ts) := by
  obtain ⟨t, ht, hin⟩ := List.mem_flatMap.mp hw
  exact ⟨t.nodeId, List.mem_flatMap.mpr ⟨t, List.mem_filter.mpr ⟨ht, by simp⟩, hin⟩⟩

theorem Typed.planned (h : Typed ts) {w : Workload} (hw : w ∈ plannedWorkloads ts) :
    w.type = w.data.type := by
  obtain ⟨t, ht, hin⟩ := List.mem_flatMap.mp hw
  cases hop : t.operation with
  | deploy =>
    rw [hop] at hin
    exact h t ht w hin
  | update =>
    rw [hop] at hin
    exact h t ht w (List.mem_filter.mp hin).1
  | delete =>
    rw [hop] at hin
    cases hin

theorem total_eq_zero_iff {need : WorkloadData → Nat} {ws : List Workload} :
    total need ws = 0 ↔ ∀ w ∈ ws, need w.data = 0 := by
  unfold total
  rw [List.sum_eq_zero_iff]
  simp

/-- A plan is accepted only by nodes that have room for it exactly when none of its light machines
needs memory or a disk. -/
theorem checkNodesCapacity_hasRoom_iff (htyped : Typed ts) :
    (∀ client, Consistent client → checkNodesCapacity (resourcesOf r client) ts = .ok () →
      HasRoom client ts) ↔ NoLightNeed ts := by
  have hcounted : ∀ nodeId, _ := fun nodeId => total_eq_counted
    fun w (hw : w ∈ plannedWorkloads (onNode nodeId ts)) => htyped.planned (mem_planned_onNode hw)
  constructor
  · intro h w hw
    obtain ⟨nodeId, hnode⟩ := exists_node_of_planned hw
    obtain ⟨free, hfree, hmru, hsru, -⟩ := @exactClient_free ts nodeId
    obtain ⟨hs, -, hm⟩ := h _ (exactClient_consistent ts) exactClient_accepts nodeId free hfree
    obtain ⟨hssd, -, hmemory⟩ := hcounted nodeId
    rw [hsru, Nat.cast_le, hssd] at hs
    rw [hmru, Nat.cast_le, hmemory] at hm
    exact ⟨total_eq_zero_iff.mp (by omega) w hnode, total_eq_zero_iff.mp (by omega) w hnode⟩
  · intro hnone client hclient haccept nodeId free hfree
    have hroom := checkNodeCapacity_room hclient (checkNodesCapacity_eq_ok.mp haccept nodeId) hfree
    obtain ⟨hssd, hhdd, hmemory⟩ := hcounted nodeId
    have hlight : total (lightNeed ssdNeed) (plannedWorkloads (onNode nodeId ts)) = 0 :=
      total_eq_zero_iff.mpr fun w hw => (hnone w (mem_planned_onNode hw)).1
    have hlight' : total (lightNeed memoryNeed) (plannedWorkloads (onNode nodeId ts)) = 0 :=
      total_eq_zero_iff.mpr fun w hw => (hnone w (mem_planned_onNode hw)).2
    rw [hssd, hlight, add_zero, hhdd, hmemory, hlight', add_zero]
    exact hroom

end

def capacityDeploy (data : WorkloadData) : TwinDeployment :=
  .make ⟨0, 7, none, 0, "", "", [⟨0, "vm", data.type, data, "", "", none⟩], ⟨[], 1, []⟩⟩ .deploy 0 11
    "" none

def twoGBMachine : WorkloadData := .zmachine
  ⟨"https://hub.grid.tf/vm.flist", ⟨"", [], false, none⟩, 10 * 1024 ^ 3, ⟨1, 2 * 1024 ^ 3⟩, [], "/init",
    ⟨[], List.nodup_nil⟩, false, none⟩

def twoGBLightMachine : WorkloadData := .zmachinelight
  ⟨"https://hub.grid.tf/vm.flist", ⟨[], none⟩, 10 * 1024 ^ 3, ⟨1, 2 * 1024 ^ 3⟩, [], "/init",
    ⟨[], List.nodup_nil⟩, false, none⟩

/-- A farm for every node, with public ips left. -/
def anyResources : Resources :=
  ⟨fun _ _ _ _ => .ok true, fun _ _ _ _ => .ok (), fun _ => .ok (some 1), fun _ => .ok 10⟩

theorem twoGBMachine_hasRoom :
    checkNodesCapacity (resourcesOf anyResources (exactClient [capacityDeploy twoGBMachine]))
        [capacityDeploy twoGBMachine] = .ok () ∧
      HasRoom (exactClient [capacityDeploy twoGBMachine]) [capacityDeploy twoGBMachine] := by
  have haccepts : checkNodesCapacity
      (resourcesOf anyResources (exactClient [capacityDeploy twoGBMachine]))
      [capacityDeploy twoGBMachine] = .ok () := exactClient_accepts
  exact ⟨haccepts, (checkNodesCapacity_hasRoom_iff (by decide)).mpr (by decide) _
    (exactClient_consistent _) haccepts⟩

/-- A node without memory and disks is given a light machine. -/
theorem twoGBLightMachine_noRoom : ¬∀ (r : Resources) (client : NodeClient)
    (ts : List TwinDeployment), Typed ts → Consistent client →
      checkNodesCapacity (resourcesOf r client) ts = .ok () → HasRoom client ts := by
  intro h
  have hroom := h anyResources (exactClient [capacityDeploy twoGBLightMachine])
    [capacityDeploy twoGBLightMachine] (by decide) (exactClient_consistent _) exactClient_accepts 11
  obtain ⟨-, -, hmemory⟩ := hroom _ rfl
  exact absurd hmemory (by decide +kernel)

end ThreefoldSdk.HighLevel
