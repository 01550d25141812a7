import ThreefoldSdk.Lib.KeepFirst

/-! The machines of a listing with the workers of a CapRover cluster under its leader
(`mergeCaproverDeployments` in `utils/deploy_helpers.ts`). -/

namespace ThreefoldSdk.Playground
open KeepFirst

/-- `ref` tells objects apart; `mode` is `env["SWM_NODE_MODE"]`. -/
structure Machine where
  ref : ℕ
  projectName : Option String
  mode : Option String
deriving DecidableEq, Repr

/-- The lower case letters of `ProjectName.Caprover` are in the text of the project name. -/
def isCaprover (vm : Machine) : Bool :=
  decide ("caprover".toList <:+: (vm.projectName.getD "undefined").toLower.toList)

def isLeader (vm : Machine) : Bool := isCaprover vm && decide (vm.mode = some "leader")

def isWorker (vm : Machine) : Bool := isCaprover vm && decide (vm.mode = some "worker")

/-- The variables of the loop over one cluster. The field `workers` of a machine refers to an array
of workers by its number; the array of this cluster is `clusterWorkers`. -/
structure Visit where
  vms : List Machine
  workers : Machine → Option ℕ
  clusterLeader : Option Machine
  clusterWorkers : List Machine

/-- The leader of the cluster becomes the machine, or the machine one of the workers. -/
def collect (vm : Machine) (s : Visit) : Visit :=
  if vm.mode = some "leader" then { s with clusterLeader := some vm }
  else if vm.mode = some "worker" then { s with clusterWorkers := s.clusterWorkers ++ [vm] }
  else s

def showLeader (k : ℕ) (s : Visit) : Visit :=
  match s.clusterLeader with
  | none => s
  -- the leader refers to the array of this cluster from now on, also when it was shown before
  | some leader =>
    { s with
      vms := insertNew id s.vms leader
      workers := Function.update s.workers leader (some k) }

/-- A round of the loop; `k` is the number of the array of this cluster. -/
def visit (k : ℕ) (s : Visit) (vm : Machine) : Visit :=
  if !isCaprover vm then { s with vms := insertNew id s.vms vm }
  else showLeader k (collect vm s)

/-- The machines so far, and the arrays that their workers are in. -/
structure Merged where
  vms : List Machine
  workers : Machine → Option ℕ
  arrays : List (List Machine)

def visitCluster (s : Merged) (cluster : List Machine) : Merged :=
  let r := cluster.foldl (visit s.arrays.length) ⟨s.vms, s.workers, none, []⟩
  ⟨r.vms, r.workers, s.arrays ++ [r.clusterWorkers]⟩

def mergeCaproverDeployments (clusters : List (List Machine)) : Merged :=
  clusters.foldl visitCluster ⟨[], fun _ => none, []⟩

/-- The field `workers` of a machine in the result. -/
def Merged.workersOf (s : Merged) (vm : Machine) : List Machine :=
  ((s.workers vm).bind fun k => s.arrays[k]?).getD []

def Merged.shown (s : Merged) (vm : Machine) : ℕ :=
  s.vms.count vm + (s.vms.map fun leader => (s.workersOf leader).count vm).sum

/-- Every machine is shown once, at the top or under a leader of a cluster it is in. -/
structure Grouped (clusters : List (List Machine)) (s : Merged) : Prop where
  once : ∀ vm ∈ clusters.flatten, s.shown vm = 1
  place : ∀ vm ∈ clusters.flatten, vm ∈ s.vms ∨ ∃ cluster ∈ clusters, vm ∈ cluster ∧
    ∃ leader ∈ cluster, isLeader leader = true ∧ leader ∈ s.vms ∧ vm ∈ s.workersOf leader

def isTop (vm : Machine) : Bool := !isCaprover vm || isLeader vm

def lastCluster (clusters : List (List Machine)) (leader : Machine) : List Machine :=
  ((clusters.filter fun c => decide (leader ∈ c)).getLast?).getD []

/-- The leaders of all clusters, each once. -/
def allLeaders (clusters : List (List Machine)) : List Machine :=
  (clusters.flatten.filter isLeader).dedup

/-- Every CapRover machine that is no leader is a worker, listed once in the last clusters of all
leaders. -/
def OneLeader (clusters : List (List Machine)) : Prop :=
  ∀ vm ∈ clusters.flatten, isTop vm = false → isWorker vm = true ∧
    ((allLeaders clusters).map fun leader => (lastCluster clusters leader).count vm).sum = 1

section
variable {vm leader : Machine} {cluster : List Machine} {clusters : List (List Machine)} {s : Visit}
  {k : ℕ}

theorem isTop_of_leader (h : isLeader vm = true) : isTop vm = true := by
  unfold isTop
  rw [h, Bool.or_true]

theorem not_worker_of_top (h : isTop vm = true) : isWorker vm = false := by
  unfold isTop isLeader at h
  unfold isWorker
  cases hcap : isCaprover vm with
  | false => rfl
  | true =>
    rw [hcap, Bool.not_true, Bool.false_or, Bool.true_and, decide_eq_true_eq] at h
    rw [h]
    rfl

/-- The leader so far is shown, and refers to the array of this cluster. -/
def LeaderShown (k : ℕ) (s : Visit) : Prop :=
  ∀ leader ∈ s.clusterLeader, leader ∈ s.vms ∧ s.workers leader = some k

theorem mem_insertNew {vms : List Machine} {x : Machine} :
    x ∈ insertNew id vms vm ↔ x ∈ vms ∨ x = vm := by
  have h : x ∈ (insertNew id vms vm).map id ↔ x ∈ vms.map id ∨ x = vm := mem_keys_insertNew
  rwa [List.map_id, List.map_id] at h

theorem showLeader_eq (h : LeaderShown k s) : showLeader k s = s := by
  obtain ⟨vms, workers, clusterLeader, clusterWorkers⟩ := s
  cases clusterLeader with
  | none => rfl
  | some leader =>
    obtain ⟨hmem, hworkers⟩ := h leader rfl
    have hkept : insertNew id vms leader = vms := if_pos (by rwa [List.map_id])
    have hsame : Function.update workers leader (some k) = workers :=
      hworkers ▸ Function.update_eq_self leader workers
    change Visit.mk (insertNew id vms leader) (Function.update workers leader (some k)) _ _ = _
    rw [hkept, hsame]

/-- What a round does: a machine of the top is shown, a leader refers to the array of the cluster,
and a worker goes to it. -/
structure Visited (k : ℕ) (vm : Machine) (s s' : Visit) : Prop where
  vms : s'.vms = if isTop vm = true then insertNew id s.vms vm else s.vms
  workers : s'.workers =
    if isLeader vm = true then Function.update s.workers vm (some k) else s.workers
  array : s'.clusterWorkers =
    if isWorker vm = true then s.clusterWorkers ++ [vm] else s.clusterWorkers
  leader : LeaderShown k s'

theorem visited_visit (h : LeaderShown k s) : Visited k vm s (visit k s vm) := by
  cases hcap : isCaprover vm with
  | false =>
    have htop : isTop vm = true := by
      unfold isTop
      rw [hcap, Bool.not_false, Bool.true_or]
    have hleader : isLeader vm = false := by
      unfold isLeader
      rw [hcap, Bool.false_and]
    unfold visit
    rw [hcap]
    refine ⟨(if_pos htop).symm, ?_, ?_, fun leader hin => ?_⟩
    · rw [hleader]
      rfl
    · rw [not_worker_of_top htop]
      rfl
    · obtain ⟨hmem, hworkers⟩ := h leader hin
      exact ⟨mem_insertNew.mpr (Or.inl hmem), hworkers⟩
  | true =>
    unfold visit
    rw [hcap]
    change Visited k vm s (showLeader k (collect vm s))
    by_cases hmode : vm.mode = some "leader"
    · have hleader : isLeader vm = true := by
        unfold isLeader
        rw [hcap, Bool.true_and, decide_eq_true hmode]
      have htop := isTop_of_leader hleader
      have hcollect : collect vm s = { s with clusterLeader := some vm } := if_pos hmode
      rw [hcollect]
      refine ⟨(if_pos htop).symm, (if_pos hleader).symm, ?_, fun leader hin => ?_⟩
      · rw [not_worker_of_top htop]
        rfl
      · obtain rfl := Option.some.inj hin
        exact ⟨mem_insertNew.mpr (Or.inr rfl), Function.update_self _ _ _⟩
    · have hleader : isLeader vm = false := by
        unfold isLeader
        rw [decide_eq_false hmode, Bool.and_false]
      have htop : isTop vm = false := by
        unfold isTop
        rw [hcap, hleader]
        rfl
      have hworker : isWorker vm = decide (vm.mode = some "worker") := by
        unfold isWorker
        rw [hcap, Bool.true_and]
      have hcollect : collect vm s =
          { s with clusterWorkers :=
              if isWorker vm = true then s.clusterWorkers ++ [vm] else s.clusterWorkers } := by
        unfold collect
        rw [if_neg hmode, hworker]
        by_cases hw : vm.mode = some "worker"
        · rw [if_pos hw, if_pos (decide_eq_true hw)]
        · rw [if_neg hw, if_neg (fun hc => hw (of_decide_eq_true hc))]
      have hshown : LeaderShown k (collect vm s) := by
        rw [hcollect]
        exact h
      rw [showLeader_eq hshown, hcollect]
      refine ⟨?_, ?_, rfl, hcollect ▸ hshown⟩
      · rw [htop]
        rfl
      · rw [hleader]
        rfl

theorem visit_run (h : LeaderShown k s) :
    (cluster.foldl (visit k) s).vms = insertAll id s.vms (cluster.filter isTop) ∧
      (cluster.foldl (visit k) s).clusterWorkers = s.clusterWorkers ++ cluster.filter isWorker ∧
      ∀ m, (cluster.foldl (visit k) s).workers m =
        if m ∈ cluster ∧ isLeader m = true then some k else s.workers m := by
  induction cluster generalizing s with
  | nil =>
    refine ⟨rfl, (List.append_nil _).symm, fun m => ?_⟩
    exact (if_neg fun hm => absurd hm.1 List.not_mem_nil).symm
  | cons vm cluster ih =>
    have hstep : Visited k vm s (visit k s vm) := visited_visit h
    obtain ⟨hvms, harray, hworkers⟩ := ih hstep.leader
    rw [List.foldl_cons]
    refine ⟨?_, ?_, fun m => ?_⟩
    · rw [hvms, hstep.vms, List.filter_cons]
      split_ifs
      · rfl
      · rfl
    · rw [harray, hstep.array, List.filter_cons]
      split_ifs
      · rw [List.append_assoc, List.singleton_append]
      · rfl
    · rw [hworkers, hstep.workers]
      by_cases hin : m ∈ cluster ∧ isLeader m = true
      · rw [if_pos hin, if_pos ⟨List.mem_cons_of_mem _ hin.1, hin.2⟩]
      · rw [if_neg hin]
        by_cases hself : m = vm
        · subst hself
          by_cases hlead : isLeader m = true
          · rw [if_pos hlead, if_pos ⟨List.mem_cons_self, hlead⟩, Function.update_self]
          · rw [if_neg hlead, if_neg fun hboth => hlead hboth.2]
        · have hout : ¬(m ∈ vm :: cluster ∧ isLeader m = true) := by
            rintro ⟨hmem, hlead⟩
            exact hin ⟨(List.mem_cons.mp hmem).resolve_left hself, hlead⟩
          rw [if_neg hout]
          split_ifs
          · rw [Function.update_of_ne hself]
          · rfl

/-- After the clusters: the machines of the top, each once, and the workers of each leader are those
of its last cluster. -/
structure MergedAll (clusters : List (List Machine)) (s : Merged) : Prop where
  vms : s.vms = insertAll id [] (clusters.flatten.filter isTop)
  arrays : s.arrays = clusters.map (·.filter isWorker)
  known : ∀ m, (s.workers m).isSome = true ↔ m ∈ clusters.flatten ∧ isLeader m = true
  last : ∀ m, isLeader m = true → ∀ k ∈ s.workers m,
    clusters[k]? = some (lastCluster clusters m)

theorem lastCluster_append (m : Machine) :
    lastCluster (clusters ++ [cluster]) m =
      if m ∈ cluster then cluster else lastCluster clusters m := by
  unfold lastCluster
  rw [List.filter_append, List.filter_singleton]
  split_ifs with h
  · rw [decide_eq_true h, cond_true, List.getLast?_concat]
    rfl
  · rw [decide_eq_false h, cond_false, List.append_nil]

theorem mem_lastCluster (h : vm ∈ clusters.flatten) :
    lastCluster clusters vm ∈ clusters ∧ vm ∈ lastCluster clusters vm := by
  obtain ⟨c, hc, hvm⟩ := List.mem_flatten.mp h
  have hin : c ∈ clusters.filter fun c => decide (vm ∈ c) :=
    List.mem_filter.mpr ⟨hc, decide_eq_true hvm⟩
  have hne := List.ne_nil_of_mem hin
  have hlast : lastCluster clusters vm = (clusters.filter fun c => decide (vm ∈ c)).getLast hne := by
    unfold lastCluster
    rw [List.getLast?_eq_some_getLast hne]
    rfl
  rw [hlast]
  obtain ⟨hmem, hown⟩ := List.mem_filter.mp (List.getLast_mem hne)
  exact ⟨hmem, of_decide_eq_true hown⟩

theorem mergedAll (clusters : List (List Machine)) :
    MergedAll clusters (mergeCaproverDeployments clusters) := by
  induction clusters using List.reverseRecOn with
  | nil => exact ⟨rfl, rfl, fun m => iff_of_false Bool.false_ne_true fun h =>
      absurd h.1 List.not_mem_nil, fun m _ k hk => nomatch hk⟩
  | append_singleton cs c ih =>
    have hrun : mergeCaproverDeployments (cs ++ [c]) =
        visitCluster (mergeCaproverDeployments cs) c := by
      unfold mergeCaproverDeployments
      rw [List.foldl_append, List.foldl_cons, List.foldl_nil]
    generalize mergeCaproverDeployments cs = s at ih hrun
    have hlength : s.arrays.length = cs.length := by rw [ih.arrays, List.length_map]
    have hnone : LeaderShown s.arrays.length ⟨s.vms, s.workers, none, []⟩ :=
      fun leader h => nomatch h
    obtain ⟨hvms, harray, hworkers⟩ := visit_run (s := ⟨s.vms, s.workers, none, []⟩) hnone
    rw [hrun]
    refine ⟨?_, ?_, fun m => ?_, fun m hlead k hk => ?_⟩
    · rw [List.flatten_append, List.flatten_singleton, List.filter_append, insertAll_append,
        ← ih.vms]
      exact hvms
    · rw [List.map_append, List.map_singleton, ← ih.arrays]
      exact congrArg (fun a => s.arrays ++ [a]) harray
    · rw [List.flatten_append, List.flatten_singleton, List.mem_append]
      change (Visit.workers _ m).isSome = true ↔ _
      rw [hworkers]
      split_ifs with hin
      · exact iff_of_true rfl ⟨Or.inr hin.1, hin.2⟩
      · refine (ih.known m).trans ⟨fun h => ⟨Or.inl h.1, h.2⟩, fun h => ⟨?_, h.2⟩⟩
        exact h.1.resolve_right fun hc => hin ⟨hc, h.2⟩
    -- a leader of the new cluster refers to its array, and the others to the one they did
    · change k ∈ Visit.workers _ m at hk
      rw [hworkers] at hk
      rw [lastCluster_append]
      by_cases hin : m ∈ c
      · rw [if_pos ⟨hin, hlead⟩, Option.mem_some_iff] at hk
        rw [if_pos hin, ← hk, hlength, List.getElem?_concat_length]
      · rw [if_neg fun hboth => hin hboth.1] at hk
        have hold := ih.last m hlead k hk
        obtain ⟨hlt, -⟩ := List.getElem?_eq_some_iff.mp hold
        rw [if_neg hin, List.getElem?_append_left hlt, hold]

theorem mem_vms {s : Merged} (h : MergedAll clusters s) :
    vm ∈ s.vms ↔ vm ∈ clusters.flatten ∧ isTop vm = true := by
  have hmem : vm ∈ (insertAll id [] (clusters.flatten.filter isTop)).map id ↔
      vm ∈ ([] : List Machine).map id ∨ vm ∈ (clusters.flatten.filter isTop).map id :=
    mem_keys_insertAll
  rw [List.map_id, List.map_id, List.map_id, ← h.vms] at hmem
  rw [hmem, or_iff_right List.not_mem_nil, List.mem_filter]

theorem nodup_vms {s : Merged} (h : MergedAll clusters s) : s.vms.Nodup := by
  have hnodup : ((insertAll id [] (clusters.flatten.filter isTop)).map id).Nodup :=
    nodup_insertAll List.nodup_nil
  rwa [List.map_id, ← h.vms] at hnodup

theorem workersOf_eq {s : Merged} (h : MergedAll clusters s) :
    s.workersOf vm = if vm ∈ clusters.flatten ∧ isLeader vm = true then
      (lastCluster clusters vm).filter isWorker else [] := by
  unfold Merged.workersOf
  split_ifs with hin
  · obtain ⟨k, hk⟩ := Option.isSome_iff_exists.mp ((h.known vm).mpr hin)
    rw [hk, Option.bind_some, h.arrays, List.getElem?_map, h.last vm hin.2 k hk]
    rfl
  · have hnone : s.workers vm = none :=
      Option.not_isSome_iff_eq_none.mp fun hsome => hin ((h.known vm).mp hsome)
    rw [hnone]
    rfl

theorem sum_map_filter {α : Type} (p : α → Bool) (f : α → ℕ) (xs : List α)
    (h : ∀ x ∈ xs, p x = false → f x = 0) : (xs.map f).sum = ((xs.filter p).map f).sum := by
  induction xs with
  | nil => rfl
  | cons x xs ih =>
    have hrest := ih fun y hy => h y (List.mem_cons_of_mem _ hy)
    rw [List.map_cons, List.sum_cons, hrest]
    cases hp : p x with
    | true => rw [List.filter_cons_of_pos hp, List.map_cons, List.sum_cons]
    | false =>
      rw [List.filter_cons_of_neg (by rw [hp]; decide), h x List.mem_cons_self hp, zero_add]

/-- Under the leaders a machine is shown as often as the last clusters list it as a worker. -/
theorem sum_workers {s : Merged} (h : MergedAll clusters s) :
    (s.vms.map fun leader => (s.workersOf leader).count vm).sum =
      if isWorker vm = true then
        ((allLeaders clusters).map fun leader => (lastCluster clusters leader).count vm).sum
      else 0 := by
  have hleaders : (s.vms.filter isLeader).Perm (allLeaders clusters) := by
    refine (List.perm_ext_iff_of_nodup ((nodup_vms h).filter _) (List.nodup_dedup _)).mpr fun x => ?_
    rw [List.mem_dedup, List.mem_filter, List.mem_filter, mem_vms h, and_assoc]
    exact and_congr_right fun _ => ⟨fun hx => hx.2, fun hx => ⟨isTop_of_leader hx, hx⟩⟩
  have hother : ∀ x ∈ s.vms, isLeader x = false → (s.workersOf x).count vm = 0 := by
    intro x _ hx
    rw [workersOf_eq h, if_neg fun hboth => Bool.false_ne_true (hx.symm.trans hboth.2)]
    rfl
  have hlisted : ∀ x ∈ allLeaders clusters, (s.workersOf x).count vm =
      if isWorker vm = true then (lastCluster clusters x).count vm else 0 := by
    intro x hx
    obtain ⟨hin, hlead⟩ := List.mem_filter.mp (List.mem_dedup.mp hx)
    rw [workersOf_eq h, if_pos ⟨hin, hlead⟩]
    split_ifs with hw
    · exact List.count_filter hw
    · refine List.count_eq_zero.mpr fun hmem => hw (List.mem_filter.mp hmem).2
  rw [sum_map_filter isLeader _ _ hother, (hleaders.map _).sum_eq, List.map_congr_left hlisted]
  split_ifs
  · rfl
  · rw [List.map_const', List.sum_replicate, smul_zero]

/-- Every machine is shown once exactly when each one that belongs under a leader is a worker and
listed once in the last clusters of the leaders. -/
theorem mergeCaproverDeployments_grouped_iff (clusters : List (List Machine)) :
    Grouped clusters (mergeCaproverDeployments clusters) ↔ OneLeader clusters := by
  have h := mergedAll clusters
  generalize mergeCaproverDeployments clusters = s at h
  have hcount : ∀ vm ∈ clusters.flatten,
      s.vms.count vm = if isTop vm = true then 1 else 0 := by
    intro vm hvm
    rw [(nodup_vms h).count]
    exact if_congr ((mem_vms h).trans (and_iff_right hvm)) rfl rfl
  constructor
  · intro hgrouped vm hvm htop
    have hone := hgrouped.once vm hvm
    unfold Merged.shown at hone
    rw [hcount vm hvm, sum_workers h, if_neg (Bool.eq_false_iff.mp htop), zero_add] at hone
    split_ifs at hone with hw
    exact ⟨hw, hone⟩
  · intro hleader
    constructor
    · intro vm hvm
      unfold Merged.shown
      rw [hcount vm hvm, sum_workers h]
      cases htop : isTop vm with
      | true => rw [not_worker_of_top htop]; rfl
      | false =>
        obtain ⟨hw, hone⟩ := hleader vm hvm htop
        rw [hw, if_pos rfl, hone]
        rfl
    · intro vm hvm
      cases htop : isTop vm with
      | true => exact Or.inl ((mem_vms h).mpr ⟨hvm, htop⟩)
      | false =>
        right
        obtain ⟨hw, hone⟩ := hleader vm hvm htop
        obtain ⟨leader, hin, hlists⟩ : ∃ leader ∈ allLeaders clusters,
            vm ∈ lastCluster clusters leader := by
          by_contra hnone
          have hzero : ∀ n ∈ (allLeaders clusters).map
              fun leader => (lastCluster clusters leader).count vm, n = 0 := by
            intro n hn
            obtain ⟨leader, hin, rfl⟩ := List.mem_map.mp hn
            exact List.count_eq_zero.mpr fun hlists => hnone ⟨leader, hin, hlists⟩
          rw [List.sum_eq_zero hzero] at hone
          exact zero_ne_one hone
        obtain ⟨hflat, hlead⟩ := List.mem_filter.mp (List.mem_dedup.mp hin)
        obtain ⟨hcluster, hown⟩ := mem_lastCluster hflat
        refine ⟨_, hcluster, hlists, leader, hown, hlead,
          (mem_vms h).mpr ⟨hflat, isTop_of_leader hlead⟩, ?_⟩
        rw [workersOf_eq h, if_pos ⟨hflat, hlead⟩]
        exact List.mem_filter.mpr ⟨hlists, hw⟩

end

def caproverMachine (ref : ℕ) (mode : String) : Machine := ⟨ref, some "CapRover/shop", some mode⟩

/-- A worker without the leader of its cluster is not shown. -/
theorem workerAlone_not_grouped :
    ¬Grouped [[caproverMachine 1 "worker"]]
      (mergeCaproverDeployments [[caproverMachine 1 "worker"]]) := by
  intro h
  have hone := h.once (caproverMachine 1 "worker") (by decide)
  revert hone
  decide +kernel

end ThreefoldSdk.Playground
