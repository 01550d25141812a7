import ThreefoldSdk.HighLevel.CancelBatch

/-! `TwinDeploymentHandler.waitForDeployment` returns only when its node reports the deployment as
it should be. -/

namespace ThreefoldSdk.HighLevel
open Zos Primitives TfChain Frame

/-- The node reports the workload as running, in the version of the target. -/
def IsReady (w target : Workload) : Prop :=
  (∃ r, w.result = some r ∧ r.state = .ok) ∧ w.version = target.version

/-- The workloads reported have the names of the targets, and each is as its target is. -/
structure IsUp (targets reported : List Workload) : Prop where
  names : (reported.map (·.name)).Perm (targets.map (·.name))
  ready : ∀ w ∈ reported, ∀ target ∈ targets, target.name = w.name → IsReady w target

section
variable {targets reported : List Workload} {nodeId contractId timeout : Nat}

theorem checkWorkload_eq_true {w target : Workload} (h : checkWorkload w target nodeId = .ok true) :
    IsReady w target := by
  unfold checkWorkload at h
  split at h
  · cases h
  · rename_i r hr
    split_ifs at h
    obtain ⟨hstate, hversion⟩ := of_decide_eq_true (Except.ok.inj h)
    exact ⟨⟨r, hr, hstate⟩, hversion⟩

/-- The workload is counted as ready. -/
def Counted (targets : List Workload) (w : Workload) : Prop :=
  ∃ target, targets.find? (fun t => t.name = w.name) = some target ∧ IsReady w target

theorem readyWorkloads_cons {w : Workload} {ws : List Workload} {n : Nat}
    (h : readyWorkloads targets nodeId (w :: ws) = .ok n) :
    ∃ m, readyWorkloads targets nodeId ws = .ok m ∧ (n = m ∨ n = m + 1 ∧ Counted targets w) := by
  rw [readyWorkloads] at h
  cases hfind : targets.find? fun t => t.name = w.name with
  | none =>
    rw [hfind] at h
    obtain ⟨ready, hready, hrest⟩ := exceptBind_eq_ok.mp h
    obtain ⟨m, hm, hrest⟩ := exceptBind_eq_ok.mp hrest
    cases hready
    cases hrest
    exact ⟨m, hm, Or.inl rfl⟩
  | some target =>
    rw [hfind] at h
    obtain ⟨ready, hready, hrest⟩ := exceptBind_eq_ok.mp h
    obtain ⟨m, hm, hrest⟩ := exceptBind_eq_ok.mp hrest
    cases ready with
    | false =>
      cases hrest
      exact ⟨m, hm, Or.inl rfl⟩
    | true =>
      cases hrest
      exact ⟨m, hm, Or.inr ⟨rfl, target, hfind, checkWorkload_eq_true hready⟩⟩

/-- No workload is counted twice, so a full count is one of each. -/
theorem readyWorkloads_ok {n : Nat} (h : readyWorkloads targets nodeId reported = .ok n) :
    n ≤ reported.length ∧ (n = reported.length → ∀ w ∈ reported, Counted targets w) := by
  induction reported generalizing n with
  | nil =>
    cases h
    exact ⟨le_rfl, fun _ w hw => nomatch hw⟩
  | cons w ws ih =>
    obtain ⟨m, hm, hcount⟩ := readyWorkloads_cons h
    obtain ⟨hle, hall⟩ := ih hm
    rw [List.length_cons]
    rcases hcount with rfl | ⟨rfl, hw⟩
    · exact ⟨by omega, fun heq => absurd heq (by omega)⟩
    · exact ⟨by omega, fun heq => List.forall_mem_cons.mpr ⟨hw, hall (by omega)⟩⟩

theorem eq_of_name {l : List Workload} (hl : (l.map (·.name)).Nodup) {w w' : Workload}
    (hw : w ∈ l) (hw' : w' ∈ l) (hname : w.name = w'.name) : w = w' :=
  List.inj_on_of_nodup_map hl hw hw' hname

/-- A full count of as many workloads as there are targets is a matching. -/
theorem isUp_of_counted (htargets : (targets.map (·.name)).Nodup)
    (hreported : (reported.map (·.name)).Nodup) (hlength : reported.length = targets.length)
    (hall : ∀ w ∈ reported, Counted targets w) : IsUp targets reported := by
  have hfound : ∀ w ∈ reported, ∃ target ∈ targets, target.name = w.name ∧ IsReady w target := by
    intro w hw
    obtain ⟨target, hfind, hready⟩ := hall w hw
    exact ⟨target, List.mem_of_find?_eq_some hfind, by simpa using List.find?_some hfind, hready⟩
  constructor
  · have hsub : reported.map (·.name) ⊆ targets.map (·.name) := by
      intro name hname
      obtain ⟨w, hw, rfl⟩ := List.mem_map.mp hname
      obtain ⟨target, htarget, heq, -⟩ := hfound w hw
      exact List.mem_map.mpr ⟨target, htarget, heq⟩
    refine (List.subperm_of_subset hreported hsub).perm_of_length_le ?_
    rw [List.length_map, List.length_map, hlength]
  · intro w hw target htarget hname
    obtain ⟨target', htarget', heq, hready⟩ := hfound w hw
    rw [eq_of_name htargets htarget htarget' (hname.trans heq.symm)]
    exact hready

/-- The loop ends well only on an answer that shows the targets up. -/
theorem awaitReady_ok {polls : List (Except GridError Deployment)}
    (htargets : (targets.map (·.name)).Nodup) (hpolls : ∀ d, .ok d ∈ polls → d.names.Nodup)
    (h : awaitReady timeout targets nodeId contractId polls = .ok ()) :
    ∃ d, .ok d ∈ polls ∧ IsUp targets d.workloads := by
  induction polls with
  | nil => cases h
  | cons poll polls ih =>
    have hrec : awaitReady timeout targets nodeId contractId polls = .ok () →
        ∃ d, .ok d ∈ poll :: polls ∧ IsUp targets d.workloads := by
      intro hrest
      obtain ⟨d, hd, hup⟩ := ih (fun d hd => hpolls d (List.mem_cons_of_mem _ hd)) hrest
      exact ⟨d, List.mem_cons_of_mem _ hd, hup⟩
    cases poll with
    | error e => cases h
    | ok d =>
      rw [awaitReady] at h
      by_cases hlength : d.workloads.length = targets.length
      · rw [if_neg (not_not.mpr hlength)] at h
        obtain ⟨n, hn, hrest⟩ := exceptBind_eq_ok.mp h
        by_cases hcount : n = targets.length
        · have hall := (readyWorkloads_ok hn).2 (hcount.trans hlength.symm)
          have hnames := hpolls d List.mem_cons_self
          exact ⟨d, List.mem_cons_self, isUp_of_counted htargets hnames hlength hall⟩
        · rw [if_neg hcount] at hrest
          exact hrec hrest
      · rw [if_pos hlength] at h
        exact hrec h

end

/-- The lookup is one request. -/
theorem clock_getNodeIdFromContractId {S : Type} {env : HandlerEnv S} {w w' : World S}
    {contractId nodeId : Nat}
    (h : getNodeIdFromContractId env contractId w = .ok nodeId w') : w'.clock = w.clock + 1 := by
  obtain ⟨_, w₁, hexternal, h⟩ := bind_eq_ok.mp h
  have hone : w₁.clock = w.clock + 1 := by
    obtain ⟨w₂, w₃, hget, hrest⟩ := bind_eq_ok.mp hexternal
    cases hget
    obtain ⟨_, w₄, hset, hrest⟩ := bind_eq_ok.mp hrest
    cases hset
    cases hfails : env.fails w.clock with
    | some e =>
      rw [hfails] at hrest
      cases hrest
    | none =>
      rw [hfails] at hrest
      cases hrest
      rfl
  obtain ⟨w₂, w₃, hget, hrest⟩ := bind_eq_ok.mp h
  cases hget
  cases hnode : nodeOfContract env w₁.chain contractId with
  | ok n =>
    rw [hnode] at hrest
    cases hrest
    exact hone
  | error e =>
    rw [hnode] at hrest
    cases hrest

/-- When `waitForDeployment` returns, the node answered once with exactly the workloads of the
deployment, each running and in its version. -/
theorem waitForDeployment_isUp {S : Type} {env : HandlerEnv S} {t : TwinDeployment} {w w' : World S}
    (htarget : t.deployment.names.Nodup)
    (hpolls : ∀ clock id d, .ok d ∈ env.polls clock id → d.names.Nodup)
    (h : waitForDeployment env t w = .ok () w') :
    ∃ d, .ok d ∈ env.polls (w.clock + 1) (t.contractId.getD 0) ∧ IsUp t.workloads d.workloads := by
  obtain ⟨nodeId, w₁, hnode, h⟩ := bind_eq_ok.mp h
  obtain ⟨w₂, w₃, hget, h⟩ := bind_eq_ok.mp h
  cases hget
  obtain ⟨_, w₄, hset, h⟩ := bind_eq_ok.mp h
  rw [clock_getNodeIdFromContractId hnode] at h
  cases hready : awaitReady env.deploymentTimeoutMinutes t.workloads nodeId (t.contractId.getD 0)
      (env.polls (w.clock + 1) (t.contractId.getD 0)) with
  | error e =>
    rw [hready] at h
    cases h
  | ok u => exact awaitReady_ok htarget (hpolls _ _) hready

/-- A workload as its node reports it. -/
def reportedAs (state : ResultStates) (w : Workload) : Workload :=
  { w with result := some ⟨1, state, ""⟩ }

/-- A deployment whose database is resized. -/
def waitedUpdate : TwinDeployment :=
  .make (sampleDeployment (some 1) [sampleZdb "db" 1 2, sampleZdb "log" 0 1]) .update 0 11 "" none

/-- The node has the old version of the database at first. -/
def pollingEnv : HandlerEnv Ledger :=
  { sampleEnv with
    polls := fun _ _ => [[sampleZdb "log" 0 1, sampleZdb "db" 0 1],
      [sampleZdb "log" 0 1, sampleZdb "db" 1 2]].map fun ws =>
        .ok (sampleDeployment (some 1) (ws.map (reportedAs .ok))) }

theorem waitedUpdate_isUp : ∃ d, .ok d ∈ pollingEnv.polls 1 1 ∧
    IsUp waitedUpdate.workloads d.workloads := by
  have hreturned : returned (waitForDeployment pollingEnv waitedUpdate
      (sampleWorld twoContracts fun _ => none)) = true := by decide +kernel
  obtain ⟨_, w', hrun⟩ := exists_ok_of_returned hreturned
  refine waitForDeployment_isUp (by decide) (fun clock id d hd => ?_) hrun
  obtain ⟨ws, hws, heq⟩ := List.mem_map.mp hd
  cases heq
  rcases List.mem_cons.mp hws with rfl | hws
  · decide
  · rw [List.mem_singleton.mp hws]
    decide

end ThreefoldSdk.HighLevel
