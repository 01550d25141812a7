import ThreefoldSdk.HighLevel.Delete
import ThreefoldSdk.Modules.MyContracts

/-! The gateway contracts of a user as the playground sees them: `GWModule` lists, loads and deletes
them by name (`modules/gateway.ts`), within the project that the grid is set to. -/

namespace ThreefoldSdk.Playground
open Zos Primitives HighLevel Modules TfChain Frame

/-- A contract of type gateway. Its deployment has one gateway workload, of the same name; `indexed`
when the indexer shows the contract, `recorded` when it was made in this session. -/
structure Gateway where
  contractId : Nat
  name : String
  projectName : String
  backends : List String
  indexed : Bool
  recorded : Bool
deriving DecidableEq, Repr

/-- Whether a contract is among those that `getMyContracts` finds for a project. -/
def lists (project : String) (g : Gateway) : Bool :=
  (g.indexed && decide (project.toList <+: g.projectName.toList)) ||
    (g.recorded && decide (project.toList <:+: g.projectName.toList))

def gatewayNames (project : String) (gs : List Gateway) : List String :=
  ((gs.filter (lists project)).map (·.name)).eraseDups

def getObj (project name : String) (gs : List Gateway) : List Gateway :=
  gs.filter fun g => lists project g && decide (g.name = name)

/-- `delete_name` and `delete_fqdn`, both `_delete`: the deleted gateways and the others. -/
def deleteName (project name : String) (gs : List Gateway) : List Gateway × List Gateway :=
  gs.partition fun g => lists project g && decide (g.name = name)

def deleteNames (project : String) :
    List String → List Gateway → List Gateway × List Gateway
  | [], gs => ([], gs)
  | name :: names, gs =>
    let (deleted, gs) := deleteName project name gs
    let (rest, gs) := deleteNames project names gs
    (deleted ++ rest, gs)

def loadDeploymentGateways (answers : String → Bool) (project : String) (filter : Gateway → Bool)
    (gs : List Gateway) : List Gateway :=
  -- a name for which `answers` is false fails or takes too long
  (((gatewayNames project gs).filter answers).flatMap fun name => getObj project name gs).filter filter

section
variable {project : String} {gs : List Gateway}

theorem mem_loadDeploymentGateways {answers : String → Bool} {filter : Gateway → Bool}
    {g : Gateway} :
    g ∈ loadDeploymentGateways answers project filter gs ↔
      g ∈ gs ∧ lists project g = true ∧ answers g.name = true ∧ filter g = true := by
  unfold loadDeploymentGateways gatewayNames getObj
  rw [List.mem_filter, List.mem_flatMap]
  constructor
  · intro h
    obtain ⟨⟨name, hname, hg⟩, hfilter⟩ := h
    obtain ⟨hg, hboth⟩ := List.mem_filter.mp hg
    obtain ⟨hlists, hsame⟩ := Bool.and_eq_true_iff.mp hboth
    have hsame : g.name = name := of_decide_eq_true hsame
    exact ⟨hg, hlists, hsame ▸ (List.mem_filter.mp hname).2, hfilter⟩
  · intro h
    obtain ⟨hg, hlists, hanswers, hfilter⟩ := h
    refine ⟨⟨g.name, ?_, ?_⟩, hfilter⟩
    · rw [List.mem_filter, List.mem_eraseDups]
      exact ⟨List.mem_map_of_mem (List.mem_filter.mpr ⟨hg, hlists⟩), hanswers⟩
    · exact List.mem_filter.mpr ⟨hg, Bool.and_eq_true_iff.mpr ⟨hlists, decide_eq_true rfl⟩⟩

/-- What is listed under one of the names goes, and nothing else. -/
theorem deleteNames_spec (project : String) (names : List String) (gs : List Gateway) :
    (∀ g, g ∈ (deleteNames project names gs).1 ↔
        g ∈ gs ∧ lists project g = true ∧ g.name ∈ names) ∧
      (deleteNames project names gs).2 =
        gs.filter fun g => !(lists project g && decide (g.name ∈ names)) := by
  induction names generalizing gs with
  | nil =>
    constructor
    · intro g
      exact iff_of_false List.not_mem_nil fun h => nomatch h.2.2
    · refine (List.filter_eq_self.mpr ?_).symm
      intro g _
      rw [decide_eq_false List.not_mem_nil, Bool.and_false]
      rfl
  | cons name names ih =>
    obtain ⟨hdeleted, hrest⟩ := ih (deleteName project name gs).2
    unfold deleteName at hdeleted hrest
    rw [List.partition_eq_filter_filter] at hdeleted hrest
    have hsplit : deleteNames project (name :: names) gs =
        (gs.filter (fun g => lists project g && decide (g.name = name)) ++
            (deleteNames project names (gs.filter
              (not ∘ fun g => lists project g && decide (g.name = name)))).1,
          (deleteNames project names (gs.filter
              (not ∘ fun g => lists project g && decide (g.name = name)))).2) := by
      rw [deleteNames, deleteName, List.partition_eq_filter_filter]
    rw [hsplit]
    constructor
    · intro g
      rw [List.mem_append, hdeleted]
      simp only [List.mem_filter, Function.comp_apply, Bool.not_eq_true', Bool.and_eq_true,
        decide_eq_true_eq, List.mem_cons, Bool.and_eq_false_iff, decide_eq_false_iff_not]
      constructor
      · intro h
        rcases h with ⟨hg, hlists, hname⟩ | ⟨⟨hg, -⟩, hlists, hname⟩
        · exact ⟨hg, hlists, Or.inl hname⟩
        · exact ⟨hg, hlists, Or.inr hname⟩
      · intro h
        obtain ⟨hg, hlists, hname⟩ := h
        by_cases hfirst : g.name = name
        · exact Or.inl ⟨hg, hlists, hfirst⟩
        · exact Or.inr ⟨⟨hg, Or.inr hfirst⟩, hlists, hname.resolve_left hfirst⟩
    · rw [hrest, List.filter_filter]
      apply List.filter_congr
      intro g _
      rw [Bool.eq_iff_iff]
      simp only [Function.comp_apply, Bool.and_eq_true, Bool.not_eq_true', Bool.and_eq_false_iff,
        decide_eq_false_iff_not, List.mem_cons, not_or]
      grind

/-! The contracts behind them. -/

def Gateway.record (g : Gateway) : GqlNodeContract :=
  ⟨g.contractId, 0, 0, ⟨"gateway", g.name, some g.projectName⟩⟩

def gatewayModule (project : String) : BaseModule := ⟨"gateways", project⟩

theorem queried_record_iff {g : Gateway} :
    (gatewayModule project).Queried g.record ↔ project.toList <+: g.projectName.toList := by
  constructor
  · intro h
    obtain ⟨-, p, hp, hprefix⟩ := h
    rw [Option.mem_some_iff.mp hp]
    exact hprefix
  · intro h
    exact ⟨rfl, g.projectName, rfl, h⟩

theorem selects_record {g : Gateway} :
    (gatewayModule project).selects g.record = decide (project.toList <:+: g.projectName.toList) :=
  Bool.and_true _

/-- `getMyContracts` finds the contracts that are listed. -/
theorem getMyContracts_lists (hids : (gs.map (·.contractId)).Nodup) {now : Nat}
    {snapshot : List GqlNodeContract}
    (hsnapshot : ∀ c, c ∈ snapshot ↔ ∃ g ∈ gs, g.indexed = true ∧
      (gatewayModule project).Queried g.record ∧ c = g.record) {deleted : List Nat}
    (hdeleted : ∀ g ∈ gs, g.contractId ∉ deleted) :
    ∃ contracts s, (gatewayModule project).getMyContracts now snapshot
        ⟨(gs.filter (·.recorded)).map Gateway.record, deleted⟩ = .ok (contracts, s) ∧
      ∀ g ∈ gs, g.contractId ∈ contracts.map (·.contractID) ↔ lists project g = true := by
  have hnames : (((gs.filter (·.recorded)).map Gateway.record).any
      fun c => c.parsedDeploymentData.projectName.isNone) = false := by
    rw [List.any_eq_false]
    intro c hc
    obtain ⟨g, -, rfl⟩ := List.mem_map.mp hc
    exact Bool.false_ne_true
  unfold BaseModule.getMyContracts
  rw [hnames]
  refine ⟨_, _, rfl, ?_⟩
  intro g hg
  have hsame : ∀ g' ∈ gs, g'.contractId = g.contractId → g' = g :=
    fun g' hg' hid => List.inj_on_of_nodup_map hids hg' hg hid
  rw [mem_read_iff]
  unfold lists
  simp only [Bool.or_eq_true, Bool.and_eq_true, decide_eq_true_eq]
  constructor
  · intro h
    rcases h.1 with hin | ⟨c, hc, hselects, hid⟩
    · obtain ⟨c, hc, hid⟩ := List.mem_map.mp hin
      obtain ⟨g', hg', hindexed, hqueried, rfl⟩ := (hsnapshot c).mp hc
      rw [hsame g' hg' hid] at hindexed hqueried
      exact Or.inl ⟨hindexed, queried_record_iff.mp hqueried⟩
    · obtain ⟨g', hg', rfl⟩ := List.mem_map.mp hc
      obtain ⟨hg', hrecorded⟩ := List.mem_filter.mp hg'
      rw [hsame g' hg' hid] at hrecorded hselects
      rw [selects_record] at hselects
      exact Or.inr ⟨hrecorded, of_decide_eq_true hselects⟩
  · intro h
    refine ⟨?_, hdeleted g hg⟩
    rcases h with ⟨hindexed, hprefix⟩ | ⟨hrecorded, hinfix⟩
    · have hin : g.record ∈ snapshot :=
        (hsnapshot _).mpr ⟨g, hg, hindexed, queried_record_iff.mpr hprefix, rfl⟩
      exact Or.inl (List.mem_map_of_mem (f := GqlNodeContract.contractID) hin)
    · refine Or.inr ⟨g.record, ?_, ?_, rfl⟩
      · exact List.mem_map_of_mem (List.mem_filter.mpr ⟨hg, hrecorded⟩)
      · rw [selects_record]
        exact decide_eq_true hinfix

/-- A deployment with gateways alone is deleted as a whole. -/
theorem delete_gateways {v : Validators} {load : Bool → String → String → Except GridError AnyNetwork}
    {isKnown : Bool} {nodeId : Nat} {deployment d : Deployment} (hd : fromObj v deployment = .ok d)
    (hgateways : ∀ w ∈ deployment.workloads,
      w.type = .gatewayfqdnproxy ∨ w.type = .gatewaynameproxy) :
    delete v load isKnown (.ok nodeId) deployment [] allTypes =
      .ok [.make d .delete 0 0 "" none] := by
  have htypes : ∀ w ∈ d.workloads, w.type = .gatewayfqdnproxy ∨ w.type = .gatewaynameproxy := by
    obtain ⟨rfl, -⟩ := fromObj_eq hd
    intro w hw
    obtain ⟨w', hw', rfl⟩ := List.mem_map.mp hw
    exact hgateways w' hw'
  have hremaining : d.workloads.filter (remains [] allTypes) = [] := by
    rw [List.filter_eq_nil_iff]
    intro w hw
    unfold remains isAnyNetwork
    rcases htypes w hw with ht | ht
    · simp [ht, allTypes]
    · simp [ht, allTypes]
  have hmachines : d.workloads.filter isMachine = [] := by
    rw [List.filter_eq_nil_iff]
    intro w hw
    unfold isMachine
    rcases htypes w hw with ht | ht
    · rw [ht]
      decide
    · rw [ht]
      decide
  have hfilter : filterWorkloads d [] allTypes = .ok ([], []) := by
    unfold filterWorkloads
    rw [if_pos rfl, hremaining, hmachines]
  unfold delete
  rw [if_neg (by decide)]
  refine exceptBind_eq_ok.mpr ⟨nodeId, rfl, ?_⟩
  refine exceptBind_eq_ok.mpr ⟨d, hd, ?_⟩
  exact exceptBind_eq_ok.mpr ⟨_, hfilter, rfl⟩

end

end ThreefoldSdk.Playground
