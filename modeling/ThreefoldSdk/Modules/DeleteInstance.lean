import ThreefoldSdk.HighLevel.PartialDelete
import ThreefoldSdk.HighLevel.Reported

/-! `BaseModule._deleteInstance`: the deployments of a name are gone through until the deletion of
the instance from one of them has a result. -/

namespace ThreefoldSdk.Modules
open Zos Primitives HighLevel TfChain Frame

/-- What the deletion asks for. A network is loaded in the state the run is in; `types` are those
that `module.delete` passes. -/
structure InstanceEnv (S : Type) where
  handler : HandlerEnv S
  load : World S → Bool → String → String → Except GridError AnyNetwork
  isKnown : World S → Bool
  types : List WorkloadTypes
  deployments : M S (List Deployment)
  save : ResultContracts → M S Unit

section
variable {S : Type} (env : InstanceEnv S)

/-- `module.delete(deployment, [name])`. -/
def deleteFrom (name : String) (deployment : Deployment) : M S (List TwinDeployment) := do
  let nodeIdOf ← nodeIdLookup env.handler (deployment.contractId.getD 0)
  let w ← get
  lift (delete env.handler.validators (env.load w) (env.isKnown w) nodeIdOf deployment [name]
    env.types)

/-- The loop over the deployments. -/
def findInstance (name : String) : List Deployment → M S (Option ResultContracts)
  | [] => return none
  | d :: ds => do
    let twinDeployments ← deleteFrom env name d
    let contracts ← handle env.handler twinDeployments
    if 0 < contracts.deleted.length ∨ 0 < contracts.updated.length then do
      env.save contracts
      let _ ← env.deployments
      return some contracts
    else findInstance name ds

def notFound (name : String) : GridError :=
  .validation ("Instance with name " ++ name ++ " is not found.")

def deleteInstance (name : String) : M S ResultContracts := do
  let deployments ← env.deployments
  match ← findInstance env name deployments with
  | some contracts => return contracts
  | none => throw (notFound name)

end

/-- A workload of the name is in the deployment, of one of the types that are deleted. -/
def Contains (types : List WorkloadTypes) (name : String) (d : Deployment) : Prop :=
  ∃ w ∈ d.workloads, w.type ∈ types ∧ w.name = name

/-- What a deletion that returns has read of a deployment. -/
structure Attempt (S : Type) where
  world : World S
  nodeId : Nat
  decoded : Deployment
  kept : List Workload
  machines : List Workload

section
variable {S : Type} (env : InstanceEnv S)

/-- The attempt at a deployment, in a world. -/
structure Attempts (name : String) (w : World S) (deployment : Deployment) (a : Attempt S) :
    Prop where
  node : nodeIdLookup env.handler (deployment.contractId.getD 0) w = .ok (.ok a.nodeId) a.world
  decodes : fromObj env.handler.validators deployment = .ok a.decoded
  filters : filterWorkloads a.decoded [name] env.types = .ok (a.kept, a.machines)

/-- The workloads that have to remain. -/
def Attempt.remaining (a : Attempt S) : List Workload :=
  mustRemain (env.load a.world) a.decoded a.nodeId a.kept a.machines

/-- The loop comes to the deployment, in a world. -/
inductive Visits (name : String) : List Deployment → World S → Deployment → World S → Prop
  | here (d : Deployment) (ds : List Deployment) (w : World S) : Visits name (d :: ds) w d w
  | next (d : Deployment) (ds : List Deployment) (w w₁ w₂ : World S) (ts : List TwinDeployment)
      (r : ResultContracts) (d' : Deployment) (w' : World S) :
      deleteFrom env name d w = .ok ts w₁ → handle env.handler ts w₁ = .ok r w₂ →
      r.deleted = [] → r.updated = [] → Visits name ds w₂ d' w' → Visits name (d :: ds) w d' w'

/-- A deployment as the grid has it: it is under a contract of the chain, its workloads have
distinct names, and the network of a machine is loaded as it is stored. -/
structure AsStored (name : String) (w : World S) (d : Deployment) : Prop where
  contract : ∃ id, d.contractId = some id ∧ id ≠ 0 ∧ env.handler.chain.contract w.chain id ≠ none
  unique : (d.workloads.map (·.name)).Nodup
  hosts : ∀ a, Attempts env name w d a → ∀ first ∈ a.machines.head?, ∀ n,
    loadNetwork (env.load a.world) first = .ok n →
      Hosts (env.isKnown a.world) (decide (first.type = .zmachinelight)) n a.decoded a.nodeId

/-- The deletion is exact, and what it does to the contract is reported. -/
structure Deletable (name : String) (w : World S) (d : Deployment) : Prop where
  nonempty : d.workloads ≠ []
  exact : ∀ a, Attempts env name w d a → a.remaining env = [] ∨
    (a.remaining env).length = a.decoded.workloads.length ∨
    (∃ first ∈ a.machines.head?, first.type = .zmachine) ∧
      ¬((a.remaining env).length = 1 ∧ ∀ x ∈ a.remaining env, x.type = .network)

end

section
variable {S : Type} {env : InstanceEnv S} {name : String} {w w' w₁ w₂ : World S} {d : Deployment}
  {ds : List Deployment} {ts : List TwinDeployment} {a : Attempt S} {r : ResultContracts}

theorem deleteFrom_ok (h : deleteFrom env name d w = .ok ts w') :
    ∃ a, Attempts env name w d a ∧ w' = a.world ∧ w'.chain = w.chain ∧
      WorkloadTypes.network ∉ env.types ∧ WorkloadTypes.networklight ∉ env.types ∧
      delete env.handler.validators (env.load a.world) (env.isKnown a.world) (.ok a.nodeId) d [name]
        env.types = .ok ts := by
  obtain ⟨nodeIdOf, w₁, hnode, h⟩ := bind_eq_ok.mp h
  obtain ⟨w₂, w₃, hget, h⟩ := bind_eq_ok.mp h
  cases hget
  obtain ⟨hdelete, rfl⟩ := lift_eq_ok.mp h
  have hchain : w'.chain = w.chain := (keeps_chain (keeps_nodeIdLookup _)).of_ok hnode
  have hrest := hdelete
  unfold delete at hrest
  split_ifs at hrest with hnet
  · cases hrest
  obtain ⟨nodeId, rfl, hread⟩ := exceptBind_eq_ok.mp hrest
  obtain ⟨d', hd', hread⟩ := exceptBind_eq_ok.mp hread
  obtain ⟨⟨kept, machines⟩, hfilter, -⟩ := exceptBind_eq_ok.mp hread
  rw [not_or] at hnet
  exact ⟨⟨w', nodeId, d', kept, machines⟩, ⟨hnode, hd', hfilter⟩, rfl, hchain, hnet.1, hnet.2,
    hdelete⟩

theorem Attempts.workloads (h : Attempts env name w d a) :
    a.decoded.workloads = d.workloads.map Primitives.decoded ∧
      a.decoded.contractId = d.contractId := by
  rw [(fromObj_eq h.decodes).1]
  exact ⟨rfl, rfl⟩

/-- Something goes exactly when the instance is in the deployment. -/
theorem Attempts.shorter_iff (h : Attempts env name w d a)
    (hnet : WorkloadTypes.network ∉ env.types) (hlight : WorkloadTypes.networklight ∉ env.types) :
    a.kept.length < a.decoded.workloads.length ↔ Contains env.types name d := by
  rw [(filterWorkloads_filtered (List.cons_ne_nil _ _) h.filters).shorter_iff, h.workloads.1]
  constructor
  · rintro ⟨x, hx, -, htype, hname⟩
    obtain ⟨y, hy, rfl⟩ := List.mem_map.mp hx
    exact ⟨y, hy, htype, List.mem_singleton.mp hname⟩
  · rintro ⟨y, hy, htype, hname⟩
    refine ⟨decoded y, List.mem_map_of_mem hy, ?_, htype, List.mem_singleton.mpr hname⟩
    refine decide_eq_false fun hany => ?_
    rcases hany with hany | hany
    · exact hnet (hany ▸ htype)
    · exact hlight (hany ▸ htype)

/-- A single update on the contract, as the plan has it. -/
theorem operationsOn_of_onContract {id : Nat} {t : TwinDeployment} (hid : d.contractId = some id)
    (hts : onContract d ts = [t]) (hop : t.operation = .update) :
    operationsOn .update id ts = [t] ∧ operationsOn .delete id ts = [] := by
  have hsplit : ∀ op, operationsOn op id ts =
      (onContract d ts).filter fun t => decide (t.operation = op) := by
    intro op
    unfold operationsOn onContract
    rw [List.filter_filter, hid]
    refine List.filter_congr fun t _ => ?_
    rw [Bool.decide_and]
  constructor
  · rw [hsplit, hts, List.filter_singleton, hop]
    rfl
  · rw [hsplit, hts, List.filter_singleton, hop]
    rfl

/-- A deployment without the instance has no operation and no result. -/
theorem not_reported_of_absent (hdeletable : Deletable env name w d)
    (hdelete : deleteFrom env name d w = .ok ts w₁) (hhandle : handle env.handler ts w₁ = .ok r w₂)
    (habsent : ¬Contains env.types name d) : r.deleted = [] ∧ r.updated = [] := by
  obtain ⟨a, hattempts, rfl, -, hnet, hlight, hts⟩ := deleteFrom_ok hdelete
  have hfiltered := filterWorkloads_filtered (List.cons_ne_nil _ _) hattempts.filters
  have hall : ¬a.kept.length < a.decoded.workloads.length := fun hshort =>
    habsent ((hattempts.shorter_iff hnet hlight).mp hshort)
  have hmachines : a.machines = [] := by
    by_contra hsome
    exact hall (hfiltered.shorter hsome)
  have hfilter := hattempts.filters
  rw [hmachines] at hfilter
  have hkept : a.kept ≠ [] := by
    intro hnil
    rw [hnil, hattempts.workloads.1, List.length_map, List.length_nil, not_lt, Nat.le_zero] at hall
    exact hdeletable.nonempty (List.length_eq_zero_iff.mp hall)
  have hempty := exact_of_no_machine hattempts.decodes hfilter hts
  rw [if_neg hkept] at hempty
  rw [hempty] at hhandle
  exact (handle_nothing hhandle).symm

/-- From a deployment with the instance there is a result. -/
theorem reported_of_contains (hstored : AsStored env name w d) (hdeletable : Deletable env name w d)
    (hdelete : deleteFrom env name d w = .ok ts w₁) (hhandle : handle env.handler ts w₁ = .ok r w₂)
    (hcontains : Contains env.types name d) : r.deleted ≠ [] ∨ r.updated ≠ [] := by
  obtain ⟨a, hattempts, rfl, hchain, hnet, hlight, hts⟩ := deleteFrom_ok hdelete
  obtain ⟨id, hid, hreal, hex⟩ := hstored.contract
  have hown : a.decoded.contractId = some id := hattempts.workloads.2.trans hid
  have hunique : (a.decoded.workloads.map (·.name)).Nodup := by
    rw [hattempts.workloads.1, List.map_map]
    exact hstored.unique
  have hshort : (a.remaining env).length < a.decoded.workloads.length :=
    lt_of_le_of_lt mustRemain_sublist.length_le
      ((hattempts.shorter_iff hnet hlight).mpr hcontains)
  have hcond := hdeletable.exact a hattempts
  have hexact : Exact a.decoded (a.remaining env) ts := by
    refine (delete_exact_iff hown hreal hunique (List.cons_ne_nil _ _) hattempts.decodes
      hattempts.filters (hstored.hosts a hattempts) hts).mpr ?_
    exact hcond.imp_right (Or.imp_right And.left)
  by_cases hnil : a.remaining env = []
  · left
    obtain ⟨hsome, hdeletes⟩ := hexact.deleted hnil
    obtain ⟨t, ht⟩ := List.exists_mem_of_ne_nil _ hsome
    obtain ⟨hin, hcontract⟩ := mem_onContract.mp ht
    exact handle_deleted_ne_nil hhandle hin (hdeletes t ht) (hcontract.trans hown)
      (hchain ▸ hex)
  · right
    obtain ⟨-, honly⟩ := (hcond.resolve_left hnil).resolve_left (Nat.ne_of_lt hshort)
    obtain ⟨t, ht, hop, hworkloads⟩ := hexact.updated hnil hshort
    obtain ⟨hupdate, hnone⟩ := operationsOn_of_onContract hown ht hop
    refine handle_updated_ne_nil hhandle hupdate hnone ?_
    unfold reports
    rw [hworkloads, Bool.or_eq_true, Bool.not_eq_true', Bool.and_eq_false_iff]
    right
    by_contra hboth
    rw [not_or, Bool.not_eq_false, Bool.not_eq_false, beq_iff_eq, List.all_eq_true] at hboth
    exact honly ⟨hboth.1, fun x hx => of_decide_eq_true (hboth.2 x hx)⟩

/-- The loop finds nothing exactly when no deployment contains the instance. -/
theorem findInstance_none_iff {found : Option ResultContracts}
    (hstored : ∀ d' wd, Visits env name ds w d' wd → AsStored env name wd d')
    (hdeletable : ∀ d' wd, Visits env name ds w d' wd → Deletable env name wd d')
    (h : findInstance env name ds w = .ok found w') :
    found = none ↔ ∀ d' ∈ ds, ¬Contains env.types name d' := by
  induction ds generalizing w with
  | nil =>
    cases h
    exact iff_of_true rfl fun _ hnone => nomatch hnone
  | cons d ds ih =>
    obtain ⟨ts, w₁, hdelete, h⟩ := bind_eq_ok.mp h
    obtain ⟨r, w₂, hhandle, h⟩ := bind_eq_ok.mp h
    have hhere : Visits env name (d :: ds) w d w := .here d ds w
    by_cases hcontains : Contains env.types name d
    · have hsome := reported_of_contains (hstored d w hhere) (hdeletable d w hhere) hdelete hhandle
        hcontains
      rw [if_pos (hsome.imp List.length_pos_iff.mpr List.length_pos_iff.mpr)] at h
      obtain ⟨-, w₃, -, h⟩ := bind_eq_ok.mp h
      obtain ⟨-, w₄, -, h⟩ := bind_eq_ok.mp h
      cases h
      exact iff_of_false (Option.some_ne_none r) fun hnone =>
        hnone d List.mem_cons_self hcontains
    · obtain ⟨hdeleted, hupdated⟩ := not_reported_of_absent (hdeletable d w hhere) hdelete hhandle
        hcontains
      have hnone : ¬(0 < r.deleted.length ∨ 0 < r.updated.length) := by
        rw [hdeleted, hupdated]
        exact fun hsome => hsome.elim (Nat.lt_irrefl 0) (Nat.lt_irrefl 0)
      rw [if_neg hnone] at h
      have hnext : ∀ d' wd, Visits env name ds w₂ d' wd → Visits env name (d :: ds) w d' wd :=
        fun d' wd hvisit => .next d ds w w₁ w₂ ts r d' wd hdelete hhandle hdeleted hupdated hvisit
      rw [ih (fun d' wd hvisit => hstored d' wd (hnext d' wd hvisit))
        (fun d' wd hvisit => hdeletable d' wd (hnext d' wd hvisit)) h, List.forall_mem_cons]
      exact (and_iff_right hcontains).symm

/-- In a run in which nothing else fails, not found is thrown exactly when the loop found nothing. -/
theorem deleteInstance_notFound_iff {found : Option ResultContracts}
    (hget : env.deployments w = .ok ds w₁) (h : findInstance env name ds w₁ = .ok found w₂) :
    deleteInstance env name w = .error (notFound name) w₂ ↔ found = none := by
  unfold deleteInstance
  rw [bind_of_ok hget, bind_of_ok h]
  cases found with
  | none => exact iff_of_true rfl rfl
  | some contracts =>
    refine iff_of_false (fun herror => ?_) (Option.some_ne_none contracts)
    cases herror

end

/-- What `_delete` emits on the contract is exact when nothing has to remain, when nothing goes, and
when a machine goes whose network is a `Network`. In a run whose deployments are all deleted from
so, and reported, not found is thrown exactly when no deployment contains the instance. -/
theorem instance_deleted_exactly {S : Type} (env : InstanceEnv S) (name : String) :
    (∀ (v : Validators) (load : Bool → String → String → Except GridError AnyNetwork)
      (isKnown : Bool) (nodeId id : Nat) (deployment d : Deployment) (names : List String)
      (types : List WorkloadTypes) (kept machines : List Workload) (ts : List TwinDeployment),
      d.contractId = some id → id ≠ 0 → (d.workloads.map (·.name)).Nodup → names ≠ [] →
      fromObj v deployment = .ok d → filterWorkloads d names types = .ok (kept, machines) →
      (∀ first ∈ machines.head?, ∀ n, loadNetwork load first = .ok n →
        Hosts isKnown (decide (first.type = .zmachinelight)) n d nodeId) →
      delete v load isKnown (.ok nodeId) deployment names types = .ok ts →
      (Exact d (mustRemain load d nodeId kept machines) ts ↔
        mustRemain load d nodeId kept machines = [] ∨
          (mustRemain load d nodeId kept machines).length = d.workloads.length ∨
          ∃ first ∈ machines.head?, first.type = .zmachine)) ∧
    ∀ (w w₁ w₂ : World S) (ds : List Deployment) (found : Option ResultContracts),
      env.deployments w = .ok ds w₁ → findInstance env name ds w₁ = .ok found w₂ →
      (∀ d wd, Visits env name ds w₁ d wd → AsStored env name wd d) →
      (∀ d wd, Visits env name ds w₁ d wd → Deletable env name wd d) →
      (deleteInstance env name w = .error (notFound name) w₂ ↔
        ∀ d ∈ ds, ¬Contains env.types name d) := by
  constructor
  · intro v load isKnown nodeId id deployment d names types kept machines ts hid hreal hunique hnames
      hdecoded hfilter hhosts h
    exact delete_exact_iff hid hreal hunique hnames hdecoded hfilter hhosts h
  · intro w w₁ w₂ ds found hget h hstored hdeletable
    rw [deleteInstance_notFound_iff hget h]
    exact findInstance_none_iff hstored hdeletable h

/-- Two machines on node 11 of the network, and the load of it. -/
def webMachines : Deployment := deploymentWith [machineAt "a" "10.1.2.2", machineAt "b" "10.1.2.3"]

def loadNet (_ : Bool) (_ _ : String) : Except GridError AnyNetwork := .ok (.network loadedNetwork)

/-- The databases of a name, each in a contract of its own on node 11. -/
def databaseEnv (ds : List Deployment) : InstanceEnv Ledger where
  handler := sampleEnv
  load := fun _ => loadNet
  isKnown := fun _ => true
  types := zdbTypes
  deployments := pure ds
  save := fun _ => pure ()

def databaseWorld : World Ledger := sampleWorld twoContracts fun _ => none

def oneDatabase : Deployment := sampleDeployment (some 1) [sampleZdb "a" 0 1]

def twoInOne : Deployment := sampleDeployment (some 1) [sampleZdb "a" 0 1, sampleZdb "b" 0 1]

/-- One of the machines is deleted, and then the only database of a name. -/
theorem webMachine_and_database_deleted :
    (∃ ts, delete anyText loadNet true (.ok 11) webMachines ["a"] vmTypes = .ok ts ∧
      Exact webMachines (mustRemain loadNet webMachines 11 [machineAt "b" "10.1.2.3"]
        [machineAt "a" "10.1.2.2"]) ts) ∧
    ∃ found w, findInstance (databaseEnv [oneDatabase]) "a" [oneDatabase] databaseWorld =
        .ok found w ∧
      deleteInstance (databaseEnv [oneDatabase]) "a" databaseWorld ≠ .error (notFound "a") w := by
  constructor
  · have hreturns :
        (delete anyText loadNet true (.ok 11) webMachines ["a"] vmTypes).isOk = true := by
      decide +kernel
    obtain ⟨ts, hts⟩ := exists_of_isOk hreturns
    refine ⟨ts, hts, ((instance_deleted_exactly (databaseEnv [oneDatabase]) "a").1 anyText loadNet
      true 11 7 webMachines webMachines ["a"] vmTypes _ _ ts rfl (by decide) (by decide) (by decide)
      (by decide) (by decide) ?_ hts).mpr (Or.inr (Or.inr ⟨_, rfl, rfl⟩))⟩
    rintro first hfirst n hload
    have hnet : n = .network loadedNetwork := by
      obtain ⟨iface, -, hload⟩ := exceptBind_eq_ok.mp hload
      obtain ⟨a, -, hload⟩ := exceptBind_eq_ok.mp hload
      exact (Except.ok.inj hload).symm
    obtain rfl : machineAt "a" "10.1.2.2" = first := Option.some.inj hfirst
    rw [hnet]
    refine ⟨rfl, nofun, ?_, ?_⟩
    · decide
    · decide
  · have hreturns : returned (findInstance (databaseEnv [oneDatabase]) "a" [oneDatabase]
        databaseWorld) = true := by
      decide +kernel
    obtain ⟨found, w, hfind⟩ := exists_ok_of_returned hreturns
    have hvisit : ∀ d wd, Visits (databaseEnv [oneDatabase]) "a" [oneDatabase] databaseWorld d wd →
        d = oneDatabase ∧ wd = databaseWorld := by
      intro d wd h
      cases h with
      | here => exact ⟨rfl, rfl⟩
      | next _ _ _ _ _ _ _ _ _ _ _ _ _ hrest => cases hrest
    have hread : ∀ a, Attempts (databaseEnv [oneDatabase]) "a" databaseWorld oneDatabase a →
        a.kept = [] ∧ a.machines = [] := by
      intro a ha
      have hdecoded : a.decoded = oneDatabase := (fromObj_eq ha.decodes).1
      have hfilter := ha.filters
      rw [hdecoded] at hfilter
      have hempty : filterWorkloads oneDatabase ["a"] zdbTypes = .ok ([], []) := by decide
      exact (Prod.mk.inj (Except.ok.inj (hempty.symm.trans hfilter))).imp Eq.symm Eq.symm
    refine ⟨found, w, hfind, fun herror => ?_⟩
    refine ((instance_deleted_exactly (databaseEnv [oneDatabase]) "a").2 databaseWorld
      databaseWorld w [oneDatabase] found rfl hfind ?_ ?_).mp herror oneDatabase List.mem_cons_self
      ⟨_, List.mem_cons_self, by decide, rfl⟩
    · intro d wd h
      obtain ⟨rfl, rfl⟩ := hvisit d wd h
      refine ⟨⟨1, rfl, by decide, Option.isSome_iff_ne_none.mp (by decide)⟩, by decide, ?_⟩
      intro a ha first hfirst
      rw [(hread a ha).2] at hfirst
      cases hfirst
    · intro d wd h
      obtain ⟨rfl, rfl⟩ := hvisit d wd h
      refine ⟨by decide, fun a ha => Or.inl ?_⟩
      unfold Attempt.remaining mustRemain
      rw [(hread a ha).1, (hread a ha).2]

/-- One of two databases of a contract is not deleted, and is not found. -/
theorem oneOfTwo_notFound :
    (∃ ts, delete anyText loadNet true (.ok 11) twoInOne ["a"] zdbTypes = .ok ts ∧
      ¬Exact twoInOne (mustRemain loadNet twoInOne 11 [sampleZdb "b" 0 1] []) ts) ∧
    ∃ w, deleteInstance (databaseEnv [twoInOne]) "a" databaseWorld = .error (notFound "a") w ∧
      Contains zdbTypes "a" twoInOne := by
  constructor
  · refine ⟨[], by decide, fun hexact => ?_⟩
    obtain ⟨t, ht, -⟩ := hexact.updated (by decide) (by decide)
    cases ht
  · have hnone : returnedWith (fun found => Option.isNone found) (findInstance
        (databaseEnv [twoInOne]) "a" [twoInOne] databaseWorld) = true := by
      decide +kernel
    have hreturns : returned (findInstance (databaseEnv [twoInOne]) "a" [twoInOne]
        databaseWorld) = true := by
      decide +kernel
    obtain ⟨found, w, hfind⟩ := exists_ok_of_returned hreturns
    rw [hfind] at hnone
    refine ⟨w, (deleteInstance_notFound_iff rfl hfind).mpr (Option.isNone_iff_eq_none.mp hnone), ?_⟩
    exact ⟨_, List.mem_cons_self, by decide, rfl⟩

end ThreefoldSdk.Modules
