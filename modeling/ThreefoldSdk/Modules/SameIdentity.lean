import ThreefoldSdk.Lib.Runs
import ThreefoldSdk.Modules.Calls
import ThreefoldSdk.Modules.Cluster

/-! The contracts of one deployment over a run of calls. Each carries metadata of its own, and
listing by a project goes by that text. -/

namespace ThreefoldSdk.Modules
open Zos Primitives HighLevel TfChain Frame

instance : DecidablePred IsOwn := fun t =>
  inferInstanceAs (Decidable (t.operation = .deploy ∧ t.workloads.any isAnyNetwork = false))

/-- A contract that was made for a deployment. -/
structure Made where
  kind : ModuleKind
  name : String
  metadata : String

/-- A call, the lookups of `handle`, and which of the new contracts the chain makes. -/
structure Handled where
  call : Call
  get : Nat → Except GridError (Option Contract)
  created : TwinDeployment → Bool

variable (projectName : String)

def Handled.made (h : Handled) : List Made :=
  match h.call.handed projectName >>= merge h.get with
  | .ok plan => (plan.filter fun t => decide (IsOwn t) && h.created t).map fun t =>
      ⟨h.call.kind, h.call.name, t.metadata⟩
  | .error _ => []

def step (made : List Made) (h : Handled) : List Made := made ++ h.made projectName

/-- The indexer's query by a project finds the text. -/
def Listed (project metadata : String) : Prop :=
  "\"projectName\":\"".toList ++ project.toList <:+: metadata.toList

/-- The contracts of a deployment have one identity, and are listed together. -/
structure SameIdentity (made : List Made) : Prop where
  carried : ∀ kind name, ∃ i : Identity, ∀ c ∈ made, c.kind = kind → c.name = name →
    i.Carried c.metadata
  listed : ∀ kind name project,
    (∀ c ∈ made, c.kind = kind → c.name = name → Listed project c.metadata) ∨
      ∀ c ∈ made, c.kind = kind → c.name = name → ¬Listed project c.metadata

/-- What is added is a worker, has the name of the deployment or a configured project, or goes into
a contract that exists. -/
def Call.KeepsIdentity : Call → Prop
  | .add call i => projectName ≠ "" ∨ (Call.add call i).kind = .k8s ∨
      i.name = call.deploymentName ∨ ∃ old ∈ call.oldDeployments, i.Joins call.contractId old
  | _ => True

/-- The identity that `_createDeployment` gives. -/
def ModuleKind.identity (name : String) : ModuleKind → Identity
  | machines => ⟨"vm", name, projectNameOr projectName ("vm/" ++ name)⟩
  | k8s => clusterIdentity projectName name
  | zdb => ⟨"zdb", name, projectNameOr projectName ("zdb/" ++ name)⟩

variable {projectName : String} {i : Identity}

/-! The query. -/

/-- No occurrence of the query begins before the type. -/
theorem listed_toText_iff {project : String} {m m' : ContractMetadata}
    (h : m.identity = m'.identity) : Listed project m.toText ↔ Listed project m'.toText := by
  have hskip : ∀ (v : MetadataVersion) (rest : String),
      Listed project ("\x7b\"version\":" ++ (v.toText ++ rest)) ↔ Listed project rest := by
    intro v rest
    unfold Listed
    rw [String.toList_append, String.toList_append]
    cases v <;> simp [MetadataVersion.toText, List.infix_cons_iff, List.cons_prefix_cons]
  have hrest : m.type = m'.type ∧ m.name = m'.name ∧ m.projectName = m'.projectName := by
    injection h with htype hname hproject
    exact ⟨htype, hname, hproject⟩
  unfold ContractMetadata.toText
  rw [hskip, hskip, hrest.1, hrest.2.1, hrest.2.2]

theorem sameIdentity_of_carried {made : List Made}
    (h : ∀ c ∈ made, (c.kind.identity projectName c.name).Carried c.metadata) :
    SameIdentity made where
  carried kind name := by
    refine ⟨kind.identity projectName name, ?_⟩
    intro c hc hkind hname
    rw [← hkind, ← hname]
    exact h c hc
  listed kind name project := by
    let first : ContractMetadata := ⟨.zos3, (kind.identity projectName name).type,
      (kind.identity projectName name).name, (kind.identity projectName name).projectName⟩
    have hfirst : ∀ c ∈ made, c.kind = kind → c.name = name →
        (Listed project c.metadata ↔ Listed project first.toText) := by
      intro c hc hkind hname
      obtain ⟨m, hm, htext⟩ := h c hc
      rw [htext]
      apply listed_toText_iff
      rw [hm, hkind, hname]
      rfl
    by_cases hlisted : Listed project first.toText
    · exact Or.inl fun c hc hkind hname => (hfirst c hc hkind hname).mpr hlisted
    · exact Or.inr fun c hc hkind hname => mt (hfirst c hc hkind hname).mp hlisted

/-! What is handed over carries the identity. -/

theorem metadata_foldl (ts : List TwinDeployment) (m : TwinDeployment) :
    (ts.foldl (fun m t => m.withWorkloads (m.workloads ++ t.workloads)) m).metadata = m.metadata := by
  induction ts generalizing m with
  | nil => rfl
  | cons t ts ih => exact ih _

/-- A merged deployment has the metadata of the first one. -/
theorem deploymentMap_metadata {ts : List TwinDeployment} {nodeId : Nat} {t : TwinDeployment}
    (h : (deploymentMap ts).get nodeId = some t) : ∃ t₀ ∈ ts, t₀.metadata = t.metadata := by
  rw [deploymentMap, ObjectMap.get_collect] at h
  cases hf : ts.filter fun t => decide (t.nodeId = nodeId) with
  | nil =>
    rw [hf] at h
    cases h
  | cons first rest =>
    have hfirst : first ∈ ts.filter fun t => decide (t.nodeId = nodeId) :=
      hf ▸ List.mem_cons_self
    rw [hf] at h
    have hfold : rest.foldl (fun m t => m.withWorkloads (m.workloads ++ t.workloads)) first = t :=
      Option.some.inj h
    refine ⟨first, List.mem_of_mem_filter hfirst, ?_⟩
    rw [← hfold, metadata_foldl]

theorem OwnCarry.deployMerge {ts : List TwinDeployment} (h : OwnCarry i ts) :
    OwnCarry i (deployMerge ts) := by
  intro t ht hown
  rw [deployMerge_eq] at ht
  rcases List.mem_append.mp ht with ht | ht
  · exact h t (List.mem_of_mem_filter (List.mem_of_mem_filter ht)) hown
  · obtain ⟨e, he, rfl⟩ := List.mem_map.mp ht
    obtain ⟨t₀, ht₀, hmetadata⟩ := deploymentMap_metadata (ObjectMap.mem_ordered.mp he)
    rw [← hmetadata]
    obtain ⟨hmem, hdeploy⟩ := List.mem_filter.mp (List.mem_of_mem_filter ht₀)
    exact h t₀ hmem ⟨of_decide_eq_true hdeploy, (apart_eq_false.mp (shared_not_apart t₀ ht₀)).1⟩

theorem isOwn_of_sameTwin {t t' : TwinDeployment} (h : SameTwin t t') (hown : IsOwn t') :
    IsOwn t := by
  have hany : ∀ ws : List Workload, ws.any isAnyNetwork =
      (ws.map outline).any fun o => decide (o.2.1 = .network ∨ o.2.1 = .networklight) := by
    intro ws
    rw [List.any_map]
    rfl
  refine ⟨h.operation.symm.trans hown.1, ?_⟩
  rw [hany, ← h.outlines, ← hany]
  exact hown.2

theorem update_carries {N : Type} {env : UpdateEnv N} {network : N} {olds : List Deployment}
    {twins ts : List TwinDeployment} (h : update env network olds twins = .ok ts)
    (htwins : OwnCarry i twins) : OwnCarry i ts := by
  intro t ht hown
  obtain ⟨t₀, ht₀, hsame⟩ := update_deploys h t ht hown.1
  rw [hsame.metadata]
  exact htwins.deployMerge t₀ ht₀ (isOwn_of_sameTwin hsame hown)

theorem create_setMetadata {text : String} {twinId : Nat} {i : Instance} {t : TwinDeployment}
    (h : (setMetadata text i).create twinId = .ok t) : t.metadata = text := by
  cases i with
  | machine env network o => exact create_metadata h
  | worker env network masterIp masterFlist o => exact create_metadata h
  | zdb o =>
    cases h
    rfl

theorem publicIps_setMetadata (text : String) (i : Instance) :
    (setMetadata text i).publicIps = i.publicIps := by
  cases i <;> rfl

/-- The fallback is that of the deployment where the names are the same. -/
theorem addMetadata_identity {call : AddCall} {i : Instance}
    (h : projectName ≠ "" ∨ (Call.add call i).kind = .k8s ∨ i.name = call.deploymentName) :
    (addMetadata projectName call.deploymentName i).identity =
      (Call.add call i).kind.identity projectName call.deploymentName := by
  have hname (prefixText name : String) (h : projectName ≠ "" ∨ name = call.deploymentName) :
      projectNameOr projectName (prefixText ++ name) =
        projectNameOr projectName (prefixText ++ call.deploymentName) := by
    unfold projectNameOr
    rcases h with h | h
    · rw [if_neg h, if_neg h]
    · rw [h]
  cases i with
  | machine env network o =>
    exact congrArg (Identity.mk "vm" _)
      (hname "vm/" o.name (h.imp_right fun h => h.resolve_left nofun))
  | worker env network masterIp masterFlist o => rfl
  | zdb o =>
    exact congrArg (Identity.mk "zdb" _)
      (hname "zdb/" o.name (h.imp_right fun h => h.resolve_left nofun))

theorem moduleAdd_carries {call : AddCall} {i : Instance} {ts : List TwinDeployment}
    (h : moduleAdd projectName call i = .ok ts)
    (hkeeps : (Call.add call i).KeepsIdentity projectName) :
    OwnCarry ((Call.add call i).kind.identity projectName call.deploymentName) ts := by
  unfold moduleAdd at h
  by_cases hknown : (!call.known) = true
  · rw [if_pos hknown] at h
    cases h
  rw [if_neg hknown] at h
  obtain ⟨⟨final, network⟩, hadd, hrest⟩ := exceptBind_eq_ok.mp h
  cases hrest
  obtain ⟨t, ht, hadd⟩ := addInstance_ok hadd
  obtain ⟨t', n, rfl, hjoin⟩ := add_ok hadd
  intro t'' ht'' hown
  rcases List.mem_append.mp ht'' with ht'' | ht''
  · rcases List.mem_append.mp ht'' with ht'' | ht''
    · have hupdate := of_decide_eq_true (List.mem_filter.mp ht'').2
      rw [hown.1] at hupdate
      cases hupdate
    · have hmem := List.mem_reverse.mp (List.mem_of_mem_head? (Option.mem_toList.mp ht''))
      exact absurd hown (not_isOwn_of_network (call.networkOnly t'' hmem))
  · rw [List.mem_singleton.mp ht''] at hown ⊢
    have hips := (Instance.create_ok ht).2.2.trans (publicIps_setMetadata _ i)
    -- put into a contract that exists, it is not a new deployment
    have hstays : t' = t ∧ ¬∃ old ∈ call.oldDeployments, i.Joins call.contractId old := by
      by_cases hcond : call.contractId ≠ 0 ∧ t.publicIps = 0
      · rw [if_pos hcond] at hjoin
        rcases joinOld_ok hjoin with ⟨hsame, hnone⟩ | ⟨old, -, -, -, o, r, d, -, -, -, ht'⟩
        · refine ⟨hsame, ?_⟩
          intro hjoins
          obtain ⟨old, hold, hjoins⟩ := hjoins
          exact hnone old hold ⟨hjoins.contractId, hjoins.together⟩
        · rw [ht'] at hown
          cases hown.1
      · rw [if_neg hcond] at hjoin
        cases hjoin
        refine ⟨rfl, ?_⟩
        intro hjoins
        obtain ⟨old, -, hjoins⟩ := hjoins
        exact hcond ⟨hjoins.contract, hips.trans hjoins.publicIps⟩
    rw [hstays.1, create_setMetadata ht]
    apply Identity.carried_toText.mpr
    apply addMetadata_identity
    exact hkeeps.imp_right fun hk => hk.imp_right fun hk => hk.resolve_right hstays.2

theorem not_refused {α : Type} {c : Prop} [Decidable c] {e : GridError} {x : Except GridError α} {a : α}
    (h : (if c then throw e else x) = .ok a) : x = .ok a := by
  by_cases hc : c
  · rw [if_pos hc] at h
    cases h
  · rw [if_neg hc] at h
    exact h

theorem handed_carries {call : Call} {ts : List TwinDeployment}
    (h : call.handed projectName = .ok ts) (hkeeps : call.KeepsIdentity projectName) :
    OwnCarry (call.kind.identity projectName call.name) ts := by
  cases call with
  | machinesDeploy known env o =>
    obtain ⟨⟨ts', network, wg⟩, hts, hrest⟩ := exceptBind_eq_ok.mp (not_refused h)
    cases hrest
    exact machinesDeployment_carries hts
  | machinesUpdate call env o =>
    obtain ⟨current, -, hrest⟩ := exceptBind_eq_ok.mp (not_refused h)
    obtain ⟨⟨ts', network, wg⟩, hts, hrest⟩ := exceptBind_eq_ok.mp (not_refused hrest)
    exact update_carries hrest (machinesDeployment_carries hts)
  | k8sDeploy known env o =>
    obtain ⟨⟨ts', network, wg⟩, hts, hrest⟩ := exceptBind_eq_ok.mp (not_refused (not_refused h))
    cases hrest
    exact k8sDeployment_carries hts
  | k8sUpdate call env o =>
    obtain ⟨masterIps, -, hrest⟩ := exceptBind_eq_ok.mp (not_refused (not_refused h))
    obtain ⟨current, -, hrest⟩ := exceptBind_eq_ok.mp (not_refused hrest)
    obtain ⟨⟨ts', network, wg⟩, hts, hrest⟩ := exceptBind_eq_ok.mp (not_refused hrest)
    exact update_carries hrest (k8sDeployment_carries hts)
  | zdbsDeploy known twinId o => exact zdbsDeployment_carries (not_refused h)
  | zdbsUpdate call twinId o =>
    obtain ⟨ts', hts, hrest⟩ := exceptBind_eq_ok.mp (not_refused h)
    exact update_carries hrest (zdbsDeployment_carries hts)
  | add call i => exact moduleAdd_carries h hkeeps

/-- One call makes contracts of the one identity. -/
theorem made_carried {h : Handled} (hkeeps : h.call.KeepsIdentity projectName) :
    ∀ c ∈ h.made projectName, (c.kind.identity projectName c.name).Carried c.metadata := by
  intro c hc
  unfold Handled.made at hc
  cases hplan : h.call.handed projectName >>= merge h.get with
  | error e =>
    rw [hplan] at hc
    cases hc
  | ok plan =>
    rw [hplan] at hc
    obtain ⟨ts, hts, hmerge⟩ := exceptBind_eq_ok.mp hplan
    obtain ⟨us, hus, rfl⟩ := merge_ok hmerge
    obtain ⟨t, ht, rfl⟩ := List.mem_map.mp hc
    obtain ⟨hmem, hown⟩ := List.mem_filter.mp ht
    have hown : IsOwn t := of_decide_eq_true (Bool.and_eq_true_iff.mp hown).1
    have hcarry := (handed_carries hts hkeeps).deployMerge
    rcases List.mem_append.mp hmem with hmem | hmem
    · rcases List.mem_append.mp hmem with hmem | hmem
      · exact hcarry t hmem hown
      · have hupdate := (updateMerge_ok hus).2.1 t (List.mem_of_mem_filter hmem)
        rw [hown.1] at hupdate
        cases hupdate
    · have hdelete := (mergeDelete_spec _).2.1 t hmem
      have hdelete := of_decide_eq_true (List.mem_filter.mp hdelete).2
      rw [hown.1] at hdelete
      cases hdelete

/-- In a run whose additions keep the identity, the contracts of each deployment have the same one
at any time. -/
theorem always_sameIdentity {calls : List Handled}
    (h : ∀ c ∈ calls, c.call.KeepsIdentity projectName) :
    Runs.Always (step projectName) SameIdentity [] calls := by
  let Inv := fun made : List Made =>
    ∀ c ∈ made, (c.kind.identity projectName c.name).Carried c.metadata
  have hstep : ∀ made (c : Handled), Inv made → c.call.KeepsIdentity projectName →
      Inv (step projectName made c) := by
    intro made c hmade hkeeps
    exact List.forall_mem_append.mpr ⟨hmade, made_carried hkeeps⟩
  have hmeets : Runs.EachMeets (step projectName) (fun _ c => c.call.KeepsIdentity projectName)
      [] calls := by
    intro initial c hinitial
    exact h c (hinitial.subset (List.mem_append_right _ List.mem_cons_self))
  have hnil : Inv [] := fun c hc => nomatch hc
  intro initial hinitial
  exact sameIdentity_of_carried (Runs.always_of_eachMeets hstep hnil hmeets initial hinitial)

/-! A deployment with a machine on node 1, to which another is added on node 2. -/

def webModel : MachinesModel :=
  ⟨"web", ⟨"net", "10.20.0.0/16"⟩, [webOptions "web1" "data" (1024 ^ 3)], "", ""⟩

def deployWeb : Handled :=
    ⟨.machinesDeploy false clusterEnv webModel, fun _ => .ok none, fun _ => true⟩

theorem nothing_added : ∀ t ∈ ([] : List TwinDeployment), t.operation = .deploy →
    ∃ w, t.workloads = [w] ∧ isAnyNetwork w = true :=
  fun _ ht => absurd ht List.not_mem_nil

def addToWeb : AddCall where
  known := true
  validators := anyText
  nodeId := .ok 2
  twinId := 1
  contractId := 0
  deploymentName := "web"
  oldDeployments := [webDeployment]
  networkDeployments := []
  networkOnly := nothing_added

def addWeb : Handled where
  call := .add addToWeb (.machine webAnswers webNetwork
    { webOptions "web2" "data2" (1024 ^ 3) with nodeId := 2 })
  get := fun _ => .ok none
  created := fun _ => true

/-- No network is a light one here. -/
def updateWeb : Handled where
  call := .machinesUpdate
    { known := true
      env :=
        { validators := anyText
          updater := .ofAny (fun _ => .ok 1)
            { run := fun _ _ _ => .error .typeError
              network := fun n => some (.light n)
              keeps := fun _ _ _ _ h => nomatch h }
          contracts := [(7, 1)]
          deleteOld := fun d => delete anyText clusterEnv.load true (.ok 1) d [] vmTypes
          noDeploy := fun _ _ h => delete_no_deploy h }
      oldDeployments := [webDeployment] }
    clusterEnv webModel
  get := fun _ => .ok none
  created := fun _ => true

/-- In a project all contracts have its name. -/
theorem webProject_sameIdentity :
    Runs.Always (step "demo") SameIdentity [] [deployWeb, addWeb, updateWeb] := by
  apply always_sameIdentity
  intro c hc
  simp only [List.mem_cons, List.not_mem_nil, or_false] at hc
  rcases hc with rfl | rfl | rfl
  · trivial
  · exact Or.inl (by decide)
  · trivial

/-- Without one the second contract has the project of the added machine. -/
theorem secondMachine_otherProject : ¬Runs.Always (step "") SameIdentity [] [deployWeb, addWeb] := by
  intro h
  have hmade : [deployWeb, addWeb].foldl (step "") [] =
      [⟨.machines, "web", (machinesMetadata "" false "web").toText⟩,
        ⟨.machines, "web", (addMachineMetadata "" "web" "web2").toText⟩] := rfl
  obtain ⟨i, hi⟩ := (h _ (List.prefix_refl _)).carried .machines "web"
  rw [hmade] at hi
  have hfirst := Identity.carried_toText.mp (hi _ List.mem_cons_self rfl rfl)
  have hsecond := Identity.carried_toText.mp
    (hi _ (List.mem_cons_of_mem _ List.mem_cons_self) rfl rfl)
  exact absurd (hfirst.trans hsecond.symm) (by decide)

end ThreefoldSdk.Modules
