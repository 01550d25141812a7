import ThreefoldSdk.HighLevel.Instances
import ThreefoldSdk.Primitives.Appended
import ThreefoldSdk.Primitives.Decoding

/-! Adding a machine, a worker or a zdb to a deployment (`BaseModule._add` in `modules/base.ts`).
Where a contract of the deployment is on the node already, its workloads and the new ones go
together through `UpdateDeployment`, which goes by names. -/

namespace ThreefoldSdk.HighLevel
open Zos Primitives

def workloadExists (name : String) (oldDeployments : List Deployment) : Bool :=
  oldDeployments.any fun d => d.workloads.any fun w => decide (name = w.name)

/-- A deployment with a public IPv4 or a network, which takes no instance. -/
def setApart (d : Deployment) : Bool :=
  d.workloads.any fun w => decide (w.type = .ip) && w.data.v4 || w.isNetwork

/-- The loop of `_add` over the old deployments. When `UpdateDeployment` finds no update the twin
deployment is left without a deployment, and `handle` fails on it. -/
def joinOld (v : Validators) (nodeId : Except GridError Nat) (contractId : Nat) (t : TwinDeployment)
    (network : Option Network) :
    List Deployment → Except GridError (TwinDeployment × Option Network)
  | [] => return (t, network)
  | d :: rest => do
    let oldDeployment ← fromObj v d
    if oldDeployment.contractId ≠ some contractId ∨ setApart oldDeployment then
      joinOld v nodeId contractId t network rest
    else do
      let newDeployment ← fromObj v oldDeployment
      let updated ← updateDeployment nodeId oldDeployment
        { newDeployment with workloads := newDeployment.workloads ++ t.workloads } network
      match updated.result with
      | some deployment => return ({ t with deployment, operation := .update }, updated.network)
      | none => throw .typeError

/-- `_add`: what it hands to `handle`, with the network it passes on. `contractId` is the answer of
`_getContractIdFromNodeId`, 0 when there is none. -/
def add (v : Validators) (nodeId : Except GridError Nat) (contractId : Nat)
    (oldDeployments : List Deployment) (twinDeployments : List TwinDeployment)
    (network : Option Network) : Except GridError (List TwinDeployment × Option Network) := do
  let final := twinDeployments.filter fun t => decide (t.operation = .update)
  match twinDeployments.reverse with
  | [] => throw .typeError
  | t :: rest =>
    let joined := if contractId ≠ 0 ∧ t.publicIps = 0 then
        joinOld v nodeId contractId t network oldDeployments
      else .ok (t, network)
    let (t, network) ← joined
    return (final ++ rest.head?.toList ++ [t], network)

/-- `add_machine`, `add_worker` and `add_zdb`, on the deployments under a name. `networkDeployments`
is what the network needs before. -/
def addInstance (v : Validators) (nodeId : Except GridError Nat) (twinId contractId : Nat)
    (deploymentName : String) (oldDeployments : List Deployment)
    (networkDeployments : List TwinDeployment) (i : Instance) :
    Except GridError (List TwinDeployment × Option Network) := do
  if workloadExists i.name oldDeployments then
    throw (.validation (i.nameTaken deploymentName))
  let t ← i.create twinId
  add v nodeId contractId oldDeployments (networkDeployments ++ [t]) i.network

/-- The emitted deployment has every old workload, with its name, data and version, and besides them
every added one with the next version. -/
def AddedBeside (old : Deployment) (added : List Workload) (emitted : Deployment) : Prop :=
  ∃ kept, emitted.workloads.Perm (kept ++ added.map (bump old.version)) ∧
    List.Forall₂ (fun o w => w.name = o.name ∧ w.data = o.data ∧ w.version = o.version)
      old.workloads kept

/-- The instance, which comes last, leaves the deployment it is put into alone. -/
def LeavesAlone (oldDeployments : List Deployment) (added : List Workload)
    (final : List TwinDeployment) : Prop :=
  ∀ t, final.getLast? = some t → t.operation = .update →
    ∀ old ∈ oldDeployments, old.contractId = t.contractId → AddedBeside old added t.deployment

/-- The deployment an instance is put into: there is one on the node, no public IPv4 is asked for,
and there is none in it. -/
structure Instance.Joins (i : Instance) (contractId : Nat) (old : Deployment) : Prop where
  contract : contractId ≠ 0
  publicIps : i.publicIps = 0
  contractId : old.contractId = some contractId
  together : setApart old = false

/-- No workload of the instance has the name of a workload there or of another of its own, and
nothing there is in a field that `fromObj` drops. -/
structure Instance.FreeIn (i : Instance) (old : Deployment) : Prop where
  distinct : (i.name :: i.otherNames).Nodup
  unused : ∀ n ∈ i.name :: i.otherNames, n ∉ old.names
  shown : ∀ w ∈ old.workloads, NothingHidden w.data

/-! One deployment. -/

theorem decoded_idem (w : Workload) : decoded (decoded w) = decoded w := by
  obtain ⟨version, name, type, data, metadata, description, result⟩ := w
  cases data <;> rfl

theorem setApart_decoded (d : Deployment) :
    setApart { d with workloads := d.workloads.map decoded } = setApart d := by
  have hv4 : ∀ w : Workload, (decoded w).data.v4 = w.data.v4 := by
    intro w
    show (exposed w.data).v4 = w.data.v4
    cases w.data <;> rfl
  unfold setApart
  rw [List.any_map]
  apply congrArg (List.any d.workloads)
  funext w
  show (decide (w.type = .ip) && (decoded w).data.v4 || w.isNetwork) = _
  rw [hv4]

theorem names_decoded (d : Deployment) :
    ({ d with workloads := d.workloads.map decoded } : Deployment).names = d.names :=
  List.map_map

theorem fromObj_again {v : Validators} {d o o' : Deployment} (h : fromObj v d = .ok o)
    (h' : fromObj v o = .ok o') : o' = o := by
  obtain ⟨rfl, -⟩ := fromObj_eq h
  obtain ⟨rfl, -⟩ := fromObj_eq h'
  have hidem : (d.workloads.map decoded).map decoded = d.workloads.map decoded := by
    rw [List.map_map]
    exact List.map_congr_left fun w _ => decoded_idem w
  dsimp only
  rw [hidem]

theorem not_isNetwork {d : Deployment} (h : setApart d = false) :
    ∀ w ∈ d.workloads, w.isNetwork = false := by
  intro w hw
  have hall := List.any_eq_false.mp h w hw
  rw [Bool.not_eq_true, Bool.or_eq_false_iff] at hall
  exact hall.2

theorem updateDeployment_ne_nil {nodeId : Except GridError Nat} {old new d : Deployment}
    {network : Option Network} {r : Updated}
    (h : updateDeployment nodeId old new network = .ok r) (hd : r.result = some d) :
    old.workloads ≠ [] := by
  intro hnil
  unfold updateDeployment at h
  rw [hnil] at h
  cases h
  cases hd

/-- Old names and added names, each once: then nothing else is emitted. -/
theorem appended_names {nodeId : Except GridError Nat} {old d : Deployment} {added : List Workload}
    {network : Option Network} {r : Updated}
    (h : updateDeployment nodeId old { old with workloads := old.workloads ++ added } network =
      .ok r)
    (hd : r.result = some d)
    (hlength : d.workloads.length = old.workloads.length + added.length) :
    (added.map Workload.name).Nodup ∧ ∀ n ∈ added.map Workload.name, n ∉ old.names := by
  obtain ⟨kept, news, rfl, hkept, hnodup, hnews⟩ := updateDeployment_result h hd
  have hsub : news.map Workload.name ⊆ added.map Workload.name := by
    intro n hn
    obtain ⟨hin, hout⟩ := hnews n hn
    unfold Deployment.names at hin
    rw [List.map_append] at hin
    exact (List.mem_append.mp hin).resolve_left hout
  have hle : (added.map Workload.name).length ≤ (news.map Workload.name).length := by
    rw [List.length_map, List.length_map]
    dsimp only at hlength
    rw [List.length_append] at hlength
    omega
  have hperm : (news.map Workload.name).Perm (added.map Workload.name) :=
    (hnodup.subperm hsub).perm_of_length_le hle
  refine ⟨hperm.nodup_iff.mp hnodup, ?_⟩
  intro n hn
  exact (hnews n (hperm.mem_iff.mpr hn)).2

theorem addedBeside_iff {v : Validators} {nodeId : Except GridError Nat} {old o d : Deployment}
    {added : List Workload} {network : Option Network} {r : Updated} (ho : fromObj v old = .ok o)
    (h : updateDeployment nodeId o { o with workloads := o.workloads ++ added } network = .ok r)
    (hd : r.result = some d) (hold : old.names.Nodup) (happly : setApart old = false)
    (hadded : added ≠ []) :
    AddedBeside old added d ↔ (added.map Workload.name).Nodup ∧
      (∀ n ∈ added.map Workload.name, n ∉ old.names) ∧
        ∀ w ∈ old.workloads, NothingHidden w.data := by
  obtain ⟨rfl, -⟩ := fromObj_eq ho
  have hplain := not_isNetwork ((setApart_decoded old).trans happly)
  have hne := updateDeployment_ne_nil h hd
  have hemitted (hnodup : (added.map Workload.name).Nodup)
      (hunused : ∀ n ∈ added.map Workload.name, n ∉ old.names) :
      d = appended { old with workloads := old.workloads.map decoded } added := by
    have hall : ((old.workloads.map decoded ++ added).map Workload.name).Nodup := by
      rw [List.map_append, List.nodup_append']
      rw [← names_decoded] at hold
      refine ⟨hold, hnodup, ?_⟩
      intro n hn hn'
      exact hunused n hn' (names_decoded old ▸ hn)
    exact Option.some.inj (hd.symm.trans (updateDeployment_appended h hall hplain hne hadded))
  constructor
  · intro hbeside
    obtain ⟨kept, hperm, hkept⟩ := hbeside
    have hlength : d.workloads.length = (old.workloads.map decoded).length + added.length := by
      rw [hperm.length_eq, List.length_append, List.length_map, List.length_map,
        hkept.length_eq]
    obtain ⟨hnodup, hunused⟩ := appended_names h hd hlength
    rw [names_decoded] at hunused
    refine ⟨hnodup, hunused, ?_⟩
    intro w hw
    obtain ⟨x, hx, hname, hdata, -⟩ := Forall2.exists_right hkept hw
    have hin := hperm.mem_iff.mpr (List.mem_append_left _ hx)
    rw [hemitted hnodup hunused] at hin
    rcases List.mem_append.mp hin with hin | hin
    · obtain ⟨w', hw', rfl⟩ := List.mem_map.mp hin
      have hsame : w' = w := eq_of_name hold hw' hw hname
      rw [hsame] at hdata
      exact (exposed_eq_iff w.data).mp hdata
    · obtain ⟨w', hw', rfl⟩ := List.mem_map.mp hin
      exact absurd (List.mem_map_of_mem hw)
        (hname ▸ hunused _ (List.mem_map_of_mem hw'))
  · intro hfree
    obtain ⟨hnodup, hunused, hshown⟩ := hfree
    have hdecoded : old.workloads.map decoded = old.workloads :=
      map_decoded_of_exposed fun w hw => (exposed_eq_iff w.data).mpr (hshown w hw)
    refine ⟨old.workloads, ?_, List.forall₂_same.mpr fun w _ => ⟨rfl, rfl, rfl⟩⟩
    rw [hemitted hnodup hunused]
    unfold appended
    rw [hdecoded]

/-! The old deployments. -/

/-- The instance becomes an update of the deployment that takes it, or stays a new one. -/
theorem joinOld_ok {v : Validators} {nodeId : Except GridError Nat} {contractId : Nat}
    {t t' : TwinDeployment} {network network' : Option Network} {olds : List Deployment}
    (h : joinOld v nodeId contractId t network olds = .ok (t', network')) :
    (t' = t ∧ ∀ old ∈ olds, ¬(old.contractId = some contractId ∧ setApart old = false)) ∨
      ∃ old ∈ olds, old.contractId = some contractId ∧ setApart old = false ∧
        ∃ o r d, fromObj v old = .ok o ∧
          updateDeployment nodeId o { o with workloads := o.workloads ++ t.workloads } network =
            .ok r ∧
          r.result = some d ∧ t' = { t with deployment := d, operation := .update } := by
  induction olds with
  | nil =>
    cases h
    exact Or.inl ⟨rfl, fun old hold => nomatch hold⟩
  | cons old olds ih =>
    obtain ⟨o, ho, hrest⟩ := Frame.exceptBind_eq_ok.mp h
    obtain ⟨hcontract, hapart⟩ : o.contractId = old.contractId ∧ setApart o = setApart old := by
      obtain ⟨rfl, -⟩ := fromObj_eq ho
      exact ⟨rfl, setApart_decoded old⟩
    by_cases hskip : o.contractId ≠ some contractId ∨ setApart o
    · rw [if_pos hskip] at hrest
      have hnot : ¬(old.contractId = some contractId ∧ setApart old = false) := by
        intro hjoin
        rw [← hcontract, ← hapart] at hjoin
        rcases hskip with hskip | hskip
        · exact hskip hjoin.1
        · exact Bool.false_ne_true (hjoin.2.symm.trans hskip)
      rcases ih hrest with ⟨rfl, hnone⟩ | ⟨old', hold', hjoin⟩
      · exact Or.inl ⟨rfl, List.forall_mem_cons.mpr ⟨hnot, hnone⟩⟩
      · exact Or.inr ⟨old', List.mem_cons_of_mem _ hold', hjoin⟩
    · rw [if_neg hskip] at hrest
      rw [not_or, not_not, Bool.not_eq_true, hcontract, hapart] at hskip
      obtain ⟨o', ho', hrest⟩ := Frame.exceptBind_eq_ok.mp hrest
      obtain rfl := fromObj_again ho ho'
      obtain ⟨r, hr, hrest⟩ := Frame.exceptBind_eq_ok.mp hrest
      cases hd : r.result with
      | none =>
        rw [hd] at hrest
        cases hrest
      | some d =>
        rw [hd] at hrest
        cases hrest
        exact Or.inr ⟨old, List.mem_cons_self, hskip.1, hskip.2, o', r, d, ho, hr, hd, rfl⟩

/-- Before the instance come the updates of the network and its last new deployment. -/
theorem add_ok {v : Validators} {nodeId : Except GridError Nat} {contractId : Nat}
    {olds : List Deployment} {before : List TwinDeployment} {t : TwinDeployment}
    {network network' : Option Network} {final : List TwinDeployment}
    (h : add v nodeId contractId olds (before ++ [t]) network = .ok (final, network')) :
    ∃ t' n, final = ((before ++ [t]).filter fun t => decide (t.operation = .update)) ++
        before.reverse.head?.toList ++ [t'] ∧
      (if contractId ≠ 0 ∧ t.publicIps = 0 then joinOld v nodeId contractId t network olds
        else .ok (t, network)) = .ok (t', n) := by
  unfold add at h
  rw [List.reverse_append, List.reverse_singleton, List.singleton_append] at h
  obtain ⟨⟨t', n⟩, hjoin, hrest⟩ := Frame.exceptBind_eq_ok.mp h
  cases hrest
  exact ⟨t', _, rfl, hjoin⟩

/-- An instance that is added is created and handed on with the deployments of its network. -/
theorem addInstance_ok {v : Validators} {nodeId : Except GridError Nat} {twinId contractId : Nat}
    {deploymentName : String} {olds : List Deployment} {networkDeployments : List TwinDeployment}
    {i : Instance} {r : List TwinDeployment × Option Network}
    (h : addInstance v nodeId twinId contractId deploymentName olds networkDeployments i = .ok r) :
    ∃ t, i.create twinId = .ok t ∧
      add v nodeId contractId olds (networkDeployments ++ [t]) i.network = .ok r := by
  unfold addInstance at h
  by_cases htaken : workloadExists i.name olds = true
  · rw [if_pos htaken] at h
    cases h
  · rw [if_neg htaken] at h
    exact Frame.exceptBind_eq_ok.mp h

/-- Adding an instance leaves the deployment it is put into alone exactly when the names it brings
are free there, and `fromObj` drops nothing of what is there. -/
theorem addInstance_leavesAlone_iff {v : Validators} {nodeId : Except GridError Nat}
    {twinId contractId : Nat} {deploymentName : String} {oldDeployments : List Deployment}
    {networkDeployments final : List TwinDeployment} {i : Instance} {t : TwinDeployment}
    {network : Option Network}
    (h : addInstance v nodeId twinId contractId deploymentName oldDeployments networkDeployments i =
      .ok (final, network))
    (ht : i.create twinId = .ok t) (hids : (oldDeployments.map (·.contractId)).Nodup)
    (hnames : ∀ old ∈ oldDeployments, old.names.Nodup) :
    LeavesAlone oldDeployments t.workloads final ↔
      ∀ old ∈ oldDeployments, i.Joins contractId old → i.FreeIn old := by
  obtain ⟨hperm, hdeploy, hips⟩ := Instance.create_ok ht
  obtain ⟨t₀, ht₀, hadd⟩ := addInstance_ok h
  obtain rfl : t = t₀ := Except.ok.inj (ht.symm.trans ht₀)
  have hadded : t.workloads ≠ [] := by
    intro hnil
    rw [hnil] at hperm
    exact List.cons_ne_nil _ _ hperm.symm.eq_nil
  have hfree : ∀ old, i.FreeIn old ↔ (t.workloads.map Workload.name).Nodup ∧
      (∀ n ∈ t.workloads.map Workload.name, n ∉ old.names) ∧
        ∀ w ∈ old.workloads, NothingHidden w.data := by
    intro old
    constructor
    · intro hfree
      exact ⟨hperm.nodup_iff.mpr hfree.distinct,
        fun n hn => hfree.unused n (hperm.mem_iff.mp hn), hfree.shown⟩
    · intro hfree
      exact ⟨hperm.nodup_iff.mp hfree.1, fun n hn => hfree.2.1 n (hperm.mem_iff.mpr hn),
        hfree.2.2⟩
  obtain ⟨t', n, hfinal, hjoin⟩ := add_ok hadd
  have hlast : final.getLast? = some t' := hfinal ▸ List.getLast?_concat
  have hstays (hsame : t' = t) (hnone : ∀ old ∈ oldDeployments, ¬i.Joins contractId old) :
      LeavesAlone oldDeployments t.workloads final ↔
        ∀ old ∈ oldDeployments, i.Joins contractId old → i.FreeIn old := by
    apply iff_of_true
    · intro t'' hlast'' hupdate
      rw [Option.some.inj (hlast''.symm.trans hlast), hsame, hdeploy] at hupdate
      cases hupdate
    · intro old hold hjoins
      exact absurd hjoins (hnone old hold)
  by_cases hcond : contractId ≠ 0 ∧ t.publicIps = 0
  · rw [if_pos hcond] at hjoin
    rcases joinOld_ok hjoin with ⟨hsame, hnone⟩ | ⟨old, hold, hcontract, happly, hjoined⟩
    · exact hstays hsame fun old hold hjoins =>
        hnone old hold ⟨hjoins.contractId, hjoins.together⟩
    · obtain ⟨o, r, d, ho, hr, hd, ht'⟩ := hjoined
      have hjoins : i.Joins contractId old := ⟨hcond.1, hips ▸ hcond.2, hcontract, happly⟩
      have hiff := (addedBeside_iff ho hr hd (hnames old hold) happly hadded).trans
        (hfree old).symm
      have hdid : t'.contractId = some contractId := by
        obtain ⟨kept, news, rfl, -⟩ := updateDeployment_result hr hd
        obtain ⟨rfl, -⟩ := fromObj_eq ho
        rw [ht']
        exact hcontract
      -- contracts are on the list once
      have honly : ∀ old' ∈ oldDeployments, old'.contractId = some contractId → old' = old :=
        fun old' hold' hid' => List.inj_on_of_nodup_map hids hold' hold (hid'.trans hcontract.symm)
      constructor
      · intro hleaves old' hold' hjoins'
        rw [honly old' hold' hjoins'.contractId]
        apply hiff.mp
        have hbeside := hleaves t' hlast (by rw [ht']) old hold (hcontract.trans hdid.symm)
        rw [ht'] at hbeside
        exact hbeside
      · intro hall t'' hlast'' _ old' hold' hid'
        have hsame'' : t'' = t' := Option.some.inj (hlast''.symm.trans hlast)
        rw [hsame'', hdid] at hid'
        rw [honly old' hold' hid', hsame'', ht']
        exact hiff.mpr (hall old hold hjoins)
  · rw [if_neg hcond] at hjoin
    cases hjoin
    exact hstays rfl fun old hold hjoins => hcond ⟨hjoins.contract, hips.trans hjoins.publicIps⟩

/-! A machine with a mount, on a node where another machine of the deployment has one. -/

def webAnswers : VmAnswers where
  zmachine := true
  ip := false
  machineIp := "10.20.2.3"
  myceliumSeed := ""
  getZdbs := fun _ => ([], [])
  hexKey := id
  qsfsMetadata := fun name _ => name

def webNetwork : Network := ⟨"net", "10.20.0.0/16", [], [], [], [], [], []⟩

/-- A machine with one mount. -/
def webOptions (name disk : String) (size : Nat) : VmOptions where
  name := name
  nodeId := 1
  flist := "https://hub.grid.tf/web.flist"
  cpu := 1
  memory := 1024
  rootfsSize := 2 * 1024 ^ 3
  disks := [⟨disk, size, "/data"⟩]
  publicIp := false
  publicIp6 := false
  planetary := false
  mycelium := false
  entrypoint := ""
  env := ⟨[], List.nodup_nil⟩
  contractMetadata := ""
  metadata := ""
  description := ""
  qsfsDisks := []
  corex := false
  solutionProviderId := none
  zlogsOutput := ""
  gpus := []

def webWorkloads (name disk : String) (size : Nat) : List Workload :=
  [DiskPrimitive.create size disk "" "" 0,
    (webOptions name disk size).vmWorkload webAnswers "net"]

/-- The deployment of the first machine, under contract 7. -/
def webDeployment : Deployment :=
  { createDeployment 1 (webWorkloads "web1" "data" (1024 ^ 3)) 0 "" "" 0 with contractId := some 7 }

def secondMachine (disk : String) : Instance :=
  .machine webAnswers webNetwork (webOptions "web2" disk (2 * 1024 ^ 3))

/-- The second machine, with a mount of another name, leaves the first one alone. -/
theorem secondDisk_leavesAlone : ∃ t final network,
    (secondMachine "data2").create 1 = .ok t ∧
      addInstance anyText (.ok 1) 1 7 "web" [webDeployment] [] (secondMachine "data2") =
        .ok (final, network) ∧
      LeavesAlone [webDeployment] t.workloads final := by
  have hcreate : ∃ t, (secondMachine "data2").create 1 = .ok t := ⟨_, rfl⟩
  have hadd : ∃ r, addInstance anyText (.ok 1) 1 7 "web" [webDeployment] []
      (secondMachine "data2") = .ok r := ⟨_, rfl⟩
  obtain ⟨t, ht⟩ := hcreate
  obtain ⟨⟨final, network⟩, h⟩ := hadd
  have hnames : ∀ old ∈ [webDeployment], old.names.Nodup := by
    intro old hold
    rw [List.mem_singleton.mp hold]
    decide
  refine ⟨t, final, network, ht, h, ?_⟩
  apply (addInstance_leavesAlone_iff h ht (by decide) hnames).mpr
  intro old hold _
  rw [List.mem_singleton.mp hold]
  exact ⟨by decide, by decide, by decide⟩

/-- With a mount of the same name there is one mount left for both machines, of the new size. -/
theorem sameDisk_replaced : ∃ t final network,
    (secondMachine "data").create 1 = .ok t ∧
      addInstance anyText (.ok 1) 1 7 "web" [webDeployment] [] (secondMachine "data") =
        .ok (final, network) ∧
      webDeployment.names.Nodup ∧ ¬LeavesAlone [webDeployment] t.workloads final := by
  refine ⟨_, _, _, rfl, rfl, by decide, ?_⟩
  intro hleaves
  obtain ⟨kept, hperm, hkept⟩ := hleaves _ rfl rfl webDeployment List.mem_cons_self rfl
  have hlength := hperm.length_eq
  rw [List.length_append, ← hkept.length_eq] at hlength
  exact absurd hlength (by decide)

end ThreefoldSdk.HighLevel
