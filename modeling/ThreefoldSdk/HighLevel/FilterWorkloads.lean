import ThreefoldSdk.HighLevel.Handle
import ThreefoldSdk.Primitives.Decoding

/-! `HighLevelBase._filterWorkloads`: which workloads go with the machines that are deleted. -/

namespace ThreefoldSdk.HighLevel
open Zos Primitives Frame

/-- The types that `VMHL.delete` passes. -/
def vmTypes : List WorkloadTypes :=
  [.ip, .ipv4, .zmount, .volume, .zmachine, .qsfs, .zlogs, .zmachinelight]

def isMachine (w : Workload) : Bool := decide (w.type = .zmachine ∨ w.type = .zmachinelight)

/-- `item.data["zmachine"]` or `item.data["zmachine-light"]`; no class has a field of the second
name. -/
def machineField (type : WorkloadTypes) : WorkloadData → Option String
  | .zlogs d => if type = .zmachine then d.zmachine else none
  | _ => none

/-- `data["network"].public_ip`. -/
def publicIpField : WorkloadData → Except GridError String
  | .zmachine d => .ok d.network.publicIp
  | _ => .error .typeError

/-- The zlogs workloads whose field of the type is this name. -/
def logsOf (deployment : Deployment) (type : WorkloadTypes) (name : String) : List Workload :=
  deployment.workloads.filter fun item =>
    decide (item.type = .zlogs ∧ machineField type item.data = some name)

/-- What the loop pushes to `names` for one machine. -/
def pushedNames (deployment : Deployment) (type : WorkloadTypes) (workload : Workload) :
    Except GridError (List String) :=
  match workload.data.mounts with
  | none => .error .typeError
  | some mounts => do
    let found := mounts.map (·.name) ++ (logsOf deployment type workload.name).map (·.name)
    if type = .zmachine then do
      let ip ← publicIpField workload.data
      return found ++ [ip]
    else return found

/-- The loop over the machines of one type; it hands back `names` and the machines to delete. -/
def collectMachines (deployment : Deployment) (type : WorkloadTypes) :
    List Workload → List String → Except GridError (List String × List Workload)
  | [], names => .ok (names, [])
  | w :: ws, names =>
    if w.name ∉ names then collectMachines deployment type ws names
    else do
      let pushed ← pushedNames deployment type w
      let (names, deleted) ← collectMachines deployment type ws (names ++ pushed)
      return (names, w :: deleted)

/-- Both loops. -/
def collectTypes (deployment : Deployment) (types : List WorkloadTypes) :
    List WorkloadTypes → List String → Except GridError (List String × List Workload)
  | [], names => .ok (names, [])
  | type :: rest, names =>
    if type ∉ types then collectTypes deployment types rest names
    else do
      let (names, deleted) ← collectMachines deployment type
        (deployment.workloads.filter fun item => decide (item.type = type)) names
      let (names, deleted') ← collectTypes deployment types rest names
      return (names, deleted ++ deleted')

/-- Whether a workload remains, with the names that were collected. -/
def remains (names : List String) (types : List WorkloadTypes) (w : Workload) : Bool :=
  isAnyNetwork w || decide (w.type ∉ types) || decide (names ≠ [] ∧ w.name ∉ names)

/-- `_filterWorkloads`: the remaining workloads and the machines that are deleted. -/
def filterWorkloads (deployment : Deployment) (names : List String) (types : List WorkloadTypes) :
    Except GridError (List Workload × List Workload) :=
  if names = [] then
    .ok (deployment.workloads.filter (remains names types), deployment.workloads.filter isMachine)
  else do
    let (names, deleted) ← collectTypes deployment types [.zmachine, .zmachinelight] names
    return (deployment.workloads.filter (remains names types), deleted)

theorem network_remains {names : List String} {types : List WorkloadTypes} {w : Workload}
    (h : isAnyNetwork w = true) : remains names types w = true := by
  unfold remains
  rw [h]
  rfl

/-- Network workloads always remain. -/
theorem filterWorkloads_keeps_networks {deployment : Deployment} {names : List String}
    {types : List WorkloadTypes} {remaining deleted : List Workload}
    (h : filterWorkloads deployment names types = .ok (remaining, deleted)) {w : Workload}
    (hw : w ∈ deployment.workloads) (hnetwork : isAnyNetwork w = true) : w ∈ remaining := by
  unfold filterWorkloads at h
  split_ifs at h with hnil
  · cases h
    exact List.mem_filter.mpr ⟨hw, network_remains hnetwork⟩
  · obtain ⟨collected, -, hok⟩ := exceptBind_eq_ok.mp h
    cases hok
    exact List.mem_filter.mpr ⟨hw, network_remains hnetwork⟩

/-! What belongs to a machine. -/

def isDisk (w : Workload) : Bool :=
  decide (w.type = .zmount ∨ w.type = .volume ∨ w.type = .qsfs)

def isPublicIp (w : Workload) : Bool := decide (w.type = .ip ∨ w.type = .ipv4)

/-- The name of the machine's public ip; a machine without one has the empty name. -/
def publicIpName : WorkloadData → Option String
  | .zmachine d => some d.network.publicIp
  | _ => none

def mountNames (w : Workload) : List String := (w.data.mounts.getD []).map (·.name)

/-- The machine that a zlogs workload was made for. -/
def logTarget : WorkloadData → Option String
  | .zlogs d => d.zmachine
  | _ => none

/-- The workload is the machine, a disk it mounts, its public ip, or a zlogs workload of it. -/
def BelongsTo (machine w : Workload) : Prop :=
  w = machine ∨ (isDisk w = true ∧ w.name ∈ mountNames machine) ∨
    (isPublicIp w = true ∧ publicIpName machine.data = some w.name) ∨
    logTarget w.data = some machine.name

instance (machine w : Workload) : Decidable (BelongsTo machine w) := by
  unfold BelongsTo
  infer_instance

/-- The workload belongs to one of the named machines. -/
def Belongs (deployment : Deployment) (names : List String) (w : Workload) : Prop :=
  ∃ machine ∈ deployment.workloads, isMachine machine = true ∧ machine.name ∈ names ∧
    BelongsTo machine w

instance (deployment : Deployment) (names : List String) :
    DecidablePred (Belongs deployment names) := fun w => by
  unfold Belongs
  infer_instance

/-- What a node has accepted: no two workloads have one name, the workload that a machine mounts is
a disk, and the one it takes its public ip from is a public ip. -/
structure Accepted (deployment : Deployment) : Prop where
  names : (deployment.workloads.map (·.name)).Nodup
  disks : ∀ machine ∈ deployment.workloads, ∀ w ∈ deployment.workloads,
    w.name ∈ mountNames machine → isDisk w = true
  ips : ∀ machine ∈ deployment.workloads, ∀ w ∈ deployment.workloads,
    publicIpName machine.data = some w.name → isPublicIp w = true

/-- The workload belongs to a machine that is not named. -/
def BelongsElsewhere (deployment : Deployment) (names : List String) (w : Workload) : Prop :=
  ∃ machine ∈ deployment.workloads, isMachine machine = true ∧ machine.name ∉ names ∧
    BelongsTo machine w

/-- Of the fetched deployment, all remains that belongs to none of the named machines, and nothing
else; every workload of the other machines is kept. -/
def RemovesExactly (deployment decodedDeployment : Deployment) (names : List String) : Prop :=
  ∃ remaining deleted, filterWorkloads decodedDeployment names vmTypes = .ok (remaining, deleted) ∧
    remaining = (deployment.workloads.filter fun w => decide ¬Belongs deployment names w).map decoded ∧
    ∀ w ∈ deployment.workloads, BelongsElsewhere deployment names w → decoded w ∈ remaining

/-! What the loops collect from a decoded deployment. -/

/-- The names a machine brings with it. -/
def ownNames (w : Workload) : List String := mountNames w ++ (publicIpName w.data).toList

/-- A disk or a public ip of the deployment is of both machines. -/
def Share (deployment : Deployment) (machine other : Workload) : Prop :=
  ∃ w ∈ deployment.workloads, w.name ∈ ownNames machine ∧ w.name ∈ ownNames other

theorem machineField_exposed (type : WorkloadTypes) (d : WorkloadData) :
    machineField type (exposed d) = none := by
  cases d with
  | zlogs d => exact ite_self none
  | _ => rfl

/-- Decoded zlogs workloads name no machine, so none is found. -/
theorem logsOf_decoded {deployment : Deployment} {ws : List Workload}
    (h : deployment.workloads = ws.map decoded) (type : WorkloadTypes) (name : String) :
    logsOf deployment type name = [] := by
  unfold logsOf
  rw [h, List.filter_eq_nil_iff]
  intro item hitem
  obtain ⟨w, -, rfl⟩ := List.mem_map.mp hitem
  rw [decide_eq_true_eq]
  intro hboth
  have hnone : machineField type (decoded w).data = none := machineField_exposed type w.data
  rw [hnone] at hboth
  cases hboth.2

theorem pushedNames_decoded {deployment : Deployment} {ws : List Workload}
    (h : deployment.workloads = ws.map decoded) {w : Workload} (hdata : w.type = w.data.type)
    (hmachine : isMachine w = true) : pushedNames deployment w.type w = .ok (ownNames w) := by
  obtain ⟨version, name, type, data, metadata, description, result⟩ := w
  have htype : type = data.type := hdata
  subst htype
  unfold pushedNames
  rw [logsOf_decoded h]
  cases data with
  | zmachine d => exact congrArg Except.ok (congrArg (· ++ [d.network.publicIp]) (List.append_nil _))
  | zmachinelight d => rfl
  | _ => cases hmachine

/-- The loop over machines of which none has a name that another one brings. -/
theorem collectMachines_eq {deployment : Deployment} {type : WorkloadTypes} {ws : List Workload}
    (hpushed : ∀ w ∈ ws, pushedNames deployment type w = .ok (ownNames w))
    (happart : ∀ w ∈ ws, ∀ machine ∈ ws, w.name ∉ ownNames machine) (names : List String) :
    collectMachines deployment type ws names =
      .ok (names ++ (ws.filter fun w => decide (w.name ∈ names)).flatMap ownNames,
        ws.filter fun w => decide (w.name ∈ names)) := by
  induction ws generalizing names with
  | nil =>
    rw [collectMachines, List.filter_nil, List.flatMap_nil, List.append_nil]
  | cons w ws ih =>
    have ih' := ih (fun x hx => hpushed x (List.mem_cons_of_mem _ hx))
      fun x hx y hy => happart x (List.mem_cons_of_mem _ hx) y (List.mem_cons_of_mem _ hy)
    rw [collectMachines]
    by_cases hw : w.name ∈ names
    · have hsame : (ws.filter fun x => decide (x.name ∈ names ++ ownNames w)) =
          ws.filter fun x => decide (x.name ∈ names) := by
        apply List.filter_congr
        intro x hx
        have hnot := happart x (List.mem_cons_of_mem _ hx) w List.mem_cons_self
        rw [decide_eq_decide, List.mem_append]
        exact or_iff_left hnot
      rw [if_neg (not_not.mpr hw), hpushed w List.mem_cons_self]
      show (collectMachines deployment type ws (names ++ ownNames w) >>= fun r =>
        Except.ok (r.1, w :: r.2)) = _
      rw [ih', hsame, List.filter_cons_of_pos (by simpa using hw), List.flatMap_cons, ← List.append_assoc]
      rfl
    · rw [if_pos hw, ih', List.filter_cons_of_neg (by simpa using hw)]

/-- The machines of one type whose name is given. -/
def namedMachines (deployment : Deployment) (type : WorkloadTypes) (names : List String) :
    List Workload :=
  (deployment.workloads.filter fun w => decide (w.type = type)).filter fun w =>
    decide (w.name ∈ names)

theorem mem_namedMachines {deployment : Deployment} {type : WorkloadTypes} {names : List String}
    {w : Workload} : w ∈ namedMachines deployment type names ↔
      w ∈ deployment.workloads ∧ w.type = type ∧ w.name ∈ names := by
  unfold namedMachines
  rw [List.mem_filter, List.mem_filter, decide_eq_true_eq, decide_eq_true_eq, and_assoc]

/-- All the names that are collected, and the machines. -/
def collected (deployment : Deployment) (names : List String) : List Workload :=
  namedMachines deployment .zmachine names ++ namedMachines deployment .zmachinelight names

theorem mem_collected {deployment : Deployment} {names : List String} {w : Workload} :
    w ∈ collected deployment names ↔
      w ∈ deployment.workloads ∧ isMachine w = true ∧ w.name ∈ names := by
  unfold collected isMachine
  rw [List.mem_append, mem_namedMachines, mem_namedMachines, decide_eq_true_eq]
  constructor
  · intro h
    rcases h with ⟨hw, htype, hname⟩ | ⟨hw, htype, hname⟩
    · exact ⟨hw, Or.inl htype, hname⟩
    · exact ⟨hw, Or.inr htype, hname⟩
  · intro h
    obtain ⟨hw, htype | htype, hname⟩ := h
    · exact Or.inl ⟨hw, htype, hname⟩
    · exact Or.inr ⟨hw, htype, hname⟩

theorem collectTypes_eq {deployment : Deployment} {ws : List Workload}
    (h : deployment.workloads = ws.map decoded)
    (htypes : ∀ w ∈ deployment.workloads, w.type = w.data.type)
    (happart : ∀ w ∈ deployment.workloads, ∀ machine ∈ deployment.workloads, isMachine w = true →
      w.name ∉ ownNames machine) (names : List String) :
    collectTypes deployment vmTypes [.zmachine, .zmachinelight] names =
      .ok (names ++ (collected deployment names).flatMap ownNames, collected deployment names) := by
  have hpushed : ∀ type, type = .zmachine ∨ type = .zmachinelight →
      ∀ w ∈ deployment.workloads.filter (fun item => decide (item.type = type)),
        pushedNames deployment type w = .ok (ownNames w) := by
    intro type htype w hw
    obtain ⟨hmem, hof⟩ := List.mem_filter.mp hw
    have hof := of_decide_eq_true hof
    subst hof
    exact pushedNames_decoded h (htypes w hmem) (decide_eq_true htype)
  have happart' : ∀ type, type = .zmachine ∨ type = .zmachinelight →
      ∀ w ∈ deployment.workloads.filter (fun item => decide (item.type = type)),
        ∀ machine ∈ deployment.workloads.filter (fun item => decide (item.type = type)),
          w.name ∉ ownNames machine := by
    intro type htype w hw machine hmachine
    obtain ⟨hmem, hof⟩ := List.mem_filter.mp hw
    have hof := of_decide_eq_true hof
    subst hof
    exact happart w hmem machine (List.mem_filter.mp hmachine).1 (decide_eq_true htype)
  -- what the first loop brings names none of the machines of the second
  have hlights : ((deployment.workloads.filter fun item => decide (item.type = .zmachinelight)).filter
        fun w => decide (w.name ∈ names ++ (namedMachines deployment .zmachine names).flatMap ownNames)) =
      namedMachines deployment .zmachinelight names := by
    apply List.filter_congr
    intro w hw
    obtain ⟨hmem, hof⟩ := List.mem_filter.mp hw
    rw [decide_eq_decide, List.mem_append]
    refine or_iff_left fun hown => ?_
    obtain ⟨machine, hmachine, hin⟩ := List.mem_flatMap.mp hown
    exact happart w hmem machine (mem_namedMachines.mp hmachine).1
      (decide_eq_true (Or.inr (of_decide_eq_true hof))) hin
  have hfirst := collectMachines_eq (hpushed .zmachine (Or.inl rfl))
    (happart' .zmachine (Or.inl rfl)) names
  have hsecond := collectMachines_eq (hpushed .zmachinelight (Or.inr rfl))
    (happart' .zmachinelight (Or.inr rfl))
    (names ++ (namedMachines deployment .zmachine names).flatMap ownNames)
  rw [hlights] at hsecond
  rw [collectTypes, if_neg (by decide), hfirst]
  show (collectTypes deployment vmTypes [.zmachinelight]
      (names ++ (namedMachines deployment .zmachine names).flatMap ownNames) >>= fun r =>
    (Except.ok (r.1, namedMachines deployment .zmachine names ++ r.2) : Except GridError _)) = _
  rw [collectTypes, if_neg (by decide)]
  rw [hsecond]
  show Except.ok (_, namedMachines deployment .zmachine names ++
    (namedMachines deployment .zmachinelight names ++ [])) = _
  unfold collected
  rw [List.append_nil, List.flatMap_append, List.append_assoc]

/-! Decoding changes nothing that machines refer to. -/

theorem mountNames_decoded (w : Workload) : mountNames (decoded w) = mountNames w := by
  obtain ⟨version, name, type, data, metadata, description, result⟩ := w
  cases data <;> rfl

theorem publicIpName_decoded (w : Workload) : publicIpName (decoded w).data = publicIpName w.data := by
  obtain ⟨version, name, type, data, metadata, description, result⟩ := w
  cases data <;> rfl

theorem ownNames_decoded (w : Workload) : ownNames (decoded w) = ownNames w := by
  unfold ownNames
  rw [mountNames_decoded, publicIpName_decoded]

theorem mem_ownNames {machine : Workload} {name : String} : name ∈ ownNames machine ↔
    name ∈ mountNames machine ∨ publicIpName machine.data = some name := by
  unfold ownNames
  rw [List.mem_append, Option.mem_toList]

theorem isMachine_not_disk {w : Workload} (h : isMachine w = true) : isDisk w = false := by
  rcases of_decide_eq_true h with htype | htype
  · rw [isDisk, htype]
    rfl
  · rw [isDisk, htype]
    rfl

theorem isMachine_not_publicIp {w : Workload} (h : isMachine w = true) : isPublicIp w = false := by
  rcases of_decide_eq_true h with htype | htype
  · rw [isPublicIp, htype]
    rfl
  · rw [isPublicIp, htype]
    rfl

/-- What belongs to a machine otherwise than as its logs is no zlogs workload. -/
theorem not_logs_of_belongs {machine w : Workload} (hmachine : isMachine machine = true)
    (h : w = machine ∨ isDisk w = true ∨ isPublicIp w = true) : w.type ≠ .zlogs := by
  intro hlogs
  rcases h with rfl | hdisk | hip
  · rw [isMachine, hlogs] at hmachine
    cases hmachine
  · rw [isDisk, hlogs] at hdisk
    cases hdisk
  · rw [isPublicIp, hlogs] at hip
    cases hip

/-- What a machine brings is a disk or a public ip, not another machine. -/
theorem Accepted.own {d : Deployment} (h : Accepted d) {machine w : Workload}
    (hmachine : machine ∈ d.workloads) (hw : w ∈ d.workloads) (hown : w.name ∈ ownNames machine) :
    (isDisk w = true ∧ w.name ∈ mountNames machine) ∨
      (isPublicIp w = true ∧ publicIpName machine.data = some w.name) := by
  rcases mem_ownNames.mp hown with hmount | hip
  · exact Or.inl ⟨h.disks machine hmachine w hw hmount, hmount⟩
  · exact Or.inr ⟨h.ips machine hmachine w hw hip, hip⟩

theorem Accepted.apart {d : Deployment} (h : Accepted d) {machine w : Workload}
    (hmachine : machine ∈ d.workloads) (hw : w ∈ d.workloads) (hof : isMachine w = true) :
    w.name ∉ ownNames machine := by
  intro hown
  rcases h.own hmachine hw hown with ⟨hdisk, -⟩ | ⟨hip, -⟩
  · rw [isMachine_not_disk hof] at hdisk
    cases hdisk
  · rw [isMachine_not_publicIp hof] at hip
    cases hip

/-- Two workloads of an accepted deployment with one name are the same. -/
theorem Accepted.unique {d : Deployment} (h : Accepted d) {w w' : Workload} (hw : w ∈ d.workloads)
    (hw' : w' ∈ d.workloads) (hname : w.name = w'.name) : w = w' :=
  List.inj_on_of_nodup_map h.names hw hw' hname

/-- A workload whose decoded form remains is one of those that remain. -/
theorem Accepted.mem_of_decoded {d : Deployment} (h : Accepted d) {p : Workload → Prop}
    [DecidablePred p] {w : Workload} (hw : w ∈ d.workloads)
    (hin : decoded w ∈ (d.workloads.filter fun x => decide ¬p x).map decoded) : ¬p w := by
  obtain ⟨w', hw', heq⟩ := List.mem_map.mp hin
  obtain ⟨hmem, hnot⟩ := List.mem_filter.mp hw'
  have hname : (decoded w').name = (decoded w).name := congrArg Workload.name heq
  rw [← h.unique hmem hw hname]
  exact of_decide_eq_true hnot

section
variable {v : Validators} {d o : Deployment} {names : List String}

theorem types_of_fromObj (h : fromObj v d = .ok o) : ∀ w ∈ o.workloads, w.type = w.data.type := by
  intro w hw
  have hvalid := (fromObj_eq h).2
  unfold Deployment.valid at hvalid
  rw [Bool.and_eq_true, Bool.and_eq_true] at hvalid
  have hone := List.all_eq_true.mp hvalid.1.2 w hw
  unfold Workload.valid at hone
  rw [Bool.and_eq_true, Bool.and_eq_true] at hone
  exact of_decide_eq_true hone.1.2

theorem types_of_source (h : fromObj v d = .ok o) : ∀ w ∈ d.workloads, w.type = w.data.type := by
  intro w hw
  have hmem : decoded w ∈ o.workloads := by
    rw [(fromObj_eq h).1]
    exact List.mem_map_of_mem hw
  have hdecoded := types_of_fromObj h _ hmem
  rw [decoded_type, show (decoded w).data = exposed w.data from rfl, exposed_type] at hdecoded
  exact hdecoded

theorem type_of_logTarget (h : fromObj v d = .ok o) {w : Workload} (hw : w ∈ d.workloads)
    {name : String} (htarget : logTarget w.data = some name) : w.type = .zlogs := by
  rw [types_of_source h w hw]
  cases hdata : w.data with
  | zlogs z => rfl
  | _ =>
    rw [hdata] at htarget
    cases htarget

/-- The names that are collected for a decoded deployment. -/
def allNames (d : Deployment) (names : List String) : List String :=
  names ++ (collected d names).flatMap ownNames

theorem filterWorkloads_eq (h : fromObj v d = .ok o) (haccepted : Accepted d) (hnames : names ≠ []) :
    filterWorkloads o names vmTypes =
      .ok (o.workloads.filter (remains (allNames o names) vmTypes), collected o names) := by
  have hworkloads : o.workloads = d.workloads.map decoded := by rw [(fromObj_eq h).1]
  have happart : ∀ w ∈ o.workloads, ∀ machine ∈ o.workloads, isMachine w = true →
      w.name ∉ ownNames machine := by
    intro w hw machine hmachine hof
    rw [hworkloads] at hw hmachine
    obtain ⟨w₀, hw₀, rfl⟩ := List.mem_map.mp hw
    obtain ⟨m₀, hm₀, rfl⟩ := List.mem_map.mp hmachine
    rw [ownNames_decoded]
    show w₀.name ∉ ownNames m₀
    exact haccepted.apart hm₀ hw₀ hof
  unfold filterWorkloads
  rw [if_neg hnames, collectTypes_eq hworkloads (types_of_fromObj h) happart names]
  rfl

theorem mem_allNames (h : fromObj v d = .ok o) {name : String} :
    name ∈ allNames o names ↔ name ∈ names ∨
      ∃ machine ∈ d.workloads, isMachine machine = true ∧ machine.name ∈ names ∧
        name ∈ ownNames machine := by
  have hworkloads : o.workloads = d.workloads.map decoded := by rw [(fromObj_eq h).1]
  unfold allNames
  rw [List.mem_append, List.mem_flatMap]
  apply or_congr Iff.rfl
  constructor
  · intro h
    obtain ⟨machine, hmachine, hname⟩ := h
    obtain ⟨hmem, hof, hnamed⟩ := mem_collected.mp hmachine
    rw [hworkloads] at hmem
    obtain ⟨m₀, hm₀, rfl⟩ := List.mem_map.mp hmem
    rw [ownNames_decoded] at hname
    exact ⟨m₀, hm₀, hof, hnamed, hname⟩
  · intro h
    obtain ⟨machine, hmachine, hof, hnamed, hname⟩ := h
    refine ⟨decoded machine, mem_collected.mpr ⟨?_, hof, hnamed⟩, ?_⟩
    · rw [hworkloads]
      exact List.mem_map_of_mem hmachine
    · rw [ownNames_decoded]
      exact hname

/-- A workload goes exactly when it belongs to a named machine and is no zlogs workload. -/
theorem remains_iff (h : fromObj v d = .ok o) (haccepted : Accepted d) (hnames : names ≠ [])
    (hmachines : ∀ name ∈ names, ∃ machine ∈ d.workloads, isMachine machine = true ∧
      machine.name = name) {w : Workload} (hw : w ∈ d.workloads) :
    remains (allNames o names) vmTypes (decoded w) = true ↔
      ¬(Belongs d names w ∧ w.type ≠ .zlogs) := by
  have hnonempty : allNames o names ≠ [] := by
    unfold allNames
    exact List.append_ne_nil_of_left_ne_nil hnames _
  unfold remains
  rw [Bool.or_eq_true, Bool.or_eq_true, decide_eq_true_eq, decide_eq_true_eq, decoded_name, decoded_type,
    and_iff_right hnonempty, mem_allNames h]
  constructor
  · intro hkept hgone
    obtain ⟨⟨machine, hmachine, hof, hnamed, hbelongs⟩, hnotlogs⟩ := hgone
    -- the type of what belongs to a machine is one of those passed, and no network
    have htypes : isAnyNetwork w = false ∧ w.type ∈ vmTypes ∧
        (w.name ∈ names ∨ ∃ machine ∈ d.workloads, isMachine machine = true ∧ machine.name ∈ names ∧
          w.name ∈ ownNames machine) := by
      rcases hbelongs with rfl | ⟨hdisk, hmount⟩ | ⟨hip, hpublic⟩ | htarget
      · refine ⟨?_, ?_, Or.inl hnamed⟩
        · rcases of_decide_eq_true hof with htype | htype <;> rw [isAnyNetwork, htype] <;> rfl
        · rcases of_decide_eq_true hof with htype | htype <;> rw [htype] <;> decide
      · refine ⟨?_, ?_, Or.inr ⟨machine, hmachine, hof, hnamed, mem_ownNames.mpr (Or.inl hmount)⟩⟩
        · rcases of_decide_eq_true hdisk with htype | htype | htype <;> rw [isAnyNetwork, htype] <;> rfl
        · rcases of_decide_eq_true hdisk with htype | htype | htype <;> rw [htype] <;> decide
      · refine ⟨?_, ?_, Or.inr ⟨machine, hmachine, hof, hnamed, mem_ownNames.mpr (Or.inr hpublic)⟩⟩
        · rcases of_decide_eq_true hip with htype | htype <;> rw [isAnyNetwork, htype] <;> rfl
        · rcases of_decide_eq_true hip with htype | htype <;> rw [htype] <;> decide
      · exact absurd (type_of_logTarget h hw htarget) hnotlogs
    rcases hkept with (hnet | htype) | hname
    · have hnone : isAnyNetwork w = true := hnet
      rw [htypes.1] at hnone
      cases hnone
    · exact htype htypes.2.1
    · exact hname htypes.2.2
  · intro hnot
    by_contra hgone
    rw [not_or, not_or, not_not, not_not] at hgone
    obtain ⟨⟨-, -⟩, hname⟩ := hgone
    rcases hname with hname | ⟨machine, hmachine, hof, hnamed, hown⟩
    · obtain ⟨machine, hmachine, hof, heq⟩ := hmachines w.name hname
      have hsame := haccepted.unique hmachine hw heq
      subst hsame
      exact hnot ⟨⟨machine, hmachine, hof, hname, Or.inl rfl⟩, not_logs_of_belongs hof (Or.inl rfl)⟩
    · rcases haccepted.own hmachine hw hown with hdisk | hip
      · exact hnot ⟨⟨machine, hmachine, hof, hnamed, Or.inr (Or.inl hdisk)⟩,
          not_logs_of_belongs hof (Or.inr (Or.inl hdisk.1))⟩
      · exact hnot ⟨⟨machine, hmachine, hof, hnamed, Or.inr (Or.inr (Or.inl hip))⟩,
          not_logs_of_belongs hof (Or.inr (Or.inr hip.1))⟩

/-- Without zlogs workloads, exactly what belongs to the named machines remains not. -/
theorem remaining_eq_iff (h : fromObj v d = .ok o) (haccepted : Accepted d) (hnames : names ≠ [])
    (hmachines : ∀ name ∈ names, ∃ machine ∈ d.workloads, isMachine machine = true ∧
      machine.name = name) :
    o.workloads.filter (remains (allNames o names) vmTypes) =
        (d.workloads.filter fun w => decide ¬Belongs d names w).map decoded ↔
      ∀ w ∈ d.workloads, ∀ name ∈ names, logTarget w.data ≠ some name := by
  have hworkloads : o.workloads = d.workloads.map decoded := by rw [(fromObj_eq h).1]
  have hremaining : o.workloads.filter (remains (allNames o names) vmTypes) =
      (d.workloads.filter fun w => remains (allNames o names) vmTypes (decoded w)).map decoded := by
    rw [hworkloads, List.filter_map]
    rfl
  constructor
  · intro hlists w hw name hname htarget
    obtain ⟨machine, hmachine, hof, heqname⟩ := hmachines name hname
    subst heqname
    have htype := type_of_logTarget h hw htarget
    -- the zlogs workload remains, although it belongs to the machine
    have hstays : decoded w ∈ o.workloads.filter (remains (allNames o names) vmTypes) := by
      rw [hremaining]
      apply List.mem_map_of_mem
      rw [List.mem_filter]
      exact ⟨hw, (remains_iff h haccepted hnames hmachines hw).mpr fun hgone => hgone.2 htype⟩
    rw [hlists] at hstays
    have hnot := haccepted.mem_of_decoded hw hstays
    exact hnot ⟨machine, hmachine, hof, hname, Or.inr (Or.inr (Or.inr htarget))⟩
  · intro hnone
    have hfilter : (d.workloads.filter fun w => remains (allNames o names) vmTypes (decoded w)) =
        d.workloads.filter fun w => decide ¬Belongs d names w := by
      apply List.filter_congr
      intro w hw
      rw [Bool.eq_iff_iff, remains_iff h haccepted hnames hmachines hw, decide_eq_true_eq, not_iff_not]
      apply and_iff_left_of_imp
      intro hbelongs
      obtain ⟨machine, hmachine, hof, hnamed, hself | hdisk | hip | htarget⟩ := hbelongs
      · exact not_logs_of_belongs hof (Or.inl hself)
      · exact not_logs_of_belongs hof (Or.inr (Or.inl hdisk.1))
      · exact not_logs_of_belongs hof (Or.inr (Or.inr hip.1))
      · exact absurd htarget (hnone w hw machine.name hnamed)
    rw [hremaining, hfilter]

/-- What belongs to a machine is the machine, one of its own names, or its logs. -/
theorem belongsTo_cases {machine w : Workload} (hof : isMachine machine = true)
    (hbelongs : BelongsTo machine w) :
    (w = machine ∨ w.name ∈ ownNames machine) ∧ w.type ≠ .zlogs ∨
      logTarget w.data = some machine.name := by
  rcases hbelongs with hself | hdisk | hip | htarget
  · exact Or.inl ⟨Or.inl hself, not_logs_of_belongs hof (Or.inl hself)⟩
  · exact Or.inl ⟨Or.inr (mem_ownNames.mpr (Or.inl hdisk.2)),
      not_logs_of_belongs hof (Or.inr (Or.inl hdisk.1))⟩
  · exact Or.inl ⟨Or.inr (mem_ownNames.mpr (Or.inr hip.2)),
      not_logs_of_belongs hof (Or.inr (Or.inr hip.1))⟩
  · exact Or.inr htarget

/-- What belongs to two machines is a disk or a public ip of both. -/
theorem share_of_belongs (h : fromObj v d = .ok o) (haccepted : Accepted d)
    {machine other w : Workload} (hmachine : machine ∈ d.workloads) (hof : isMachine machine = true)
    (hother : other ∈ d.workloads) (hotherOf : isMachine other = true)
    (hne : machine.name ≠ other.name) (hw : w ∈ d.workloads) (hbelongs : BelongsTo machine w)
    (helse : BelongsTo other w) : Share d machine other := by
  rcases belongsTo_cases hof hbelongs with ⟨hown, hnot⟩ | htarget
  · rcases belongsTo_cases hotherOf helse with ⟨hown', -⟩ | htarget
    · rcases hown with rfl | hown
      · rcases hown' with rfl | hown'
        · exact absurd rfl hne
        · exact absurd hown' (haccepted.apart hother hmachine hof)
      · rcases hown' with rfl | hown'
        · exact absurd hown (haccepted.apart hmachine hother hotherOf)
        · exact ⟨w, hw, hown, hown'⟩
    · exact absurd (type_of_logTarget h hw htarget) hnot
  · rcases belongsTo_cases hotherOf helse with ⟨-, hnot⟩ | htarget'
    · exact absurd (type_of_logTarget h hw htarget) hnot
    · rw [htarget] at htarget'
      exact absurd (Option.some.inj htarget') hne

/-- Exactly what belongs to the named machines is removed when none of them has a zlogs workload, and
none shares a disk or a public ip with a machine that stays. -/
theorem removesExactly_iff (h : fromObj v d = .ok o) (haccepted : Accepted d) (hnames : names ≠ [])
    (hmachines : ∀ name ∈ names, ∃ machine ∈ d.workloads, isMachine machine = true ∧
      machine.name = name) :
    RemovesExactly d o names ↔
      (∀ w ∈ d.workloads, ∀ name ∈ names, logTarget w.data ≠ some name) ∧
        ∀ machine ∈ d.workloads, ∀ other ∈ d.workloads, isMachine machine = true →
          isMachine other = true → machine.name ∈ names → other.name ∉ names →
            ¬Share d machine other := by
  unfold RemovesExactly
  rw [filterWorkloads_eq h haccepted hnames]
  constructor
  · rintro ⟨remaining, deleted, heq, hremaining, hkeeps⟩
    obtain ⟨rfl, -⟩ := Prod.mk.inj (Except.ok.inj heq)
    refine ⟨(remaining_eq_iff h haccepted hnames hmachines).mp hremaining, ?_⟩
    rintro machine hmachine other hother hof hotherOf hnamed hfree ⟨w, hw, hown, helse⟩
    have hbelongs : BelongsTo machine w := Or.inr ((haccepted.own hmachine hw hown).imp_right Or.inl)
    have hstays := hkeeps w hw ⟨other, hother, hotherOf, hfree,
      Or.inr ((haccepted.own hother hw helse).imp_right Or.inl)⟩
    rw [hremaining] at hstays
    exact haccepted.mem_of_decoded hw hstays ⟨machine, hmachine, hof, hnamed, hbelongs⟩
  · rintro ⟨hnone, hshare⟩
    refine ⟨_, _, rfl, (remaining_eq_iff h haccepted hnames hmachines).mpr hnone, ?_⟩
    rintro w hw ⟨other, hother, hotherOf, hfree, helse⟩
    rw [(remaining_eq_iff h haccepted hnames hmachines).mpr hnone]
    refine List.mem_map_of_mem (List.mem_filter.mpr ⟨hw, decide_eq_true ?_⟩)
    rintro ⟨machine, hmachine, hof, hnamed, hbelongs⟩
    have hne : machine.name ≠ other.name := by
      intro heq
      exact hfree (heq ▸ hnamed)
    exact hshare machine hmachine other hother hof hotherOf hnamed hfree
      (share_of_belongs h haccepted hmachine hof hother hotherOf hne hw hbelongs helse)

end

/-! Two machines, the first with a disk and a public ip. -/

def machineWorkload (name : String) (mounts : List Mount) (publicIp : String) : Workload :=
  ⟨0, name, .zmachine, .zmachine ⟨"http://hub.grid.tf/f.flist", ⟨publicIp, [⟨"net", "10.1.2.3"⟩], false,
    none⟩, 0, ⟨1, 256 * 1024 ^ 2⟩, mounts, "/init", ⟨[], List.nodup_nil⟩, false, none⟩, "", "", none⟩

def logsFor (machine : String) : Workload :=
  ⟨0, "zlogs_" ++ machine, .zlogs, .zlogs ⟨some machine, some "redis://10.1.2.3:6379"⟩, "", "", none⟩

def twoMachines (logs : String) : Deployment :=
  deploymentWith [diskWorkload, ⟨0, "vm_pubip", .ip, .ip ⟨true, false⟩, "", "", none⟩,
    machineWorkload "vm" [⟨"disk", "/data"⟩] "vm_pubip", machineWorkload "other" [] "", logsFor logs]

theorem accepted_twoMachines (logs : String) (h : logs = "vm" ∨ logs = "other") :
    Accepted (twoMachines logs) := by
  rcases h with rfl | rfl
  · exact ⟨by decide, by decide, by decide⟩
  · exact ⟨by decide, by decide, by decide⟩

theorem twoMachines_removesExactly : ∃ o, fromObj anyText (twoMachines "other") = .ok o ∧
    RemovesExactly (twoMachines "other") o ["vm"] := by
  have hvalid : (twoMachines "other").valid anyText = true := by decide +kernel
  refine ⟨_, fromObj_of_valid hvalid, ?_⟩
  have haccepted := accepted_twoMachines "other" (Or.inr rfl)
  refine (removesExactly_iff (fromObj_of_valid hvalid) haccepted (by decide) (by decide)).mpr
    ⟨by decide, ?_⟩
  unfold Share
  decide

/-- The logs of a machine stay when it is deleted. -/
theorem logs_left_behind : ∃ o, fromObj anyText (twoMachines "vm") = .ok o ∧
    Accepted (twoMachines "vm") ∧ ¬RemovesExactly (twoMachines "vm") o ["vm"] := by
  have hvalid : (twoMachines "vm").valid anyText = true := by decide +kernel
  have haccepted := accepted_twoMachines "vm" (Or.inl rfl)
  refine ⟨_, fromObj_of_valid hvalid, haccepted, fun hexact => ?_⟩
  obtain ⟨remaining, deleted, heq, hremaining, -⟩ := hexact
  rw [filterWorkloads_eq (fromObj_of_valid hvalid) haccepted (by decide)] at heq
  have hlists := (Prod.mk.inj (Except.ok.inj heq)).1.trans hremaining
  revert hlists
  decide +kernel

end ThreefoldSdk.HighLevel
