import ThreefoldSdk.Lib.Cut
import ThreefoldSdk.Lib.Frame
import ThreefoldSdk.Primitives.Network

/-! The migration of a module of the playground (`utils/migration.ts`) from where the listing has moved
the oldest keys: a batch that changes the contracts, and a batch that moves the keys. -/

namespace ThreefoldSdk.Playground.Migration
open Primitives Frame

/-- What a contract is stored with; the other fields go through unchanged. -/
structure DeploymentData (D : Type) where
  name : Option String
  projectName : Option String
  others : D
deriving DecidableEq

/-- Of a text that is no JSON there are no data. -/
structure NodeContract (D : Type) where
  deploymentData : Option (DeploymentData D)
  deploymentHash : String
deriving DecidableEq

structure Contract (D : Type) where
  gracePeriod : ℕ
  nodeContract : Option (NodeContract D)
deriving DecidableEq

/-- The contracts of the chain, and the values of the storage by their paths below the path of the
module; a value may be one that cannot be loaded. -/
structure Grid (D V : Type) where
  contracts : ℕ → Option (Contract D)
  stored : List String → Option (Option (List V))

/-- `getNewDeploymentPath` with `contracts.json` as its last part. -/
def contractsPath (paths : List String) : List String :=
  paths.filter (fun part => part ≠ "") ++ ["contracts.json"]

/-- `const [, piece] = text.split(separator)`, when it is truthy. -/
def secondPiece (separator text : String) : Option String :=
  ((Cut.split separator.toList text.toList)[1]?.map String.ofList).filter fun piece => piece ≠ ""

section
variable {D V : Type} (moduleName : String) (twinId : ℕ) (contractId : V → ℕ)

/-- Of gateways the names begin with the twin. -/
def instanceName (name : Option String) : Except GridError (Option String) :=
  if moduleName = "gateways" then
    match name with
    | none => .error .typeError
    | some name => .ok (some ((secondPiece (toString twinId) name).getD name))
  else .ok name

/-- The project name that is stored, if any. -/
def migratedName (instanceName projectName : Option String) : Option (Option String) :=
  let ending := "/" ++ instanceName.getD "undefined"
  -- what ends with the instance is taken for migrated
  if projectName.any (fun name => decide (ending.toList <:+ name.toList)) then none
  else if projectName.getD "" ≠ "" then some (some (projectName.getD "" ++ ending))
  else some instanceName

/-- `__updateContract`, the extrinsic as the new data. -/
def updateContract (contract : Contract D) : Except GridError (Option (DeploymentData D)) :=
  if contract.gracePeriod > 0 then .ok none
  else
    match contract.nodeContract with
    | none => .ok none
    | some nodeContract =>
      match nodeContract.deploymentData with
      | none => .error (.other "SyntaxError" "")
      | some oldData => do
        let instanceName ← instanceName moduleName twinId oldData.name
        return (migratedName instanceName oldData.projectName).map fun projectName =>
          { oldData with projectName := projectName }

def Contract.withData (contract : Contract D) (data : DeploymentData D) : Contract D :=
  { contract with
    nodeContract := contract.nodeContract.map fun n => { n with deploymentData := some data } }

def loadValue (g : Grid D V) (key : String) : Option (List V) := (g.stored (contractsPath [key])).join

/-- `__loadContract`, with the id that is asked for. -/
def loadContract (g : Grid D V) : Option (List V) → Except GridError (Option (ℕ × Contract D))
  | none => .ok none
  | some [] => .error .typeError
  | some (v :: _) => .ok ((g.contracts (contractId v)).map fun contract => (contractId v, contract))

/-- The extrinsic of a contract that was found. -/
def updateExtrinsic : Option (ℕ × Contract D) → Except GridError (Option (ℕ × DeploymentData D))
  | none => .ok none
  | some (id, contract) => (updateContract moduleName twinId contract).map fun data =>
      data.map fun data => (id, data)

def applyUpdate (contracts : ℕ → Option (Contract D)) (ext : ℕ × DeploymentData D) :
    ℕ → Option (Contract D) :=
  Function.update contracts ext.1 ((contracts ext.1).map fun contract => contract.withData ext.2)

/-- The batch of the contracts; the values of those that are gone or in a grace period are set to
null. -/
def migrateContracts (g : Grid D V) (values : List (Option (List V))) :
    Except GridError (Grid D V × List (Option (List V))) := do
  let contracts ← values.mapM (loadContract contractId g)
  let exts ← contracts.mapM (updateExtrinsic moduleName twinId)
  let values := List.zipWith (fun value contract =>
    match contract with
    | some (_, contract) => if contract.gracePeriod > 0 then none else value
    | none => none) values contracts
  return ({ g with contracts := exts.reduceOption.foldl applyUpdate g.contracts }, values)

def normalizeKey (key : String) : String :=
  if moduleName = "gateways" then (secondPiece (toString twinId) key).getD key else key

/-- `__updateKey`: what is dumped, and what is removed. -/
def updateKey (key : String) : Option (List V) → List (List String × Option (Option (List V)))
  | none => []
  | some value =>
    let source := contractsPath [key]
    let target := contractsPath [normalizeKey moduleName twinId key, key]
    if source = target then [] else [(target, some (some value)), (source, none)]

def migrateKeys (g : Grid D V) (keys : List String) (values : List (Option (List V))) : Grid D V :=
  { g with
    stored := (List.zipWith (updateKey moduleName twinId) keys values).flatten.foldl
      (fun stored ext => Function.update stored ext.1 ext.2) g.stored }

/-- What the storage lists for what it holds. -/
abbrev Lists (V : Type) := (List String → Option (Option (List V))) → List String

variable (list : Lists V)

/-- A run whose batch of the keys is not reached. -/
def interrupted (g : Grid D V) : Except GridError (Grid D V) :=
  (migrateContracts moduleName twinId contractId g ((list g.stored).map (loadValue g))).map Prod.fst

def migrateModule (g : Grid D V) : Except GridError (Grid D V) := do
  let keys := list g.stored
  let values := keys.map (loadValue g)
  let (g, values) ← migrateContracts moduleName twinId contractId g values
  return migrateKeys moduleName twinId g keys values

/-- The run that gets through after a number of interrupted ones. -/
def migrateAfter (g : Grid D V) : ℕ → Except GridError (Grid D V)
  | 0 => migrateModule moduleName twinId contractId list g
  | n + 1 => do
    let g ← interrupted moduleName twinId contractId list g
    migrateAfter g n

/-- The contract has the name of a project, or its instance has none; or it is not changed. -/
def HasProject (contract : Contract D) : Prop :=
  contract.gracePeriod = 0 → ∀ nodeContract oldData name,
    contract.nodeContract = some nodeContract → nodeContract.deploymentData = some oldData →
    instanceName moduleName twinId oldData.name = .ok name →
    oldData.projectName.getD "" ≠ "" ∨ name.getD "" = ""

def HaveProjects (g : Grid D V) : Prop :=
  ∀ key ∈ list g.stored, ∀ v rest, loadValue g key = some (v :: rest) →
    ∀ contract, g.contracts (contractId v) = some contract →
      HasProject moduleName twinId contract

end

/-! The project names. -/

section
variable {instName projectName : Option String}

def renamed (instName projectName : Option String) : Option String :=
  (migratedName instName projectName).getD projectName

theorem toList_ending (name : String) : ("/" ++ name).toList = '/' :: name.toList := by
  rw [String.toList_append]
  rfl

theorem suffix_ending (name ending : String) : ending.toList <:+ (name ++ ending).toList := by
  rw [String.toList_append]
  exact List.suffix_append _ _

theorem renamed_of_ends {name : String}
    (h : ("/" ++ instName.getD "undefined").toList <:+ name.toList) :
    renamed instName (some name) = some name := by
  unfold renamed migratedName
  dsimp only
  rw [Option.any_some, if_pos (decide_eq_true h)]
  rfl

theorem renamed_of_falsy (h : projectName.getD "" = "") :
    renamed instName projectName = instName := by
  have hends : projectName.any (fun name =>
      decide (("/" ++ instName.getD "undefined").toList <:+ name.toList)) = false := by
    cases projectName with
    | none => rfl
    | some name =>
      rw [Option.getD_some] at h
      rw [h, Option.any_some, toList_ending]
      exact decide_eq_false fun hsuffix => List.cons_ne_nil _ _ (List.suffix_nil.mp hsuffix)
  unfold renamed migratedName
  dsimp only
  rw [hends, if_neg Bool.false_ne_true, if_neg (not_not.mpr h)]
  rfl

/-- A name that is not empty ends with the instance after a run. -/
theorem renamed_ends {name : String} (h : name ≠ "") : ∃ name',
    renamed instName (some name) = some name' ∧
      ("/" ++ instName.getD "undefined").toList <:+ name'.toList := by
  by_cases hends : ("/" ++ instName.getD "undefined").toList <:+ name.toList
  · exact ⟨name, renamed_of_ends hends, hends⟩
  · refine ⟨name ++ ("/" ++ instName.getD "undefined"), ?_, ?_⟩
    · unfold renamed migratedName
      dsimp only
      rw [Option.any_some, if_neg fun hif => hends (of_decide_eq_true hif), Option.getD_some,
        if_pos h]
      rfl
    · exact suffix_ending name _

theorem renamed_fixed (h : projectName.getD "" ≠ "" ∨ instName.getD "" = "") :
    renamed instName (renamed instName projectName) = renamed instName projectName := by
  by_cases hname : projectName.getD "" = ""
  -- here the instance has no name either
  · rw [renamed_of_falsy hname, renamed_of_falsy (h.resolve_left (not_not.mpr hname))]
  · cases projectName with
    | none => exact absurd rfl hname
    | some name =>
      have hne : name ≠ "" := hname
      obtain ⟨name', hrenamed, hends⟩ := renamed_ends hne
      rw [hrenamed, renamed_of_ends hends]

/-- Without a project, the instance is appended to itself by the second run, and stays so. -/
theorem renamed_twice {name : String} (h : name ≠ "") (hname : projectName.getD "" = "") (n : ℕ) :
    (renamed (some name))^[n + 2] projectName = some (name ++ ("/" ++ name)) := by
  have hlength : ¬("/" ++ name).toList <:+ name.toList := fun hsuffix => by
    have hle := hsuffix.length_le
    rw [toList_ending, List.length_cons] at hle
    omega
  have hsecond : renamed (some name) (some name) = some (name ++ ("/" ++ name)) := by
    unfold renamed migratedName
    dsimp only
    rw [Option.any_some, Option.getD_some, if_neg fun hif => hlength (of_decide_eq_true hif),
      Option.getD_some, if_pos h]
    rfl
  have hlast : renamed (some name) (some (name ++ ("/" ++ name))) = some (name ++ ("/" ++ name)) :=
    renamed_of_ends (suffix_ending name _)
  rw [Function.iterate_add_apply, Function.iterate_succ_apply, Function.iterate_one,
    renamed_of_falsy hname, hsecond]
  exact Function.iterate_fixed hlast n

theorem renamed_iterate_iff (n : ℕ) :
    (renamed instName)^[n + 2] projectName = renamed instName projectName ↔
      projectName.getD "" ≠ "" ∨ instName.getD "" = "" := by
  constructor
  · intro hsame
    by_contra hnot
    obtain ⟨hname, hinstance⟩ := not_or.mp hnot
    cases instName with
    | none => exact hinstance rfl
    | some name =>
      have hne : name ≠ "" := hinstance
      rw [renamed_twice hne (not_not.mp hname), renamed_of_falsy (not_not.mp hname)] at hsame
      have hlength := congrArg (fun text => text.toList.length) (Option.some.inj hsame)
      rw [String.toList_append, toList_ending, List.length_append, List.length_cons] at hlength
      omega
  · intro h
    rw [Function.iterate_add_apply, Function.iterate_succ_apply, Function.iterate_one, renamed_fixed h]
    exact Function.iterate_fixed (renamed_fixed h) n

end

/-! The contracts. -/

section
variable {D V : Type} {moduleName : String} {twinId : ℕ} {contractId : V → ℕ} {contract : Contract D}

def migrated (moduleName : String) (twinId : ℕ) (contract : Contract D) : Contract D :=
  match updateContract moduleName twinId contract with
  | .ok (some data) => contract.withData data
  | _ => contract

theorem withData_withData (data data' : DeploymentData D) :
    (contract.withData data).withData data' = contract.withData data' := by
  unfold Contract.withData
  rw [Option.map_map]
  rfl

theorem gracePeriod_migrated : (migrated moduleName twinId contract).gracePeriod =
    contract.gracePeriod := by
  unfold migrated
  split <;> rfl

/-- A contract whose update does not throw is left as it is, or has data. -/
theorem updateContract_ok_cases
    (h : ∃ data, updateContract moduleName twinId contract = .ok data) :
    (updateContract moduleName twinId contract = .ok none ∧
      HasProject moduleName twinId contract) ∨
    ∃ nodeContract oldData name, contract.gracePeriod = 0 ∧
      contract.nodeContract = some nodeContract ∧ nodeContract.deploymentData = some oldData ∧
        instanceName moduleName twinId oldData.name = .ok name := by
  obtain ⟨data, h⟩ := h
  by_cases hgrace : contract.gracePeriod > 0
  · refine .inl ⟨if_pos hgrace, fun hzero => absurd hzero hgrace.ne'⟩
  · unfold updateContract at h ⊢
    rw [if_neg hgrace] at h ⊢
    cases hnode : contract.nodeContract with
    | none => exact .inl ⟨rfl, fun _ nodeContract _ _ hsome => nomatch hnode.symm.trans hsome⟩
    | some nodeContract =>
      rw [hnode] at h
      dsimp only at h
      cases hdata : nodeContract.deploymentData with
      | none =>
        rw [hdata] at h
        cases h
      | some oldData =>
        rw [hdata] at h
        obtain ⟨name, hname, -⟩ := exceptBind_eq_ok.mp h
        exact .inr ⟨nodeContract, oldData, name, Nat.eq_zero_of_not_pos hgrace, rfl, hdata, hname⟩

section
variable {nodeContract : NodeContract D} {oldData : DeploymentData D} {name : Option String}
  (hgrace : contract.gracePeriod = 0) (hnode : contract.nodeContract = some nodeContract)
  (hdata : nodeContract.deploymentData = some oldData)
  (hname : instanceName moduleName twinId oldData.name = .ok name)
include hgrace hnode hname

/-- With other data of the name in its place, a run renames the project in them. -/
theorem updateContract_withData (projectName : Option String) :
    updateContract moduleName twinId (contract.withData { oldData with projectName := projectName }) =
      .ok ((migratedName name projectName).map fun projectName =>
        { oldData with projectName := projectName }) := by
  unfold updateContract Contract.withData
  dsimp only
  rw [hgrace, if_neg (lt_irrefl 0), hnode, Option.map_some]
  dsimp only
  rw [hname]
  rfl

theorem migrated_withData (projectName : Option String) :
    migrated moduleName twinId (contract.withData { oldData with projectName := projectName }) =
      contract.withData { oldData with projectName := renamed name projectName } := by
  unfold migrated renamed
  rw [updateContract_withData hgrace hnode hname]
  cases migratedName name projectName with
  | none => rfl
  | some projectName' => exact withData_withData _ _

theorem migrated_iterate_withData (projectName : Option String) (n : ℕ) :
    (migrated moduleName twinId)^[n] (contract.withData { oldData with projectName := projectName }) =
      contract.withData { oldData with projectName := (renamed name)^[n] projectName } := by
  induction n generalizing projectName with
  | zero => rfl
  | succ n ih =>
    rw [Function.iterate_succ_apply, migrated_withData hgrace hnode hname, ih,
      Function.iterate_succ_apply]

omit hgrace hname in
include hdata in
theorem withData_self :
    contract.withData { oldData with projectName := oldData.projectName } = contract := by
  obtain ⟨gracePeriod, node⟩ := contract
  cases hnode
  obtain ⟨deploymentData, deploymentHash⟩ := nodeContract
  cases hdata
  rfl

omit hgrace hname in
theorem withData_projectName_inj {projectName projectName' : Option String} :
    contract.withData { oldData with projectName := projectName } =
      contract.withData { oldData with projectName := projectName' } ↔
    projectName = projectName' := by
  refine ⟨fun hsame => ?_, fun hsame => hsame ▸ rfl⟩
  have hnodes := congrArg Contract.nodeContract hsame
  unfold Contract.withData at hnodes
  dsimp only at hnodes
  rw [hnode, Option.map_some, Option.map_some] at hnodes
  injection hnodes with hnodes
  injection hnodes with hdatas
  injection hdatas with hdatas
  injection hdatas

end

theorem updateContract_migrated_ok
    (h : ∃ data, updateContract moduleName twinId contract = .ok data) :
    ∃ data, updateContract moduleName twinId (migrated moduleName twinId contract) = .ok data := by
  rcases updateContract_ok_cases h with ⟨hnone, -⟩ |
    ⟨nodeContract, oldData, name, hgrace, hnode, hdata, hname⟩
  · have hsame : migrated moduleName twinId contract = contract := by
      unfold migrated
      rw [hnone]
    rw [hsame]
    exact h
  · rw [← withData_self hnode hdata, migrated_withData hgrace hnode hname]
    exact ⟨_, updateContract_withData hgrace hnode hname _⟩

/-- Runs after the first change the contract exactly when it had no project to its instance. -/
theorem migrated_iterate_iff (h : ∃ data, updateContract moduleName twinId contract = .ok data)
    (n : ℕ) : (migrated moduleName twinId)^[n + 2] contract = migrated moduleName twinId contract ↔
      HasProject moduleName twinId contract := by
  rcases updateContract_ok_cases h with ⟨hnone, hproject⟩ |
    ⟨nodeContract, oldData, name, hgrace, hnode, hdata, hname⟩
  · have hsame : migrated moduleName twinId contract = contract := by
      unfold migrated
      rw [hnone]
    exact iff_of_true (by rw [Function.iterate_fixed hsame, hsame]) hproject
  · have hiterate := migrated_iterate_withData hgrace hnode hname oldData.projectName
    have honce := migrated_withData hgrace hnode hname oldData.projectName
    rw [withData_self hnode hdata] at hiterate honce
    rw [hiterate, honce, withData_projectName_inj hnode, renamed_iterate_iff]
    constructor
    · intro hcase _ nodeContract' oldData' name' hnode' hdata' hname'
      cases hnode.symm.trans hnode'
      cases hdata.symm.trans hdata'
      cases hname.symm.trans hname'
      exact hcase
    · intro hproject
      exact hproject hgrace nodeContract oldData name hnode hdata hname

end

/-! The batch of the contracts. -/

section
variable {D V : Type} {moduleName : String} {twinId : ℕ} {contractId : V → ℕ} {g : Grid D V}
  {values : List (Option (List V))} {list : Lists V}

/-- The contract that a value is about. -/
def idOf (contractId : V → ℕ) (value : Option (List V)) : Option ℕ :=
  (value.bind List.head?).map contractId

def loaded (contractId : V → ℕ) (g : Grid D V) (value : Option (List V)) :
    Option (ℕ × Contract D) :=
  (idOf contractId value).bind fun id => (g.contracts id).map fun contract => (id, contract)

/-- Neither the value nor its contract makes the batch throw. -/
def Passes (moduleName : String) (twinId : ℕ) (contractId : V → ℕ) (g : Grid D V)
    (value : Option (List V)) : Prop :=
  value ≠ some [] ∧ ∀ id contract, loaded contractId g value = some (id, contract) →
    ∃ data, updateContract moduleName twinId contract = .ok data

/-- The value as the batch leaves it. -/
def kept (contractId : V → ℕ) (g : Grid D V) (value : Option (List V)) : Option (List V) :=
  match loaded contractId g value with
  | some (_, contract) => if contract.gracePeriod > 0 then none else value
  | none => none

/-- The contracts of the values, after `n` batches. -/
def batches (moduleName : String) (twinId : ℕ) (contractId : V → ℕ)
    (values : List (Option (List V))) (n : ℕ) (g : Grid D V) : Grid D V :=
  { g with
    contracts := fun id =>
      if id ∈ values.filterMap (idOf contractId) then
        (g.contracts id).map (migrated moduleName twinId)^[n]
      else g.contracts id }

theorem loadContract_eq_ok_iff (value : Option (List V)) (contract : Option (ℕ × Contract D)) :
    loadContract contractId g value = .ok contract ↔
      value ≠ some [] ∧ loaded contractId g value = contract := by
  cases value with
  | none => exact ⟨fun h => ⟨nofun, Except.ok.inj h⟩, fun h => congrArg Except.ok h.2⟩
  | some vs =>
    cases vs with
    | nil => exact ⟨nofun, fun h => absurd rfl h.1⟩
    | cons v vs => exact ⟨fun h => ⟨nofun, Except.ok.inj h⟩, fun h => congrArg Except.ok h.2⟩

/-- The extrinsic of a contract whose update does not throw. -/
def extrinsicOf (moduleName : String) (twinId : ℕ) (contract : Option (ℕ × Contract D)) :
    Option (ℕ × DeploymentData D) :=
  contract.bind fun (id, contract) =>
    match updateContract moduleName twinId contract with
    | .ok data => data.map fun data => (id, data)
    | .error _ => none

theorem updateExtrinsic_eq_ok_iff (contract : Option (ℕ × Contract D))
    (ext : Option (ℕ × DeploymentData D)) :
    updateExtrinsic moduleName twinId contract = .ok ext ↔
    (∀ id c, contract = some (id, c) → ∃ data, updateContract moduleName twinId c = .ok data) ∧
      extrinsicOf moduleName twinId contract = ext := by
  cases contract with
  | none => exact ⟨fun h => ⟨nofun, Except.ok.inj h⟩, fun h => congrArg Except.ok h.2⟩
  | some found =>
    obtain ⟨id, c⟩ := found
    unfold updateExtrinsic extrinsicOf
    dsimp only [Option.bind_some]
    constructor
    · intro h
      obtain ⟨data, hdata, rfl⟩ := exceptMap_eq_ok.mp h
      refine ⟨fun id' c' hsome => ?_, by rw [hdata]⟩
      cases hsome
      exact ⟨data, hdata⟩
    · rintro ⟨hall, rfl⟩
      obtain ⟨data, hdata⟩ := hall id c rfl
      rw [hdata]
      rfl

theorem extrinsicOf_eq_some {contract : Option (ℕ × Contract D)} {ext : ℕ × DeploymentData D}
    (h : extrinsicOf moduleName twinId contract = some ext) :
    ∃ c, contract = some (ext.1, c) ∧
      updateContract moduleName twinId c = .ok (some ext.2) := by
  obtain ⟨⟨id, c⟩, rfl, hupdate⟩ := Option.bind_eq_some_iff.mp h
  dsimp only at hupdate
  split at hupdate
  · rename_i data hdata
    obtain ⟨data', rfl, rfl⟩ := Option.map_eq_some_iff.mp hupdate
    exact ⟨c, rfl, hdata⟩
  · cases hupdate

/-- The extrinsics of a batch migrate the contracts they are about, however often they are there. -/
theorem foldl_applyUpdate {contracts : ℕ → Option (Contract D)} {exts : List (ℕ × DeploymentData D)}
    (hexts : ∀ ext ∈ exts, ∃ contract, g.contracts ext.1 = some contract ∧
      updateContract moduleName twinId contract = .ok (some ext.2))
    (hnow : ∀ id, contracts id = g.contracts id ∨
      contracts id = (g.contracts id).map (migrated moduleName twinId)) (id : ℕ) :
    exts.foldl applyUpdate contracts id =
      if id ∈ exts.map Prod.fst then (g.contracts id).map (migrated moduleName twinId)
      else contracts id := by
  induction exts generalizing contracts with
  | nil => rfl
  | cons ext exts ih =>
    obtain ⟨⟨contract, hcontract, hupdate⟩, hexts⟩ := List.forall_mem_cons.mp hexts
    have hfirst : applyUpdate contracts ext ext.1 =
        (g.contracts ext.1).map (migrated moduleName twinId) := by
      have hmigrated : migrated moduleName twinId contract = contract.withData ext.2 := by
        unfold migrated
        rw [hupdate]
      rw [applyUpdate, Function.update_self]
      rcases hnow ext.1 with hold | hnew
      · rw [hold, hcontract, Option.map_some, Option.map_some, hmigrated]
      · rw [hnew, hcontract, Option.map_some, Option.map_some, hmigrated, withData_withData]
    have hothers : ∀ id, id ≠ ext.1 → applyUpdate contracts ext id = contracts id := fun id hid => by
      rw [applyUpdate, Function.update_of_ne hid]
    rw [List.foldl_cons, ih hexts]
    · rw [List.map_cons]
      by_cases hid : id = ext.1
      · subst hid
        rw [hfirst, if_pos List.mem_cons_self, ite_self]
      · rw [hothers id hid]
        simp only [List.mem_cons, hid, false_or]
    · intro id'
      by_cases hid : id' = ext.1
      · subst hid
        exact .inr hfirst
      · rw [hothers id' hid]
        exact hnow id'

theorem loaded_eq_some {value : Option (List V)} {id : ℕ} {contract : Contract D}
    (h : loaded contractId g value = some (id, contract)) :
    idOf contractId value = some id ∧ g.contracts id = some contract := by
  obtain ⟨id', hid, h⟩ := Option.bind_eq_some_iff.mp h
  obtain ⟨contract', hcontract, h⟩ := Option.map_eq_some_iff.mp h
  cases h
  exact ⟨hid, hcontract⟩

/-- A contract without an extrinsic is as it was. -/
theorem migrated_of_no_extrinsic {contract : Contract D} {id : ℕ}
    (h : extrinsicOf moduleName twinId (some (id, contract)) = none) :
    migrated moduleName twinId contract = contract := by
  unfold extrinsicOf at h
  unfold migrated
  dsimp only [Option.bind_some] at h
  split at h
  · rename_i data hdata
    rw [Option.map_eq_none_iff.mp h] at hdata
    rw [hdata]
  · rename_i e he
    rw [he]

/-- The extrinsics of a batch that does not throw. -/
def extrinsics (moduleName : String) (twinId : ℕ) (contractId : V → ℕ) (g : Grid D V)
    (values : List (Option (List V))) : List (ℕ × DeploymentData D) :=
  ((values.map (loaded contractId g)).map (extrinsicOf moduleName twinId)).reduceOption

theorem mem_extrinsics {ext : ℕ × DeploymentData D} :
    ext ∈ extrinsics moduleName twinId contractId g values ↔
      ∃ value ∈ values, extrinsicOf moduleName twinId (loaded contractId g value) = some ext := by
  rw [extrinsics, List.reduceOption_mem_iff, List.map_map, List.mem_map]
  rfl

theorem foldl_extrinsics (id : ℕ) :
    (extrinsics moduleName twinId contractId g values).foldl applyUpdate g.contracts id =
      if id ∈ (extrinsics moduleName twinId contractId g values).map Prod.fst then
        (g.contracts id).map (migrated moduleName twinId)
      else g.contracts id := by
  refine foldl_applyUpdate (fun ext hext => ?_) (fun id => .inl rfl) id
  obtain ⟨value, -, hsome⟩ := mem_extrinsics.mp hext
  obtain ⟨contract, hloaded, hupdate⟩ := extrinsicOf_eq_some hsome
  exact ⟨contract, (loaded_eq_some hloaded).2, hupdate⟩

theorem batch_contracts (g : Grid D V) (values : List (Option (List V))) :
    (extrinsics moduleName twinId contractId g values).foldl applyUpdate g.contracts =
      (batches moduleName twinId contractId values 1 g).contracts := by
  funext id
  rw [foldl_extrinsics]
  unfold batches
  dsimp only
  rw [Function.iterate_one]
  split_ifs with hext hid hid
  · rfl
  · obtain ⟨ext, hmem, rfl⟩ := List.mem_map.mp hext
    obtain ⟨value, hvalue, hsome⟩ := mem_extrinsics.mp hmem
    obtain ⟨contract, hloaded, -⟩ := extrinsicOf_eq_some hsome
    exact absurd (List.mem_filterMap.mpr ⟨value, hvalue, (loaded_eq_some hloaded).1⟩) hid
  · obtain ⟨value, hvalue, hidOf⟩ := List.mem_filterMap.mp hid
    cases hcontract : g.contracts id with
    | none => rfl
    | some contract =>
      have hloaded : loaded contractId g value = some (id, contract) := by
        unfold loaded
        rw [hidOf, Option.bind_some, hcontract, Option.map_some]
      have hnone : extrinsicOf moduleName twinId (some (id, contract)) = none := by
        by_contra hne
        obtain ⟨ext, hsome⟩ := Option.ne_none_iff_exists'.mp hne
        obtain ⟨c, hsame, -⟩ := extrinsicOf_eq_some hsome
        have hfirst : ext.1 = id := by cases hsame; rfl
        exact hext (List.mem_map.mpr
          ⟨ext, mem_extrinsics.mpr ⟨value, hvalue, hloaded ▸ hsome⟩, hfirst⟩)
      rw [Option.map_some, migrated_of_no_extrinsic hnone]
  · rfl

/-- What the batch leaves, when it does not throw. -/
theorem migrateContracts_eq_ok_iff {result : Grid D V × List (Option (List V))} :
    migrateContracts moduleName twinId contractId g values = .ok result ↔
      (∀ value ∈ values, Passes moduleName twinId contractId g value) ∧
        (batches moduleName twinId contractId values 1 g, values.map (kept contractId g)) =
          result := by
  have hvalues : List.zipWith (fun (value : Option (List V)) (contract : Option (ℕ × Contract D)) =>
      match contract with
      | some (_, contract) => if contract.gracePeriod > 0 then none else value
      | none => none) values (values.map (loaded contractId g)) = values.map (kept contractId g) := by
    rw [List.zipWith_map_right, List.zipWith_self]
    rfl
  have hgrid : { g with
      contracts :=
        (extrinsics moduleName twinId contractId g values).foldl applyUpdate g.contracts } =
      batches moduleName twinId contractId values 1 g := by
    rw [batch_contracts g values]
    rfl
  constructor
  · intro h
    obtain ⟨contracts, hcontracts, h⟩ := exceptBind_eq_ok.mp h
    obtain ⟨exts, hexts, h⟩ := exceptBind_eq_ok.mp h
    obtain ⟨hload, rfl⟩ := (mapM_eq_ok_iff loadContract_eq_ok_iff).mp hcontracts
    obtain ⟨hupdate, rfl⟩ := (mapM_eq_ok_iff updateExtrinsic_eq_ok_iff).mp hexts
    cases h
    refine ⟨fun value hvalue => ⟨hload value hvalue, ?_⟩, ?_⟩
    · exact hupdate _ (List.mem_map_of_mem hvalue)
    · rw [← hvalues, ← hgrid]
      rfl
  · rintro ⟨hpasses, rfl⟩
    refine exceptBind_eq_ok.mpr ⟨_, (mapM_eq_ok_iff loadContract_eq_ok_iff).mpr
      ⟨fun value hvalue => (hpasses value hvalue).1, rfl⟩, ?_⟩
    refine exceptBind_eq_ok.mpr ⟨_, (mapM_eq_ok_iff updateExtrinsic_eq_ok_iff).mpr
      ⟨fun contract hcontract => ?_, rfl⟩, ?_⟩
    · obtain ⟨value, hvalue, rfl⟩ := List.mem_map.mp hcontract
      exact (hpasses value hvalue).2
    · rw [← hvalues, ← hgrid]
      rfl

/-! Runs one after the other. -/

theorem batches_batches (n : ℕ) (g : Grid D V) :
    batches moduleName twinId contractId values n (batches moduleName twinId contractId values 1 g) =
      batches moduleName twinId contractId values (n + 1) g := by
  unfold batches
  dsimp only
  congr 1
  funext id
  split_ifs with hid
  · rw [Option.map_map]
    rfl
  · rfl

/-- A batch leaves the contracts of the values in their place. -/
theorem loaded_batches {value : Option (List V)} (hvalue : value ∈ values) :
    loaded contractId (batches moduleName twinId contractId values 1 g) value =
      (loaded contractId g value).map fun found => (found.1, migrated moduleName twinId found.2) := by
  unfold loaded
  cases hid : idOf contractId value with
  | none => rfl
  | some id =>
    have hmem : id ∈ values.filterMap (idOf contractId) := List.mem_filterMap.mpr ⟨value, hvalue, hid⟩
    unfold batches
    dsimp only [Option.bind_some]
    rw [if_pos hmem, Option.map_map, Option.map_map]
    rfl

theorem passes_batches (hpasses : ∀ value ∈ values, Passes moduleName twinId contractId g value) :
    ∀ value ∈ values, Passes moduleName twinId contractId
      (batches moduleName twinId contractId values 1 g) value := by
  intro value hvalue
  obtain ⟨hvalue', hupdates⟩ := hpasses value hvalue
  refine ⟨hvalue', fun id contract hloaded => ?_⟩
  rw [loaded_batches hvalue] at hloaded
  obtain ⟨⟨id', before⟩, hbefore, hsame⟩ := Option.map_eq_some_iff.mp hloaded
  cases hsame
  exact updateContract_migrated_ok (hupdates id' before hbefore)

theorem kept_batches {value : Option (List V)} (hvalue : value ∈ values) :
    kept contractId (batches moduleName twinId contractId values 1 g) value =
      kept contractId g value := by
  unfold kept
  rw [loaded_batches hvalue]
  cases loaded contractId g value with
  | none => rfl
  | some found =>
    dsimp only [Option.map_some]
    rw [gracePeriod_migrated]

def valuesOf (list : Lists V) (g : Grid D V) : List (Option (List V)) :=
  (list g.stored).map (loadValue g)

/-- A run after interrupted ones moves the same keys; the contracts went through all batches. -/
theorem migrateAfter_eq
    (hpasses : ∀ value ∈ valuesOf list g, Passes moduleName twinId contractId g value) (n : ℕ) :
    migrateAfter moduleName twinId contractId list g n =
      .ok (migrateKeys moduleName twinId
        (batches moduleName twinId contractId (valuesOf list g) (n + 1) g) (list g.stored)
        ((valuesOf list g).map (kept contractId g))) := by
  have hbatch := migrateContracts_eq_ok_iff.mpr ⟨hpasses, rfl⟩
  induction n generalizing g with
  | zero => exact exceptBind_eq_ok.mpr ⟨_, hbatch, rfl⟩
  | succ n ih =>
    -- the batch leaves the storage, and contracts that pass again
    refine exceptBind_eq_ok.mpr ⟨_, exceptMap_eq_ok.mpr ⟨_, hbatch, rfl⟩, ?_⟩
    have hnext := passes_batches hpasses
    rw [ih hnext (migrateContracts_eq_ok_iff.mpr ⟨hnext, rfl⟩)]
    refine congrArg (fun grid => Except.ok (migrateKeys moduleName twinId grid _ _)) ?_ |>.trans
      (congrArg (fun values => Except.ok (migrateKeys moduleName twinId _ _ values)) ?_)
    · exact batches_batches (n + 1) g
    · exact List.map_congr_left fun value hvalue => kept_batches hvalue

theorem migrateKeys_batches_inj {keys : List String} {kepts : List (Option (List V))} {m n : ℕ} :
    migrateKeys moduleName twinId (batches moduleName twinId contractId values m g) keys kepts =
      migrateKeys moduleName twinId (batches moduleName twinId contractId values n g) keys kepts ↔
    ∀ id ∈ values.filterMap (idOf contractId), ∀ contract, g.contracts id = some contract →
      (migrated moduleName twinId)^[m] contract = (migrated moduleName twinId)^[n] contract := by
  constructor
  · intro hsame id hid contract hcontract
    have hcontracts := congrFun (congrArg Grid.contracts hsame) id
    unfold migrateKeys batches at hcontracts
    dsimp only at hcontracts
    rw [if_pos hid, if_pos hid, hcontract] at hcontracts
    exact Option.some.inj hcontracts
  · intro hall
    unfold migrateKeys batches
    dsimp only
    congr 1
    funext id
    split_ifs with hid
    · cases hcontract : g.contracts id with
      | none => rfl
      | some contract => exact congrArg some (hall id hid contract hcontract)
    · rfl

end

/-- A run that gets through after interrupted ones ends as one that was not interrupted exactly when
the contracts of all keys have the name of a project. -/
theorem migrateAfter_sameEnd_iff {D V : Type} (moduleName : String) (twinId : ℕ) (contractId : V → ℕ)
    (list : Lists V) {g done : Grid D V}
    (hdone : migrateModule moduleName twinId contractId list g = .ok done) (failures : ℕ) :
    migrateAfter moduleName twinId contractId list g (failures + 1) = .ok done ↔
      HaveProjects moduleName twinId contractId list g := by
  obtain ⟨_, hbatch, -⟩ := exceptBind_eq_ok.mp hdone
  have hpasses : ∀ value ∈ valuesOf list g, Passes moduleName twinId contractId g value :=
    (migrateContracts_eq_ok_iff.mp hbatch).1
  have honce := migrateAfter_eq hpasses 0
  rw [migrateAfter_eq hpasses, ← hdone, ← migrateAfter, honce]
  refine (Iff.intro Except.ok.inj (congrArg Except.ok)).trans (migrateKeys_batches_inj.trans ?_)
  constructor
  · intro hall key hkey v rest hload contract hcontract
    have hmem : some (v :: rest) ∈ valuesOf list g := List.mem_map.mpr ⟨key, hkey, hload⟩
    refine (migrated_iterate_iff ((hpasses _ hmem).2 (contractId v) contract ?_) failures).mp
      (hall (contractId v) (List.mem_filterMap.mpr ⟨_, hmem, rfl⟩) contract hcontract)
    unfold loaded
    rw [idOf, Option.bind_some, List.head?_cons, Option.map_some, Option.bind_some, hcontract]
    rfl
  · intro hprojects id hid contract hcontract
    obtain ⟨value, hvalue, hidOf⟩ := List.mem_filterMap.mp hid
    have hloaded : loaded contractId g value = some (id, contract) := by
      unfold loaded
      rw [hidOf, Option.bind_some, hcontract, Option.map_some]
    refine (migrated_iterate_iff ((hpasses value hvalue).2 id contract hloaded) failures).mpr ?_
    obtain ⟨key, hkey, hload⟩ := List.mem_map.mp hvalue
    obtain ⟨v, hhead, rfl⟩ := Option.map_eq_some_iff.mp hidOf
    obtain ⟨vs, hvs, hhead⟩ := Option.bind_eq_some_iff.mp hhead
    obtain ⟨rest, rfl⟩ := List.head?_eq_some_iff.mp hhead
    exact hprojects key hkey v rest (hload.trans hvs) contract hcontract

/-- One machine whose contract is in a project. -/
def oneMachine (projectName : String) : Grid Unit ℕ where
  contracts id := if id = 7 then some ⟨0, some ⟨some ⟨some "vm", some projectName, ()⟩, "hash"⟩⟩
    else none
  stored path := if path = ["vm", "contracts.json"] then some (some [7]) else none

def oneKey : Lists ℕ := fun _ => ["vm"]

theorem oneMachine_sameEnd : ∃ done,
    migrateModule "machines" 21 id oneKey (oneMachine "p") = .ok done ∧
      migrateAfter "machines" 21 id oneKey (oneMachine "p") 1 = .ok done := by
  refine ⟨_, rfl, (migrateAfter_sameEnd_iff "machines" 21 id oneKey rfl 0).mpr ?_⟩
  intro key hkey v rest hload contract hcontract _ nodeContract oldData name hnode hdata _
  cases List.mem_singleton.mp hkey
  cases hload
  cases hcontract
  cases hnode
  cases hdata
  exact .inl (by decide)

/-- The project name that a contract is left with. -/
def projectOf (g : Grid Unit ℕ) (id : ℕ) : Option String :=
  (g.contracts id).bind fun contract => contract.nodeContract.bind fun nodeContract =>
    nodeContract.deploymentData.bind (·.projectName)

/-- Without a project, the machine is in its own after a run, and in a project of this after two. -/
theorem noProject_appended : ∃ done again,
    migrateModule "machines" 21 id oneKey (oneMachine "") = .ok done ∧
      migrateAfter "machines" 21 id oneKey (oneMachine "") 1 = .ok again ∧
        projectOf done 7 = some "vm" ∧ projectOf again 7 = some "vm/vm" ∧ again ≠ done := by
  refine ⟨_, _, rfl, rfl, by decide +kernel, by decide +kernel, fun hsame => ?_⟩
  have hproject := congrArg (fun g => projectOf g 7) hsame
  revert hproject
  decide +kernel

end ThreefoldSdk.Playground.Migration
