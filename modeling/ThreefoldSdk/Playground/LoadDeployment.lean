import ThreefoldSdk.Playground.LoadedDeployments
import ThreefoldSdk.Primitives.Network
import ThreefoldSdk.Lib.Frame

/-! The listing of the virtual machines and the clusters of a user (`loadVms` and `loadK8s` in
`utils/load_deployment.ts`). Each project has a grid client of its own; the clients and the loaded
projects are in arrays that are joined by the index. -/

namespace ThreefoldSdk.Playground
open Primitives Frame

/-- What is read of a machine; an interface is the name of a network and an ip. -/
structure Vm where
  contractId : ℕ
  interfaces : List (String × String)
deriving DecidableEq

structure K8S where
  masters : List Vm
  workers : List Vm
deriving DecidableEq

/-- What the grid answers, with `none` for an error. The first three questions are asked by a client
that is set to a project; the last two by the client of a number. -/
structure GridAnswers (R C : Type) where
  getDeploymentContracts : String → String → Option (List C)
  getDeploymentNodeIds : String → String → Option (List ℕ)
  getObj : String → String → Option R
  timesOut : String → Bool
  getConsumption : ℕ → ℕ → Option ℚ
  getWireGuardConfigs : ℕ → String → String → List String
  normalizeBalance : ℚ → String

inductive Outcome (R C : Type) where
  | noContracts
  | failed (d : FailedDeployment C)
  | loaded (r : R)

/-- A project with the project name that its client is set to in the end. -/
structure Loading (R C : Type) where
  name : String
  projectName : String
  outcome : Outcome R C

/-- `deploymentName` and `projectName` are written on what was loaded. -/
structure Item (R : Type) where
  deploymentName : String
  projectName : String
  value : R

/-- An entry of the result: `own` is the number of its project, and `client` that of the client its
consumption and its WireGuard configuration were asked from. -/
structure Listed (R : Type) where
  item : Item R
  own : ℕ
  client : ℕ
  billing : String
  wireguard : Option String

/-- The project that the client of a name is made for. -/
def ownProject (projectName n : String) : String :=
  if projectName ≠ "" then projectName ++ "/" ++ n else n

def formatConsumption (normalizeBalance : ℚ → String) : Option ℚ → String
  | none => "No Data Available"
  | some value => if value ≤ 0 then "No Data Available" else normalizeBalance value ++ " TFT/hour"

/-- The range that `getWireguardConfig` asks for. -/
def wireguardRange (ipRange : String) : String :=
  if "/16".toList <:+ ipRange.toList then ipRange
  else
    let parts := ipRange.splitOn "."
    ".".intercalate (parts.take 2 ++ List.replicate (2 - parts.length) "" ++ ["0", "0"] ++
      parts.drop 4) ++ "/16"

section
variable {R C : Type} (a : GridAnswers R C) (projectName : String)

/-- The race of `getObj` with the timeout. -/
def raceObj (redo : R → Bool) (client n : String) (failed : FailedDeployment C) : Loading R C :=
  -- the timeout rejects, and every rejection is caught
  if a.timesOut n then ⟨n, client, .failed failed⟩
  else
    match a.getObj client n with
    | none => ⟨n, client, .failed failed⟩
    | some res =>
      -- it may have been deployed without a project
      if projectName = "" ∧ redo res = true then
        match a.getObj "" n with
        | none => ⟨n, "", .failed failed⟩
        | some res => ⟨n, "", .loaded res⟩
      else ⟨n, client, .loaded res⟩

/-- `getDeploymentContracts`, and the project its client is set to afterwards. -/
def deploymentContracts (n : String) : Option (List C) × String :=
  match a.getDeploymentContracts (ownProject projectName n) n with
  | none => (none, ownProject projectName n)
  | some contracts1 =>
    if contracts1.length ≠ 0 then (some contracts1, ownProject projectName n)
    else (a.getDeploymentContracts projectName n, projectName)

/-- What is attached to an entry, asked from the client of the number; its first machine has to have
an interface. -/
def attach (client own : ℕ) (item : Item R) (first : Option Vm) : Except GridError (Listed R) :=
  match first with
  | none => .error .typeError
  | some vm =>
    match vm.interfaces with
    | [] => .error .typeError
    | (network, ip) :: _ =>
      .ok {
        item := item
        own := own
        client := client
        billing := formatConsumption a.normalizeBalance (a.getConsumption client vm.contractId)
        wireguard := (a.getWireGuardConfigs client network (wireguardRange ip)).head? }

def attachAll (first : R → Option Vm) (index : ℕ) :
    List (ℕ × Item R) → Except GridError (List (Listed R))
  | [] => .ok []
  | (own, item) :: rest => do
    let x ← attach a index own item (first item.value)
    let xs ← attachAll first (index + 1) rest
    return x :: xs

end

section
variable {R C : Type}

/-- The loaded value, with the names written on it. -/
def Loading.item (l : Loading R C) : Option (Item R) :=
  match l.outcome with
  | .loaded r => some ⟨l.name, l.projectName, r⟩
  | _ => none

def Loading.withoutContracts (l : Loading R C) : Bool := l.outcome matches .noContracts

/-- The failed deployments, in the order of the projects. -/
def failures (ls : List (Loading R C)) : List (FailedDeployment C) :=
  ls.filterMap fun l =>
    match l.outcome with
    | .failed d => some d
    | _ => none

/-- The entries that are not dropped, with the numbers of their projects. -/
def listedFrom (listed : Item R → Bool) (own : ℕ) : List (Loading R C) → List (ℕ × Item R)
  | [] => []
  | l :: ls =>
    match l.item.filter listed with
    | some item => (own, item) :: listedFrom listed (own + 1) ls
    | none => listedFrom listed (own + 1) ls

end

section
variable {C : Type} (projectName : String)

def loadMachine (a : GridAnswers (List Vm) C) (n : String) : Loading (List Vm) C :=
  let (contracts, client) := deploymentContracts a projectName n
  match contracts with
  | none => ⟨n, client, .failed ⟨n, [], []⟩⟩
  | some contracts =>
    match a.getDeploymentNodeIds client n with
    | none => ⟨n, client, .failed ⟨n, [], []⟩⟩
    | some nodeIds =>
      if contracts.length = 0 then ⟨n, client, .noContracts⟩
      else raceObj a projectName (fun res => decide (res.length = 0)) client n ⟨n, nodeIds, contracts⟩

/-- What passes both filters of `loadVms`. -/
def vmListed (filter : Item (List Vm) → Bool) (item : Item (List Vm)) : Bool :=
  !item.value.isEmpty && filter item

/-- `loadVms` on the names that `list` answers; `filter` is true when no filter is given. -/
def loadVms (a : GridAnswers (List Vm) C) (filter : Item (List Vm) → Bool) (machines : List String) :
    Except GridError (LoadedDeployments (Listed (List Vm)) C) := do
  let loads := machines.map (loadMachine projectName a)
  let items := loads.filterMap Loading.item
  let withoutContracts := loads.countP Loading.withoutContracts
  let empty := items.countP fun item => item.value.isEmpty
  let filtered := items.countP fun item => !item.value.isEmpty && !filter item
  let data ← attachAll a List.head? 0 (listedFrom (vmListed filter) 0 loads)
  return ⟨machines.length - withoutContracts - empty - filtered, data, failures loads⟩

def loadCluster (a : GridAnswers K8S C) (n : String) : Loading K8S C :=
  let client := ownProject projectName n
  match a.getDeploymentContracts client n with
  | none => ⟨n, client, .failed ⟨n, [], []⟩⟩
  | some contracts =>
    match a.getDeploymentNodeIds client n with
    | none => ⟨n, client, .failed ⟨n, [], []⟩⟩
    | some nodeIds =>
      let l := raceObj a projectName (fun res => decide (res.masters.length = 0)) client n
        ⟨n, nodeIds, contracts⟩
      match l.outcome with
      | .loaded res =>
        if res.masters.length = 0 ∧ res.workers.length = 0 then
          { l with outcome := .failed ⟨n, nodeIds, contracts⟩ }
        else l
      | _ => l

def k8sListed (item : Item K8S) : Bool := decide (0 < item.value.masters.length)

/-- `loadK8s` on the names that `list` answers. -/
def loadK8s (a : GridAnswers K8S C) (clusters : List String) :
    Except GridError (LoadedDeployments (Listed K8S) C) := do
  let loads := clusters.map (loadCluster projectName a)
  let data ← attachAll a (fun c => c.masters.head?) 0 (listedFrom k8sListed 0 loads)
  return ⟨clusters.length, data, failures loads⟩

end

/-- No project is lost from the count, and none is asked about with the client of another. -/
structure KeptApart {R C : Type} (r : LoadedDeployments (Listed R) C) : Prop where
  count : r.count = r.size
  client : ∀ x ∈ r.items, x.client = x.own

def Loading.isListed {R C : Type} (listed : Item R → Bool) (l : Loading R C) : Prop :=
  ∃ item ∈ l.item, listed item = true

/-- Nothing that is dropped comes before something that is listed. -/
def ListedFirst {R C : Type} (listed : Item R → Bool) (ls : List (Loading R C)) : Prop :=
  ls.Pairwise fun l l' => l'.isListed listed → l.isListed listed

section
variable {R C : Type} {a : GridAnswers R C} {listed : Item R → Bool} {l : Loading R C}
  {ls : List (Loading R C)} {index own : ℕ}

theorem isListed_iff : l.isListed listed ↔ (l.item.filter listed).isSome = true := by
  unfold Loading.isListed
  cases h : l.item with
  | none => exact iff_of_false (fun ⟨item, hitem, _⟩ => nomatch hitem) Bool.false_ne_true
  | some item =>
    rw [Option.filter_some]
    split_ifs with hlisted
    · exact iff_of_true ⟨item, rfl, hlisted⟩ rfl
    · refine iff_of_false ?_ Bool.false_ne_true
      rintro ⟨x, hx, hxlisted⟩
      exact hlisted (Option.some.inj hx ▸ hxlisted)

theorem attach_numbers {item : Item R} {first : Option Vm} {x : Listed R}
    (h : attach a index own item first = .ok x) : x.client = index ∧ x.own = own := by
  unfold attach at h
  split at h
  · cases h
  · split at h
    · cases h
    · cases h
      exact ⟨rfl, rfl⟩

theorem attachAll_numbers {first : R → Option Vm} {entries : List (ℕ × Item R)}
    {xs : List (Listed R)} (h : attachAll a first index entries = .ok xs) :
    xs.map (·.own) = entries.map Prod.fst ∧ xs.map (·.client) = List.range' index xs.length := by
  induction entries generalizing index xs with
  | nil =>
    cases h
    exact ⟨rfl, rfl⟩
  | cons e entries ih =>
    obtain ⟨x, hx, h⟩ := exceptBind_eq_ok.mp h
    obtain ⟨xs', hxs, h⟩ := exceptBind_eq_ok.mp h
    cases h
    obtain ⟨hclient, hown⟩ := attach_numbers hx
    obtain ⟨howns, hclients⟩ := ih hxs
    rw [List.map_cons, List.map_cons, List.map_cons, List.length_cons, List.range'_succ, howns,
      hclients, hclient, hown]
    exact ⟨rfl, rfl⟩

theorem le_of_mem_listedFrom {e : ℕ × Item R} (h : e ∈ listedFrom listed own ls) : own ≤ e.1 := by
  induction ls generalizing own with
  | nil => cases h
  | cons l ls ih =>
    rw [listedFrom] at h
    split at h
    · rcases List.mem_cons.mp h with rfl | h
      · exact le_rfl
      · exact (Nat.le_succ own).trans (ih h)
    · exact (Nat.le_succ own).trans (ih h)

theorem listedFrom_eq_nil_iff :
    listedFrom listed own ls = [] ↔ ∀ l ∈ ls, ¬l.isListed listed := by
  induction ls generalizing own with
  | nil => exact iff_of_true rfl fun l hl => absurd hl List.not_mem_nil
  | cons l ls ih =>
    rw [List.forall_mem_cons, isListed_iff, listedFrom]
    cases h : l.item.filter listed with
    | none => exact ih.trans (and_iff_right Bool.false_ne_true).symm
    | some item => exact iff_of_false (List.cons_ne_nil _ _) fun hall => hall.1 rfl

/-- The numbers of the entries are consecutive exactly when what is dropped comes last. -/
theorem listedFrom_numbers_iff :
    (listedFrom listed own ls).map Prod.fst = List.range' own (listedFrom listed own ls).length ↔
      ListedFirst listed ls := by
  induction ls generalizing own with
  | nil => exact iff_of_true rfl List.Pairwise.nil
  | cons l ls ih =>
    unfold ListedFirst
    rw [List.pairwise_cons, isListed_iff]
    cases h : l.item.filter listed with
    | some item =>
      rw [listedFrom, h]
      change own :: _ = List.range' own (List.length _ + 1) ↔ _
      rw [List.range'_succ, List.cons_inj_right, ih]
      exact (and_iff_right fun l' _ _ => rfl).symm
    | none =>
      rw [listedFrom, h]
      change _ = List.range' own (List.length (listedFrom listed (own + 1) ls)) ↔ _
      have hnone : (∀ l' ∈ ls, l'.isListed listed → Option.isSome (none : Option (Item R)) = true) ↔
          listedFrom listed (own + 1) ls = [] :=
        (forall₂_congr fun l' _ => imp_congr_right fun _ => Iff.rfl.trans (iff_false_intro
          Bool.false_ne_true)).trans listedFrom_eq_nil_iff.symm
      rw [hnone]
      constructor
      · intro hrange
        have hnil : listedFrom listed (own + 1) ls = [] := by
          cases hls : listedFrom listed (own + 1) ls with
          | nil => rfl
          | cons e rest =>
            rw [hls, List.map_cons, List.length_cons, List.range'_succ] at hrange
            have hmem : e ∈ listedFrom listed (own + 1) ls := hls ▸ List.mem_cons_self
            have hle := le_of_mem_listedFrom hmem
            have hfirst := (List.cons.inj hrange).1
            omega
        refine ⟨hnil, ?_⟩
        have hall := listedFrom_eq_nil_iff.mp hnil
        exact List.pairwise_of_forall_mem_list fun l _ l' hl' hlisted => absurd hlisted (hall l' hl')
      · rintro ⟨hnil, -⟩
        rw [hnil]
        rfl

theorem length_listedFrom :
    (listedFrom listed own ls).length = (ls.filterMap Loading.item).countP listed := by
  induction ls generalizing own with
  | nil => rfl
  | cons l ls ih =>
    rw [listedFrom]
    cases h : l.item with
    | none => rw [List.filterMap_cons_none h, Option.filter_none, ih]
    | some item =>
      rw [List.filterMap_cons_some h, Option.filter_some, List.countP_cons]
      split_ifs
      · rw [List.length_cons, ih]
      · exact ih

/-- A project has no contracts, fails, or is loaded. -/
theorem length_outcomes (ls : List (Loading R C)) :
    ls.length = ls.countP Loading.withoutContracts + (failures ls).length +
      (ls.filterMap Loading.item).length := by
  induction ls with
  | nil => rfl
  | cons l ls ih =>
    obtain ⟨name, projectName, outcome⟩ := l
    unfold failures at ih ⊢
    rw [List.length_cons, ih]
    cases outcome <;>
      simp [Loading.withoutContracts, List.filterMap_cons, List.countP_cons, Loading.item] <;> omega

theorem attachAll_length {first : R → Option Vm} {xs : List (Listed R)}
    (h : attachAll a first 0 (listedFrom listed 0 ls) = .ok xs) :
    xs.length = (ls.filterMap Loading.item).countP listed := by
  have hsame := congrArg List.length (attachAll_numbers h).1
  rwa [List.length_map, List.length_map, length_listedFrom] at hsame

theorem clients_own_iff {first : R → Option Vm} {xs : List (Listed R)}
    (h : attachAll a first 0 (listedFrom listed 0 ls) = .ok xs) :
    (∀ x ∈ xs, x.client = x.own) ↔ ListedFirst listed ls := by
  obtain ⟨howns, hclients⟩ := attachAll_numbers h
  have hlength : xs.length = (listedFrom listed 0 ls).length :=
    (attachAll_length h).trans length_listedFrom.symm
  rw [← listedFrom_numbers_iff, ← howns, ← hlength, ← hclients, eq_comm, List.map_inj_left]

end

section
variable {C : Type} {projectName : String}

/-- What is loaded is empty, or filtered, or listed. -/
theorem countP_vmListed (filter : Item (List Vm) → Bool) (items : List (Item (List Vm))) :
    items.countP (fun item => item.value.isEmpty) +
      items.countP (fun item => !item.value.isEmpty && !filter item) +
        items.countP (vmListed filter) = items.length := by
  induction items with
  | nil => rfl
  | cons item items ih =>
    rw [List.countP_cons, List.countP_cons, List.countP_cons, List.length_cons, ← ih, vmListed]
    rcases item.value.isEmpty.eq_false_or_eq_true with hempty | hempty <;>
      rcases (filter item).eq_false_or_eq_true with hfilter | hfilter <;>
      simp [hempty, hfilter] <;> omega

/-- The count of the machines is always right. -/
theorem loadVms_count {a : GridAnswers (List Vm) C} {filter : Item (List Vm) → Bool}
    {machines : List String} {r : LoadedDeployments (Listed (List Vm)) C}
    (h : loadVms projectName a filter machines = .ok r) : r.count = r.size := by
  obtain ⟨data, hdata, h⟩ := exceptBind_eq_ok.mp h
  cases h
  have houtcomes := length_outcomes (machines.map (loadMachine projectName a))
  have hlisted := countP_vmListed filter
    ((machines.map (loadMachine projectName a)).filterMap Loading.item)
  rw [List.length_map] at houtcomes
  unfold LoadedDeployments.size
  rw [attachAll_length hdata]
  push_cast
  omega

theorem raceObj_withoutContracts {R : Type} {a : GridAnswers R C} {redo : R → Bool}
    {client n : String} {failed : FailedDeployment C} :
    (raceObj a projectName redo client n failed).withoutContracts = false := by
  unfold raceObj
  split_ifs
  · rfl
  · split
    · rfl
    · split_ifs
      · split <;> rfl
      · rfl

theorem loadCluster_withoutContracts {a : GridAnswers K8S C} {n : String} :
    (loadCluster projectName a n).withoutContracts = false := by
  unfold loadCluster
  dsimp only
  split
  · rfl
  · split
    · rfl
    · split
      · split_ifs
        · rfl
        · exact raceObj_withoutContracts
      · exact raceObj_withoutContracts

/-- The clusters without masters are counted, and not listed. -/
theorem loadK8s_count_iff {a : GridAnswers K8S C} {clusters : List String}
    {r : LoadedDeployments (Listed K8S) C} (h : loadK8s projectName a clusters = .ok r) :
    r.count = r.size ↔
      ∀ item ∈ (clusters.map (loadCluster projectName a)).filterMap Loading.item,
        item.value.masters ≠ [] := by
  obtain ⟨data, hdata, h⟩ := exceptBind_eq_ok.mp h
  cases h
  have houtcomes := length_outcomes (clusters.map (loadCluster projectName a))
  have hnone : (clusters.map (loadCluster projectName a)).countP
      Loading.withoutContracts = 0 := by
    refine List.countP_eq_zero.mpr fun l hl => ?_
    obtain ⟨n, -, rfl⟩ := List.mem_map.mp hl
    exact Bool.not_eq_true _ ▸ loadCluster_withoutContracts
  rw [List.length_map, hnone, zero_add] at houtcomes
  have hall : ∀ item : Item K8S, item.value.masters ≠ [] ↔ k8sListed item = true := fun item => by
    rw [k8sListed, decide_eq_true_iff, List.length_pos_iff]
  simp only [hall]
  rw [← List.countP_eq_length]
  unfold LoadedDeployments.size
  rw [attachAll_length hdata]
  push_cast
  omega

end

/-- The machines are kept apart exactly when nothing that is dropped comes before something that is
listed; for the clusters, moreover, none that is loaded may be without masters. -/
theorem listings_keptApart_iff {C : Type} (projectName : String)
    (a : GridAnswers (List Vm) C) (filter : Item (List Vm) → Bool) (machines : List String)
    (b : GridAnswers K8S C) (clusters : List String) :
    (∀ r, loadVms projectName a filter machines = .ok r →
      (KeptApart r ↔ ListedFirst (vmListed filter) (machines.map (loadMachine projectName a)))) ∧
    (∀ r, loadK8s projectName b clusters = .ok r →
      (KeptApart r ↔ ListedFirst k8sListed (clusters.map (loadCluster projectName b)) ∧
        ∀ item ∈ (clusters.map (loadCluster projectName b)).filterMap Loading.item,
          item.value.masters ≠ [])) := by
  constructor
  · intro r h
    have hcount := loadVms_count h
    obtain ⟨data, hdata, h⟩ := exceptBind_eq_ok.mp h
    cases h
    rw [← clients_own_iff hdata]
    exact ⟨fun hkept => hkept.client, fun hclient => ⟨hcount, hclient⟩⟩
  · intro r h
    have hcount := loadK8s_count_iff h
    obtain ⟨data, hdata, h⟩ := exceptBind_eq_ok.mp h
    cases h
    rw [← clients_own_iff hdata]
    exact ⟨fun hkept => ⟨hkept.client, hcount.mp hkept.count⟩,
      fun hapart => ⟨hcount.mpr hapart.2, hapart.1⟩⟩

def plainVm : Vm := ⟨7, [("net", "10.20.2.2")]⟩

/-- The contracts of one project are not read. -/
def oneLost {R : Type} (obj : R) : GridAnswers R ℕ where
  getDeploymentContracts _ n := if n = "lost" then none else some [7]
  getDeploymentNodeIds _ _ := some [1]
  getObj _ _ := some obj
  timesOut _ := false
  getConsumption _ _ := none
  getWireGuardConfigs _ network _ := [network]
  normalizeBalance _ := ""

/-- It is listed last. -/
theorem lostLast_keptApart :
    (∃ r, loadVms "" (oneLost [plainVm]) (fun _ => true) ["kept", "lost"] = .ok r ∧ KeptApart r) ∧
    ∃ r, loadK8s "" (oneLost ⟨[plainVm], []⟩) ["kept", "lost"] = .ok r ∧ KeptApart r := by
  obtain ⟨hvms, hk8s⟩ := listings_keptApart_iff "" (oneLost [plainVm]) (fun _ => true)
    ["kept", "lost"] (oneLost ⟨[plainVm], []⟩) ["kept", "lost"]
  have hlost : ∀ {R : Type} (listed : Item R → Bool) (l : Loading R ℕ) (d : FailedDeployment ℕ),
      ListedFirst listed [l, ⟨"lost", "lost", .failed d⟩] := fun listed l d =>
    List.pairwise_pair.mpr fun ⟨item, hitem, _⟩ => nomatch hitem
  refine ⟨⟨_, rfl, (hvms _ rfl).mpr (hlost _ _ _)⟩, ⟨_, rfl, (hk8s _ rfl).mpr ⟨hlost _ _ _, ?_⟩⟩⟩
  intro item hitem
  cases List.mem_singleton.mp hitem
  exact List.cons_ne_nil _ _

/-- Listed first, it leaves its client to the other project. A cluster without masters is counted. -/
theorem lostFirst_not_keptApart :
    (∃ r, loadVms "" (oneLost [plainVm]) (fun _ => true) ["lost", "kept"] = .ok r ∧ ¬KeptApart r) ∧
    ∃ r, loadK8s "mine" (oneLost ⟨[], [plainVm]⟩) ["kept"] = .ok r ∧ ¬KeptApart r := by
  refine ⟨⟨_, rfl, fun h => ?_⟩, ⟨_, rfl, fun h => ?_⟩⟩
  · have hclient := h.client _ List.mem_cons_self
    revert hclient
    decide
  · have hcount := h.count
    revert hcount
    decide

end ThreefoldSdk.Playground
