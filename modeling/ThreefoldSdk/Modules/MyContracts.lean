import ThreefoldSdk.Lib.Overlay
import ThreefoldSdk.Primitives.LightNetwork
import ThreefoldSdk.TfChain.Contracts

/-! The contracts of a module: what `BaseModule.save` records, and what `getMyContracts` makes of it
together with the answer of the indexer. -/

namespace ThreefoldSdk.Modules
open Primitives TfChain

/-- The static lists of `BaseModule`. -/
structure SharedContracts where
  newContracts : List GqlNodeContract
  deletedContracts : List Nat

/-- A call of `save`: the contracts it is given, and `Date.now()`. -/
structure SaveCall where
  created : List Contract
  deleted : List Nat
  now : Nat

/-- What a created contract is recorded as; `parse` is `JSON.parse`. -/
def recordOf (parse : String → DeploymentData) (now : Nat) (c : Contract) : Option GqlNodeContract :=
  c.nodeContract.map fun n => ⟨c.contractId, n.nodeId, now, parse n.deploymentData⟩

/-- The records and the deletions of `save`; the files it keeps in the backend are left out. -/
def save (parse : String → DeploymentData) (s : SharedContracts) (call : SaveCall) :
    SharedContracts where
  newContracts := s.newContracts ++ call.created.filterMap (recordOf parse call.now)
  deletedContracts := s.deletedContracts ++ call.deleted

/-- A module by its name and the project it is configured with. -/
structure BaseModule where
  moduleName : String
  projectName : String

namespace BaseModule

/-- `modulesNames[this.moduleName] ?? this.moduleName`. -/
def type (m : BaseModule) : String :=
  ([("machines", "vm"), ("kubernetes", "kubernetes"), ("gateways", "gateway"),
    ("qsfs_zdbs", "qsfs"), ("zdb", "zdb"), ("networks", "network")].lookup m.moduleName).getD
      m.moduleName

/-- The project name that the indexer is asked for. -/
def filterName (m : BaseModule) : String := if m.type = "network" then "" else m.projectName

/-- What the query asks of a contract. -/
def Queried (m : BaseModule) (c : GqlNodeContract) : Prop :=
  c.parsedDeploymentData.type = m.type ∧
    ∃ p ∈ c.parsedDeploymentData.projectName, m.filterName.toList <+: p.toList

/-- The test of the loop over the recorded contracts. -/
def selects (m : BaseModule) (c : GqlNodeContract) : Bool :=
  (c.parsedDeploymentData.projectName.any fun p => decide (m.projectName.toList <:+: p.toList)) &&
    decide (c.parsedDeploymentData.type = m.type)

/-- A contract updated less than a minute ago. -/
def recent (now : Nat) (c : GqlNodeContract) : Bool := decide (now < c.updatedAt + 1000 * 60)

/-- `getMyContracts(true)`; a record without a project name throws. -/
def getMyContracts (m : BaseModule) (now : Nat) (snapshot : List GqlNodeContract)
    (s : SharedContracts) : Except GridError (List GqlNodeContract × SharedContracts) :=
  if s.newContracts.any fun c => c.parsedDeploymentData.projectName.isNone then .error .typeError
  else
    let r := Overlay.merge (·.contractID) m.selects (recent now) snapshot s.newContracts
    .ok (r.1.filter fun c => c.contractID ∉ s.deletedContracts, { s with newContracts := r.2 })

end BaseModule

/-- The records of all calls, and all deletions. -/
def createdBy (parse : String → DeploymentData) (calls : List SaveCall) : List GqlNodeContract :=
  calls.flatMap fun call => call.created.filterMap (recordOf parse call.now)

def deletedBy (calls : List SaveCall) : List Nat := calls.flatMap (·.deleted)

/-- The contracts of the snapshot and those created that the query asks for, without those deleted,
each once. -/
def ReadsOwnWrites (m : BaseModule) (snapshot created : List GqlNodeContract) (deleted : List Nat)
    (r : Except GridError (List GqlNodeContract × SharedContracts)) : Prop :=
  ∃ contracts s, r = .ok (contracts, s) ∧ (contracts.map (·.contractID)).Nodup ∧
    ∀ id, id ∈ contracts.map (·.contractID) ↔
      (id ∈ snapshot.map (·.contractID) ∨ ∃ c ∈ created, m.Queried c ∧ c.contractID = id) ∧
        id ∉ deleted

/-- A contract of the type that the indexer does not show: its project name has the module's name in
it if and only if it begins with the name asked for, or it was recorded another time as well. -/
def Agrees (m : BaseModule) (created : List GqlNodeContract) (c : GqlNodeContract) : Prop :=
  (m.selects c = true → ¬ m.Queried c →
    ∃ d ∈ created, d.contractID = c.contractID ∧ m.Queried d) ∧
  (m.Queried c → m.selects c = false →
    ∃ d ∈ created, d.contractID = c.contractID ∧ m.selects d = true)

section
variable {parse : String → DeploymentData} {m : BaseModule} {now : Nat}
  {snapshot : List GqlNodeContract}

theorem foldl_save (s : SharedContracts) (calls : List SaveCall) :
    calls.foldl (save parse) s = ⟨s.newContracts ++ createdBy parse calls,
      s.deletedContracts ++ deletedBy calls⟩ := by
  induction calls generalizing s with
  | nil => simp [createdBy, deletedBy]
  | cons call calls ih =>
    rw [List.foldl_cons, ih]
    simp only [save, createdBy, deletedBy, List.flatMap_cons, List.append_assoc]

theorem mem_filter_ids {contracts : List GqlNodeContract} {deleted : List Nat} {id : Nat} :
    id ∈ (contracts.filter fun c => c.contractID ∉ deleted).map (·.contractID) ↔
      id ∈ contracts.map (·.contractID) ∧ id ∉ deleted := by
  simp only [List.mem_map, List.mem_filter, decide_eq_true_eq]
  constructor
  · rintro ⟨c, ⟨hc, hnot⟩, rfl⟩
    exact ⟨⟨c, hc, rfl⟩, hnot⟩
  · rintro ⟨⟨c, hc, rfl⟩, hnot⟩
    exact ⟨c, ⟨hc, hnot⟩, rfl⟩

/-- The contracts read are those that the indexer shows and those recorded for the project, without
the deleted ones. -/
theorem mem_read_iff {created : List GqlNodeContract} {deleted : List Nat} {id : Nat} :
    id ∈ ((Overlay.merge (·.contractID) m.selects (BaseModule.recent now) snapshot
        created).1.filter fun c => c.contractID ∉ deleted).map (·.contractID) ↔
      (id ∈ snapshot.map (·.contractID) ∨
        ∃ c ∈ created, m.selects c = true ∧ c.contractID = id) ∧ id ∉ deleted := by
  rw [mem_filter_ids, Overlay.mem_merge_iff]

/-- After any calls of `save`, a module reads its own writes exactly when every recorded contract
has a project name, and those of its type that the indexer does not show and that are not deleted
agree with the query. -/
theorem getMyContracts_readsOwnWrites_iff (hsnapshot : (snapshot.map (·.contractID)).Nodup)
    (calls : List SaveCall) :
    ReadsOwnWrites m snapshot (createdBy parse calls) (deletedBy calls)
        (m.getMyContracts now snapshot (calls.foldl (save parse) ⟨[], []⟩)) ↔
      (∀ c ∈ createdBy parse calls, c.parsedDeploymentData.projectName ≠ none) ∧
        ∀ c ∈ createdBy parse calls, c.contractID ∉ snapshot.map (·.contractID) →
          c.contractID ∉ deletedBy calls → Agrees m (createdBy parse calls) c := by
  rw [foldl_save, List.nil_append, List.nil_append]
  unfold BaseModule.getMyContracts
  set created := createdBy parse calls
  set deleted := deletedBy calls
  by_cases hnames : (created.any fun c => c.parsedDeploymentData.projectName.isNone) = true
  · rw [if_pos hnames]
    obtain ⟨c, hc, hnone⟩ := List.any_eq_true.mp hnames
    refine iff_of_false ?_ fun h => h.1 c hc (Option.isNone_iff_eq_none.mp hnone)
    rintro ⟨contracts, s, herror, -⟩
    cases herror
  · rw [if_neg hnames]
    have hgiven : ∀ c ∈ created, c.parsedDeploymentData.projectName ≠ none := by
      intro c hc hnone
      exact hnames (List.any_eq_true.mpr ⟨c, hc, Option.isNone_iff_eq_none.mpr hnone⟩)
    constructor
    · rintro ⟨contracts, s, hok, -, hids⟩
      obtain ⟨rfl, -⟩ := Prod.mk.inj (Except.ok.inj hok)
      refine ⟨hgiven, fun c hc hnew hstays => ⟨fun hselects hnot => ?_, fun hqueried hnot => ?_⟩⟩
      · have hread := (hids c.contractID).mp
          (mem_read_iff.mpr ⟨Or.inr ⟨c, hc, hselects, rfl⟩, hstays⟩)
        obtain ⟨d, hd, hqueried, hid⟩ := hread.1.resolve_left hnew
        exact ⟨d, hd, hid, hqueried⟩
      · have hread := mem_read_iff.mp
          ((hids _).mpr ⟨Or.inr ⟨c, hc, hqueried, rfl⟩, hstays⟩)
        obtain ⟨d, hd, hselects, hid⟩ := hread.1.resolve_left hnew
        exact ⟨d, hd, hid, hselects⟩
    · rintro ⟨-, hagrees⟩
      have hnodup := @Overlay.nodup_merge _ _ _ GqlNodeContract.contractID m.selects
        (BaseModule.recent now) snapshot created hsnapshot
      refine ⟨_, _, rfl, hnodup.sublist (List.filter_sublist.map _), fun id => ?_⟩
      rw [mem_read_iff]
      refine and_congr_left fun hstays => ?_
      by_cases hin : id ∈ snapshot.map (·.contractID)
      · exact iff_of_true (Or.inl hin) (Or.inl hin)
      · rw [or_iff_right hin, or_iff_right hin]
        constructor
        · rintro ⟨c, hc, hselects, rfl⟩
          by_cases hqueried : m.Queried c
          · exact ⟨c, hc, hqueried, rfl⟩
          · obtain ⟨d, hd, hid, hd'⟩ := (hagrees c hc hin hstays).1 hselects hqueried
            exact ⟨d, hd, hd', hid⟩
        · rintro ⟨c, hc, hqueried, rfl⟩
          cases hselects : m.selects c with
          | true => exact ⟨c, hc, hselects, rfl⟩
          | false =>
            obtain ⟨d, hd, hid, hd'⟩ := (hagrees c hc hin hstays).2 hqueried hselects
            exact ⟨d, hd, hd', hid⟩

end

/-- The deployment data of machines, by their project. -/
def vmData (project : String) : DeploymentData := ⟨"vm", "x", some project⟩

def vmContract (id : Nat) (project : String) : Contract :=
  ⟨id, 5, .created, .nodeContract ⟨11, "", project, 0⟩, none⟩

def vmModule : BaseModule := ⟨"machines", "vm"⟩

theorem vmModule_readsOwnWrites :
    let calls : List SaveCall := [⟨[vmContract 7 "vm/x", vmContract 8 "vm/y"], [], 0⟩, ⟨[], [8], 1⟩]
    ReadsOwnWrites vmModule [] (createdBy vmData calls) (deletedBy calls)
      (vmModule.getMyContracts 2 [] (calls.foldl (save vmData) ⟨[], []⟩)) := by
  have hsnapshot : (([] : List GqlNodeContract).map (·.contractID)).Nodup := List.nodup_nil
  refine (getMyContracts_readsOwnWrites_iff hsnapshot _).mpr ⟨by decide, ?_⟩
  intro c hc _ _
  have hboth : c = ⟨7, 11, 0, vmData "vm/x"⟩ ∨ c = ⟨8, 11, 0, vmData "vm/y"⟩ := by
    simpa [createdBy, recordOf, vmContract, Contract.nodeContract, ContractType.node] using hc
  have hqueried : vmModule.Queried c ∧ vmModule.selects c = true := by
    rcases hboth with rfl | rfl
    · exact ⟨⟨by decide, "vm/x", rfl, by decide⟩, by decide⟩
    · exact ⟨⟨by decide, "vm/y", rfl, by decide⟩, by decide⟩
  refine ⟨fun _ hnot => absurd hqueried.1 hnot, fun _ hnot => ?_⟩
  rw [hqueried.2] at hnot
  cases hnot

/-- A contract of another project, whose name only has the module's name in it. -/
theorem foreign_contract_listed :
    let calls : List SaveCall := [⟨[vmContract 7 "fullvm/x"], [], 0⟩]
    ¬ ReadsOwnWrites vmModule [] (createdBy vmData calls) (deletedBy calls)
      (vmModule.getMyContracts 1 [] (calls.foldl (save vmData) ⟨[], []⟩)) := by
  rintro calls ⟨contracts, s, hok, -, hids⟩
  have hlisted : (vmModule.getMyContracts 1 [] (calls.foldl (save vmData) ⟨[], []⟩)) =
      .ok ([⟨7, 11, 0, vmData "fullvm/x"⟩], ⟨[⟨7, 11, 0, vmData "fullvm/x"⟩], []⟩) := by
    rfl
  obtain ⟨rfl, -⟩ := Prod.mk.inj (Except.ok.inj (hlisted.symm.trans hok))
  obtain ⟨hread, -⟩ := (hids 7).mp (by decide)
  obtain ⟨c, hc, ⟨-, p, hp, hprefix⟩, -⟩ := hread.resolve_left (by decide)
  have hone : c = ⟨7, 11, 0, vmData "fullvm/x"⟩ := by
    simpa [calls, createdBy, recordOf, vmContract, Contract.nodeContract, ContractType.node] using hc
  rw [hone] at hp
  obtain rfl := Option.some.inj (Option.mem_def.mp hp)
  exact absurd hprefix (by decide)

end ThreefoldSdk.Modules
