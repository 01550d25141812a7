import ThreefoldSdk.HighLevel.CreateBatch
import ThreefoldSdk.Modules.MyContracts

/-! What `saveNetworks` records of the created contracts, and what the two network classes read of
it while the indexer does not show them. -/

namespace ThreefoldSdk.HighLevel
open Zos Primitives TfChain Modules Frame

/-- A call of `network.save`: the contract it is given, and the deleted one. -/
structure NetworkSave where
  added : Option Contract
  deleted : Option Nat

/-- What `save` does to the static lists of `Network`. -/
def NetworkSave.save (parse : String → DeploymentData) (now : Nat) (s : SharedContracts)
    (call : NetworkSave) : SharedContracts where
  newContracts := s.newContracts ++ (call.added.bind (recordOf parse now)).toList
  deletedContracts := s.deletedContracts ++ call.deleted.toList

/-- The contract it records; `save` looks for a node contract. -/
def NetworkSave.ids (call : NetworkSave) : List Nat :=
  (call.added.bind fun c => c.nodeContract.map fun _ => c.contractId).toList

/-- The calls of `network.save` for a twin deployment. -/
def savesOf (created : List Contract) (t : TwinDeployment) : List NetworkSave :=
  match t.network, t.operation with
  | some (.network _), .deploy =>
    (t.workloads.filter fun w => decide (w.type = .network)).map fun _ =>
      ⟨(created.filter fun c => some c.contractId = t.contractId).head?, none⟩
  | some (.network _), .delete => [⟨none, t.contractId⟩]
  | _, _ => []

/-- The loop ends at the first twin deployment without a network. -/
def networkSaves (created : List Contract) (ts : List TwinDeployment) : List NetworkSave :=
  (ts.takeWhile fun t => t.network.isSome).flatMap (savesOf created)

/-- The static lists of `Network` after these calls. -/
def savedLists (parse : String → DeploymentData) (now : Nat) (created : List Contract)
    (ts : List TwinDeployment) (s : SharedContracts) : SharedContracts :=
  (networkSaves created ts).foldl (NetworkSave.save parse now) s

/-- The static lists of the class of a network workload; nothing writes those of `ZNetworkLight`. -/
def staticLists (s : SharedContracts) : WorkloadTypes → SharedContracts
  | .networklight => ⟨[], []⟩
  | _ => s

/-- The type that the deployment data of a network contract have. -/
def networkType : WorkloadTypes → String
  | .networklight => "network-light"
  | _ => "network"

/-- `getMyNetworkContracts(true)` of either class. -/
def getMyNetworkContracts (type : String) (snapshot : List GqlNodeContract) (s : SharedContracts) :
    List GqlNodeContract × SharedContracts :=
  let r := Overlay.merge (·.contractID) (fun c => decide (c.parsedDeploymentData.type = type))
    (fun _ => false) snapshot s.newContracts
  (r.1.filter fun c => c.contractID ∉ s.deletedContracts, { s with newContracts := r.2 })

/-- Whether or not the indexer shows the contract, `exists` knows the network and `load` goes
through the contract. -/
def Finds (s : SharedContracts) (type name : String) (id : Nat) (data : DeploymentData) : Prop :=
  ∀ snapshot, (∀ g ∈ snapshot, g.contractID = id → g.parsedDeploymentData = data) →
    networkKnown name (getMyNetworkContracts type snapshot s).1 = true ∧
      id ∈ (contractsNamed name (getMyNetworkContracts type snapshot s).1).map (·.contractID)

/-- Each created contract of a deployment with a network workload is recorded, and found when its
data name the network. -/
def Remembered (parse : String → DeploymentData) (created : List Contract)
    (ts : List TwinDeployment) (s : SharedContracts) : Prop :=
  ∀ t ∈ ts, t.operation = .deploy → ∀ c ∈ created, some c.contractId = t.contractId →
    ∀ v ∈ t.workloads, isAnyNetwork v = true →
      c.contractId ∈ (staticLists s v.type).newContracts.map (·.contractID) ∧
        ∀ n ∈ c.nodeContract, (parse n.deploymentData).type = networkType v.type →
          (parse n.deploymentData).name = v.name →
          c.contractId ∉ (staticLists s v.type).deletedContracts →
          Finds (staticLists s v.type) (networkType v.type) v.name c.contractId
            (parse n.deploymentData)

/-- The node contract of a deployment that has a network workload and a `Network`, and that no twin
deployment without a network stands before. -/
def Reached (ts : List TwinDeployment) (c : Contract) : Prop :=
  c.nodeContract ≠ none ∧ ∃ t ∈ ts.takeWhile (fun t => t.network.isSome), t.operation = .deploy ∧
    t.contractId = some c.contractId ∧ (∃ n, t.network = some (.network n)) ∧
    ∃ v ∈ t.workloads, v.type = .network

/-- The lists are those of the handler's world, with the data of the contracts. -/
def Stores {S : Type} (s : SharedContracts) (w : World S) : Prop :=
  s.newContracts.map (·.contractID) = w.newContracts ∧ s.deletedContracts = w.deletedContracts

section
variable {S : Type} {env : HandlerEnv S} {parse : String → DeploymentData} {now : Nat}
  {created : List Contract} {ts : List TwinDeployment} {s : SharedContracts} {w w' : World S}

theorem recordOf_contractID {c : Contract} {g : GqlNodeContract} (h : recordOf parse now c = some g) :
    g.contractID = c.contractId ∧
      ∃ n, c.nodeContract = some n ∧ g.parsedDeploymentData = parse n.deploymentData := by
  obtain ⟨n, hn, rfl⟩ := Option.map_eq_some_iff.mp h
  exact ⟨rfl, n, hn, rfl⟩

theorem ids_foldl_save (calls : List NetworkSave) (s : SharedContracts) :
    (calls.foldl (NetworkSave.save parse now) s).newContracts.map (·.contractID) =
      s.newContracts.map (·.contractID) ++ calls.flatMap NetworkSave.ids := by
  induction calls generalizing s with
  | nil => exact (List.append_nil _).symm
  | cons call calls ih =>
    have hids : (call.added.bind (recordOf parse now)).toList.map (·.contractID) = call.ids := by
      unfold NetworkSave.ids
      cases call.added with
      | none => rfl
      | some c =>
        rw [Option.bind_some, Option.bind_some, recordOf]
        cases c.nodeContract <;> rfl
    rw [List.foldl_cons, ih, NetworkSave.save, List.map_append, hids, List.append_assoc,
      List.flatMap_cons]

theorem deleted_foldl_save (calls : List NetworkSave) (s : SharedContracts) :
    (calls.foldl (NetworkSave.save parse now) s).deletedContracts =
      s.deletedContracts ++ calls.flatMap fun call => call.deleted.toList := by
  induction calls generalizing s with
  | nil => exact (List.append_nil _).symm
  | cons call calls ih =>
    rw [List.foldl_cons, ih, NetworkSave.save, List.append_assoc, List.flatMap_cons]

theorem networkSaves_cons {t : TwinDeployment} {n : AnyNetwork} (h : t.network = some n) :
    networkSaves created (t :: ts) = savesOf created t ++ networkSaves created ts := by
  rw [networkSaves, List.takeWhile_cons, h, Option.isSome_some, if_pos rfl, List.flatMap_cons]
  rfl

theorem networkSaves_cons_none {t : TwinDeployment} (h : t.network = none) :
    networkSaves created (t :: ts) = [] := by
  rw [networkSaves, List.takeWhile_cons, h]
  rfl

/-- The loop records the ids that the calls of `save` do. -/
theorem saveNetworks_ids (hok : saveNetworks env created ts w = .ok () w') :
    w'.newContracts = w.newContracts ++ (networkSaves created ts).flatMap NetworkSave.ids ∧
      w'.deletedContracts =
        w.deletedContracts ++ (networkSaves created ts).flatMap fun call => call.deleted.toList := by
  induction ts generalizing w with
  | nil =>
    cases hok
    exact ⟨(List.append_nil _).symm, (List.append_nil _).symm⟩
  | cons t ts ih =>
    cases hnetwork : t.network with
    | none =>
      unfold saveNetworks at hok
      rw [hnetwork] at hok
      cases hok
      rw [networkSaves_cons_none hnetwork]
      exact ⟨(List.append_nil _).symm, (List.append_nil _).symm⟩
    | some n =>
      rw [networkSaves_cons hnetwork, List.flatMap_append, List.flatMap_append, ← List.append_assoc,
        ← List.append_assoc]
      unfold savesOf
      unfold saveNetworks at hok
      rw [hnetwork] at hok ⊢
      cases n with
      | light n =>
        obtain ⟨hnew, hdeleted⟩ := ih hok
        simp only [List.flatMap_nil, List.append_nil]
        exact ⟨hnew, hdeleted⟩
      | network n =>
        cases hop : t.operation with
        | deploy =>
          rw [hop] at hok
          obtain ⟨u, w₁, hstep, hrest⟩ := bind_eq_ok.mp hok
          cases hstep
          obtain ⟨hnew, hdeleted⟩ := ih hrest
          refine ⟨?_, ?_⟩
          · rw [hnew, List.flatMap_map]
            rfl
          · rw [hdeleted, List.flatMap_map]
            simp
        | update =>
          rw [hop] at hok
          obtain ⟨hnew, hdeleted⟩ := ih hok
          simp only [List.flatMap_nil, List.append_nil]
          exact ⟨hnew, hdeleted⟩
        | delete =>
          rw [hop] at hok
          obtain ⟨u, w₁, hstep, hrest⟩ := bind_eq_ok.mp hok
          cases hstep
          obtain ⟨w₂, hgrid, hlast⟩ : ∃ w₂ : World S, w₂.grid =
                { w with deletedContracts := w.deletedContracts ++ t.contractId.toList }.grid ∧
              saveNetworks env created ts w₂ = .ok () w' := by
            dsimp only at hrest
            split at hrest
            · obtain ⟨u', w₂, hexternal, hlast⟩ := bind_eq_ok.mp hrest
              exact ⟨w₂, keeps_external.of_ok hexternal, hlast⟩
            · exact ⟨_, rfl, hrest⟩
          obtain ⟨hnew, hdeleted⟩ := ih hlast
          have hkeptNew : w₂.newContracts = w.newContracts := congrArg (fun g => g.2.2.2.1) hgrid
          have hkeptDeleted : w₂.deletedContracts = w.deletedContracts ++ t.contractId.toList :=
            congrArg (fun g => g.2.2.2.2) hgrid
          have hnone : (NetworkSave.mk none t.contractId).ids = [] := rfl
          simp only [List.flatMap_singleton]
          rw [hnone, List.append_nil, ← hkeptNew, ← hkeptDeleted]
          exact ⟨hnew, hdeleted⟩

theorem savedLists_stores (hs : Stores s w) (hok : saveNetworks env created ts w = .ok () w') :
    Stores (savedLists parse now created ts s) w' := by
  obtain ⟨hnew, hdeleted⟩ := saveNetworks_ids hok
  unfold savedLists Stores
  rw [ids_foldl_save, deleted_foldl_save, hnew, hdeleted, hs.1, hs.2]
  exact ⟨rfl, rfl⟩

theorem head?_created {c : Contract} {id : Option Nat} (hnodup : (created.map (·.contractId)).Nodup)
    (hc : c ∈ created) (hid : some c.contractId = id) :
    (created.filter fun c => some c.contractId = id).head? = some c := by
  have hall : ∀ d ∈ created.filter fun c => some c.contractId = id, d = c := by
    intro d hd
    obtain ⟨hd, hdid⟩ := List.mem_filter.mp hd
    refine List.inj_on_of_nodup_map hnodup hd hc ?_
    exact Option.some.inj ((of_decide_eq_true hdid).trans hid.symm)
  have hmem : c ∈ created.filter fun c => some c.contractId = id :=
    List.mem_filter.mpr ⟨hc, decide_eq_true hid⟩
  obtain ⟨d, ds, hcons⟩ := List.exists_cons_of_ne_nil (List.ne_nil_of_mem hmem)
  rw [hcons, List.head?_cons, hall d (hcons ▸ List.mem_cons_self)]

/-- The ids recorded are those of the contracts that the loop reaches. -/
theorem mem_networkSaves_iff (hnodup : (created.map (·.contractId)).Nodup) {c : Contract}
    (hc : c ∈ created) :
    c.contractId ∈ (networkSaves created ts).flatMap NetworkSave.ids ↔ Reached ts c := by
  constructor
  · intro h
    obtain ⟨call, hcall, hid⟩ := List.mem_flatMap.mp h
    obtain ⟨t, ht, hcall⟩ := List.mem_flatMap.mp hcall
    unfold savesOf at hcall
    split at hcall
    · rename_i n hnetwork hop
      obtain ⟨v, hv, rfl⟩ := List.mem_map.mp hcall
      obtain ⟨hv, htype⟩ := List.mem_filter.mp hv
      obtain ⟨d, hd, hnode⟩ := Option.bind_eq_some_iff.mp (Option.mem_toList.mp hid)
      obtain ⟨m, hm, hdid⟩ := Option.map_eq_some_iff.mp hnode
      obtain ⟨hd, hdt⟩ := List.mem_filter.mp (List.mem_of_head? hd)
      have hcd : d = c := List.inj_on_of_nodup_map hnodup hd hc hdid
      rw [hcd] at hm hdt
      refine ⟨by rw [hm]; exact Option.some_ne_none m, t, ht, hop, ?_, ⟨n, hnetwork⟩, v, hv, ?_⟩
      · exact (of_decide_eq_true hdt).symm
      · exact of_decide_eq_true htype
    · rw [List.mem_singleton.mp hcall] at hid
      cases hid
    · cases hcall
  · rintro ⟨hnode, t, ht, hop, hid, ⟨n, hnetwork⟩, v, hv, htype⟩
    obtain ⟨m, hm⟩ := Option.ne_none_iff_exists'.mp hnode
    refine List.mem_flatMap.mpr ⟨⟨some c, none⟩, List.mem_flatMap.mpr ⟨t, ht, ?_⟩, ?_⟩
    · unfold savesOf
      rw [hnetwork, hop]
      refine List.mem_map.mpr ⟨v, List.mem_filter.mpr ⟨hv, decide_eq_true htype⟩, ?_⟩
      rw [head?_created hnodup hc hid.symm]
    · rw [NetworkSave.ids, Option.bind_some, hm]
      exact List.mem_singleton_self _

/-- The records made for a created contract have its data. -/
theorem data_of_mem_foldl_save (calls : List NetworkSave) {s : SharedContracts} {g : GqlNodeContract}
    (h : g ∈ (calls.foldl (NetworkSave.save parse now) s).newContracts) :
    g ∈ s.newContracts ∨ ∃ call ∈ calls, ∃ c ∈ call.added, recordOf parse now c = some g := by
  induction calls generalizing s with
  | nil => exact Or.inl h
  | cons call calls ih =>
    rcases ih h with h | ⟨call', hcall, c, hc, hrecord⟩
    · rcases List.mem_append.mp h with h | h
      · exact Or.inl h
      · obtain ⟨c, hc, hrecord⟩ := Option.bind_eq_some_iff.mp (Option.mem_toList.mp h)
        exact Or.inr ⟨call, List.mem_cons_self, c, hc, hrecord⟩
    · exact Or.inr ⟨call', List.mem_cons_of_mem _ hcall, c, hc, hrecord⟩

theorem added_mem_created {call : NetworkSave} {c : Contract} (h : call ∈ networkSaves created ts)
    (hc : c ∈ call.added) : c ∈ created := by
  obtain ⟨t, -, hcall⟩ := List.mem_flatMap.mp h
  unfold savesOf at hcall
  split at hcall
  · obtain ⟨v, -, rfl⟩ := List.mem_map.mp hcall
    exact (List.mem_filter.mp (List.mem_of_head? hc)).1
  · rw [List.mem_singleton.mp hcall] at hc
    cases hc
  · cases hcall

/-- A contract that is recorded, and only with data of the type and the name, is found. -/
theorem finds_of_recorded {type name : String} {id : Nat} {data : DeploymentData}
    (hin : id ∈ s.newContracts.map (·.contractID))
    (hdata : ∀ g ∈ s.newContracts, g.contractID = id → g.parsedDeploymentData = data)
    (htype : data.type = type) (hname : data.name = name) (hstays : id ∉ s.deletedContracts) :
    Finds s type name id data := by
  intro snapshot hsnapshot
  obtain ⟨g, hg, hid⟩ := List.mem_map.mp hin
  have hread := (@Overlay.mem_merge_iff _ _ _ GqlNodeContract.contractID
    (fun c => decide (c.parsedDeploymentData.type = type)) (fun _ => false) snapshot s.newContracts
    id).mpr (Or.inr ⟨g, hg, by rw [hdata g hg hid, htype]; exact decide_eq_true rfl, hid⟩)
  obtain ⟨b, hb, hbid⟩ := List.mem_map.mp hread
  have hbname : b.parsedDeploymentData.name = name := by
    rcases Overlay.mem_merge hb with h | h
    · rw [hsnapshot b h hbid, hname]
    · rw [hdata b h hbid, hname]
  have hlisted : b ∈ (getMyNetworkContracts type snapshot s).1 := by
    refine List.mem_filter.mpr ⟨hb, decide_eq_true ?_⟩
    rw [hbid]
    exact hstays
  refine ⟨?_, List.mem_map.mpr ⟨b, List.mem_filter.mpr ⟨hlisted, decide_eq_true hbname⟩, hbid⟩⟩
  exact List.contains_iff_mem.mpr (List.mem_map.mpr ⟨b, hlisted, hbname⟩)

/-- After `saveNetworks` every created network contract is remembered exactly when none of them is
of a light network and each belongs to a `Network` that no twin deployment without a network stands
before. -/
theorem saveNetworks_remembers_iff (hnodup : (created.map (·.contractId)).Nodup)
    (hfresh : ∀ c ∈ created, c.contractId ∉ w.newContracts) (hs : Stores s w)
    (hok : saveNetworks env created ts w = .ok () w') :
    Stores (savedLists parse now created ts s) w' ∧
      (Remembered parse created ts (savedLists parse now created ts s) ↔
        ∀ t ∈ ts, t.operation = .deploy → ∀ c ∈ created, some c.contractId = t.contractId →
          ∀ v ∈ t.workloads, isAnyNetwork v = true → v.type = .network ∧ Reached ts c) := by
  have hrecorded : ∀ c ∈ created,
      c.contractId ∈ (savedLists parse now created ts s).newContracts.map (·.contractID) ↔
        Reached ts c := by
    intro c hc
    have hold : c.contractId ∉ s.newContracts.map (·.contractID) := by
      rw [hs.1]
      exact hfresh c hc
    rw [savedLists, ids_foldl_save, List.mem_append, or_iff_right hold,
      mem_networkSaves_iff hnodup hc]
  refine ⟨savedLists_stores hs hok, ?_⟩
  constructor
  · intro h t ht hop c hc hid v hv hnet
    obtain ⟨hin, -⟩ := h t ht hop c hc hid v hv hnet
    have htype : v.type = .network := by
      rcases of_decide_eq_true hnet with htype | htype
      · exact htype
      · rw [htype] at hin
        cases hin
    rw [htype] at hin
    exact ⟨htype, (hrecorded c hc).mp hin⟩
  · intro h t ht hop c hc hid v hv hnet
    obtain ⟨htype, hreached⟩ := h t ht hop c hc hid v hv hnet
    rw [htype]
    have hin := (hrecorded c hc).mpr hreached
    refine ⟨hin, fun n hn hdatatype hname hstays => ?_⟩
    refine finds_of_recorded hin ?_ hdatatype hname hstays
    intro g hg hgid
    rcases data_of_mem_foldl_save _ hg with hold | ⟨call, hcall, d, hd, hrecord⟩
    · refine absurd ?_ (hfresh c hc)
      rw [← hs.1, ← hgid]
      exact List.mem_map_of_mem hold
    · obtain ⟨hdid, m, hm, hdata⟩ := recordOf_contractID hrecord
      have hdc : d = c :=
        List.inj_on_of_nodup_map hnodup (added_mem_created hcall hd) hc (hdid.symm.trans hgid)
      rw [hdc] at hm
      rw [hdata, Option.some.inj (hm.symm.trans hn)]

end

/-- The deployment data of a network of the name `net`. -/
def netData (_ : String) : DeploymentData := ⟨"network", "net", some "p"⟩

def netDeploy : TwinDeployment :=
  let znet : Workload := ⟨0, "net", .network,
    .network ⟨"10.1.2.0/24", "10.1.0.0/16", "key", 3000, [], none, some 11⟩, "", "", none⟩
  .make (sampleDeployment (some 7) [znet]) .deploy 0 11 ""
    (some (.network ⟨"net", "10.1.0.0/16", [Node.fresh (some 11)], [], [], [], [], []⟩))

def zdbDeploy : TwinDeployment :=
  .make (sampleDeployment (some 6) [sampleZdb "db" 0 1]) .deploy 0 11 "" none

def bothContracts : List Contract :=
  [⟨6, 1, .created, .nodeContract ⟨11, "", "", 0⟩, none⟩,
    ⟨7, 1, .created, .nodeContract ⟨11, "", "", 0⟩, none⟩]

/-- The network comes first. -/
theorem first_network_remembered :
    Remembered netData bothContracts [netDeploy, zdbDeploy]
      (savedLists netData 0 bothContracts [netDeploy, zdbDeploy] ⟨[], []⟩) := by
  have hnodup : (bothContracts.map (·.contractId)).Nodup := by decide
  have hfresh : ∀ c ∈ bothContracts,
      c.contractId ∉ (sampleWorld .empty fun _ => none).newContracts := by decide
  have hs : Stores ⟨[], []⟩ (sampleWorld .empty fun _ => none) := ⟨rfl, rfl⟩
  have hok : saveNetworks sampleEnv bothContracts [netDeploy, zdbDeploy]
      (sampleWorld .empty fun _ => none) =
        .ok () { sampleWorld .empty fun _ => none with newContracts := [7] } := rfl
  refine (saveNetworks_remembers_iff hnodup hfresh hs hok).2.mpr ?_
  intro t ht hop c hc hid v hv hnet
  rcases List.mem_pair.mp ht with rfl | rfl
  · have hv' : v.type = .network := by
      rw [List.mem_singleton.mp hv]
    refine ⟨hv', ?_, netDeploy, by decide, rfl, hid.symm, ⟨_, rfl⟩, v, hv, hv'⟩
    revert c
    decide
  · rw [List.mem_singleton.mp hv] at hnet
    cases hnet

/-- The loop returns at a deployment without a network, and the network after it is forgotten. -/
theorem later_network_forgotten :
    saveNetworks sampleEnv bothContracts [zdbDeploy, netDeploy] (sampleWorld .empty fun _ => none) =
      .ok () (sampleWorld .empty fun _ => none) ∧
    ¬ Remembered netData bothContracts [zdbDeploy, netDeploy]
      (savedLists netData 0 bothContracts [zdbDeploy, netDeploy] ⟨[], []⟩) := by
  refine ⟨rfl, fun h => ?_⟩
  obtain ⟨hin, -⟩ := h netDeploy (by decide) rfl _ (List.mem_cons_of_mem _ List.mem_cons_self) rfl _
    List.mem_cons_self rfl
  cases hin

end ThreefoldSdk.HighLevel
