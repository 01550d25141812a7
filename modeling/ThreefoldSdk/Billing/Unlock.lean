import ThreefoldSdk.Billing.TotalOverdue
import ThreefoldSdk.Lib.KeepFirst

/-! The contracts that are asked to be billed again so that they leave their grace period
(`unlockMyContracts` in `clients/tf-grid/contracts.ts`). -/

namespace ThreefoldSdk.Billing
open KeepFirst Rounding

section
variable (chain : Chain) (proxy : GridProxy) (fuel : ℕ)

/-- `calculateContractOverDue`. -/
def overdueOf (contract : Contract) : Except Failure (Number decimal) :=
  calculateContractOverDue tftAmounts (chain.contractOverdue proxy) proxy fuel contract

/-- The body of the loop of `batchUnlockContracts`, which adds to a set of ids. -/
def unlockVisit (billableContractsIDs : List ℕ) (contract : Contract) : Except Failure (List ℕ) := do
  let contractOverdue := tftAmounts.toNumber (← overdueOf chain proxy fuel contract)
  if 0 < contractOverdue.val then
    let billable := insertNew id billableContractsIDs contract.contract_id
    match contract.details with
    | .rent nodeId =>
      let nodeContracts := proxy.listAllContracts (GridProxy.onRentedNode nodeId)
      return insertAll id billable (nodeContracts.map Contract.contract_id)
    | _ => return billable
  else return billableContractsIDs

/-- The ids that `batchUnlockContracts` makes extrinsics for. -/
def batchUnlockContracts (contracts : List Contract) : Except Failure (List ℕ) :=
  contracts.foldlM (unlockVisit chain proxy fuel) []

def unlockMyContracts (twinId : ℕ) : Except Failure (List ℕ) :=
  let contracts := proxy.listAllContracts (gracePeriodOf twinId)
  if contracts.length = 0 then .ok [] else batchUnlockContracts chain proxy fuel contracts

def IsOverdue (contract : Contract) : Prop :=
  ∃ amount, overdueOf chain proxy fuel contract = .ok amount ∧ 0 < (tftAmounts.toNumber amount).val

/-- The contract makes the loop add the id: its own, or that of a contract on its node. -/
def Unlocks (contract : Contract) (contractId : ℕ) : Prop :=
  IsOverdue chain proxy fuel contract ∧
    (contractId = contract.contract_id ∨ ∃ nodeId, contract.details = .rent nodeId ∧
      contractId ∈ (proxy.getNodeContractsOnRentedNode nodeId).map Contract.contract_id)

end

section
variable {chain : Chain} {proxy : GridProxy} {fuel : ℕ} {contract : Contract}
  {contracts : List Contract} {billable : List ℕ} {contractId : ℕ}

theorem mem_insertNew_id {old : List ℕ} {x : ℕ} :
    contractId ∈ insertNew id old x ↔ contractId ∈ old ∨ contractId = x := by
  have hkeys : contractId ∈ (insertNew id old x).map id ↔ contractId ∈ old.map id ∨ contractId = id x :=
    mem_keys_insertNew
  rwa [List.map_id, List.map_id] at hkeys

theorem mem_insertAll_id {old xs : List ℕ} :
    contractId ∈ insertAll id old xs ↔ contractId ∈ old ∨ contractId ∈ xs := by
  have hkeys : contractId ∈ (insertAll id old xs).map id ↔
      contractId ∈ old.map id ∨ contractId ∈ xs.map id := mem_keys_insertAll
  rwa [List.map_id, List.map_id, List.map_id] at hkeys

theorem nodup_insertNew_id {old : List ℕ} {x : ℕ} (h : old.Nodup) : (insertNew id old x).Nodup := by
  have hold : (old.map id).Nodup := by rwa [List.map_id]
  have hkeys : ((insertNew id old x).map id).Nodup := nodup_insertNew hold
  rwa [List.map_id] at hkeys

theorem nodup_insertAll_id {old xs : List ℕ} (h : old.Nodup) : (insertAll id old xs).Nodup := by
  have hold : (old.map id).Nodup := by rwa [List.map_id]
  have hkeys : ((insertAll id old xs).map id).Nodup := nodup_insertAll hold
  rwa [List.map_id] at hkeys

/-- One round of the loop. -/
theorem unlockVisit_ok {amount : Number decimal} (hbillable : billable.Nodup)
    (hamount : overdueOf chain proxy fuel contract = .ok amount) :
    ∃ visited, unlockVisit chain proxy fuel billable contract = .ok visited ∧ visited.Nodup ∧
      ∀ contractId, contractId ∈ visited ↔
        contractId ∈ billable ∨ Unlocks chain proxy fuel contract contractId := by
  have hoverdue : IsOverdue chain proxy fuel contract ↔ 0 < (tftAmounts.toNumber amount).val := by
    constructor
    · intro h
      obtain ⟨amount', hamount', hpos⟩ := h
      rw [hamount] at hamount'
      rwa [Except.ok.inj hamount']
    · exact fun hpos => ⟨amount, hamount, hpos⟩
  have hnew : (insertNew id billable contract.contract_id).Nodup := nodup_insertNew_id hbillable
  unfold unlockVisit Unlocks
  rw [hamount, hoverdue]
  by_cases hpos : 0 < (tftAmounts.toNumber amount).val
  · have hvisit : ∀ visited : Except Failure (List ℕ), (do
          let contractOverdue := tftAmounts.toNumber (← (Except.ok amount : Except Failure _))
          if 0 < contractOverdue.val then visited else return billable) = visited := by
      intro visited
      exact if_pos hpos
    rw [hvisit]
    cases hdetails : contract.details with
    | rent nodeId =>
      refine ⟨_, rfl, nodup_insertAll_id hnew, ?_⟩
      intro contractId
      rw [mem_insertAll_id, mem_insertNew_id, or_assoc]
      simp [hpos, GridProxy.getNodeContractsOnRentedNode]
    | _ =>
      refine ⟨_, rfl, hnew, ?_⟩
      intro contractId
      rw [mem_insertNew_id]
      simp [hpos]
  · refine ⟨billable, if_neg hpos, hbillable, ?_⟩
    intro contractId
    simp [hpos]

/-- The loop adds what its rounds add. -/
theorem unlockVisits_ok
    (hamount : ∀ contract ∈ contracts, ∃ amount,
      overdueOf chain proxy fuel contract = .ok amount)
    (hbillable : billable.Nodup) :
    ∃ visited, contracts.foldlM (unlockVisit chain proxy fuel) billable = .ok visited ∧
      visited.Nodup ∧ ∀ contractId, contractId ∈ visited ↔
        contractId ∈ billable ∨ ∃ contract ∈ contracts, Unlocks chain proxy fuel contract contractId := by
  induction contracts generalizing billable with
  | nil =>
    refine ⟨billable, rfl, hbillable, ?_⟩
    intro contractId
    simp
  | cons contract contracts ih =>
    obtain ⟨amount, hfirst⟩ := hamount contract List.mem_cons_self
    obtain ⟨next, hnext, hnodup, hmem⟩ := unlockVisit_ok hbillable hfirst
    obtain ⟨visited, hvisited, hvisitednodup, hvisitedmem⟩ :=
      ih (fun c hc => hamount c (List.mem_cons_of_mem _ hc)) hnodup
    refine ⟨visited, ?_, hvisitednodup, ?_⟩
    · rw [List.foldlM_cons, hnext]
      exact hvisited
    · intro contractId
      rw [hvisitedmem, hmem, or_assoc, List.exists_mem_cons_iff]

end

section
variable {chain : Chain} {proxy : GridProxy} {contracts : List Contract} {twinId : ℕ}

theorem contract_eq_of_id (hids : (contracts.map Contract.contract_id).Nodup) {c c' : Contract}
    (hc : c ∈ contracts) (hc' : c' ∈ contracts) (h : c.contract_id = c'.contract_id) : c = c' :=
  List.inj_on_of_nodup_map hids hc hc' h

/-- The extrinsics are made for the contracts of the user that are overdue, and for those with a
public ip on a node whose rent contract is, once each; the order of the lists does not matter. -/
theorem unlockMyContracts_exactly (huser : proxy.Answers (gracePeriodOf twinId) contracts)
    (hids : (contracts.map Contract.contract_id).Nodup)
    (hamount : ∀ contract ∈ contracts, ∃ amount, chain.contractOverdue proxy contract = .ok amount)
    (hproxy : ∀ nodeId, Rented contracts nodeId →
      proxy.Answers (GridProxy.onRentedNode nodeId) (contracts.filter (hasPublicIps nodeId)))
    (fuel : ℕ) :
    ∃ ids, unlockMyContracts chain proxy (fuel + 2) twinId = .ok ids ∧ ids.Nodup ∧
      ids ⊆ contracts.map Contract.contract_id ∧
      ∀ contract ∈ contracts, contract.contract_id ∈ ids ↔
        IsOverdue chain proxy (fuel + 2) contract ∨
          ∃ nodeId, hasPublicIps nodeId contract = true ∧ ∃ rent ∈ contracts,
            rent.details = .rent nodeId ∧ IsOverdue chain proxy (fuel + 2) rent := by
  have hlisted : (proxy.listAllContracts (gracePeriodOf twinId)).Perm contracts :=
    huser.listAllContracts_perm
  have hcomputed : ∀ contract ∈ proxy.listAllContracts (gracePeriodOf twinId), ∃ amount,
      overdueOf chain proxy (fuel + 2) contract = .ok amount := by
    intro contract hcontract
    exact ⟨_, calculate_of_answers (fun c hc => ownOf_ok (hamount c hc)) hproxy
      (hlisted.mem_iff.mp hcontract) fuel⟩
  obtain ⟨ids, hrun, hnodup, hmem⟩ := unlockVisits_ok hcomputed List.nodup_nil
  have hunlock : unlockMyContracts chain proxy (fuel + 2) twinId = .ok ids := by
    unfold unlockMyContracts batchUnlockContracts
    by_cases hempty : (proxy.listAllContracts (gracePeriodOf twinId)).length = 0
    · rw [List.length_eq_zero_iff.mp hempty] at hrun ⊢
      exact hrun
    · simp only [if_neg hempty]
      exact hrun
  have hmem' : ∀ contractId, contractId ∈ ids ↔
      ∃ contract ∈ contracts, Unlocks chain proxy (fuel + 2) contract contractId := by
    intro contractId
    rw [hmem]
    simp [hlisted.mem_iff]
  -- the contracts that a rent contract adds are those of the user on its node
  have hnode : ∀ {rent : Contract} {nodeId : ℕ}, rent ∈ contracts → rent.details = .rent nodeId →
      ∀ contract, contract ∈ proxy.getNodeContractsOnRentedNode nodeId ↔
        contract ∈ contracts.filter (hasPublicIps nodeId) := by
    intro rent nodeId hrent hdetails contract
    exact (hproxy nodeId ⟨rent, hrent, hdetails⟩).listAllContracts_perm.mem_iff
  refine ⟨ids, hunlock, hnodup, ?_, ?_⟩
  · intro contractId hin
    obtain ⟨rent, hrent, -, rfl | ⟨nodeId, hdetails, hadded⟩⟩ := (hmem' contractId).mp hin
    · exact List.mem_map_of_mem hrent
    · obtain ⟨contract, hcontract, rfl⟩ := List.mem_map.mp hadded
      exact List.mem_map_of_mem (List.mem_filter.mp ((hnode hrent hdetails contract).mp hcontract)).1
  · intro contract hcontract
    rw [hmem']
    constructor
    · intro h
      obtain ⟨rent, hrent, hoverdue, hid | ⟨nodeId, hdetails, hadded⟩⟩ := h
      · rw [contract_eq_of_id hids hcontract hrent hid]
        exact Or.inl hoverdue
      · obtain ⟨added, hon, hid⟩ := List.mem_map.mp hadded
        obtain ⟨haddedmem, hips⟩ := List.mem_filter.mp ((hnode hrent hdetails added).mp hon)
        rw [contract_eq_of_id hids haddedmem hcontract hid] at hips
        exact Or.inr ⟨nodeId, hips, rent, hrent, hdetails, hoverdue⟩
    · intro h
      obtain hoverdue | ⟨nodeId, hips, rent, hrent, hdetails, hoverdue⟩ := h
      · exact ⟨contract, hcontract, hoverdue, Or.inl rfl⟩
      · have hon := (hnode hrent hdetails contract).mpr (List.mem_filter.mpr ⟨hcontract, hips⟩)
        exact ⟨rent, hrent, hoverdue, Or.inr ⟨nodeId, hdetails, List.mem_map_of_mem hon⟩⟩

end

theorem proxyOf_answersUser (contracts : List Contract) (twinId : ℕ) :
    (proxyOf contracts).Answers (gracePeriodOf twinId) contracts where
  count := by simp [proxyOf, gracePeriodOf]
  page := by
    simp only [proxyOf, gracePeriodOf, List.filter_true]
    exact (List.take_sublist _ _).subperm
  sized := by simp [proxyOf, gracePeriodOf]

theorem withIp_unlocked : ∃ ids, unlockMyContracts userChain (proxyOf withIp) 2 7 = .ok ids ∧
    ids.Nodup ∧ ids ⊆ withIp.map Contract.contract_id ∧
    ∀ contract ∈ withIp, contract.contract_id ∈ ids ↔
      IsOverdue userChain (proxyOf withIp) 2 contract ∨
        ∃ nodeId, hasPublicIps nodeId contract = true ∧ ∃ rent ∈ withIp,
          rent.details = .rent nodeId ∧ IsOverdue userChain (proxyOf withIp) 2 rent := by
  have hok : ∀ contract ∈ withIp,
      (userChain.contractOverdue (proxyOf withIp) contract).isOk = true := by
    decide +kernel
  exact unlockMyContracts_exactly (proxyOf_answersUser withIp 7) (by decide)
    (fun contract hcontract => Frame.exists_of_isOk (hok contract hcontract))
    (fun nodeId _ => proxyOf_answers (List.Perm.refl _) nodeId) 0

end ThreefoldSdk.Billing
