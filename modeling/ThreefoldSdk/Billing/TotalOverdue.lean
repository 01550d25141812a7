import ThreefoldSdk.Lib.Frame
import ThreefoldSdk.Billing.Overdue

/-! When the total overdue counts every contract once, in whatever order the contracts are
listed. -/

namespace ThreefoldSdk.Billing
open Rounding

/-- The rent contract of the node is listed. -/
def Rented (contracts : List Contract) (nodeId : ℕ) : Prop :=
  ∃ rent ∈ contracts, rent.details = .rent nodeId

/-- The contract is a node contract on a node whose rent contract is listed. -/
def OnRented (contracts : List Contract) (contract : Contract) : Prop :=
  ∃ nodeId ips, contract.details = .node nodeId ips ∧ Rented contracts nodeId

def hasPublicIps (nodeId : ℕ) (contract : Contract) : Bool :=
  match contract.details with
  | .node node ips => node = nodeId ∧ 1 ≤ ips.getD 0
  | _ => false

/-- The proxy answers the query with these contracts: it counts them, and it lists all of them when
asked for so many. -/
structure GridProxy.Answers (proxy : GridProxy) (queries : ContractsQuery)
    (contracts : List Contract) : Prop where
  count : (proxy.list { queries with retCount := true }).count = some contracts.length
  page : (proxy.list { queries with retCount := true }).data.Subperm contracts
  sized : (proxy.list { queries with size := some contracts.length }).data.Perm contracts

/-- The contracts of a page when no size is asked for. -/
def defaultPageSize : ℕ := 50

/-- The contracts are those of the user in their grace period: the proxy gives a page of them in some
order, and on request those with public IPs on a rented node. -/
structure GridProxy.Serves (proxy : GridProxy) (twinId : ℕ) (contracts : List Contract) : Prop where
  page : ∃ listed : List Contract, listed.Perm contracts ∧
    (proxy.list (gracePeriodOf twinId)).data = listed.take defaultPageSize
  onRented : ∀ nodeId, Rented contracts nodeId →
    proxy.Answers (onRentedNode nodeId) (contracts.filter (hasPublicIps nodeId))

/-- The contracts themselves, added up in place of what they are overdue. -/
def occurrences : Amounts (Multiset Contract) (Multiset Contract) where
  decimalZero := 0
  plus := (· + ·)
  toNumber := id
  zero := 0
  add := (· + ·)

def occurrence (own : Contract → Except Failure (Number decimal)) (contract : Contract) :
    Except Failure (Multiset Contract) :=
  (own contract).map fun _ => {contract}

/-- The total is one for all orders in which the contracts may be listed, and every contract that is
itself overdue is counted in it exactly once. -/
structure WellDefined (own : Contract → Except Failure (Number decimal)) (fuel twinId : ℕ)
    (contracts : List Contract) : Prop where
  same : ∃ total, ∀ proxy : GridProxy, proxy.Serves twinId contracts →
    (getTotalOverdue tftAmounts own proxy fuel twinId).map
      (fun result => result.totalOverdueAmount) = .ok total
  once : ∀ proxy : GridProxy, proxy.Serves twinId contracts → ∃ counted : Multiset Contract,
    (getTotalOverdue occurrences (occurrence own) proxy fuel twinId).map
        (fun result => result.totalOverdueAmount) = .ok counted ∧
      ∀ contract ∈ contracts, own contract ≠ .ok 0 →
        counted.count contract = contracts.count contract

/-- What the contract itself is overdue, where that can be computed. -/
def ownOf (own : Contract → Except Failure (Number decimal)) (contract : Contract) : Number decimal :=
  match own contract with
  | .ok amount => amount
  | .error _ => 0

/-- The contract is itself overdue. -/
def owes (own : Contract → Except Failure (Number decimal)) (contract : Contract) : Bool :=
  ownOf own contract ≠ 0

/-- As the number that is added to the total. -/
def numberOf (own : Contract → Except Failure (Number decimal)) (contract : Contract) :
    Number double :=
  (ownOf own contract).convert double

/-! Listing. -/

theorem GridProxy.Answers.listAllContracts_perm {proxy : GridProxy} {queries : ContractsQuery}
    {contracts : List Contract} (h : proxy.Answers queries contracts) :
    (proxy.listAllContracts queries).Perm contracts := by
  unfold listAllContracts
  simp only [h.count]
  by_cases hlt : (proxy.list { queries with retCount := true }).data.length < contracts.length
  · rw [if_pos hlt]
    exact h.sized
  · rw [if_neg hlt]
    exact h.page.perm_of_length_le (Nat.le_of_not_lt hlt)

theorem mapM_ok {α β ε : Type} {f : α → Except ε β} {g : α → β} {xs : List α}
    (h : ∀ x ∈ xs, f x = .ok (g x)) : xs.mapM f = .ok (xs.map g) :=
  Frame.mapM_eq_ok.mpr (List.forall₂_map_right_iff.mpr (List.forall₂_same.mpr h))

section Loop
variable {D N : Type} {amounts : Amounts D N} {own : Contract → Except Failure D}
  {value : Contract → D} {proxy : GridProxy} {contracts : List Contract}

theorem calculate_of_not_rent {contract : Contract}
    (hdetails : ∀ nodeId, contract.details ≠ .rent nodeId)
    (hvalue : own contract = .ok (value contract)) (fuel : ℕ) :
    calculateContractOverDue amounts own proxy (fuel + 1) contract = .ok (value contract) := by
  rw [calculateContractOverDue, hvalue]
  cases h : contract.details with
  | name => rfl
  | rent nodeId => exact absurd h (hdetails nodeId)
  | node nodeId ips => rfl

/-- The node contracts that are listed with a rent contract have their values. -/
def Lists (proxy : GridProxy) (own : Contract → Except Failure D) (value : Contract → D)
    (nodeId : ℕ) : Prop :=
  ∀ contract ∈ proxy.getNodeContractsOnRentedNode nodeId,
    (∀ nodeId, contract.details ≠ .rent nodeId) ∧ own contract = .ok (value contract)

theorem getContractsCost_ok {nodeId : ℕ} (h : Lists proxy own value nodeId) (fuel : ℕ) :
    getContractsCostOnRentedNode amounts proxy
        (calculateContractOverDue amounts own proxy (fuel + 1)) nodeId =
      .ok (((proxy.getNodeContractsOnRentedNode nodeId).map value).foldl amounts.plus
        amounts.decimalZero) := by
  have hmap := mapM_ok (f := calculateContractOverDue amounts own proxy (fuel + 1)) (g := value)
    fun contract hcontract =>
      calculate_of_not_rent (h contract hcontract).1 (h contract hcontract).2 fuel
  unfold getContractsCostOnRentedNode
  by_cases hempty : (proxy.getNodeContractsOnRentedNode nodeId).length = 0
  · rw [List.length_eq_zero_iff.mp hempty]
    rfl
  · simp only [hempty, if_false, hmap]
    rfl

/-- What is computed for a contract: a rent contract has the listed ones of its node in it. -/
def overdueWithNode (amounts : Amounts D N) (proxy : GridProxy) (value : Contract → D)
    (contract : Contract) : D :=
  match contract.details with
  | .rent nodeId =>
    amounts.plus (value contract) (((proxy.getNodeContractsOnRentedNode nodeId).map value).foldl
      amounts.plus amounts.decimalZero)
  | _ => value contract

theorem calculate_ok {contract : Contract} (hvalue : own contract = .ok (value contract))
    (hlists : ∀ nodeId, contract.details = .rent nodeId → Lists proxy own value nodeId)
    (fuel : ℕ) :
    calculateContractOverDue amounts own proxy (fuel + 2) contract =
      .ok (overdueWithNode amounts proxy value contract) := by
  rw [calculateContractOverDue, hvalue]
  unfold overdueWithNode
  show (match contract.details with | .rent _ => _ | _ => _) = _
  cases hdetails : contract.details with
  | name => rfl
  | node nodeId ips => rfl
  | rent nodeId =>
    show (getContractsCostOnRentedNode amounts proxy _ nodeId >>= _) = _
    rw [getContractsCost_ok (hlists nodeId hdetails)]
    rfl

/-- The contracts that the loop adds, when the rent contracts of some nodes have been passed. -/
def visited (rentedNodesIds : List ℕ) : List Contract → List Contract
  | [] => []
  | contract :: contracts =>
    match contract.details with
    | .name => contract :: visited rentedNodesIds contracts
    | .rent nodeId => contract :: visited (rentedNodesIds ++ [nodeId]) contracts
    | .node nodeId _ =>
      if nodeId ∈ rentedNodesIds then visited rentedNodesIds contracts
      else contract :: visited rentedNodesIds contracts

section Visited
variable {rentedNodesIds : List ℕ} {contract : Contract} {nodeId : ℕ} {ips : Option ℕ}

theorem visited_name (h : contract.details = .name) :
    visited rentedNodesIds (contract :: contracts) =
      contract :: visited rentedNodesIds contracts := by
  rw [visited, h]

theorem visited_rent (h : contract.details = .rent nodeId) :
    visited rentedNodesIds (contract :: contracts) =
      contract :: visited (rentedNodesIds ++ [nodeId]) contracts := by
  rw [visited, h]

theorem visited_node_rented (h : contract.details = .node nodeId ips)
    (hmem : nodeId ∈ rentedNodesIds) :
    visited rentedNodesIds (contract :: contracts) = visited rentedNodesIds contracts := by
  rw [visited, h]
  exact if_pos hmem

theorem visited_node (h : contract.details = .node nodeId ips) (hmem : nodeId ∉ rentedNodesIds) :
    visited rentedNodesIds (contract :: contracts) =
      contract :: visited rentedNodesIds contracts := by
  rw [visited, h]
  exact if_neg hmem

/-- Only node contracts of rented nodes are skipped. -/
theorem visited_filter {q : Contract → Bool} (rented : ℕ → Prop)
    (hnode : ∀ contract ∈ contracts, ∀ nodeId ips, contract.details = .node nodeId ips →
      rented nodeId → q contract = false)
    (hrent : ∀ contract ∈ contracts, ∀ nodeId, contract.details = .rent nodeId → rented nodeId)
    (hpassed : ∀ nodeId ∈ rentedNodesIds, rented nodeId) :
    (visited rentedNodesIds contracts).filter q = contracts.filter q := by
  induction contracts generalizing rentedNodesIds with
  | nil => rfl
  | cons contract contracts ih =>
    have hnode' := fun c hc => hnode c (List.mem_cons_of_mem _ hc)
    have hrent' := fun c hc => hrent c (List.mem_cons_of_mem _ hc)
    have hkept : ∀ rest, rest.filter q = contracts.filter q →
        (contract :: rest).filter q = (contract :: contracts).filter q := by
      intro rest hrest
      rw [List.filter_cons, List.filter_cons, hrest]
    cases hdetails : contract.details with
    | name =>
      rw [visited_name hdetails]
      exact hkept _ (ih hnode' hrent' hpassed)
    | rent nodeId =>
      rw [visited_rent hdetails]
      refine hkept _ (ih hnode' hrent' fun node hmem => ?_)
      rcases List.mem_append.mp hmem with hmem | hmem
      · exact hpassed node hmem
      · rw [List.mem_singleton.mp hmem]
        exact hrent contract List.mem_cons_self nodeId hdetails
    | node nodeId ips =>
      by_cases hmem : nodeId ∈ rentedNodesIds
      · have hskip := hnode contract List.mem_cons_self nodeId ips hdetails (hpassed nodeId hmem)
        rw [visited_node_rented hdetails hmem, List.filter_cons_of_neg (by rw [hskip]; decide)]
        exact ih hnode' hrent' hpassed
      · rw [visited_node hdetails hmem]
        exact hkept _ (ih hnode' hrent' hpassed)

theorem visited_sublist : (visited rentedNodesIds contracts).Sublist contracts := by
  induction contracts generalizing rentedNodesIds with
  | nil => exact List.Sublist.slnil
  | cons contract contracts ih =>
    cases hdetails : contract.details with
    | name =>
      rw [visited_name hdetails]
      exact ih.cons_cons contract
    | rent nodeId =>
      rw [visited_rent hdetails]
      exact ih.cons_cons contract
    | node nodeId ips =>
      by_cases hmem : nodeId ∈ rentedNodesIds
      · rw [visited_node_rented hdetails hmem]
        exact ih.cons contract
      · rw [visited_node hdetails hmem]
        exact ih.cons_cons contract

end Visited

/-- The loop adds what is computed for the contracts that it does not skip. -/
theorem visits_ok (amounts : Amounts D N) {overdueOf : Contract → Except Failure D}
    (h : ∀ contract ∈ contracts, overdueOf contract = .ok (value contract))
    (overdues : Overdues N) :
    ∃ overdues', contracts.foldlM (Overdues.visit amounts overdueOf) overdues = .ok overdues' ∧
      overdues'.result.totalOverdueAmount =
        ((visited overdues.rentedNodesIds contracts).map fun contract =>
          amounts.toNumber (value contract)).foldl amounts.add
            overdues.result.totalOverdueAmount := by
  induction contracts generalizing overdues with
  | nil => exact ⟨overdues, rfl, rfl⟩
  | cons contract contracts ih =>
    have hrest := ih fun c hc => h c (List.mem_cons_of_mem _ hc)
    have hvisit : ∃ next, overdues.visit amounts overdueOf contract = .ok next ∧
        ((visited overdues.rentedNodesIds (contract :: contracts)).map fun contract =>
            amounts.toNumber (value contract)).foldl amounts.add
              overdues.result.totalOverdueAmount =
          ((visited next.rentedNodesIds contracts).map fun contract =>
            amounts.toNumber (value contract)).foldl amounts.add
              next.result.totalOverdueAmount := by
      unfold Overdues.visit
      rw [h contract List.mem_cons_self]
      cases hdetails : contract.details with
      | name =>
        rw [visited_name hdetails]
        exact ⟨_, rfl, rfl⟩
      | rent nodeId =>
        rw [visited_rent hdetails]
        exact ⟨_, rfl, rfl⟩
      | node nodeId ips =>
        by_cases hmem : nodeId ∈ overdues.rentedNodesIds
        · rw [visited_node_rented hdetails hmem]
          simp only [if_pos hmem]
          exact ⟨_, rfl, rfl⟩
        · rw [visited_node hdetails hmem]
          simp only [if_neg hmem]
          exact ⟨_, rfl, rfl⟩
    obtain ⟨next, hnext, htotal⟩ := hvisit
    obtain ⟨overdues', hoverdues, htotal'⟩ := hrest next
    refine ⟨overdues', ?_, ?_⟩
    · rw [List.foldlM_cons, hnext]
      exact hoverdues
    · rw [htotal', htotal]

end Loop

section Served
variable {D N : Type} {amounts : Amounts D N} {computed : Contract → Except Failure D}
  {value : Contract → D} {own : Contract → Except Failure (Number decimal)} {proxy : GridProxy}
  {contracts : List Contract} {twinId : ℕ}

theorem mem_hasPublicIps {nodeId : ℕ} {contract : Contract}
    (h : contract ∈ contracts.filter (hasPublicIps nodeId)) :
    contract ∈ contracts ∧ ∃ ips, contract.details = .node nodeId ips := by
  obtain ⟨hmem, hips⟩ := List.mem_filter.mp h
  refine ⟨hmem, ?_⟩
  unfold hasPublicIps at hips
  cases hdetails : contract.details with
  | name =>
    rw [hdetails] at hips
    cases hips
  | rent node =>
    rw [hdetails] at hips
    cases hips
  | node node ips =>
    rw [hdetails] at hips
    rw [(of_decide_eq_true hips).1]
    exact ⟨ips, rfl⟩

/-- The listed node contracts of a rented node are of the same list. -/
theorem listed_mem {nodeId : ℕ}
    (hproxy : proxy.Answers (GridProxy.onRentedNode nodeId)
      (contracts.filter (hasPublicIps nodeId))) {contract : Contract}
    (h : contract ∈ proxy.getNodeContractsOnRentedNode nodeId) :
    contract ∈ contracts ∧ ∃ ips, contract.details = .node nodeId ips :=
  mem_hasPublicIps (hproxy.listAllContracts_perm.mem_iff.mp h)

/-- What is computed for a contract of the user. -/
theorem calculate_of_answers
    (hvalue : ∀ contract ∈ contracts, computed contract = .ok (value contract))
    (hproxy : ∀ nodeId, Rented contracts nodeId →
      proxy.Answers (GridProxy.onRentedNode nodeId) (contracts.filter (hasPublicIps nodeId)))
    {contract : Contract} (hcontract : contract ∈ contracts) (fuel : ℕ) :
    calculateContractOverDue amounts computed proxy (fuel + 2) contract =
      .ok (overdueWithNode amounts proxy value contract) := by
  apply calculate_ok (hvalue contract hcontract)
  intro nodeId hrent listed hlisted
  obtain ⟨hmem, ips, hdetails⟩ := listed_mem (hproxy nodeId ⟨contract, hcontract, hrent⟩) hlisted
  refine ⟨fun node hnode => ?_, hvalue listed hmem⟩
  rw [hdetails] at hnode
  cases hnode

theorem GridProxy.Serves.mem_page (h : proxy.Serves twinId contracts) {contract : Contract}
    (hmem : contract ∈ (proxy.list (gracePeriodOf twinId)).data) : contract ∈ contracts := by
  obtain ⟨listed, hperm, hpage⟩ := h.page
  rw [hpage] at hmem
  exact hperm.mem_iff.mp (List.mem_of_mem_take hmem)

theorem total_of_serves (hserves : proxy.Serves twinId contracts)
    (hvalue : ∀ contract ∈ contracts, computed contract = .ok (value contract)) (fuel : ℕ) :
    (getTotalOverdue amounts computed proxy (fuel + 2) twinId).map
        (fun result => result.totalOverdueAmount) =
      .ok (((visited [] (proxy.list (gracePeriodOf twinId)).data).map fun contract =>
        amounts.toNumber (overdueWithNode amounts proxy value contract)).foldl amounts.add
          amounts.zero) := by
  obtain ⟨overdues, hoverdues, htotal⟩ := visits_ok amounts
    (fun contract hcontract => calculate_of_answers hvalue hserves.onRented
      (hserves.mem_page hcontract) fuel) ⟨⟨.empty, .empty, .empty, amounts.zero⟩, []⟩
  unfold getTotalOverdue
  dsimp only
  rw [hoverdues]
  exact congrArg Except.ok htotal

theorem ownOf_ok {contract : Contract} (h : ∃ amount, own contract = .ok amount) :
    own contract = .ok (ownOf own contract) := by
  obtain ⟨amount, hamount⟩ := h
  unfold ownOf
  rw [hamount]

theorem own_eq_zero_iff {contract : Contract} (h : ∃ amount, own contract = .ok amount) :
    own contract = .ok 0 ↔ ownOf own contract = 0 := by
  rw [ownOf_ok h, Except.ok.injEq]

theorem occurrence_ok {contract : Contract} (h : ∃ amount, own contract = .ok amount) :
    occurrence own contract = .ok {contract} := by
  obtain ⟨amount, hamount⟩ := h
  unfold occurrence
  rw [hamount]
  rfl

/-! The amounts, where no node contract is overdue whose rent contract is in the list. -/

theorem withNode_eq (hown : ∀ contract ∈ contracts, ∃ amount, own contract = .ok amount)
    (hzero : ∀ contract ∈ contracts, OnRented contracts contract → own contract = .ok 0)
    (hserves : proxy.Serves twinId contracts) {contract : Contract}
    (hcontract : contract ∈ contracts) :
    overdueWithNode tftAmounts proxy (ownOf own) contract = ownOf own contract := by
  unfold overdueWithNode
  cases hdetails : contract.details with
  | name => rfl
  | node nodeId ips => rfl
  | rent nodeId =>
    have hrented : Rented contracts nodeId := ⟨contract, hcontract, hdetails⟩
    have hzeros : ∀ amount ∈ (proxy.getNodeContractsOnRentedNode nodeId).map (ownOf own),
        amount = 0 := by
      intro amount hmem
      obtain ⟨listed, hlisted, rfl⟩ := List.mem_map.mp hmem
      obtain ⟨hmem, ips, hnode⟩ := listed_mem (hserves.onRented nodeId hrented) hlisted
      exact (own_eq_zero_iff (hown listed hmem)).mp
        (hzero listed hmem ⟨nodeId, ips, hnode, hrented⟩)
    show (ownOf own contract).add (List.foldl Number.add 0 _) = _
    rw [Number.foldl_add_zeros hzeros, Number.add_zero]

/-- The skipped contracts of a page are not overdue. -/
theorem visited_page (hown : ∀ contract ∈ contracts, ∃ amount, own contract = .ok amount)
    (hzero : ∀ contract ∈ contracts, OnRented contracts contract → own contract = .ok 0)
    {page : List Contract} (hpage : ∀ contract ∈ page, contract ∈ contracts) :
    (visited [] page).filter (owes own) = page.filter (owes own) := by
  apply visited_filter (Rented contracts)
  · intro contract hmem nodeId ips hnode hrented
    have hcontract := hpage contract hmem
    exact decide_eq_false (not_not.mpr ((own_eq_zero_iff (hown contract hcontract)).mp
      (hzero contract hcontract ⟨nodeId, ips, hnode, hrented⟩)))
  · exact fun contract hmem nodeId hrent => ⟨contract, hpage contract hmem, hrent⟩
  · exact fun nodeId hmem => absurd hmem List.not_mem_nil

/-- The total is the sum over the page of what the contracts themselves are overdue. -/
theorem total_eq_sum (hown : ∀ contract ∈ contracts, ∃ amount, own contract = .ok amount)
    (hzero : ∀ contract ∈ contracts, OnRented contracts contract → own contract = .ok 0)
    (hserves : proxy.Serves twinId contracts) (fuel : ℕ) :
    (getTotalOverdue tftAmounts own proxy (fuel + 2) twinId).map
        (fun result => result.totalOverdueAmount) =
      .ok (Number.sum (((proxy.list (gracePeriodOf twinId)).data).map (numberOf own))) := by
  rw [total_of_serves hserves (fun contract hcontract => ownOf_ok (hown contract hcontract))]
  generalize hpage : (proxy.list (gracePeriodOf twinId)).data = page
  have hmem : ∀ contract ∈ page, contract ∈ contracts :=
    fun contract hcontract => hserves.mem_page (hpage ▸ hcontract)
  have hnumbers : (visited [] page).map (fun contract =>
      tftAmounts.toNumber (overdueWithNode tftAmounts proxy (ownOf own) contract)) =
        (visited [] page).map (numberOf own) := by
    refine List.map_congr_left fun contract hcontract => ?_
    rw [withNode_eq hown hzero hserves (hmem contract (visited_sublist.subset hcontract))]
    rfl
  have hskip : ∀ contract, owes own contract = false → numberOf own contract = 0 := by
    intro contract h
    rw [numberOf, not_not.mp (of_decide_eq_false h), Number.convert_zero]
  rw [hnumbers]
  show Except.ok (List.foldl Number.add 0 _) = Except.ok (List.foldl Number.add 0 _)
  rw [Number.foldl_add_filter hskip, visited_page hown hzero hmem, ← Number.foldl_add_filter hskip]

/-! The contracts that are counted. -/

/-- The contracts of the list that are counted with a rent contract. -/
def listedWith (contracts : List Contract) (contract : Contract) : Multiset Contract :=
  match contract.details with
  | .rent nodeId => ↑(contracts.filter (hasPublicIps nodeId))
  | _ => 0

theorem foldl_singletons (xs : List Contract) (start : Multiset Contract) :
    (xs.map fun contract => ({contract} : Multiset Contract)).foldl (· + ·) start =
      start + ↑xs := by
  induction xs generalizing start with
  | nil => rw [List.map_nil, List.foldl_nil, Multiset.coe_nil, add_zero]
  | cons x xs ih =>
    rw [List.map_cons, List.foldl_cons, ih, add_assoc, Multiset.singleton_add, Multiset.cons_coe]

theorem withNode_occurrences (hserves : proxy.Serves twinId contracts) {contract : Contract}
    (hcontract : contract ∈ contracts) :
    overdueWithNode occurrences proxy (fun contract => {contract}) contract =
      {contract} + listedWith contracts contract := by
  unfold overdueWithNode listedWith
  cases hdetails : contract.details with
  | name => exact (add_zero _).symm
  | node nodeId ips => exact (add_zero _).symm
  | rent nodeId =>
    have hperm := (hserves.onRented nodeId ⟨contract, hcontract, hdetails⟩).listAllContracts_perm
    have hlisted : ((proxy.getNodeContractsOnRentedNode nodeId).map fun contract =>
        ({contract} : Multiset Contract)).foldl (· + ·) 0 =
          (contracts.filter (hasPublicIps nodeId) : Multiset Contract) := by
      rw [foldl_singletons, zero_add]
      exact Multiset.coe_eq_coe.mpr hperm
    exact congrArg ({contract} + ·) hlisted

/-- The contracts that are counted for a page. -/
def countedIn (contracts page : List Contract) : Multiset Contract :=
  ((visited [] page).map fun contract => {contract} + listedWith contracts contract).sum

theorem counted_of_serves (hown : ∀ contract ∈ contracts, ∃ amount, own contract = .ok amount)
    (hserves : proxy.Serves twinId contracts) (fuel : ℕ) :
    (getTotalOverdue occurrences (occurrence own) proxy (fuel + 2) twinId).map
        (fun result => result.totalOverdueAmount) =
      .ok (countedIn contracts (proxy.list (gracePeriodOf twinId)).data) := by
  rw [total_of_serves hserves (fun contract hcontract => occurrence_ok (hown contract hcontract)),
    countedIn, List.sum_eq_foldl]
  refine congrArg Except.ok (congrArg (List.foldl (· + ·) 0) ?_)
  refine List.map_congr_left fun contract hcontract => ?_
  exact withNode_occurrences hserves (hserves.mem_page (visited_sublist.subset hcontract))

theorem count_sum {contract : Contract} {page : List Contract}
    (h : ∀ c ∈ page, contract ∉ listedWith contracts c) :
    ((page.map fun c => {c} + listedWith contracts c).sum).count contract =
      page.count contract := by
  induction page with
  | nil => rfl
  | cons c page ih =>
    obtain ⟨hc, hpage⟩ := List.forall_mem_cons.mp h
    rw [List.map_cons, List.sum_cons, Multiset.count_add, Multiset.count_add, ih hpage,
      Multiset.count_eq_zero_of_notMem hc, add_zero, Multiset.count_singleton, List.count_cons,
      add_comm]
    congr 1
    simp only [beq_iff_eq, eq_comm (a := c)]

/-- A contract that is overdue is counted as often as it stands in the page. -/
theorem count_countedIn (hown : ∀ contract ∈ contracts, ∃ amount, own contract = .ok amount)
    (hzero : ∀ contract ∈ contracts, OnRented contracts contract → own contract = .ok 0)
    {page : List Contract} (hpage : ∀ contract ∈ page, contract ∈ contracts) {contract : Contract}
    (hcontract : contract ∈ contracts) (hne : own contract ≠ .ok 0) :
    (countedIn contracts page).count contract = page.count contract := by
  have howes : owes own contract = true :=
    decide_eq_true fun h => hne ((own_eq_zero_iff (hown contract hcontract)).mpr h)
  rw [countedIn, count_sum, ← List.count_filter howes, visited_page hown hzero hpage,
    List.count_filter howes]
  intro c hc hlisted
  have hmem := hpage c (visited_sublist.subset hc)
  unfold listedWith at hlisted
  cases hdetails : c.details with
  | name =>
    rw [hdetails] at hlisted
    exact Multiset.notMem_zero _ hlisted
  | node nodeId ips =>
    rw [hdetails] at hlisted
    exact Multiset.notMem_zero _ hlisted
  | rent nodeId =>
    rw [hdetails] at hlisted
    obtain ⟨-, ips, hnode⟩ := mem_hasPublicIps (Multiset.mem_coe.mp hlisted)
    exact hne (hzero contract hcontract ⟨nodeId, ips, hnode, c, hmem, hdetails⟩)

/-- A node contract counts before the rent contract of its node, not after it. -/
theorem countedIn_swap {rent contract : Contract} {nodeId : ℕ} {ips : Option ℕ}
    (hrent : rent.details = .rent nodeId) (hnode : contract.details = .node nodeId ips)
    (rest : List Contract) :
    countedIn contracts (contract :: rent :: rest) =
      {contract} + countedIn contracts (rent :: contract :: rest) := by
  have hmem : nodeId ∈ ([] ++ [nodeId] : List ℕ) := List.mem_singleton_self nodeId
  have hlisted : listedWith contracts contract = 0 := by
    rw [listedWith, hnode]
  unfold countedIn
  rw [visited_node hnode List.not_mem_nil, visited_rent hrent, visited_rent hrent,
    visited_node_rented hnode hmem, List.map_cons, List.sum_cons, hlisted, add_zero]

end Served

/-- A proxy whose contracts are all of the user and in their grace period, listed in this order. -/
def proxyOf (contracts : List Contract) : GridProxy where
  list queries :=
    let contracts := contracts.filter fun contract =>
      match queries.nodeId with
      | some nodeId => hasPublicIps nodeId contract
      | none => true
    { data := contracts.take (queries.size.getD defaultPageSize)
      count := if queries.retCount then some contracts.length else none }
  byId nodeId := ⟨false, ⟨8, 32 * 1024 ^ 3, 512 * 1024 ^ 3, 0⟩, nodeId = 1⟩

section Whole
variable {own : Contract → Except Failure (Number decimal)} {contracts listed : List Contract}
  {fuel twinId : ℕ}

theorem proxyOf_answers (hperm : listed.Perm contracts) (nodeId : ℕ) :
    (proxyOf listed).Answers (GridProxy.onRentedNode nodeId)
      (contracts.filter (hasPublicIps nodeId)) where
  count := congrArg some (hperm.filter _).length_eq
  page := (List.take_sublist defaultPageSize _).subperm.trans (hperm.filter _).subperm
  sized := by
    have hall : ((proxyOf listed).list { GridProxy.onRentedNode nodeId with
        size := some (contracts.filter (hasPublicIps nodeId)).length }).data =
          listed.filter (hasPublicIps nodeId) :=
      List.take_of_length_le (hperm.filter _).length_eq.le
    rw [hall]
    exact hperm.filter _

theorem proxyOf_page (listed : List Contract) (twinId : ℕ) :
    ((proxyOf listed).list (gracePeriodOf twinId)).data = listed.take defaultPageSize := by
  simp [proxyOf, gracePeriodOf]

theorem proxyOf_serves (hperm : listed.Perm contracts) : (proxyOf listed).Serves twinId contracts :=
  ⟨⟨listed, hperm, proxyOf_page listed twinId⟩, fun nodeId _ => proxyOf_answers hperm nodeId⟩

theorem count_of_once (hown : ∀ contract ∈ contracts, ∃ amount, own contract = .ok amount)
    (hwell : WellDefined own (fuel + 2) twinId contracts) (hperm : listed.Perm contracts)
    {contract : Contract} (hcontract : contract ∈ contracts) (hne : own contract ≠ .ok 0) :
    (countedIn contracts (listed.take defaultPageSize)).count contract =
      contracts.count contract := by
  have hserves : (proxyOf listed).Serves twinId contracts := proxyOf_serves hperm
  obtain ⟨counted, hcounted, hcount⟩ := hwell.once (proxyOf listed) hserves
  rw [counted_of_serves hown hserves, Except.ok.injEq, proxyOf_page] at hcounted
  rw [hcounted]
  exact hcount contract hcontract hne

theorem onRented_of_once (hown : ∀ contract ∈ contracts, ∃ amount, own contract = .ok amount)
    (hwell : WellDefined own (fuel + 2) twinId contracts) {contract : Contract}
    (hcontract : contract ∈ contracts) (honrented : OnRented contracts contract) :
    own contract = .ok 0 := by
  by_contra hnonzero
  obtain ⟨nodeId, ips, hnode, rent, hrentmem, hrent⟩ := honrented
  have hne : contract ≠ rent := by
    intro heq
    rw [heq, hrent] at hnode
    cases hnode
  -- the two contracts first, in either order
  have hperm : contracts.Perm (rent :: contract :: (contracts.erase rent).erase contract) := by
    have hmem : contract ∈ contracts.erase rent := (List.mem_erase_of_ne hne).mpr hcontract
    exact (List.perm_cons_erase hrentmem).trans ((List.perm_cons_erase hmem).cons rent)
  have hrentfirst := count_of_once hown hwell hperm.symm hcontract hnonzero
  have hnodefirst := count_of_once hown hwell ((List.Perm.swap rent contract _).trans hperm.symm)
    hcontract hnonzero
  have hswap : countedIn contracts ((contract :: rent :: (contracts.erase rent).erase contract).take
      defaultPageSize) = {contract} + countedIn contracts ((rent :: contract ::
        (contracts.erase rent).erase contract).take defaultPageSize) :=
    countedIn_swap hrent hnode _
  rw [hswap, Multiset.count_add, Multiset.count_singleton_self, hrentfirst] at hnodefirst
  omega

/-- A contract behind the page is not counted. -/
theorem page_of_once (hown : ∀ contract ∈ contracts, ∃ amount, own contract = .ok amount)
    (hzero : ∀ contract ∈ contracts, OnRented contracts contract → own contract = .ok 0)
    (hwell : WellDefined own (fuel + 2) twinId contracts)
    (hlong : ¬contracts.length ≤ defaultPageSize) {contract : Contract}
    (hcontract : contract ∈ contracts) : own contract = .ok 0 := by
  by_contra hne
  have hperm : (contracts.erase contract ++ [contract]).Perm contracts :=
    (List.perm_append_singleton contract _).trans (List.perm_cons_erase hcontract).symm
  have hcount := count_of_once hown hwell hperm hcontract hne
  rw [count_countedIn hown hzero (fun c hc => hperm.mem_iff.mp (List.mem_of_mem_take hc)) hcontract
    hne, List.take_append_of_le_length (by rw [List.length_erase_of_mem hcontract]; omega)] at hcount
  have hle := (List.take_sublist defaultPageSize (contracts.erase contract)).count_le contract
  have hpos := List.count_pos_iff.mpr hcontract
  rw [List.count_erase_self] at hle
  omega

theorem sum_zeros (hzero : ∀ contract ∈ contracts, own contract = .ok 0) :
    Number.sum (contracts.map (numberOf own)) = 0 := by
  refine Number.foldl_add_zeros (fun number hnumber => ?_) 0
  obtain ⟨contract, hcontract, rfl⟩ := List.mem_map.mp hnumber
  rw [numberOf, (own_eq_zero_iff ⟨0, hzero contract hcontract⟩).mp (hzero contract hcontract),
    Number.convert_zero]

/-- What is listed behind the page, if anything, is not overdue. -/
theorem sum_page (hpage : contracts.length ≤ defaultPageSize ∨
      ∀ contract ∈ contracts, own contract = .ok 0) (hperm : listed.Perm contracts) :
    Number.sum ((listed.take defaultPageSize).map (numberOf own)) =
      Number.sum (listed.map (numberOf own)) := by
  rcases hpage with hshort | hzero
  · rw [List.take_of_length_le (hperm.length_eq.trans_le hshort)]
  · have hlisted : ∀ contract ∈ listed, own contract = .ok 0 :=
      fun contract hcontract => hzero contract (hperm.mem_iff.mp hcontract)
    rw [sum_zeros hlisted, sum_zeros fun contract hcontract =>
      hlisted contract (List.mem_of_mem_take hcontract)]

/-- The total is well defined exactly when the node contracts whose rent contract is in the list too
are not overdue, no contract that is overdue stands behind the page, and what the contracts
themselves are overdue has one sum in all orders. -/
theorem getTotalOverdue_wellDefined_iff
    (hown : ∀ contract ∈ contracts, ∃ amount, own contract = .ok amount) (fuel twinId : ℕ) :
    WellDefined own (fuel + 2) twinId contracts ↔
      (∀ contract ∈ contracts, OnRented contracts contract → own contract = .ok 0) ∧
      (contracts.length ≤ defaultPageSize ∨ ∀ contract ∈ contracts, own contract = .ok 0) ∧
      ∀ listed : List Contract, listed.Perm contracts →
        Number.sum (listed.map (numberOf own)) = Number.sum (contracts.map (numberOf own)) := by
  constructor
  · intro hwell
    have hzero := fun contract (hcontract : contract ∈ contracts) =>
      onRented_of_once hown hwell hcontract
    have hpage : contracts.length ≤ defaultPageSize ∨
        ∀ contract ∈ contracts, own contract = .ok 0 := by
      by_cases hshort : contracts.length ≤ defaultPageSize
      · exact Or.inl hshort
      · exact Or.inr fun contract hcontract => page_of_once hown hzero hwell hshort hcontract
    refine ⟨hzero, hpage, fun listed hperm => ?_⟩
    obtain ⟨total, htotal⟩ := hwell.same
    have hsum : ∀ listed : List Contract, listed.Perm contracts →
        Number.sum (listed.map (numberOf own)) = total := by
      intro listed hperm
      have hserves : (proxyOf listed).Serves twinId contracts := proxyOf_serves hperm
      have hrun := htotal (proxyOf listed) hserves
      rw [total_eq_sum hown hzero hserves, Except.ok.injEq, proxyOf_page, sum_page hpage hperm] at hrun
      exact hrun
    rw [hsum listed hperm, hsum contracts (List.Perm.refl _)]
  · rintro ⟨hzero, hpage, hsums⟩
    constructor
    · refine ⟨Number.sum (contracts.map (numberOf own)), fun proxy hserves => ?_⟩
      obtain ⟨listed, hperm, hdata⟩ := hserves.page
      rw [total_eq_sum hown hzero hserves, hdata, sum_page hpage hperm, hsums listed hperm]
    · intro proxy hserves
      refine ⟨_, counted_of_serves hown hserves fuel, fun contract hcontract hne => ?_⟩
      rw [count_countedIn hown hzero (fun c hc => hserves.mem_page hc) hcontract hne]
      obtain ⟨listed, hperm, hdata⟩ := hserves.page
      rcases hpage with hshort | hnone
      · rw [hdata, List.take_of_length_le (hperm.length_eq.trans_le hshort), hperm.count_eq]
      · exact absurd (hnone contract hcontract) hne

end Whole

/-! A user with a dedicated node, 1. -/

/-- Nothing has a price, and only the fourth contract has no overdraft. -/
def userChain : Chain where
  now := 7200000
  tftPrice := 1 / 100
  pricingPolicy := ⟨0, 0, 0, 0, 0, 0⟩
  balance := 3
  paymentState contract_id := ⟨if contract_id = 4 then 0 else 10000000, 0, 3600⟩
  amountUnbilled _ := 0
  resources _ := ⟨1, 1024 ^ 3, 1024 ^ 3, 0⟩
  dedicatedNodeExtraFee _ := 0
  certified _ := false

/-- The node contract on the dedicated node has no public IP and no overdraft. -/
def withoutIp : List Contract :=
  [⟨2, .name⟩, ⟨4, .node 1 none⟩, ⟨3, .rent 1⟩, ⟨5, .node 2 (some 1)⟩]

theorem withoutIp_wellDefined :
    WellDefined (userChain.contractOverdue (proxyOf withoutIp)) 2 7 withoutIp := by
  have hok : ∀ contract ∈ withoutIp,
      (userChain.contractOverdue (proxyOf withoutIp) contract).isOk = true := by
    decide +kernel
  have hzero : userChain.contractOverdue (proxyOf withoutIp) ⟨4, .node 1 none⟩ = .ok 0 := by
    decide +kernel
  have hvals : (withoutIp.map (numberOf (userChain.contractOverdue (proxyOf withoutIp)))).map
      Number.val = [1, 0, 1, 1] := by
    decide +kernel
  refine (getTotalOverdue_wellDefined_iff
    (fun contract hcontract => Frame.exists_of_isOk (hok contract hcontract)) 0 7).mpr
    ⟨?_, Or.inl (by decide), fun listed hperm => ?_⟩
  · intro contract hcontract honrented
    obtain ⟨nodeId, ips, hnode, rent, hmem, hrent⟩ := honrented
    have hrented : nodeId = 1 := by
      rcases List.mem_cons.mp hmem with rfl | hmem
      · cases hrent
      rcases List.mem_cons.mp hmem with rfl | hmem
      · cases hrent
      rcases List.mem_cons.mp hmem with rfl | hmem
      · exact (Details.rent.inj hrent).symm
      rw [List.mem_singleton.mp hmem] at hrent
      cases hrent
    rcases List.mem_cons.mp hcontract with rfl | hcontract
    · cases hnode
    rcases List.mem_cons.mp hcontract with rfl | hcontract
    · exact hzero
    rcases List.mem_cons.mp hcontract with rfl | hcontract
    · cases hnode
    rw [List.mem_singleton.mp hcontract, hrented] at hnode
    cases hnode
  · refine Number.sum_perm (e := 0) (hperm.map _) (fun number hnumber => ?_) ?_
    · have hval := List.mem_map_of_mem (f := Number.val) hnumber
      rw [hvals] at hval
      simp only [List.mem_cons, List.not_mem_nil, or_false] at hval
      rcases hval with hone | hnone | hone | hone
      · exact ⟨1, by rw [hone]; norm_num⟩
      · exact ⟨0, by rw [hnone]; norm_num⟩
      · exact ⟨1, by rw [hone]; norm_num⟩
      · exact ⟨1, by rw [hone]; norm_num⟩
    · rw [hvals]
      norm_num [double]

/-- The node contract has a public IP, and it is listed before the rent contract. -/
def withIp : List Contract := [⟨2, .node 1 (some 1)⟩, ⟨3, .rent 1⟩]

theorem withIp_not_wellDefined :
    ¬WellDefined (userChain.contractOverdue (proxyOf withIp)) 2 7 withIp := by
  intro hwell
  have hserves : (proxyOf withIp).Serves 7 withIp := proxyOf_serves (List.Perm.refl _)
  obtain ⟨counted, hcounted, hcount⟩ := hwell.once (proxyOf withIp) hserves
  have htwice : (getTotalOverdue occurrences
      (occurrence (userChain.contractOverdue (proxyOf withIp))) (proxyOf withIp) 2 7).map
        (fun result => result.totalOverdueAmount) =
      .ok {⟨2, .node 1 (some 1)⟩, ⟨3, .rent 1⟩, ⟨2, .node 1 (some 1)⟩} := by
    decide +kernel
  have hne : userChain.contractOverdue (proxyOf withIp) ⟨2, .node 1 (some 1)⟩ ≠ .ok 0 := by
    decide +kernel
  have hone := hcount ⟨2, .node 1 (some 1)⟩ List.mem_cons_self hne
  rw [htwice, Except.ok.injEq] at hcounted
  rw [← hcounted] at hone
  revert hone
  decide

end ThreefoldSdk.Billing
