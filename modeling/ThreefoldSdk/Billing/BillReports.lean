import Mathlib

/-! The bill reports of a contract (`clients/tf-grid/contracts.ts`): the discount package and the
consumption that are read of them, in exact arithmetic. -/

namespace ThreefoldSdk.Billing

inductive DiscountLevel where
  | none
  | default
  | bronze
  | silver
  | gold
deriving DecidableEq

structure ContractBillReport where
  id : String
  discountReceived : DiscountLevel
  amountBilled : ℕ
  timestamp : ℕ
deriving DecidableEq

/-- What the explorer has about contracts: the reports of each with the latest first, and when the
node, name and rent contracts of an id were created. -/
structure Explorer where
  contractBillReports : ℕ → List ContractBillReport
  nodeContracts : ℕ → List ℕ
  nameContracts : ℕ → List ℕ
  rentContracts : ℕ → List ℕ

namespace Explorer
variable (explorer : Explorer) (id : ℕ)

/-- `contractBillReports(where, limit, orderBy: timestamp_DESC)`. -/
def billReports (limit : Option ℕ) : List ContractBillReport :=
  match limit with
  | some n => (explorer.contractBillReports id).take n
  | none => explorer.contractBillReports id

/-- `billReports[billReports.length - 1]`. -/
def discountReport : Option ContractBillReport :=
  let billReports := explorer.billReports id none
  billReports[billReports.length - 1]?

def getDiscountPackage : DiscountLevel :=
  match explorer.discountReport id with
  | some report => report.discountReceived
  | none => .none

/-- `billReports[0]`. -/
def consumptionReport : Option ContractBillReport := (explorer.billReports id (some 2))[0]?

/-- The hours that the last report is for. -/
def billedHours (report : ContractBillReport) : ℚ :=
  match explorer.billReports id (some 2) with
  | [first, second] => ((first.timestamp : ℚ) - second.timestamp) / 3600
  | _ =>
    let created := [explorer.nodeContracts id, explorer.nameContracts id,
      explorer.rentContracts id].find? fun contracts => contracts.length = 1
    match created with
    | some [createdAt] => ((report.timestamp : ℚ) - createdAt) / 3600
    | _ => 1

/-- Per hour; a duration of zero counts as an hour. -/
def getConsumption : ℚ :=
  match explorer.consumptionReport id with
  | some report =>
    let duration := explorer.billedHours id report
    report.amountBilled / (if duration = 0 then 1 else duration) / 10 ^ 7
  | none => 0

/-- The reports come in descending order of their time, and each has an id of its own. -/
structure Sorted : Prop where
  latestFirst : (explorer.contractBillReports id).Pairwise fun r r' => r'.timestamp ≤ r.timestamp
  ids : ((explorer.contractBillReports id).map (·.id)).Nodup

/-- The discount is read of the report whose amount is, and that is the latest one. -/
structure SameBill : Prop where
  report : explorer.discountReport id = explorer.consumptionReport id
  latest : ∀ r ∈ explorer.discountReport id, r ∈ explorer.contractBillReports id ∧
    ∀ r' ∈ explorer.contractBillReports id, r'.timestamp ≤ r.timestamp

end Explorer

section
variable {explorer : Explorer} {id : ℕ}

theorem discountReport_eq_getLast :
    explorer.discountReport id = (explorer.contractBillReports id).getLast? := by
  rw [List.getLast?_eq_getElem?]
  rfl

theorem consumptionReport_eq_head :
    explorer.consumptionReport id = (explorer.contractBillReports id).head? := by
  unfold Explorer.consumptionReport Explorer.billReports
  rw [List.getElem?_take_of_lt (by decide), List.head?_eq_getElem?]

/-- The consumption is that of the first report. -/
theorem head_isLatest (h : explorer.Sorted id) {r : ContractBillReport}
    (hr : r ∈ (explorer.contractBillReports id).head?) : r ∈ explorer.contractBillReports id ∧
      ∀ r' ∈ explorer.contractBillReports id, r'.timestamp ≤ r.timestamp := by
  have hsorted := h.latestFirst
  cases hreports : explorer.contractBillReports id with
  | nil =>
    rw [hreports] at hr
    cases hr
  | cons first rest =>
    rw [hreports] at hr hsorted
    cases hr
    refine ⟨List.mem_cons_self, fun r' hr' => ?_⟩
    rcases List.mem_cons.mp hr' with rfl | hr'
    · exact le_rfl
    · exact List.rel_of_pairwise_cons hsorted hr'

/-- The first report is the last one only when there is no other. -/
theorem getLast_eq_head_iff {l : List ContractBillReport} (h : (l.map (·.id)).Nodup) :
    l.getLast? = l.head? ↔ l.length ≤ 1 := by
  match l with
  | [] => exact iff_of_true rfl (Nat.zero_le 1)
  | [r] => exact iff_of_true rfl le_rfl
  | first :: second :: rest =>
    refine iff_of_false (fun heq => ?_) (by simp)
    have hnodup : (first :: second :: rest).Nodup := List.Nodup.of_map _ h
    rw [List.getLast?_cons_cons] at heq
    have hmem : first ∈ second :: rest := List.mem_of_mem_getLast? (Option.mem_def.mpr heq)
    exact (List.nodup_cons.mp hnodup).1 hmem

/-- The discount package and the consumption come of the same bill, the latest one, exactly when
there is no other. -/
theorem sameBill_iff (h : explorer.Sorted id) :
    explorer.SameBill id ↔ (explorer.contractBillReports id).length ≤ 1 := by
  have hiff := getLast_eq_head_iff h.ids
  constructor
  · intro hsame
    rw [← hiff, ← discountReport_eq_getLast, ← consumptionReport_eq_head]
    exact hsame.report
  · intro hlength
    have hreport : explorer.discountReport id = (explorer.contractBillReports id).head? := by
      rw [discountReport_eq_getLast, hiff.mpr hlength]
    refine ⟨hreport.trans consumptionReport_eq_head.symm, fun r hr => ?_⟩
    rw [hreport] at hr
    exact head_isLatest h hr

end

/-- A contract whose discount rose with its second bill. -/
def risingDiscount : Explorer where
  contractBillReports _ := [⟨"0-2", .gold, 20000000, 1700007200⟩, ⟨"0-1", .none, 10000000, 1700003600⟩]
  nodeContracts _ := [1700000000]
  nameContracts _ := []
  rentContracts _ := []

/-- A contract that was billed once. -/
def firstBill : Explorer :=
  { risingDiscount with
    contractBillReports := fun _ => [⟨"0-1", .none, 10000000, 1700003600⟩] }

theorem firstBill_same : firstBill.SameBill 1 :=
  (sameBill_iff ⟨List.pairwise_singleton _ _, by decide⟩).mpr (by decide)

theorem risingDiscount_not_same : ¬ ∀ (explorer : Explorer) (id : ℕ), explorer.Sorted id →
    explorer.SameBill id := by
  intro h
  have hsorted : risingDiscount.Sorted 1 := ⟨by decide, by decide⟩
  have hreport := (h risingDiscount 1 hsorted).report
  exact absurd hreport (by decide)

end ThreefoldSdk.Billing
