import ThreefoldSdk.Billing.Calculator
import ThreefoldSdk.Lib.ObjectMap
import ThreefoldSdk.Lib.Rounding

/-! What the contracts of a user are overdue (`clients/tf-grid/contracts.ts`,
`Contracts.getTotalOverdue`), at one moment. What a contract itself is overdue is computed in exact
arithmetic, up to the digits of its result; amounts are added up as in the source. -/

namespace ThreefoldSdk.Billing
open Rounding

/-- What a contract is for. A node contract without public IPs may lack their number. -/
inductive Details where
  | name
  | rent (nodeId : ℕ)
  | node (nodeId : ℕ) (number_of_public_ips : Option ℕ)
deriving DecidableEq

structure Contract where
  contract_id : ℕ
  details : Details
deriving DecidableEq

inductive ContractState where
  | created
  | gracePeriod
  | deleted

/-- The queries that a list of contracts may be restricted by. -/
structure ContractsQuery where
  twinId : Option ℕ
  nodeId : Option ℕ
  state : List ContractState
  numberOfPublicIps : Option ℕ
  size : Option ℕ
  retCount : Bool

structure Resources where
  cru : ℕ
  mru : ℕ
  sru : ℕ
  hru : ℕ

/-- A page of a list; it has the count only if that is asked for. -/
structure Page where
  data : List Contract
  count : Option ℕ

structure NodeDetails where
  certified : Bool
  total_resources : Resources
  rented : Bool

structure GridProxy where
  list : ContractsQuery → Page
  byId : ℕ → NodeDetails

/-- The overdrafts are in 10⁻⁷ TFT. -/
structure PaymentState where
  standardOverdraft : ℕ
  additionalOverdraft : ℕ
  lastUpdatedSeconds : ℕ

/-- What the chain has about the contracts, and the time in milliseconds. -/
structure Chain where
  now : ℕ
  tftPrice : ℚ≥0
  pricingPolicy : PricingPolicy
  balance : ℚ≥0
  paymentState : ℕ → PaymentState
  amountUnbilled : ℕ → ℕ
  resources : ℕ → Resources
  dedicatedNodeExtraFee : ℕ → ℕ
  certified : ℕ → Bool

/-- What is thrown. -/
inductive Failure where
  /-- `Failed to convert to TFT`: the amount or its quotient is not a number from zero on. -/
  | conversion
  /-- `Invalid node id. Node id must be positive integer`. -/
  | nodeId
  /-- The calls do not end. -/
  | recursion
deriving DecidableEq

def SECONDS_ONE_HOUR : ℕ := 60 * 60

def HOURS_ONE_MONTH : ℕ := 24 * 30

def TFT_CONVERSION_FACTOR : ℕ := 10 ^ 7

def bytesToGB (bytes : ℕ) : ℚ≥0 := bytes / 1024 ^ 3

/-- `toFixed`, of a number from zero on. -/
def toFixed (decimals : ℕ) (amount : ℚ) : ℚ := ⌊amount * 10 ^ decimals + 1 / 2⌋ / 10 ^ decimals

namespace Chain
variable (chain : Chain)

def convertToTFT (USD : ℚ) : Except Failure ℚ :=
  if USD < 0 ∨ chain.tftPrice = 0 then .error .conversion
  else .ok (toFixed 15 (USD / chain.tftPrice))

/-- `calculateWithMyBalance`. -/
def calculateWithMyBalance (ipv4u certified : Bool) (resources : Resources) : PricingInfo :=
  calculate chain.pricingPolicy chain.tftPrice
    { cru := resources.cru
      mru := bytesToGB resources.mru
      sru := bytesToGB resources.sru
      hru := bytesToGB resources.hru
      ipv4u := ipv4u
      certified := some certified
      balance := some chain.balance
      nu := none }

def getUnbilledNu (contract : Contract) : Except Failure ℚ :=
  let unbilledNU := chain.amountUnbilled contract.contract_id
  let premium (nodeId : ℕ) : Except Failure ℚ :=
    if nodeId = 0 then .error .nodeId
    else if chain.certified nodeId then .ok (unbilledNU * (125 / 100)) else .ok unbilledNU
  if unbilledNU > 0 then
    match contract.details with
    | .name => .error .nodeId
    | .rent nodeId => premium nodeId
    | .node nodeId _ => premium nodeId
  else .ok unbilledNU

/-- In USD per month. -/
def getContractCost (proxy : GridProxy) (contract : Contract) : ℚ :=
  match contract.details with
  | .name => namePricing chain.pricingPolicy
  | .rent nodeId =>
    let nodeDetails := proxy.byId nodeId
    let USDCost := (chain.calculateWithMyBalance false nodeDetails.certified
      nodeDetails.total_resources).dedicatedPrice
    USDCost + chain.dedicatedNodeExtraFee nodeId / 1000
  | .node nodeId number_of_public_ips =>
    let nodeDetails := proxy.byId nodeId
    if nodeDetails.rented then
      if number_of_public_ips.getD 0 = 0 then 0
      else
        let ipPrice := chain.pricingPolicy.ipu / TFT_CONVERSION_FACTOR
        let pricePerMonth := ipPrice * HOURS_ONE_MONTH
        if nodeDetails.certified then pricePerMonth * (125 / 100) else pricePerMonth
    else
      (chain.calculateWithMyBalance (number_of_public_ips.getD 0 ≠ 0) nodeDetails.certified
        (chain.resources contract.contract_id)).sharedPrice

/-- `contractOverdue` of `calculateContractOverDue`: what the contract itself is overdue, in TFT. -/
def contractOverdue (proxy : GridProxy) (contract : Contract) : Except Failure (Number decimal) := do
  let state := chain.paymentState contract.contract_id
  let elapsedSeconds := ⌈(chain.now / 1000 : ℚ) - state.lastUpdatedSeconds⌉
  let totalPeriodTime := elapsedSeconds + SECONDS_ONE_HOUR
  let contractMonthlyCostTFT ← chain.convertToTFT (chain.getContractCost proxy contract)
  let contractCostPerSecond := contractMonthlyCostTFT / (HOURS_ONE_MONTH * SECONDS_ONE_HOUR)
  let totalPeriodCost := contractCostPerSecond * totalPeriodTime
  let totalOverDraft : ℚ := state.standardOverdraft + state.additionalOverdraft
  let unbilledNU ← chain.getUnbilledNu contract
  let unbilledNuTFTUnit ← chain.convertToTFT unbilledNU
  let overdue := totalOverDraft + unbilledNuTFTUnit
  return Number.ofRat decimal (overdue / TFT_CONVERSION_FACTOR + totalPeriodCost)

end Chain

namespace GridProxy
variable (proxy : GridProxy)

def listAllContracts (queries : ContractsQuery) : List Contract :=
  let contracts := proxy.list { queries with retCount := true }
  match contracts.count with
  | some count =>
    if contracts.data.length < count then (proxy.list { queries with size := some count }).data
    else contracts.data
  | none => contracts.data

def onRentedNode (nodeId : ℕ) : ContractsQuery where
  twinId := none
  nodeId := some nodeId
  state := [.gracePeriod]
  numberOfPublicIps := some 1
  size := none
  retCount := false

def getNodeContractsOnRentedNode (nodeId : ℕ) : List Contract :=
  proxy.listAllContracts (onRentedNode nodeId)

end GridProxy

/-! Adding up. -/

/-- How amounts are added up: `Decimal`s (`D`) for a contract, numbers (`N`) over the contracts. -/
structure Amounts (D N : Type) where
  decimalZero : D
  plus : D → D → D
  toNumber : D → N
  zero : N
  add : N → N → N

/-- The amounts of the source. -/
def tftAmounts : Amounts (Number decimal) (Number double) where
  decimalZero := 0
  plus := Number.add
  toNumber := Number.convert double
  zero := 0
  add := Number.add

section
variable {D N : Type} (amounts : Amounts D N)

/-- `calculateContractOverDue` is given as `overdueOf`. -/
def getContractsCostOnRentedNode (proxy : GridProxy) (overdueOf : Contract → Except Failure D)
    (nodeId : ℕ) : Except Failure D := do
  let contracts := proxy.getNodeContractsOnRentedNode nodeId
  if contracts.length = 0 then return amounts.decimalZero
  let costResult ← contracts.mapM overdueOf
  return costResult.foldl amounts.plus amounts.decimalZero

/-- `contractOverdue` is what a contract itself is overdue. -/
def calculateContractOverDue (contractOverdue : Contract → Except Failure D) (proxy : GridProxy) :
    ℕ → Contract → Except Failure D
  | 0, _ => .error .recursion
  | fuel + 1, contract => do
    let overdue ← contractOverdue contract
    match contract.details with
    | .rent nodeId =>
      let totalContractsCost ← getContractsCostOnRentedNode amounts proxy
        (calculateContractOverDue contractOverdue proxy fuel) nodeId
      return amounts.plus overdue totalContractsCost
    | _ => return overdue

/-! `getTotalOverdue`. -/

structure ContractsOverdue (N : Type) where
  nameContracts : ObjectMap ℕ N
  nodeContracts : ObjectMap ℕ N
  rentContracts : ObjectMap ℕ N
  totalOverdueAmount : N

/-- The result so far, and `rentedNodesIds`. -/
structure Overdues (N : Type) where
  result : ContractsOverdue N
  rentedNodesIds : List ℕ

/-- The body of the loop. -/
def Overdues.visit (overdueOf : Contract → Except Failure D) (overdues : Overdues N)
    (contract : Contract) : Except Failure (Overdues N) :=
  let result := overdues.result
  match contract.details with
  | .name => do
    let overdue := amounts.toNumber (← overdueOf contract)
    return { overdues with
      result := { result with
        nameContracts := result.nameContracts.upsert contract.contract_id fun _ => overdue
        totalOverdueAmount := amounts.add result.totalOverdueAmount overdue } }
  | .rent nodeId => do
    let overdue := amounts.toNumber (← overdueOf contract)
    return {
      result := { result with
        rentContracts := result.rentContracts.upsert contract.contract_id fun _ => overdue
        totalOverdueAmount := amounts.add result.totalOverdueAmount overdue }
      rentedNodesIds := overdues.rentedNodesIds ++ [nodeId] }
  | .node nodeId _ =>
    if nodeId ∈ overdues.rentedNodesIds then
      return { overdues with
        result := { result with
          nodeContracts := result.nodeContracts.upsert contract.contract_id fun _ => amounts.zero } }
    else do
      let overdue := amounts.toNumber (← overdueOf contract)
      return { overdues with
        result := { result with
          nodeContracts := result.nodeContracts.upsert contract.contract_id fun _ => overdue
          totalOverdueAmount := amounts.add result.totalOverdueAmount overdue } }

def gracePeriodOf (twinId : ℕ) : ContractsQuery where
  twinId := some twinId
  nodeId := none
  state := [.gracePeriod]
  numberOfPublicIps := none
  size := none
  retCount := false

def getTotalOverdue (contractOverdue : Contract → Except Failure D) (proxy : GridProxy)
    (fuel twinId : ℕ) : Except Failure (ContractsOverdue N) := do
  let contracts := proxy.list (gracePeriodOf twinId)
  let overdues ← contracts.data.foldlM
    (Overdues.visit amounts (calculateContractOverDue amounts contractOverdue proxy fuel))
    ⟨⟨.empty, .empty, .empty, amounts.zero⟩, []⟩
  return overdues.result

end

end ThreefoldSdk.Billing
