import Mathlib

/-! The price calculator (`modules/calculator.ts`), in exact arithmetic. -/

namespace ThreefoldSdk.Billing

/-- The values of a policy; prices are in 10⁻⁷ USD an hour, the discount is in percent. -/
structure PricingPolicy where
  cu : ℚ
  su : ℚ
  nu : ℚ
  ipu : ℚ
  uniqueName : ℚ
  discountForDedicationNodes : ℚ

/-- The options that pass validation. -/
structure CalculatorModel where
  cru : ℕ
  mru : ℚ≥0
  sru : ℚ≥0
  hru : ℚ≥0
  ipv4u : Bool
  certified : Option Bool
  balance : Option ℚ≥0
  nu : Option ℚ≥0

structure DiscountPackage where
  package : String
  duration : ℚ
  discount : ℚ

def nonePackage : DiscountPackage := ⟨"none", 0, 0⟩

def discountPackages : List DiscountPackage :=
  [nonePackage, ⟨"default", 3 / 2, 20⟩, ⟨"bronze", 3, 30⟩, ⟨"silver", 6, 40⟩, ⟨"gold", 18, 60⟩]

structure PricingInfo where
  dedicatedPrice : ℚ
  dedicatedPackage : DiscountPackage
  sharedPrice : ℚ
  sharedPackage : DiscountPackage

def calCU (cru mru : ℚ) : ℚ :=
  let mru_used_1 := mru / 4
  let cru_used_1 := cru / 2
  let cu1 := if mru_used_1 > cru_used_1 then mru_used_1 else cru_used_1
  let mru_used_2 := mru / 8
  let cru_used_2 := cru
  let cu2 := if mru_used_2 > cru_used_2 then mru_used_2 else cru_used_2
  let mru_used_3 := mru / 2
  let cru_used_3 := cru / 4
  let cu3 := if mru_used_3 > cru_used_3 then mru_used_3 else cru_used_3
  let cu := if cu1 > cu2 then cu2 else cu1
  if cu > cu3 then cu3 else cu

def calSU (hru sru : ℚ) : ℚ := hru / 1200 + sru / 200

def calNU (nu : ℚ) : ℚ := nu * 1000 / 10 ^ 7

def namePricing (price : PricingPolicy) : ℚ := price.uniqueName / 10 ^ 7 * 24 * 30

/-- `musd_month`. -/
def pricing (price : PricingPolicy) (options : CalculatorModel) : ℚ :=
  let cu := calCU options.cru options.mru
  let su := calSU options.hru options.sru
  let nu := calNU (options.nu.getD 0 : ℚ≥0)
  let ipv4u := if options.ipv4u then 1 else 0
  let certifiedFactor := if options.certified = some true then 5 / 4 else 1
  (cu * price.cu + su * price.su + ipv4u * price.ipu + nu * price.nu) * certifiedFactor * 24 * 30

/-- The last package whose price for its duration is below the balance. -/
def selectPackage (balance price : ℚ) : DiscountPackage :=
  discountPackages.foldl
    (fun selected pkg => if balance > price * pkg.duration then pkg else selected) nonePackage

def discounted (price : ℚ) (pkg : DiscountPackage) : ℚ :=
  (price - price * (pkg.discount / 100)) / 10000000

def calculate (price : PricingPolicy) (tftPrice : ℚ) (options : CalculatorModel) : PricingInfo :=
  let musd_month := pricing price options
  let dedicatedPrice := musd_month - musd_month * (price.discountForDedicationNodes / 100)
  let balance := match options.balance with
    | some balance => tftPrice * balance * 10000000
    | none => 0
  let dedicatedPackage := selectPackage balance dedicatedPrice
  let sharedPackage := selectPackage balance musd_month
  { dedicatedPrice := discounted dedicatedPrice dedicatedPackage
    dedicatedPackage := dedicatedPackage
    sharedPrice := discounted musd_month sharedPackage
    sharedPackage := sharedPackage }

end ThreefoldSdk.Billing
