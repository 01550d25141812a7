import ThreefoldSdk.Billing.Calculator

/-! The prices of `calculate` as functions of the resources and of the balance, and the package each
is discounted by. -/

namespace ThreefoldSdk.Billing

structure PricingPolicy.NonNegative (price : PricingPolicy) : Prop where
  cu : 0 ≤ price.cu
  su : 0 ≤ price.su
  nu : 0 ≤ price.nu
  ipu : 0 ≤ price.ipu
  discount : 0 ≤ price.discountForDedicationNodes ∧ price.discountForDedicationNodes ≤ 100

/-- The same options, with at most the resources. -/
structure CalculatorModel.AtMost (o o' : CalculatorModel) : Prop where
  cru : o.cru ≤ o'.cru
  mru : o.mru ≤ o'.mru
  sru : o.sru ≤ o'.sru
  hru : o.hru ≤ o'.hru
  nu : o.nu.getD 0 ≤ o'.nu.getD 0
  ipv4u : o.ipv4u = o'.ipv4u
  certified : o.certified = o'.certified
  balance : o.balance = o'.balance

/-- The same options, with at most the balance. -/
structure CalculatorModel.Poorer (o o' : CalculatorModel) : Prop where
  balance : o.balance.getD 0 ≤ o'.balance.getD 0
  options : { o with balance := o'.balance } = o'

/-- The price of a dedicated node without a package. -/
def dedicated (price : PricingPolicy) (options : CalculatorModel) : ℚ :=
  pricing price options - pricing price options * (price.discountForDedicationNodes / 100)

/-- The balance in the unit of the prices. -/
def balanceOf (tftPrice : ℚ) (options : CalculatorModel) : ℚ :=
  tftPrice * (options.balance.getD 0 : ℚ≥0) * 10000000

/-- The package of the highest discount whose price for its duration is below the balance, or none
of them. -/
def IsChosen (balance price : ℚ) (pkg : DiscountPackage) : Prop :=
  (pkg ∈ discountPackages ∧ price * pkg.duration < balance ∧
      ∀ other ∈ discountPackages, price * other.duration < balance →
        other.discount ≤ pkg.discount) ∨
    (pkg = nonePackage ∧ ∀ other ∈ discountPackages, ¬price * other.duration < balance)

/-- The prices follow the resources and the balance, stay below what they are without a package, and
have the package they should. -/
structure PricesWell (price : PricingPolicy) (tftPrice : ℚ) : Prop where
  resources : ∀ o o' : CalculatorModel, o.AtMost o' →
    (calculate price tftPrice o).sharedPrice ≤ (calculate price tftPrice o').sharedPrice ∧
      (calculate price tftPrice o).dedicatedPrice ≤ (calculate price tftPrice o').dedicatedPrice
  balance : ∀ o o' : CalculatorModel, o.Poorer o' →
    (calculate price tftPrice o').sharedPrice ≤ (calculate price tftPrice o).sharedPrice ∧
      (calculate price tftPrice o').dedicatedPrice ≤ (calculate price tftPrice o).dedicatedPrice
  bounded : ∀ o, (calculate price tftPrice o).sharedPrice ≤ pricing price o / 10000000 ∧
    (calculate price tftPrice o).dedicatedPrice ≤ dedicated price o / 10000000
  packages : ∀ o, IsChosen (balanceOf tftPrice o) (pricing price o)
      (calculate price tftPrice o).sharedPackage ∧
    IsChosen (balanceOf tftPrice o) (dedicated price o) (calculate price tftPrice o).dedicatedPackage

/-! The units. -/

theorem ite_gt_eq_max (a b : ℚ) : (if a > b then a else b) = max a b := by
  rw [max_comm, max_def]
  split_ifs with h h' <;> first | rfl | linarith

theorem ite_gt_eq_min (a b : ℚ) : (if a > b then b else a) = min a b := by
  rw [min_def]
  split_ifs with h h' <;> first | rfl | linarith

theorem calCU_eq (cru mru : ℚ) : calCU cru mru =
    min (min (max (mru / 4) (cru / 2)) (max (mru / 8) cru)) (max (mru / 2) (cru / 4)) := by
  unfold calCU
  simp only [ite_gt_eq_max, ite_gt_eq_min]

theorem calCU_mono {cru cru' mru mru' : ℚ} (hcru : cru ≤ cru') (hmru : mru ≤ mru') :
    calCU cru mru ≤ calCU cru' mru' := by
  rw [calCU_eq, calCU_eq]
  gcongr

theorem calCU_nonneg {cru mru : ℚ} (hmru : 0 ≤ mru) : 0 ≤ calCU cru mru := by
  rw [calCU_eq]
  positivity

section
variable {price : PricingPolicy} {o o' : CalculatorModel}

theorem pricing_nonneg (h : price.NonNegative) : 0 ≤ pricing price o := by
  have hcu := @calCU_nonneg o.cru o.mru (by positivity)
  obtain ⟨hpcu, hpsu, hpnu, hpipu, -⟩ := h
  unfold pricing calSU calNU
  have hip : (0 : ℚ) ≤ if o.ipv4u then 1 else 0 := by split <;> norm_num
  have hfactor : (0 : ℚ) ≤ if o.certified = some true then 5 / 4 else 1 := by
    split <;> norm_num
  positivity

theorem pricing_mono (h : price.NonNegative) (hle : o.AtMost o') :
    pricing price o ≤ pricing price o' := by
  have hcru : (o.cru : ℚ) ≤ o'.cru := by exact_mod_cast hle.cru
  have hmru : (o.mru : ℚ) ≤ o'.mru := by exact_mod_cast hle.mru
  have hsru : (o.sru : ℚ) ≤ o'.sru := by exact_mod_cast hle.sru
  have hhru : (o.hru : ℚ) ≤ o'.hru := by exact_mod_cast hle.hru
  have hnu : ((o.nu.getD 0 : ℚ≥0) : ℚ) ≤ (o'.nu.getD 0 : ℚ≥0) := by exact_mod_cast hle.nu
  have hcu := calCU_mono hcru hmru
  obtain ⟨hpcu, hpsu, hpnu, hpipu, -⟩ := h
  have hfactor : (0 : ℚ) ≤ if o'.certified = some true then 5 / 4 else 1 := by
    split <;> norm_num
  unfold pricing calSU calNU
  dsimp only
  rw [hle.ipv4u, hle.certified]
  gcongr

end

/-! The choice of a package. -/

theorem durations_nonneg : ∀ pkg ∈ discountPackages, 0 ≤ pkg.duration := by
  decide +kernel

theorem discounts_le : ∀ pkg ∈ discountPackages, 0 ≤ pkg.discount ∧ pkg.discount ≤ 100 := by
  decide +kernel

/-- Later packages are longer and cheaper. -/
theorem discounts_ordered :
    discountPackages.Pairwise fun pkg other => pkg.discount ≤ other.discount := by
  decide +kernel

/-- A walk that keeps the last element with a property, where later ones are better. -/
theorem foldl_keeps_best {α : Type*} (p : α → Prop) [DecidablePred p] (better : α → α → Prop)
    (l : List α) (init : α) (hl : l.Pairwise better) (hrefl : ∀ a, better a a) :
    (l.foldl (fun selected a => if p a then a else selected) init ∈ l ∧
        p (l.foldl (fun selected a => if p a then a else selected) init) ∧
        ∀ a ∈ l, p a → better a (l.foldl (fun selected a => if p a then a else selected) init)) ∨
      (l.foldl (fun selected a => if p a then a else selected) init = init ∧
        ∀ a ∈ l, ¬p a) := by
  induction l using List.reverseRecOn with
  | nil => exact Or.inr ⟨rfl, fun a ha => nomatch ha⟩
  | append_singleton l b ih =>
    obtain ⟨hpairs, -, hlast⟩ := List.pairwise_append.mp hl
    rw [List.foldl_append, List.foldl_cons, List.foldl_nil]
    by_cases hb : p b
    · rw [if_pos hb]
      refine Or.inl ⟨List.mem_append_right _ (List.mem_singleton_self b), hb, fun a ha _ => ?_⟩
      rcases List.mem_append.mp ha with ha | ha
      · exact hlast a ha b (List.mem_singleton_self b)
      · rw [List.mem_singleton.mp ha]
        exact hrefl b
    · rw [if_neg hb]
      have hcases : ∀ a ∈ l ++ [b], p a → a ∈ l := by
        intro a ha hpa
        rcases List.mem_append.mp ha with ha | ha
        · exact ha
        · rw [List.mem_singleton.mp ha] at hpa
          exact absurd hpa hb
      rcases ih hpairs with ⟨hmem, hp, hbest⟩ | ⟨hinit, hnone⟩
      · exact Or.inl ⟨List.mem_append_left _ hmem, hp, fun a ha hpa =>
          hbest a (hcases a ha hpa) hpa⟩
      · exact Or.inr ⟨hinit, fun a ha hpa => hnone a (hcases a ha hpa) hpa⟩

theorem selectPackage_isChosen (balance price : ℚ) :
    IsChosen balance price (selectPackage balance price) :=
  foldl_keeps_best (fun pkg : DiscountPackage => balance > price * pkg.duration)
    (fun pkg other => pkg.discount ≤ other.discount) discountPackages nonePackage discounts_ordered
    fun _ => le_rfl

section
variable {balance balance' price price' : ℚ} {pkg pkg' : DiscountPackage}

theorem IsChosen.mem (h : IsChosen balance price pkg) : pkg ∈ discountPackages := by
  rcases h with ⟨hmem, -⟩ | ⟨rfl, -⟩
  · exact hmem
  · exact List.mem_cons_self

/-- The discount does not fall when the balance grows and the price falls. -/
theorem IsChosen.discount_le (h : IsChosen balance price pkg) (h' : IsChosen balance' price' pkg')
    (hbalance : balance ≤ balance') (hprice : price' ≤ price) : pkg.discount ≤ pkg'.discount := by
  rcases h with ⟨hmem, hbelow, -⟩ | ⟨rfl, -⟩
  · have hbelow' : price' * pkg.duration < balance' :=
      calc price' * pkg.duration ≤ price * pkg.duration :=
            mul_le_mul_of_nonneg_right hprice (durations_nonneg pkg hmem)
        _ < balance := hbelow
        _ ≤ balance' := hbalance
    rcases h' with ⟨-, -, hbest⟩ | ⟨-, hnone⟩
    · exact hbest pkg hmem hbelow'
    · exact absurd hbelow' (hnone pkg hmem)
  · exact (discounts_le pkg' h'.mem).1

theorem discounted_eq (price : ℚ) (pkg : DiscountPackage) :
    discounted price pkg = price * (1 - pkg.discount / 100) / 10000000 := by
  unfold discounted
  ring

/-- A lower price with a higher discount is no more than a higher price with a lower one. -/
theorem discounted_le (hprice : 0 ≤ price) (hle : price ≤ price') (hpkg : pkg ∈ discountPackages)
    (hdiscount : pkg'.discount ≤ pkg.discount) :
    discounted price pkg ≤ discounted price' pkg' := by
  have hkept : 0 ≤ 1 - pkg.discount / 100 := by linarith [(discounts_le pkg hpkg).2]
  have hprice' : 0 ≤ price' := hprice.trans hle
  rw [discounted_eq, discounted_eq]
  gcongr

/-- A discounted price follows the price, though the discount falls with it. -/
theorem discounted_mono (hprice : 0 ≤ price) (hle : price ≤ price') :
    discounted price (selectPackage balance price) ≤
      discounted price' (selectPackage balance price') :=
  have hchosen := selectPackage_isChosen balance price
  discounted_le hprice hle hchosen.mem
    ((selectPackage_isChosen balance price').discount_le hchosen le_rfl hle)

/-- A discounted price falls when the balance grows. -/
theorem discounted_antitone (hprice : 0 ≤ price) (hle : balance ≤ balance') :
    discounted price (selectPackage balance' price) ≤
      discounted price (selectPackage balance price) :=
  have hchosen := selectPackage_isChosen balance' price
  discounted_le hprice le_rfl hchosen.mem
    ((selectPackage_isChosen balance price).discount_le hchosen hle le_rfl)

theorem discounted_bounded (hprice : 0 ≤ price) (hpkg : pkg ∈ discountPackages) :
    discounted price pkg ≤ price / 10000000 := by
  have hnone : discounted price nonePackage = price / 10000000 := by
    rw [discounted_eq]
    norm_num [nonePackage]
  rw [← hnone]
  exact discounted_le hprice le_rfl hpkg (discounts_le pkg hpkg).1

end

/-! The two prices of `calculate`. -/

section
variable {price : PricingPolicy} {tftPrice : ℚ} {o o' : CalculatorModel}

theorem dedicated_eq : dedicated price o =
    pricing price o * (1 - price.discountForDedicationNodes / 100) := by
  unfold dedicated
  ring

theorem dedicated_nonneg (h : price.NonNegative) : 0 ≤ dedicated price o := by
  have hkept : 0 ≤ 1 - price.discountForDedicationNodes / 100 := by linarith [h.discount.2]
  have hpricing := @pricing_nonneg price o h
  rw [dedicated_eq]
  positivity

theorem dedicated_mono (h : price.NonNegative) (hle : o.AtMost o') :
    dedicated price o ≤ dedicated price o' := by
  have hkept : 0 ≤ 1 - price.discountForDedicationNodes / 100 := by linarith [h.discount.2]
  rw [dedicated_eq, dedicated_eq]
  exact mul_le_mul_of_nonneg_right (pricing_mono h hle) hkept

theorem calculate_eq : calculate price tftPrice o =
    { dedicatedPrice := discounted (dedicated price o)
        (selectPackage (balanceOf tftPrice o) (dedicated price o))
      dedicatedPackage := selectPackage (balanceOf tftPrice o) (dedicated price o)
      sharedPrice := discounted (pricing price o)
        (selectPackage (balanceOf tftPrice o) (pricing price o))
      sharedPackage := selectPackage (balanceOf tftPrice o) (pricing price o) } := by
  unfold calculate balanceOf
  cases o.balance with
  | some balance => rfl
  | none =>
    have hzero : tftPrice * (((none : Option ℚ≥0).getD 0 : ℚ≥0) : ℚ) * 10000000 = 0 := by simp
    rw [hzero]
    rfl

theorem balanceOf_mono (htft : 0 ≤ tftPrice) (h : o.balance.getD 0 ≤ o'.balance.getD 0) :
    balanceOf tftPrice o ≤ balanceOf tftPrice o' := by
  unfold balanceOf
  have hle : ((o.balance.getD 0 : ℚ≥0) : ℚ) ≤ (o'.balance.getD 0 : ℚ≥0) := by exact_mod_cast h
  gcongr

/-- With exact arithmetic, the prices of `calculate` follow the resources, fall when the balance
grows, are no more than without a package, and have the best package the balance allows. -/
theorem calculate_pricesWell (hprice : price.NonNegative) (htft : 0 ≤ tftPrice) :
    PricesWell price tftPrice where
  resources o o' hle := by
    have hbalance : balanceOf tftPrice o = balanceOf tftPrice o' := by
      unfold balanceOf
      rw [hle.balance]
    rw [calculate_eq, calculate_eq, hbalance]
    exact ⟨discounted_mono (pricing_nonneg hprice) (pricing_mono hprice hle),
      discounted_mono (dedicated_nonneg hprice) (dedicated_mono hprice hle)⟩
  balance o o' hle := by
    have hbalance := balanceOf_mono htft hle.balance
    have hpricing : pricing price o' = pricing price o := by
      rw [← hle.options]
      rfl
    have hdedicated : dedicated price o' = dedicated price o := by
      unfold dedicated
      rw [hpricing]
    rw [calculate_eq, calculate_eq, hpricing, hdedicated]
    exact ⟨discounted_antitone (pricing_nonneg hprice) hbalance,
      discounted_antitone (dedicated_nonneg hprice) hbalance⟩
  bounded o := by
    rw [calculate_eq]
    exact ⟨discounted_bounded (pricing_nonneg hprice) (selectPackage_isChosen _ _).mem,
      discounted_bounded (dedicated_nonneg hprice) (selectPackage_isChosen _ _).mem⟩
  packages o := by
    rw [calculate_eq]
    exact ⟨selectPackage_isChosen _ _, selectPackage_isChosen _ _⟩

end

/-- A policy with all its values. -/
def samplePolicy : PricingPolicy where
  cu := 100000
  su := 50000
  nu := 15000
  ipu := 40000
  uniqueName := 2500
  discountForDedicationNodes := 50

theorem samplePolicy_pricesWell : PricesWell samplePolicy (1 / 100) :=
  calculate_pricesWell ⟨by decide +kernel, by decide +kernel, by decide +kernel, by decide +kernel,
    by decide +kernel⟩ (by decide +kernel)

end ThreefoldSdk.Billing
