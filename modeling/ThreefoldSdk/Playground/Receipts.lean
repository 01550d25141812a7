import Mathlib

/-! The minting document of a node in the playground (`generatePage` and `generateReceipt` in
`utils/node.ts`): the receipts are drawn four to a page. -/

namespace ThreefoldSdk.Playground

inductive ReceiptType where
  | minting
  | fixup
deriving DecidableEq, Repr

structure CloudUnits where
  cu : ℚ
  nu : ℚ
  su : ℚ
deriving DecidableEq

/-- A period is in milliseconds. -/
structure Receipt where
  type : ReceiptType
  hash : String
  mintingStart : Option Int
  mintingEnd : Option Int
  fixupStart : Option Int
  fixupEnd : Option Int
  tft : Option ℚ
  cloudUnits : CloudUnits
  fixupCloudUnits : Option CloudUnits
  correctCloudUnits : Option CloudUnits
  fixupReward : Option ℚ
deriving DecidableEq

inductive Draw where
  | fontSize (size : Nat)
  | addPage
  | text (text : String) (x y : Nat)
  | line (x₁ y₁ x₂ y₂ : Nat)
deriving DecidableEq, Repr

/-- How numbers and dates are printed; `fixed` is `toFixed(2)`, and `time` prints `getTime`. -/
structure Printer where
  number : ℚ → String
  fixed : ℚ → String
  time : Option Int → String

section
variable (p : Printer)

/-- `${tft?.toFixed(2)}`. -/
def Printer.optional (x : Option ℚ) : String := (x.map p.fixed).getD "undefined"

/-- The three numbers of one kind of cloud units in a fixup. -/
def Printer.units (kind : String) (unit : CloudUnits → ℚ) (r : Receipt) : String :=
  kind ++ " (Minted|Actual|FixedUp):   (" ++ p.number (unit r.cloudUnits) ++ " | " ++
    p.number ((r.correctCloudUnits.map unit).getD 0) ++ " | " ++
    p.number ((r.fixupCloudUnits.map unit).getD 0) ++ ")"

def receiptLines (r : Receipt) : List String :=
  match r.type with
  | .minting =>
    ["Minting: " ++ r.hash, "start: " ++ p.time r.mintingStart, "end: " ++ p.time r.mintingEnd,
      "TFT: " ++ p.optional r.tft,
      "Cloud Units: " ++ p.number r.cloudUnits.cu ++ " CU, " ++ p.number r.cloudUnits.nu ++
        " NU, " ++ p.number r.cloudUnits.su ++ " SU"]
  | .fixup =>
    ["Fixup: " ++ r.hash, "start: " ++ p.time r.fixupStart, "end: " ++ p.time r.fixupEnd,
      "TFT: " ++ p.optional r.tft,
      "Fixup TFT: " ++ (match r.fixupReward with
        | some x => p.fixed x
        | none => p.number 0),
      p.units "CU" CloudUnits.cu r, p.units "NU" CloudUnits.nu r, p.units "SU" CloudUnits.su r]

def generatePage (doc : List Draw) (receiptsBatch : List Receipt) (page : Nat) : List Draw :=
  let lineOffset := 5
  let topY := 20 + lineOffset * 6
  let cellOffset := lineOffset * 12
  let cellX := 15
  let cellY := topY + lineOffset * 2
  -- the first page has the header on it already
  doc ++ (if 1 < page then [.addPage] else []) ++ receiptsBatch.zipIdx.flatMap fun (r, i) =>
    ((receiptLines p r).zipIdx.map fun (t, k) =>
      .text t cellX (cellY + cellOffset * i + lineOffset * k)) ++
    if i ≠ receiptsBatch.length - 1 then
      [.line cellX (cellY + cellOffset * i + lineOffset * 8) (cellX + 175)
        (cellY + cellOffset * i + lineOffset * 8)]
    else []

/-- The header; `uptime` is its text about the uptime. -/
def receiptHeader (nodeId : Nat) (uptime : String) (receipts : List Receipt) : List Draw :=
  let topY := 20
  let lineOffset := 5
  let cellX := 15
  [.fontSize 15,
    .text ("Node " ++ toString nodeId ++ " Summary") 80 topY,
    .fontSize 10,
    .text ("Receipts total: " ++ toString receipts.length) cellX (topY + lineOffset),
    .text ("Minting total: " ++ toString
      (receipts.filter fun r => decide (r.type = .minting)).length) cellX (topY + lineOffset * 2),
    .text ("Fixup total: " ++ toString
      (receipts.filter fun r => decide (r.fixupStart.getD 0 ≠ 0)).length) cellX
      (topY + lineOffset * 3),
    .text ("TFT total: " ++ p.fixed (receipts.map fun r => r.tft.getD 0).sum) cellX
      (topY + lineOffset * 4),
    .text uptime cellX (topY + lineOffset * 5),
    .line cellX (topY + lineOffset * 6) (cellX + 175) (topY + lineOffset * 6)]

def generatePages (receipts : List Receipt) (i page : Nat) (doc : List Draw) : List Draw :=
  -- the loop of `generateReceipt`, whose bound is `i < node.receipts.length - 1`
  if i + 1 < receipts.length then
    generatePages receipts (i + 4) (page + 1)
      (generatePage p doc ((receipts.drop i).take 4) (page + 1))
  else doc
termination_by receipts.length - i

def generateReceipt (doc : List Draw) (nodeId : Nat) (uptime : String) (receipts : List Receipt) :
    List Draw :=
  generatePages p receipts 0 0 (doc ++ receiptHeader p nodeId uptime receipts)

end

structure PageCall where
  receipts : List Receipt
  page : Nat
deriving DecidableEq

def pageCalls (receipts : List Receipt) (i page : Nat) : List PageCall :=
  if i + 1 < receipts.length then
    ⟨(receipts.drop i).take 4, page + 1⟩ :: pageCalls receipts (i + 4) (page + 1)
  else []
termination_by receipts.length - i

/-- The pages of the calls, one after the other. -/
def drawPages (p : Printer) (doc : List Draw) (calls : List PageCall) : List Draw :=
  calls.foldl (fun doc call => generatePage p doc call.receipts call.page) doc

theorem generatePages_eq (p : Printer) (receipts : List Receipt) (i page : Nat) (doc : List Draw) :
    generatePages p receipts i page doc = drawPages p doc (pageCalls receipts i page) := by
  unfold drawPages
  induction i, page using pageCalls.induct receipts generalizing doc with
  | case1 i page h ih =>
    rw [generatePages, if_pos h, pageCalls, if_pos h, List.foldl_cons, ih]
  | case2 i page h =>
    rw [generatePages, if_neg h, pageCalls, if_neg h, List.foldl_nil]

/-- Each receipt is in one call, in order, and no page has more than four. -/
structure ListsOnce (receipts : List Receipt) (calls : List PageCall) : Prop where
  all : calls.flatMap (·.receipts) = receipts
  atMost : ∀ c ∈ calls, c.receipts.length ≤ 4

theorem pageCalls_length {receipts : List Receipt} {i page : Nat} :
    ∀ c ∈ pageCalls receipts i page, c.receipts.length ≤ 4 := by
  induction i, page using pageCalls.induct receipts with
  | case1 i page h ih =>
    rw [pageCalls, if_pos h]
    exact List.forall_mem_cons.mpr ⟨List.length_take_le _ _, ih⟩
  | case2 i page h =>
    rw [pageCalls, if_neg h]
    exact fun c hc => absurd hc List.not_mem_nil

/-- The last receipt is left out when it would be alone on its page. -/
theorem pageCalls_receipts (receipts : List Receipt) (i page : Nat) :
    (pageCalls receipts i page).flatMap (·.receipts) =
      if (receipts.length - i) % 4 = 1 then (receipts.drop i).dropLast else receipts.drop i := by
  induction i, page using pageCalls.induct receipts with
  | case1 i page h ih =>
    rw [pageCalls, if_pos h, List.flatMap_cons, ih, ← List.drop_drop]
    have hsplit := List.take_append_drop 4 (receipts.drop i)
    have hlength : (receipts.drop i).length = receipts.length - i := List.length_drop
    by_cases hone : (receipts.length - i) % 4 = 1
    · have hrest : (receipts.drop i).drop 4 ≠ [] := by
        refine List.ne_nil_of_length_pos ?_
        rw [List.length_drop, hlength]
        omega
      rw [if_pos hone, if_pos (by omega), ← List.dropLast_append_of_ne_nil hrest, hsplit]
    · rw [if_neg hone, if_neg (by omega), hsplit]
  | case2 i page h =>
    rw [pageCalls, if_neg h, List.flatMap_nil]
    by_cases hone : (receipts.length - i) % 4 = 1
    · have hlength : (receipts.drop i).dropLast.length = 0 := by
        rw [List.length_dropLast, List.length_drop]
        omega
      rw [if_pos hone, List.length_eq_zero_iff.mp hlength]
    · rw [if_neg hone, List.drop_of_length_le (by omega)]

/-- A document is drawn by the calls behind its header, and each receipt is listed once exactly when
no receipt would be alone on the last page. -/
theorem listsOnce_iff (receipts : List Receipt) :
    (∀ p doc nodeId uptime, generateReceipt p doc nodeId uptime receipts =
      drawPages p (doc ++ receiptHeader p nodeId uptime receipts) (pageCalls receipts 0 0)) ∧
    (ListsOnce receipts (pageCalls receipts 0 0) ↔ receipts.length % 4 ≠ 1) := by
  refine ⟨fun p doc nodeId uptime => generatePages_eq p receipts 0 0 _, ?_⟩
  have hall := pageCalls_receipts receipts 0 0
  rw [Nat.sub_zero, List.drop_zero] at hall
  constructor
  · intro h hone
    have hlength := congrArg List.length (hall.symm.trans h.all)
    rw [if_pos hone, List.length_dropLast] at hlength
    omega
  · intro hone
    rw [if_neg hone] at hall
    exact ⟨hall, pageCalls_length⟩

def mintingReceipt : Receipt :=
  ⟨.minting, "5e1f", some 1522501000000, some 1525130800000, none, none, some 10, ⟨1, 2, 3⟩, none,
    none, none⟩

/-- A node with one receipt has a document without it. -/
theorem oneReceipt_not_listed : ¬ListsOnce [mintingReceipt] (pageCalls [mintingReceipt] 0 0) := by
  intro h
  have hall := h.all
  rw [pageCalls, if_neg (by decide)] at hall
  cases hall

end ThreefoldSdk.Playground
