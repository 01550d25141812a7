import ThreefoldSdk.HighLevel.CreateBatch
import ThreefoldSdk.HighLevel.MergePlan

/-! What a batch of cancellations reports. The maps of a batch are folded into the last one, and the
map of a cancellation is the id it was made for. -/

namespace ThreefoldSdk.HighLevel
open Staged Zos Primitives TfChain Frame

section
variable {S : Type} {env : HandlerEnv S}

/-- A chain cancels a contract once. -/
theorem execAll_cancels {chain : Chain S} {ids : List Nat} {s s' : S}
    {evs : List (Event Primitive)}
    (h : chain.runtime.execAll (ids.map Call.cancelContract) s = some (s', evs)) :
    ids.Nodup ∧ ∀ id ∈ ids, chain.contract s id ≠ none := by
  induction ids generalizing s evs with
  | nil => exact ⟨List.nodup_nil, by simp⟩
  | cons i ids ih =>
    obtain ⟨s₁, evs₁, evs₂, hcall, hrest, -⟩ := execAll_cons h
    obtain ⟨c, e, hc, -, -, -, hs₁⟩ := chain.exec_cancel _ _ _ _ hcall
    obtain ⟨hnodup, hex⟩ := ih hrest
    have hgone : i ∉ ids := by
      intro hi
      have := hex i hi
      rw [hs₁, Function.update_self] at this
      exact this rfl
    refine ⟨List.nodup_cons.mpr ⟨hgone, hnodup⟩, ?_⟩
    intro id hid
    rcases List.mem_cons.mp hid with rfl | hid
    · rw [hc]
      exact Option.some_ne_none c
    · have hne : id ≠ i := fun h => hgone (h ▸ hid)
      have := hex id hid
      rwa [hs₁, Function.update_of_ne hne] at this

theorem extract_map_cancels (ids : List Nat) :
    (extractResultSectionsAndEvents (ids.map cancelExtrinsic)).map =
      ids.getLast?.map fun id _ => .number id := by
  induction ids using List.reverseRecOn with
  | nil => rfl
  | append_singleton ids id ih =>
    rw [List.map_append, List.map_singleton, extract_map_append, List.getLast?_concat]
    rfl

/-- The cancellations of a batch agree when they are all of the last contract. -/
theorem agrees_cancels {ids : List Nat} {b : List (Extrinsic × Event Primitive)}
    (hfst : b.map Prod.fst = ids.map cancelExtrinsic) (hown : ∀ p ∈ b, p.1.isOwn p.2) :
    Agrees b ↔ ∀ id ∈ ids, ids.getLast? = some id := by
  have hmap : (extractResultSectionsAndEvents (b.map Prod.fst)).map =
      ids.getLast?.map fun id _ => .number id := by rw [hfst, extract_map_cancels]
  have hof : ∀ p ∈ b, ∃ id ∈ ids, p.1 = cancelExtrinsic id := by
    intro p hp
    have hin : p.1 ∈ ids.map cancelExtrinsic := hfst ▸ List.mem_map_of_mem hp
    obtain ⟨id, hid, heq⟩ := List.mem_map.mp hin
    exact ⟨id, hid, heq.symm⟩
  have hvalue : ∀ last, ids.getLast? = some last → ∀ e,
      (extractResultSectionsAndEvents (b.map Prod.fst)).value e = some (.number last) := by
    intro last hlast e
    simp [Extracted.value, hmap, hlast]
  constructor
  · intro h id hid
    have hin : cancelExtrinsic id ∈ b.map Prod.fst := hfst ▸ List.mem_map_of_mem hid
    obtain ⟨p, hp, heq⟩ := List.mem_map.mp hin
    obtain ⟨last, hlast⟩ := Option.isSome_iff_exists.mp
      (List.getLast?_isSome.mpr (List.ne_nil_of_mem hid))
    have hv := (h p hp).2
    rw [hvalue last hlast, heq] at hv
    simp only [ExtrinsicResult.value, cancelExtrinsic, Option.some.injEq,
      Primitive.number.injEq] at hv
    rw [hlast, hv]
  · intro h p hp
    obtain ⟨id, hid, heq⟩ := hof p hp
    refine ⟨Or.inr ⟨p, hp, ?_⟩, ?_⟩
    · have := hown p hp
      rw [heq] at this ⊢
      simp only [ExtrinsicResult.isOwn, Bool.and_eq_true, Bool.or_eq_true] at this
      rcases this.2 with hempty | hmem
      · cases hempty
      · exact List.contains_iff_mem.mp hmem
    · rw [hvalue id (h id hid), heq]
      rfl

/-- Cancellations of different contracts report them exactly when there is at most one. -/
theorem cancels_agree_iff {ids : List Nat} {ps : List (Extrinsic × Event Primitive)}
    (hnodup : ids.Nodup) (hfst : ps.map Prod.fst = ids.map cancelExtrinsic)
    (hown : ∀ p ∈ ps, p.1.isOwn p.2) :
    (∀ b ∈ slices (batchSize - 1) ps, Agrees b) ↔ ids.length ≤ 1 := by
  have hlen : ps.length = ids.length := by simpa using congrArg List.length hfst
  constructor
  · intro h
    by_contra hlong
    obtain _ | ⟨i, _ | ⟨j, ids⟩⟩ := ids
    · simp at hlong
    · simp at hlong
    obtain _ | ⟨p, ps⟩ := ps
    · simp at hfst
    · rw [slices_cons] at h
      have hfirst := h _ List.mem_cons_self
      have htake : (p :: ps.take (batchSize - 1)).map Prod.fst =
          (i :: j :: ids.take (batchSize - 2)).map cancelExtrinsic := by
        have hcut := congrArg (List.take batchSize) hfst
        simpa [batchSize, ← List.map_take] using hcut
      rw [agrees_cancels htake fun q hq => hown q
        (List.cons_subset_cons p (List.take_subset _ _) hq)] at hfirst
      -- the first two contracts are both the last one of the batch
      have hi := hfirst i List.mem_cons_self
      have hj := hfirst j (List.mem_cons_of_mem _ List.mem_cons_self)
      have hij : i = j := Option.some.inj (hi.symm.trans hj)
      exact (List.nodup_cons.mp hnodup).1 (hij ▸ List.mem_cons_self)
  · intro hshort b hb
    have hps : ps ≠ [] := by
      rintro rfl
      rw [slices_nil] at hb
      cases hb
    have hwhole : b = ps := by
      rw [slices_of_length_le hps (by rw [hlen]; simp [batchSize]; omega)] at hb
      exact List.mem_singleton.mp hb
    rw [hwhole, agrees_cancels hfst hown]
    obtain _ | ⟨i, _ | ⟨j, ids⟩⟩ := ids
    · simp
    · simp
    · simp at hshort

/-- What is reported for cancellations that the chain takes. -/
theorem cancels_reported {ids : List Nat} {extrinsics : List (Option Extrinsic)} {w : World S}
    {rs : List (Option Primitive)} (hids : extrinsics.filterMap id = ids.map cancelExtrinsic)
    (h : (batchOf env extrinsics w).result = .ok rs) :
    ids.Nodup ∧ (rs = ids.map (fun id => some (.number id)) ↔ ids.length ≤ 1) := by
  obtain ⟨ps, hfst, hexec, hown, hiff⟩ := batchAll_values (fun x hx => by
    rw [hids] at hx
    obtain ⟨id, -, rfl⟩ := List.mem_map.mp hx
    exact oneMatchingEvent_cancel id) h
  have hcalls : ps.map (·.1.call) = ids.map Call.cancelContract := by
    have := congrArg (List.map ExtrinsicResult.call) (hfst.trans hids)
    rw [List.map_map, List.map_map] at this
    exact this
  rw [hcalls] at hexec
  have hnodup := (execAll_cancels hexec).1
  have hvalues : ownValues ps = ids.map fun id => some (.number id) := by
    have := congrArg (List.map fun x : Extrinsic => x.map.map fun f => f []) (hfst.trans hids)
    rw [List.map_map, List.map_map] at this
    refine Eq.trans ?_ this
    refine List.map_congr_left fun p hp => ?_
    have hin : p.1 ∈ ids.map cancelExtrinsic := (hfst.trans hids) ▸ List.mem_map_of_mem hp
    obtain ⟨id, -, heq⟩ := List.mem_map.mp hin
    rw [ExtrinsicResult.value, Function.comp_apply, ← heq]
    rfl
  rw [hvalues] at hiff
  exact ⟨hnodup, hiff.trans (cancels_agree_iff hnodup (hfst.trans hids) hown)⟩

/-- The parts of a run of `handle` that returns. -/
theorem handle_ok {ts : List TwinDeployment} {w w' : World S} {r : ResultContracts}
    (h : handle env ts w = .ok r w') :
    ∃ plan results w₁ w₂, prepare env ts w = .ok plan w₁ ∧ create env plan w₁ = .ok results w₂ ∧
      deliver env plan results w₂ = .ok r w' := by
  obtain ⟨plan, w₁, hplan, h⟩ := bind_eq_ok.mp h
  obtain ⟨results, w₂, hresults, h⟩ := bind_eq_ok.mp h
  refine ⟨plan, results, w₁, w₂, hplan, hresults, ?_⟩
  unfold finish at h
  cases hd : deliver env plan results w₂ with
  | ok r' w₃ => rwa [tryCatch_of_ok hd] at h
  | error e w₃ =>
    rw [tryCatch_of_error hd] at h
    obtain ⟨_, _, _, hthrow⟩ := bind_eq_ok.mp h
    cases hthrow

theorem deliver_ok {plan : Plan} {results : List Contract} {w w' : World S} {r : ResultContracts}
    (h : deliver env plan results w = .ok r w') :
    ∃ w₁ w₂, deleteAll env plan w₁ = .ok r.deleted w₂ := by
  obtain ⟨⟨twins, created, updated⟩, w₁, -, h⟩ := bind_eq_ok.mp h
  obtain ⟨deleted, w₂, hdeleted, h⟩ := bind_eq_ok.mp h
  obtain ⟨-, w₃, -, h⟩ := bind_eq_ok.mp h
  obtain ⟨-, w₄, -, h⟩ := bind_eq_ok.mp h
  cases h
  exact ⟨w₁, w₂, hdeleted⟩

theorem deleteAll_ok {plan : Plan} {w w' : World S} {deleted : List (Option Primitive)}
    (h : deleteAll env plan w = .ok deleted w') :
    (batchOf env plan.deletedExtrinsics w).result = .ok deleted := by
  obtain ⟨rs, w₁, hrs, h⟩ := bind_eq_ok.mp h
  obtain ⟨hres, -⟩ := applyAllExtrinsics_ok hrs
  cases h
  split
  · exact hres
  · rename_i hnone
    have hempty : plan.deletedExtrinsics = [] :=
      List.eq_nil_of_length_eq_zero (Nat.eq_zero_of_not_pos hnone)
    rw [hempty, batchOf, batchAll, List.filterMap_nil, slices_nil]
    rfl

/-- The existing contracts whose deletion is asked for are among those a plan deletes. -/
theorem deleted_requested {ts twins twins' : List TwinDeployment} {s : S}
    {get : Nat → Except GridError (Option Contract)} (hmerge : merge get ts = .ok twins)
    (htwins : List.Forall₂ (fun t t' => ∃ ws, t' = TwinDeployment.withWorkloads t ws) twins twins')
    {t : TwinDeployment} (ht : t ∈ ts) (hop : t.operation = .delete) {id : Nat}
    (hid : t.contractId = some id) (hex : env.chain.contract s id ≠ none) :
    id ∈ twins'.flatMap (deletedIds env.chain s) := by
  have hasked : operationsOn .delete id ts ≠ [] := fun hnil =>
    operationsOn_eq_nil.mp hnil t ht hop hid
  obtain ⟨hone, -⟩ := (consistentPlan_of_merge hmerge).deleted id hasked
  obtain ⟨u, hu⟩ := List.exists_mem_of_length_pos (hone ▸ Nat.one_pos)
  obtain ⟨hin, hdel⟩ := List.mem_filter.mp hu
  obtain ⟨hop', hid'⟩ := of_decide_eq_true hdel
  obtain ⟨u', hu', ws, rfl⟩ := Forall2.exists_right htwins hin
  have hopw : (u.withWorkloads ws).operation = .delete := hop'
  refine List.mem_flatMap.mpr ⟨_, hu', ?_⟩
  rw [deletedIds, if_pos hopw, List.mem_filter]
  refine ⟨List.mem_append_right _ (List.mem_singleton.mpr ?_), Option.isSome_iff_ne_none.mpr hex⟩
  change id = u.contractId.getD 0
  rw [hid']
  rfl

/-- A batch hands every extrinsic the value of its own map on its own event exactly when the shared
map and the shared event names agree with them; cancellations of different contracts report the
contracts exactly when there is at most one, and so does `handle` for the contracts it deletes. -/
theorem applyAllExtrinsics_reports_iff (env : HandlerEnv S) :
    (∀ (extrinsics : List (Option Extrinsic)) (w : World S) s' evs,
      (∀ x ∈ extrinsics.filterMap id, OneMatchingEvent env.chain.runtime x) →
      (∀ j, env.rejects w.clock j = false) →
      env.chain.runtime.execAll ((extrinsics.filterMap id).map (·.call)) w.chain = some (s', evs) →
      ∃ rs w' ps, applyAllExtrinsics env extrinsics w = .ok rs w' ∧
        ps.map Prod.fst = extrinsics.filterMap id ∧ ps.map Prod.snd = evs ∧
        (rs = ownValues ps ↔ ∀ b ∈ slices (batchSize - 1) ps, Agrees b)) ∧
    (∀ (ids : List Nat) (w : World S) s' evs,
      (∀ id ∈ ids, env.chain.contract w.chain id ≠ none) →
      (∀ j, env.rejects w.clock j = false) →
      env.chain.runtime.execAll (ids.map Call.cancelContract) w.chain = some (s', evs) →
      ∃ rs w', applyAllExtrinsics env (ids.map (cancel env.chain w.chain)) w = .ok rs w' ∧
        (rs = ids.map (fun id => some (.number id)) ↔ ids.length ≤ 1)) ∧
    ∀ ts (w w' : World S) r, handle env ts w = .ok r w' →
      ∃ ids : List Nat,
        (∀ t ∈ ts, t.operation = .delete → ∀ id, t.contractId = some id →
          env.chain.contract w.chain id ≠ none → id ∈ ids) ∧
        (∃ plan w₁, prepare env ts w = .ok plan w₁ ∧
          ids = plan.twins.flatMap (deletedIds env.chain w.chain)) ∧
        (r.deleted = ids.map (fun id => some (.number id)) ↔ ids.length ≤ 1) := by
  refine ⟨?_, ?_, ?_⟩
  · intro extrinsics w s' evs hone hrej hexec
    obtain ⟨rs, hrs⟩ := batchAll_ok_of_execAll hrej hexec
    obtain ⟨ps, hfst, hexec', -, hiff⟩ := batchAll_values hone hrs
    have hcalls : ps.map (·.1.call) = (extrinsics.filterMap id).map (·.call) := by
      rw [← hfst, List.map_map]
      rfl
    rw [hcalls, hexec] at hexec'
    cases hexec'
    exact ⟨rs, _, ps, applyAllExtrinsics_of_ok hrs, hfst, rfl, hiff⟩
  · intro ids w s' evs hex hrej hexec
    have hids : (ids.map (cancel env.chain w.chain)).filterMap id = ids.map cancelExtrinsic := by
      rw [filterMap_cancel, List.filter_eq_self.mpr]
      intro id hid
      exact Option.isSome_iff_ne_none.mpr (hex id hid)
    have hcalls : (ids.map cancelExtrinsic).map (·.call) = ids.map Call.cancelContract := by
      rw [List.map_map]
      rfl
    obtain ⟨rs, hrs⟩ := batchAll_ok_of_execAll hrej (by rw [hids, hcalls]; exact hexec)
    exact ⟨rs, _, applyAllExtrinsics_of_ok hrs, (cancels_reported hids hrs).2⟩
  · intro ts w w' r h
    obtain ⟨plan, results, w₁, w₂, hplan, -, hdeliver⟩ := handle_ok h
    obtain ⟨w₃, w₄, hdelete⟩ := deliver_ok hdeliver
    obtain ⟨-, get, twins, hmerge, htwins, hids⟩ := reads_prepare_ids ts w plan w₁ hplan
    refine ⟨_, ?_, ⟨plan, w₁, hplan, rfl⟩, (cancels_reported hids (deleteAll_ok hdelete)).2⟩
    intro t ht hop id hid hex
    exact deleted_requested hmerge htwins ht hop hid hex

end

def sampleContract (nodeId : Nat) : Contract :=
  ⟨0, 1, .created, .nodeContract ⟨nodeId, "", "", 0⟩, none⟩

/-- The contracts 1 and 2 on node 11. -/
def twoContracts : Ledger := (Ledger.empty.create (sampleContract 11)).create (sampleContract 11)

theorem one_cancel_reported :
    ∃ rs w', applyAllExtrinsics sampleEnv ([1].map (cancel ledgerChain twoContracts))
        (sampleWorld twoContracts fun _ => none) = .ok rs w' ∧ rs = [some (.number 1)] := by
  have hsome : (ledgerRuntime.execAll ([1].map Call.cancelContract) twoContracts).isSome := by
    decide
  obtain ⟨⟨s', evs⟩, hexec⟩ := Option.isSome_iff_exists.mp hsome
  obtain ⟨rs, w', hok, hiff⟩ := (applyAllExtrinsics_reports_iff sampleEnv).2.1 [1]
    (sampleWorld twoContracts fun _ => none) s' evs
    (by
      intro id hid
      rw [List.mem_singleton.mp hid]
      exact Option.isSome_iff_ne_none.mp (by decide))
    (fun _ => rfl) hexec
  exact ⟨rs, w', hok, hiff.mpr le_rfl⟩

/-- The second of two cancellations gives both results. -/
theorem two_cancels_misreported :
    ∃ rs w', applyAllExtrinsics sampleEnv ([1, 2].map (cancel ledgerChain twoContracts))
        (sampleWorld twoContracts fun _ => none) = .ok rs w' ∧
      rs = [some (.number 2), some (.number 2)] ∧
      rs ≠ [1, 2].map fun id => some (.number id) := by
  have hresult : (batchOf sampleEnv ([1, 2].map (cancel ledgerChain twoContracts))
      (sampleWorld twoContracts fun _ => none)).result.toOption =
        some [some (.number 2), some (.number 2)] := by
    decide +kernel
  cases h : (batchOf sampleEnv ([1, 2].map (cancel ledgerChain twoContracts))
      (sampleWorld twoContracts fun _ => none)).result with
  | ok rs =>
    rw [h, Except.toOption, Option.some.injEq] at hresult
    refine ⟨rs, _, applyAllExtrinsics_of_ok h, hresult, ?_⟩
    rw [hresult]
    decide
  | error e =>
    rw [h] at hresult
    cases hresult

end ThreefoldSdk.HighLevel
