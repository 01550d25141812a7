import ThreefoldSdk.HighLevel.NameContracts
import ThreefoldSdk.HighLevel.OwnContracts
import ThreefoldSdk.HighLevel.UpdateMerge

/-! When the result of `handle` has an updated or a deleted contract in it. -/

namespace ThreefoldSdk.HighLevel
open Staged Zos Primitives TfChain Frame

section
variable {S : Type} {env : HandlerEnv S}

/-! The deletions. -/

/-- An event of a cancellation is among the results of its batch. -/
theorem batchValues_cancels_ne_nil {b : List (Extrinsic × Event Primitive)} (hne : b ≠ [])
    (hcancels : ∀ p ∈ b, ∃ id, p.1 = cancelExtrinsic id) (hown : ∀ p ∈ b, p.1.isOwn p.2) :
    batchValues b ≠ [] := by
  obtain ⟨p, hp⟩ := List.exists_mem_of_ne_nil _ hne
  obtain ⟨id, hid⟩ := hcancels p hp
  have hmethod : p.2.method ∈ p.1.resultEvents := by
    have hboth := hown p hp
    rw [hid] at hboth ⊢
    simp only [ExtrinsicResult.isOwn, Bool.and_eq_true, Bool.or_eq_true] at hboth
    rcases hboth.2 with hempty | hmem
    · cases hempty
    · exact List.contains_iff_mem.mp hmem
  have hresult : (extractResultSectionsAndEvents (b.map Prod.fst)).isResult p.2 :=
    (isResult_iff hp (hown p hp)).mpr (Or.inr ⟨p, hp, hmethod⟩)
  unfold batchValues
  rw [Ne, List.map_eq_nil_iff]
  refine List.ne_nil_of_mem (a := p.2) ?_
  exact List.mem_filter.mpr ⟨List.mem_map_of_mem hp, hresult⟩

/-- Cancellations that the chain takes give at least one result. -/
theorem cancels_ne_nil {ids : List Nat} {extrinsics : List (Option Extrinsic)} {w : World S}
    {rs : List (Option Primitive)} (hids : extrinsics.filterMap id = ids.map cancelExtrinsic)
    (hne : ids ≠ []) (h : (batchOf env extrinsics w).result = .ok rs) : rs ≠ [] := by
  unfold batchOf batchAll at h
  rw [hids] at h
  obtain ⟨i, rest, rfl⟩ := List.exists_cons_of_ne_nil hne
  rw [List.map_cons, slices_cons] at h
  cases hb : submit env.chain.runtime (env.rejects w.clock) 0
      (cancelExtrinsic i :: (rest.map cancelExtrinsic).take (batchSize - 1)) w.chain with
  | error e =>
    rw [run_cons_error hb] at h
    cases h
  | ok q =>
    obtain ⟨rs₁, s'⟩ := q
    have hof : ∀ x ∈ cancelExtrinsic i :: (rest.map cancelExtrinsic).take (batchSize - 1),
        ∃ id, x = cancelExtrinsic id := by
      intro x hx
      rcases List.mem_cons.mp hx with rfl | hx
      · exact ⟨i, rfl⟩
      · obtain ⟨id, -, rfl⟩ := List.mem_map.mp (List.take_subset _ _ hx)
        exact ⟨id, rfl⟩
    obtain ⟨b, hfst, -, rfl, hown⟩ := submit_ok (fun x hx => by
      obtain ⟨id, rfl⟩ := hof x hx
      exact oneMatchingEvent_cancel id) hb
    rw [run_cons_ok hb] at h
    obtain ⟨rs₂, -, rfl⟩ := exceptMap_eq_ok.mp h
    have hsome : batchValues b ≠ [] := by
      refine batchValues_cancels_ne_nil ?_ (fun p hp => hof p.1 (hfst ▸ List.mem_map_of_mem hp)) hown
      rintro rfl
      cases hfst
    exact List.append_ne_nil_of_left_ne_nil hsome _

/-- The deletion of a contract that exists is reported. -/
theorem handle_deleted_ne_nil {ts : List TwinDeployment} {w w' : World S} {r : ResultContracts}
    (h : handle env ts w = .ok r w') {t : TwinDeployment} (ht : t ∈ ts) (hop : t.operation = .delete)
    {id : Nat} (hid : t.contractId = some id) (hex : env.chain.contract w.chain id ≠ none) :
    r.deleted ≠ [] := by
  obtain ⟨plan, results, w₁, w₂, hplan, -, hdeliver⟩ := handle_ok h
  obtain ⟨w₃, w₄, hdelete⟩ := deliver_ok hdeliver
  obtain ⟨-, get, twins, hmerge, htwins, hids⟩ := reads_prepare_ids ts w plan w₁ hplan
  have hin := deleted_requested hmerge htwins ht hop hid hex
  exact cancels_ne_nil hids (List.ne_nil_of_mem hin) (deleteAll_ok hdelete)

/-! The updates. -/

theorem types_renewed {ws ws' : List Workload} (h : List.Forall₂ Renewed ws ws') :
    ws'.map (·.type) = ws.map (·.type) := by
  induction h with
  | nil => rfl
  | cons hw _ ih => rw [List.map_cons, List.map_cons, hw.type, ih]

/-- The same but for what is in the workloads. -/
structure SameShape (t t' : TwinDeployment) : Prop where
  operation : t'.operation = t.operation
  contractId : t'.contractId = t.contractId
  returned : t'.returnNetworkContracts = t.returnNetworkContracts
  types : t'.workloads.map (·.type) = t.workloads.map (·.type)

theorem updateNetworkWorkloads_sameShape {json : MetadataJson} {t t' : TwinDeployment}
    (h : updateNetworkWorkloads json t = .ok t') : SameShape t t' := by
  obtain ⟨ws, rfl, hws⟩ := updateNetworkWorkloads_ok h
  exact ⟨rfl, rfl, rfl, types_renewed hws⟩

theorem reads_prepareAll_sameShape (ts : List TwinDeployment) :
    Reads World.chain (fun _ plan => List.Forall₂ SameShape ts plan.twins) (prepareAll env ts) := by
  induction ts with
  | nil => exact reads_pure fun _ => .nil
  | cons t ts ih =>
    refine (reads_lift _).bind fun t' => (keeps_chain (keeps_prepareExtrinsic t')).reads.bind
      fun p => ih.bind fun plan => reads_pure fun s hplan _ ht' => ?_
    exact .cons (updateNetworkWorkloads_sameShape ht') hplan

theorem prepare_sameShape {ts : List TwinDeployment} {w w' : World S} {plan : Plan}
    (h : prepare env ts w = .ok plan w') :
    ∃ get twins, merge get ts = .ok twins ∧ List.Forall₂ SameShape twins plan.twins := by
  have hall : Reads World.chain (fun _ plan => ∃ get twins, merge get ts = .ok twins ∧
      List.Forall₂ SameShape twins plan.twins) (prepare env ts) := by
    refine (keeps_chain (keeps_checkKyc _)).reads.bind fun _ =>
      (reads_mergeAll _).bind fun twins => (reads_lift _).bind fun _ =>
      (reads_lift _).bind fun _ => (reads_lift _).bind fun _ => ?_
    refine (reads_prepareAll_sameShape twins).mono ?_
    rintro s plan h - - - ⟨get, hmerge⟩ -
    exact ⟨get, twins, hmerge, h⟩
  exact (hall w plan w' h).2

theorem SameShape.reports {t t' : TwinDeployment} (h : SameShape t t') : reports t' = reports t := by
  have hall : ∀ ws : List Workload, (ws.all fun w => decide (w.type = .network)) =
      (ws.map (·.type)).all fun type => decide (type = .network) := fun ws => by
    rw [List.all_map]
    rfl
  have hlength := congrArg List.length h.types
  rw [List.length_map, List.length_map] at hlength
  unfold HighLevel.reports
  rw [h.returned, hall, hall, h.types, hlength]

theorem SameShape.trans {t t' t'' : TwinDeployment} (h : SameShape t t') (h' : SameShape t' t'') :
    SameShape t t'' where
  operation := h'.operation.trans h.operation
  contractId := h'.contractId.trans h.contractId
  returned := h'.returned.trans h.returned
  types := h'.types.trans h.types

/-- The only update of a contract that is not deleted is in the plan, but for its node and its
version. -/
theorem merge_single {get : Nat → Except GridError (Option Contract)}
    {ts twins : List TwinDeployment} (h : merge get ts = .ok twins) {t : TwinDeployment} {id : Nat}
    (hupdate : operationsOn .update id ts = [t]) (hdelete : operationsOn .delete id ts = []) :
    ∃ t' ∈ twins, SameShape t t' := by
  obtain ⟨us, hus, rfl⟩ := merge_ok h
  obtain ⟨out, hout, hone⟩ := mergedTo_updateToLatest (lookup_of_updateMerge hus) hupdate
  obtain rfl : out = us := Except.ok.inj (hout.symm.trans hus)
  have hmem : updateToLatest (withNode get t) [] ∈ operationsOn .update id out :=
    hone ▸ List.mem_singleton_self _
  obtain ⟨hin, hboth⟩ := List.mem_filter.mp hmem
  obtain ⟨hop, hid⟩ := of_decide_eq_true hboth
  obtain ⟨n, hn⟩ := withNode_eq get t
  refine ⟨updateToLatest (withNode get t) [], ?_, ?_⟩
  · refine List.mem_append_left _ (List.mem_append_right _ (List.mem_filter.mpr ⟨hin, ?_⟩))
    refine decide_eq_true fun hdel => ?_
    obtain ⟨u, hu, huid⟩ := List.mem_map.mp hdel
    obtain ⟨hu, huop⟩ := List.mem_filter.mp hu
    exact operationsOn_eq_nil.mp hdelete u hu (of_decide_eq_true huop) (huid.trans hid)
  · rw [hn]
    exact ⟨rfl, rfl, rfl, rfl⟩

theorem sendToNode_sameShape {t t' : TwinDeployment} {w w' : World S}
    (h : sendToNode env t w = .ok t' w') : SameShape t t' := by
  have hreads : Reads (fun _ : World S => ()) (fun _ t' => SameShape t t') (sendToNode env t) := by
    refine Reads.tryCatch_throw _ ?_
    exact (Keeps.reads fun _ => rfl).bind fun _ => (Keeps.reads fun _ => rfl).bind fun _ =>
      reads_pure fun _ _ _ => ⟨rfl, rfl, rfl, rfl⟩
  exact (hreads w t' w' h).2

/-- A round of the loop reports the contract that the hash of an update finds. -/
theorem sendTwin_reports {results cs us : List Contract} {t t' : TwinDeployment} {w w' : World S}
    {c : Contract} (h : sendTwin env results t w = .ok (t', cs, us) w') (hop : t.operation = .update)
    (hreports : reports t = true) (hfound : findByHash (hashOf env t) results = .ok (some c)) :
    us = [c] := by
  unfold sendTwin at h
  rw [hop] at h
  obtain ⟨u, w₀, -, h⟩ := bind_eq_ok.mp h
  obtain ⟨c', w₁, hc, h⟩ := bind_eq_ok.mp h
  obtain ⟨t'', w₂, hsend, h⟩ := bind_eq_ok.mp h
  cases h
  have hsame : c' = some c := Except.ok.inj ((lift_eq_ok.mp hc).1.symm.trans hfound)
  have hshape : SameShape t t' := by
    refine SameShape.trans ?_ (sendToNode_sameShape hsend)
    split
    · exact ⟨hop.symm, rfl, rfl, rfl⟩
    · exact ⟨rfl, rfl, rfl, rfl⟩
  rw [hshape.reports, hreports, hsame]
  rfl

theorem sendAll_reports {results cs us : List Contract} {ts ts' : List TwinDeployment}
    {w w' : World S} {t : TwinDeployment} {c : Contract}
    (h : sendAll env results ts w = .ok (ts', cs, us) w') (ht : t ∈ ts) (hop : t.operation = .update)
    (hreports : reports t = true) (hfound : findByHash (hashOf env t) results = .ok (some c)) :
    c ∈ us := by
  induction ts generalizing ts' cs us w with
  | nil => cases ht
  | cons t₀ ts ih =>
    obtain ⟨⟨t', cs₁, us₁⟩, w₁, hone, h⟩ := bind_eq_ok.mp h
    obtain ⟨⟨ts'', cs₂, us₂⟩, w₂, hrest, h⟩ := bind_eq_ok.mp h
    cases h
    rcases List.mem_cons.mp ht with rfl | ht
    · rw [sendTwin_reports hone hop hreports hfound]
      exact List.mem_append_left _ (List.mem_singleton_self c)
    · exact List.mem_append_right _ (ih hrest ht)

theorem deliver_sends {plan : Plan} {results : List Contract} {w w' : World S} {r : ResultContracts}
    (h : deliver env plan results w = .ok r w') :
    ∃ twins w₁, sendAll env results plan.twins w = .ok (twins, r.created, r.updated) w₁ := by
  obtain ⟨⟨twins, created, updated⟩, w₁, hsend, h⟩ := bind_eq_ok.mp h
  obtain ⟨deleted, w₂, -, h⟩ := bind_eq_ok.mp h
  obtain ⟨-, w₃, -, h⟩ := bind_eq_ok.mp h
  obtain ⟨-, w₄, -, h⟩ := bind_eq_ok.mp h
  cases h
  exact ⟨twins, w₁, hsend⟩

/-- The only update of a contract that is not deleted is reported, when not all that it carries is
a network. -/
theorem handle_updated_ne_nil {ts : List TwinDeployment} {w w' : World S} {r : ResultContracts}
    (h : handle env ts w = .ok r w') {t : TwinDeployment} {id : Nat}
    (hupdate : operationsOn .update id ts = [t]) (hdelete : operationsOn .delete id ts = [])
    (hreports : reports t = true) : r.updated ≠ [] := by
  obtain ⟨plan, results, w₁, w₂, hplan, hcreate, hdeliver⟩ := handle_ok h
  obtain ⟨get, twins, hmerge, htwins⟩ := prepare_sameShape hplan
  obtain ⟨t₁, ht₁, hshape₁⟩ := merge_single hmerge hupdate hdelete
  obtain ⟨t₂, ht₂, hshape₂⟩ := Forall2.exists_right htwins ht₁
  have hshape := hshape₁.trans hshape₂
  have hop : t₂.operation = .update := by
    have hmem : t ∈ operationsOn .update id ts := hupdate ▸ List.mem_singleton_self t
    rw [hshape.operation]
    exact (of_decide_eq_true (List.mem_filter.mp hmem).2).1
  obtain ⟨-, cs, ds, hresults, hown⟩ := ownResults hplan hcreate
  obtain ⟨-, -, c, -, -, -, -, hfound⟩ := assigned_first hresults hown ht₂ (by rw [hop]; decide)
  obtain ⟨twins', w₃, hsend⟩ := deliver_sends hdeliver
  have hin := sendAll_reports hsend ht₂ hop (hshape.reports.trans hreports) hfound
  exact List.ne_nil_of_mem hin

/-- From no operation there is no result. -/
theorem handle_nothing {w w' : World S} {r : ResultContracts} (h : handle env [] w = .ok r w') :
    r.updated = [] ∧ r.deleted = [] := by
  obtain ⟨plan, results, w₁, w₂, hplan, -, hdeliver⟩ := handle_ok h
  obtain ⟨-, get, twins, hmerge, htwins, hids⟩ := reads_prepare_ids [] w plan w₁ hplan
  cases hmerge
  have hnone : plan.twins = [] := List.forall₂_nil_left_iff.mp htwins
  rw [hnone] at hids
  constructor
  · obtain ⟨twins', w₃, hsend⟩ := deliver_sends hdeliver
    rw [hnone] at hsend
    injection hsend with hsent
    exact (congrArg (·.2.2) hsent).symm
  · obtain ⟨w₃, w₄, hdelete⟩ := deliver_ok hdeliver
    have hbatch := deleteAll_ok hdelete
    unfold batchOf batchAll at hbatch
    rw [hids, List.flatMap_nil, List.map_nil, slices_nil] at hbatch
    exact (Except.ok.inj hbatch).symm

end

end ThreefoldSdk.HighLevel
