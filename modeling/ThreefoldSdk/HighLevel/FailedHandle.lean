import ThreefoldSdk.HighLevel.CancelBatch

/-! What a failed `handle` leaves on the chain. The deletions are submitted before the wait, and no
rollback brings a cancelled contract back. -/

namespace ThreefoldSdk.HighLevel
open Staged Zos Primitives TfChain Frame

section
variable {S : Type} {env : HandlerEnv S}

/-- Every contract that was there is there, and none that was created. -/
structure Undone (chain : Chain S) (s s' : S) (created : List Contract) : Prop where
  kept : ∀ id, chain.contract s id ≠ none → chain.contract s' id ≠ none
  cancelled : ∀ c ∈ created, chain.contract s' c.contractId = none

/-- No contract is to be deleted, a deployment cannot be sent, or the first batch of the deletions
fails. -/
def NothingDeleted (env : HandlerEnv S) (plan : Plan) (results : List Contract) (w : World S) :
    Prop :=
  plan.deletedExtrinsics.filterMap id = [] ∨
    (∃ e w', sendAll env results plan.twins w = .error e w') ∨
    ∃ r w', sendAll env results plan.twins w = .ok r w' ∧
      FailsAt env.chain.runtime (env.rejects w'.clock)
        (slices (batchSize - 1) (plan.deletedExtrinsics.filterMap id)) w'.chain 0

/-- Nothing was created, or the rollback gets to its batch and no part of it with a cancellation
fails. -/
def RollbackCancels (env : HandlerEnv S) (created updated : List Contract) (w : World S) : Prop :=
  created = [] ∨ ∃ cancels w₁ updates w₂, cancelCreated env created w = .ok cancels w₁ ∧
    restoreAll env updated w₁ = .ok updates w₂ ∧
    ∀ k, k * batchSize < created.length →
      ¬ FailsAt env.chain.runtime (env.rejects w₂.clock)
        (slices (batchSize - 1) ((cancels ++ updates.map fun u => some u.1).filterMap id))
        w₂.chain k

/-! Batches of updates and cancellations. -/

theorem batch_settles (env : HandlerEnv S) {extrinsics : List (Option Extrinsic)} (w : World S)
    (hm : ∀ x ∈ extrinsics.filterMap id, Settles x.call) (i : Nat) :
    env.chain.contract (batchOf env extrinsics w).state i ≠ none ↔
      env.chain.contract w.chain i ≠ none ∧
        Call.cancelContract i ∉ (batchOf env extrinsics w).done.map (·.call) := by
  obtain ⟨evs, hexec⟩ := batchAll_state (R := env.chain.runtime) (env.rejects w.clock) extrinsics
    w.chain
  have hinitial := batchAll_done_initial (R := env.chain.runtime) (env.rejects w.clock) extrinsics
    w.chain
  refine execAll_settles ?_ hexec i
  intro call hcall
  obtain ⟨x, hx, rfl⟩ := List.mem_map.mp hcall
  exact hm x (hinitial.subset hx)

theorem done_eq_nil_iff {extrinsics : List (Option Extrinsic)} {w : World S} :
    (batchOf env extrinsics w).done = [] ↔ extrinsics.filterMap id = [] ∨
      FailsAt env.chain.runtime (env.rejects w.clock)
        (slices (batchSize - 1) (extrinsics.filterMap id)) w.chain 0 := by
  constructor
  · intro hdone
    cases hres : (batchOf env extrinsics w).result with
    | ok rs =>
      rw [batchOf, batchAll_done_of_ok hres] at hdone
      exact Or.inl hdone
    | error e =>
      obtain ⟨k, hk, htake⟩ := batchAll_done_of_error hres
      rw [batchOf] at hdone
      rw [hdone] at htake
      rcases List.take_eq_nil_iff.mp htake.symm with hzero | hnil
      · have hk0 : k = 0 := by
          rcases Nat.mul_eq_zero.mp hzero with h | h
          · exact h
          · simp [batchSize] at h
        exact Or.inr (hk0 ▸ hk)
      · exact Or.inl hnil
  · rintro (hnil | hfail)
    · have hinitial := batchAll_done_initial (R := env.chain.runtime) (env.rejects w.clock)
        extrinsics w.chain
      rw [hnil] at hinitial
      exact List.prefix_nil.mp hinitial
    · rw [batchOf, batchAll_done_of_failsAt hfail, Nat.zero_mul, List.take_zero]

/-! What is left when the body of the `try` throws. -/

theorem deliver_error {plan : Plan} {results : List Contract} {w w' : World S} {e : GridError}
    (h : deliver env plan results w = .error e w') :
    ((∃ e' w₁, sendAll env results plan.twins w = .error e' w₁) ∧ w'.chain = w.chain) ∨
      ∃ r w₁, sendAll env results plan.twins w = .ok r w₁ ∧ w₁.chain = w.chain ∧
        w'.chain = (batchOf env plan.deletedExtrinsics w₁).state := by
  rcases bind_eq_error.mp h with hsend | ⟨r, w₁, hsend, h⟩
  · exact Or.inl ⟨⟨e, w', hsend⟩, (keeps_sendAll _ _).of_error hsend⟩
  · refine Or.inr ⟨r, w₁, hsend, (keeps_sendAll _ _).of_ok hsend, ?_⟩
    obtain ⟨twins, created, updated⟩ := r
    -- waiting and saving come after the deletions and leave the chain alone
    have hrest : ∀ deleted, Keeps World.chain (do
        waitForDeployments env twins
        saveNetworks env (createdOf plan results) twins
        return ⟨created, updated, deleted⟩ : M S ResultContracts) := fun deleted =>
      (keeps_chain (keeps_waitForDeployments _)).bind fun _ =>
        ((keeps_saveNetworks _ _).comp Prod.fst).bind fun _ => keeps_pure _ _
    rcases bind_eq_error.mp h with hdel | ⟨deleted, w₂, hdel, h⟩
    · rcases bind_eq_error.mp hdel with happly | ⟨_, _, _, hpure⟩
      · obtain ⟨-, rfl⟩ := applyAllExtrinsics_error happly
        rfl
      · cases hpure
    · obtain ⟨rs, w₃, happly, hpure⟩ := bind_eq_ok.mp hdel
      obtain ⟨-, rfl⟩ := applyAllExtrinsics_ok happly
      cases hpure
      exact (hrest _).of_error h

theorem settles_of_cancels {s : S} {extrinsics : List (Option Extrinsic)}
    (h : ∀ x, some x ∈ extrinsics → ∃ id, x = cancelExtrinsic id ∧ env.chain.contract s id ≠ none) :
    ∀ x ∈ extrinsics.filterMap id, Settles x.call := by
  intro x hx
  obtain ⟨y, hy, hxy⟩ := List.mem_filterMap.mp hx
  obtain ⟨id, rfl, -⟩ := h x (hxy ▸ hy)
  exact .cancel id

/-- The deletions remove contracts that were there before the creations, and they remove none
exactly when nothing is deleted. -/
theorem deliver_contracts {plan : Plan} {results : List Contract} {s : S} {w w' : World S}
    {e : GridError}
    (hcancels : ∀ x, some x ∈ plan.deletedExtrinsics →
      ∃ id, x = cancelExtrinsic id ∧ env.chain.contract s id ≠ none)
    (hgrow : ∀ id, env.chain.contract s id ≠ none → env.chain.contract w.chain id ≠ none)
    (h : deliver env plan results w = .error e w') :
    (∀ id, env.chain.contract s id = none →
      (env.chain.contract w'.chain id ≠ none ↔ env.chain.contract w.chain id ≠ none)) ∧
    ((∀ id, env.chain.contract s id ≠ none → env.chain.contract w'.chain id ≠ none) ↔
      NothingDeleted env plan results w) := by
  rcases deliver_error h with ⟨⟨e', w₁, hsend⟩, hchain⟩ | ⟨r, w₁, hsend, hchain₁, hchain⟩
  · refine ⟨fun id _ => by rw [hchain], iff_of_true ?_ (Or.inr (Or.inl ⟨e', w₁, hsend⟩))⟩
    intro id hid
    rw [hchain]
    exact hgrow id hid
  · have hstep := batch_settles env w₁ (settles_of_cancels hcancels)
    have hdone : ∀ x ∈ (batchOf env plan.deletedExtrinsics w₁).done,
        ∃ id, x = cancelExtrinsic id ∧ env.chain.contract s id ≠ none := by
      intro x hx
      have hin := (batchAll_done_initial (R := env.chain.runtime) (env.rejects w₁.clock)
        plan.deletedExtrinsics w₁.chain).subset hx
      obtain ⟨y, hy, hxy⟩ := List.mem_filterMap.mp hin
      exact hcancels x (hxy ▸ hy)
    have hnothing : NothingDeleted env plan results w ↔
        (batchOf env plan.deletedExtrinsics w₁).done = [] := by
      rw [done_eq_nil_iff, NothingDeleted, hsend]
      refine or_congr_right ⟨?_, fun hfail => Or.inr ⟨r, w₁, rfl, hfail⟩⟩
      rintro (⟨e', w₂, hsend'⟩ | ⟨r', w₂, hsend', hfail⟩)
      · cases hsend'
      · cases hsend'
        exact hfail
    rw [hchain, hnothing]
    refine ⟨fun id hid => ?_, fun hkept => ?_, fun hnil id hid => ?_⟩
    · rw [hstep, hchain₁, and_iff_left]
      intro hcall
      obtain ⟨x, hx, hxcall⟩ := List.mem_map.mp hcall
      obtain ⟨i, rfl, hi⟩ := hdone x hx
      cases hxcall
      exact hi hid
    · rw [List.eq_nil_iff_forall_not_mem]
      intro x hx
      obtain ⟨i, rfl, hi⟩ := hdone x hx
      exact ((hstep i).mp (hkept i hi)).2 (List.mem_map.mpr ⟨_, hx, rfl⟩)
    · rw [hstep, hchain₁, hnil]
      exact ⟨hgrow id hid, by simp⟩

/-! What the rollback adds. -/

theorem reads_cancelCreated (cs : List Contract) :
    Reads World.chain (fun s xs => xs = cs.map fun c => cancel env.chain s c.contractId)
      (cancelCreated env cs) := by
  induction cs with
  | nil => exact reads_pure fun _ => rfl
  | cons c cs ih =>
    refine (reads_cancelContract _).bind fun x => ih.bind fun xs => reads_pure ?_
    rintro s rfl rfl
    rfl

theorem reads_restoreTo (d : Deployment) :
    Reads World.chain (fun _ x => ∃ o, x.1 = updateNode o) (restoreTo env d) :=
  (reads_getContract _).bind fun _ => (reads_lift _).bind fun _ =>
    reads_pure fun _ _ _ => ⟨_, rfl⟩

theorem reads_restore (c : Contract) :
    Reads World.chain (fun _ x => ∀ y ∈ x.toList, ∃ o, y.1 = updateNode o) (restore env c) := by
  refine (keeps_chain (keeps_getDeploymentFromFactory _)).reads.bind fun d =>
    (keeps_popOriginal.comp Prod.fst).reads.bind fun original => ?_
  split
  · exact reads_pure fun _ _ _ => by simp
  · refine (keeps_chain (keeps_nodeIdLookup _)).reads.bind fun nodeId =>
      (reads_lift _).bind fun r => ?_
    split
    · exact reads_pure fun _ _ _ _ _ => by simp
    · refine (reads_restoreTo _).bind fun x => reads_pure fun s hx _ _ _ _ y hy => ?_
      rw [Option.toList_some, List.mem_singleton] at hy
      rw [hy]
      exact hx

theorem reads_restoreAll (cs : List Contract) :
    Reads World.chain (fun _ xs => ∀ x ∈ xs, ∃ o, x.1 = updateNode o) (restoreAll env cs) := by
  induction cs with
  | nil => exact reads_pure fun _ => by simp
  | cons c cs ih =>
    refine (reads_restore c).bind fun x => ih.bind fun xs => reads_pure fun s hxs hx y hy => ?_
    exact (List.mem_append.mp hy).elim (hx y) (hxs y)

/-- The rollback ends with the chain it found, or with that of its batch. -/
theorem after_rollback (env : HandlerEnv S) (created updated : List Contract) (w : World S) :
    ((after (rollback env created updated) w).chain = w.chain ∧
      ¬ ∃ cancels w₁ updates w₂, cancelCreated env created w = .ok cancels w₁ ∧
        restoreAll env updated w₁ = .ok updates w₂) ∨
    ∃ cancels w₁ updates w₂, cancelCreated env created w = .ok cancels w₁ ∧
      restoreAll env updated w₁ = .ok updates w₂ ∧ w₁.chain = w.chain ∧ w₂.chain = w.chain ∧
      (after (rollback env created updated) w).chain =
        (batchOf env (cancels ++ updates.map fun u => some u.1) w₂).state := by
  cases hc : cancelCreated env created w with
  | error e w₁ =>
    have hend : rollback env created updated w = .error e w₁ := bind_of_error hc
    refine Or.inl ⟨?_, ?_⟩
    · rw [after_of_error hend]
      exact (keeps_chain (keeps_cancelCreated _)).of_error hc
    · rintro ⟨_, _, _, _, h, -⟩
      cases h
  | ok cancels w₁ =>
    have hchain₁ := (keeps_chain (keeps_cancelCreated _)).of_ok hc
    cases hr : restoreAll env updated w₁ with
    | error e w₂ =>
      have hend : rollback env created updated w = .error e w₂ :=
        (bind_of_ok hc).trans (bind_of_error hr)
      refine Or.inl ⟨?_, ?_⟩
      · rw [after_of_error hend]
        exact (((keeps_restoreAll _).comp Prod.fst).of_error hr).trans hchain₁
      · rintro ⟨_, _, _, _, h, h'⟩
        cases h
        rw [hr] at h'
        cases h'
    | ok updates w₂ =>
      have hchain₂ : w₂.chain = w.chain :=
        (((keeps_restoreAll _).comp Prod.fst).of_ok hr).trans hchain₁
      refine Or.inr ⟨cancels, w₁, updates, w₂, rfl, hr, hchain₁, hchain₂, ?_⟩
      have hstep : rollback env created updated w = (do
          let _ ← applyAllExtrinsics env (cancels ++ updates.map fun u => some u.1)
          resendAll env (updates.map Prod.snd) : M S Unit) w₂ :=
        (bind_of_ok hc).trans (bind_of_ok hr)
      have hafter := @after_applyAllExtrinsics _ env
        (cancels ++ updates.map fun u => some u.1) w₂
      unfold after
      rw [hstep]
      cases ha : applyAllExtrinsics env (cancels ++ updates.map fun u => some u.1) w₂ with
      | error e w₃ =>
        rw [after_of_error ha] at hafter
        rw [bind_of_error ha, hafter]
      | ok rs w₃ =>
        rw [after_of_ok ha] at hafter
        rw [bind_of_ok ha]
        have hresend : (after (resendAll env (updates.map Prod.snd)) w₃).chain = w₃.chain :=
          ((keeps_resendAll _).comp Prod.fst) w₃
        exact hresend.trans (by rw [hafter])

/-- The cancellations of the rollback, and the updates after them. -/
theorem rollback_batch {created updated : List Contract} {w w₁ w₂ : World S}
    {cancels : List (Option Extrinsic)} {updates : List (Extrinsic × TwinDeployment)}
    (hex : ∀ c ∈ created, env.chain.contract w.chain c.contractId ≠ none)
    (hc : cancelCreated env created w = .ok cancels w₁)
    (hr : restoreAll env updated w₁ = .ok updates w₂) :
    (cancels ++ updates.map fun u => some u.1).filterMap id =
        created.map (fun c => cancelExtrinsic c.contractId) ++ updates.map Prod.fst ∧
      (∀ u ∈ updates, ∃ o, u.1 = updateNode o) := by
  obtain ⟨-, rfl⟩ := reads_cancelCreated created w cancels w₁ hc
  refine ⟨?_, (reads_restoreAll updated w₁ updates w₂ hr).2⟩
  rw [List.filterMap_append, List.filterMap_map, List.filterMap_map]
  congr 1
  · have hsome : ∀ c ∈ created, (id ∘ fun c => cancel env.chain w.chain c.contractId) c =
        some (cancelExtrinsic c.contractId) := by
      intro c hc
      obtain ⟨d, hd⟩ := Option.ne_none_iff_exists'.mp (hex c hc)
      simp [cancel, hd]
    rw [List.filterMap_congr hsome, List.filterMap_eq_map']
  · exact congrFun List.filterMap_eq_map' updates

/-- A rollback cancels created contracts and no other, and all of them exactly when its
cancellations go through. -/
theorem rollback_contracts {created : List Contract} (updated : List Contract) {w : World S}
    (hex : ∀ c ∈ created, env.chain.contract w.chain c.contractId ≠ none)
    (hnodup : (created.map (·.contractId)).Nodup) :
    (∀ id, id ∉ created.map (·.contractId) →
      (env.chain.contract (after (rollback env created updated) w).chain id ≠ none ↔
        env.chain.contract w.chain id ≠ none)) ∧
    ((∀ c ∈ created,
        env.chain.contract (after (rollback env created updated) w).chain c.contractId = none) ↔
      RollbackCancels env created updated w) := by
  rcases after_rollback env created updated w with
    ⟨hchain, hstop⟩ | ⟨cancels, w₁, updates, w₂, hc, hr, hchain₁, hchain₂, hchain⟩
  · rw [hchain]
    refine ⟨fun _ _ => Iff.rfl, fun hall => ?_, ?_⟩
    · refine Or.inl (List.eq_nil_iff_forall_not_mem.mpr fun c hc => ?_)
      exact hex c hc (hall c hc)
    · rintro (rfl | ⟨cancels, w₁, updates, w₂, hc, hr, -⟩)
      · simp
      · exact absurd ⟨cancels, w₁, updates, w₂, hc, hr⟩ hstop
  · obtain ⟨hall, hupdates⟩ := rollback_batch hex hc hr
    have hsettles : ∀ x ∈ (cancels ++ updates.map fun u => some u.1).filterMap id,
        Settles x.call := by
      intro x hx
      rw [hall, List.mem_append] at hx
      rcases hx with hx | hx
      · obtain ⟨c, -, rfl⟩ := List.mem_map.mp hx
        exact .cancel _
      · obtain ⟨u, hu, rfl⟩ := List.mem_map.mp hx
        obtain ⟨o, ho⟩ := hupdates u hu
        rw [ho]
        exact .updateNode ..
    have hstep := batch_settles env w₂ hsettles
    rw [hchain]
    refine ⟨fun i hi => ?_, fun hnone => Or.inr ⟨cancels, w₁, updates, w₂, hc, hr, ?_⟩, ?_⟩
    · rw [hstep, hchain₂, and_iff_left]
      intro hcall
      obtain ⟨x, hx, hxcall⟩ := List.mem_map.mp hcall
      have hin := (batchAll_done_initial (R := env.chain.runtime) (env.rejects w₂.clock)
        (cancels ++ updates.map fun u => some u.1) w₂.chain).subset hx
      rw [hall, List.mem_append] at hin
      rcases hin with hin | hin
      · obtain ⟨c, hc, rfl⟩ := List.mem_map.mp hin
        cases hxcall
        exact hi (List.mem_map_of_mem hc)
      · obtain ⟨u, hu, rfl⟩ := List.mem_map.mp hin
        obtain ⟨o, ho⟩ := hupdates u hu
        rw [ho] at hxcall
        cases hxcall
    · -- the first contract of a batch that fails would still be there
      intro k hk hfail
      have hdone := batchAll_done_of_failsAt hfail
      rw [hall] at hdone
      have hmem : Call.cancelContract created[k * batchSize].contractId ∈
          (batchOf env (cancels ++ updates.map fun u => some u.1) w₂).done.map (·.call) := by
        by_contra hnot
        exact (hstep _).mpr ⟨hchain₂ ▸ hex _ (List.getElem_mem hk), hnot⟩
          (hnone _ (List.getElem_mem hk))
      rw [batchOf, hdone, List.take_append_of_le_length (by rw [List.length_map]; omega),
        ← List.map_take, List.map_map] at hmem
      obtain ⟨c, hc, heq⟩ := List.mem_map.mp hmem
      have hbefore : c.contractId ∈ (created.map (·.contractId)).take (k * batchSize) := by
        rw [← List.map_take]
        exact List.mem_map_of_mem hc
      have hfrom : created[k * batchSize].contractId ∈ (created.map (·.contractId)).drop
          (k * batchSize) := by
        rw [← List.map_drop, List.drop_eq_getElem_cons hk]
        exact List.mem_cons_self
      exact List.disjoint_take_drop hnodup le_rfl hbefore
        (Call.cancelContract.inj heq ▸ hfrom)
    · rintro (rfl | ⟨cancels', w₁', updates', w₂', hc', hr', hlate⟩) c hcin
      · simp at hcin
      · rw [hc] at hc'
        cases hc'
        rw [hr] at hr'
        cases hr'
        have hdone : cancelExtrinsic c.contractId ∈
            (batchOf env (cancels ++ updates.map fun u => some u.1) w₂).done := by
          have hfirst : cancelExtrinsic c.contractId ∈
              created.map fun c => cancelExtrinsic c.contractId := List.mem_map_of_mem hcin
          cases hres : (batchOf env (cancels ++ updates.map fun u => some u.1) w₂).result with
          | ok rs =>
            rw [batchOf, batchAll_done_of_ok hres, hall]
            exact List.mem_append_left _ hfirst
          | error e =>
            obtain ⟨k, hk, htake⟩ := batchAll_done_of_error hres
            have hlong : created.length ≤ k * batchSize := by
              by_contra hshort
              exact hlate k (by omega) hk
            rw [batchOf, htake, hall, List.take_append,
              List.take_of_length_le (by rw [List.length_map]; exact hlong)]
            exact List.mem_append_left _ hfirst
        by_contra hsome
        exact ((hstep _).mp hsome).2 (List.mem_map.mpr ⟨_, hdone, rfl⟩)

/-- The parts of a run of `handle` that throws after its first batch. -/
theorem handle_error {ts : List TwinDeployment} {w w₁ w₂ w' : World S} {plan : Plan}
    {results : List Contract} {e : GridError} (hplan : prepare env ts w = .ok plan w₁)
    (hcreate : create env plan w₁ = .ok results w₂) (h : handle env ts w = .error e w') :
    ∃ e' w₃, deliver env plan results w₂ = .error e' w₃ ∧
      w' = after (rollback env (createdOf plan results) plan.updated) w₃ := by
  have hrun : handle env ts w = finish env plan results w₂ :=
    (bind_of_ok hplan).trans (bind_of_ok hcreate)
  rw [hrun, finish] at h
  cases hd : deliver env plan results w₂ with
  | ok r w₃ =>
    rw [tryCatch_of_ok hd] at h
    cases h
  | error e' w₃ =>
    refine ⟨e', w₃, rfl, ?_⟩
    rw [tryCatch_of_error hd] at h
    rcases bind_eq_error.mp h with h | ⟨_, w₄, hok, hthrow⟩
    · exact (after_of_error h).symm
    · cases hthrow
      exact (after_of_ok hok).symm

/-- A `handle` that throws after its create and update batch leaves every contract that was there
and none that it created exactly when it failed before a deletion took effect and its rollback gets
its cancellations through. -/
theorem handle_undone_iff (env : HandlerEnv S) {ts : List TwinDeployment} {w w₁ w₂ w' : World S}
    {plan : Plan} {results : List Contract} {e : GridError}
    (hplan : prepare env ts w = .ok plan w₁) (hcreate : create env plan w₁ = .ok results w₂)
    (h : handle env ts w = .error e w') :
    Undone env.chain w.chain w'.chain (createdOf plan results) ↔
      NothingDeleted env plan results w₂ ∧
      RollbackCancels env (createdOf plan results) plan.updated
        (after (deliver env plan results) w₂) := by
  obtain ⟨e', w₃, hdeliver, rfl⟩ := handle_error hplan hcreate h
  obtain ⟨hchain, hsound⟩ := reads_prepare ts w plan w₁ hplan
  have hsound₁ : SoundPlan env w₁.chain plan := hchain ▸ hsound
  obtain ⟨hcreation, -⟩ := create_ok hsound₁ hcreate
  rw [hchain] at hcreation
  obtain ⟨hnew, hkept⟩ := deliver_contracts hsound.cancels
    (fun id hid => (hcreation.grows id).mpr (Or.inl hid)) hdeliver
  have hex : ∀ c ∈ createdOf plan results,
      env.chain.contract w₃.chain c.contractId ≠ none := fun c hc =>
    (hnew _ (hcreation.fresh c hc)).mpr ((hcreation.grows _).mpr (Or.inr ⟨c, hc, rfl⟩))
  obtain ⟨hother, hcancelled⟩ := rollback_contracts plan.updated hex hcreation.nodup
  rw [after_of_error hdeliver, ← hkept, ← hcancelled]
  -- a contract that was there is not one that was created
  have hold : ∀ id, env.chain.contract w.chain id ≠ none →
      id ∉ (createdOf plan results).map (·.contractId) := by
    intro id hid hin
    obtain ⟨c, hc, rfl⟩ := List.mem_map.mp hin
    exact hid (hcreation.fresh c hc)
  constructor
  · rintro ⟨hk, hc⟩
    exact ⟨fun id hid => (hother id (hold id hid)).mp (hk id hid), hc⟩
  · rintro ⟨hk, hc⟩
    exact ⟨fun id hid => (hother id (hold id hid)).mpr (hk id hid), hc⟩

theorem rollbackCancels_of_ok {created updated : List Contract} {w w' : World S}
    (h : rollback env created updated w = .ok () w') : RollbackCancels env created updated w := by
  obtain ⟨cancels, w₁, hc, h⟩ := bind_eq_ok.mp h
  obtain ⟨updates, w₂, hr, h⟩ := bind_eq_ok.mp h
  obtain ⟨rs, w₃, happly, -⟩ := bind_eq_ok.mp h
  obtain ⟨hres, -⟩ := applyAllExtrinsics_ok happly
  refine Or.inr ⟨cancels, w₁, updates, w₂, hc, hr, fun k _ hfail => ?_⟩
  obtain ⟨e, he⟩ := error_iff_fails.mpr (fails_iff.mpr ⟨k, hfail⟩)
  have := hres.symm.trans he
  cases this

end

def sampleDeploy : TwinDeployment :=
  .make (sampleDeployment none [sampleZdb "db" 0 1]) .deploy 0 11 "" none

def sampleDelete : TwinDeployment :=
  .make (sampleDeployment (some 1) [sampleZdb "old" 0 1]) .delete 0 11 "" none

/-- A deployment that is never ready is undone. -/
theorem sampleDeploy_undone :
    ∃ plan w₁ results w₂ e w',
      prepare sampleEnv [sampleDeploy] (sampleWorld twoContracts fun _ => none) = .ok plan w₁ ∧
      create sampleEnv plan w₁ = .ok results w₂ ∧
      handle sampleEnv [sampleDeploy] (sampleWorld twoContracts fun _ => none) = .error e w' ∧
      Undone ledgerChain twoContracts w'.chain (createdOf plan results) := by
  have hprepare : returned (prepare sampleEnv [sampleDeploy]
      (sampleWorld twoContracts fun _ => none)) = true := by decide +kernel
  have hnone : returnedWith (fun plan => (plan.deletedExtrinsics.filterMap id).isEmpty)
      (prepare sampleEnv [sampleDeploy] (sampleWorld twoContracts fun _ => none)) = true := by
    decide +kernel
  have hcreate : returned ((prepare sampleEnv [sampleDeploy] >>= create sampleEnv)
      (sampleWorld twoContracts fun _ => none)) = true := by decide +kernel
  have hhandle : returned (handle sampleEnv [sampleDeploy]
      (sampleWorld twoContracts fun _ => none)) = false := by decide +kernel
  have hrollback : returned ((prepare sampleEnv [sampleDeploy] >>= fun plan =>
      create sampleEnv plan >>= fun results => fun w =>
        rollback sampleEnv (createdOf plan results) plan.updated
          (after (deliver sampleEnv plan results) w))
      (sampleWorld twoContracts fun _ => none)) = true := by decide +kernel
  obtain ⟨plan, w₁, hplan⟩ := exists_ok_of_returned hprepare
  rw [bind_of_ok hplan] at hcreate hrollback
  obtain ⟨results, w₂, hresults⟩ := exists_ok_of_returned hcreate
  obtain ⟨⟨⟩, w₃, hok⟩ := exists_ok_of_returned
    ((congrArg returned (bind_of_ok hresults)).symm.trans hrollback)
  obtain ⟨e, w', herror⟩ := exists_error_of_returned hhandle
  rw [hplan] at hnone
  refine ⟨plan, w₁, results, w₂, e, w', hplan, hresults, herror, ?_⟩
  exact (handle_undone_iff sampleEnv hplan hresults herror).mpr
    ⟨Or.inl (List.isEmpty_iff.mp hnone), rollbackCancels_of_ok hok⟩

/-- The wait for a new deployment fails when the old contract is already cancelled. -/
theorem sampleDelete_not_undone :
    ∃ plan w₁ results w₂ e w',
      prepare sampleEnv [sampleDeploy, sampleDelete] (sampleWorld twoContracts fun _ => none) =
        .ok plan w₁ ∧
      create sampleEnv plan w₁ = .ok results w₂ ∧
      handle sampleEnv [sampleDeploy, sampleDelete] (sampleWorld twoContracts fun _ => none) =
        .error e w' ∧
      ¬ Undone ledgerChain twoContracts w'.chain (createdOf plan results) := by
  have hcreate : returned ((prepare sampleEnv [sampleDeploy, sampleDelete] >>= create sampleEnv)
      (sampleWorld twoContracts fun _ => none)) = true := by decide +kernel
  have hhandle : returned (handle sampleEnv [sampleDeploy, sampleDelete]
      (sampleWorld twoContracts fun _ => none)) = false := by decide +kernel
  have hgone : (ledgerChain.contract (after (handle sampleEnv [sampleDeploy, sampleDelete])
      (sampleWorld twoContracts fun _ => none)).chain 1).isNone = true := by decide +kernel
  obtain ⟨results, w₂, hboth⟩ := exists_ok_of_returned hcreate
  obtain ⟨plan, w₁, hplan, hresults⟩ := bind_eq_ok.mp hboth
  obtain ⟨e, w', herror⟩ := exists_error_of_returned hhandle
  rw [after_of_error herror, Option.isNone_iff_eq_none] at hgone
  refine ⟨plan, w₁, results, w₂, e, w', hplan, hresults, herror, fun h => ?_⟩
  exact h.kept 1 (Option.isSome_iff_ne_none.mp (by decide)) hgone

end ThreefoldSdk.HighLevel
