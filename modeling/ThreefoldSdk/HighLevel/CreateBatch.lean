import ThreefoldSdk.HighLevel.PreparedPlan
import ThreefoldSdk.TfChain.Ledger

/-! The batch in which `handle` creates and updates contracts: what it adds to the chain, and when
it is all-or-nothing. -/

namespace ThreefoldSdk.HighLevel
open Staged Zos Primitives TfChain Frame

section
variable {S : Type} {env : HandlerEnv S}

/-- The batches that `applyAllExtrinsics` submits in a world. -/
def batchOf (env : HandlerEnv S) (extrinsics : List (Option Extrinsic)) (w : World S) :
    Outcome Extrinsic (Option Primitive) S ChainError :=
  batchAll env.chain.runtime (env.rejects w.clock) extrinsics w.chain

theorem applyAllExtrinsics_eq (extrinsics : List (Option Extrinsic)) (w : World S) :
    applyAllExtrinsics env extrinsics w =
      match (batchOf env extrinsics w).result with
      | .ok rs => .ok rs { w with chain := (batchOf env extrinsics w).state, clock := w.clock + 1 }
      | .error e =>
        .error (chainError e)
          { w with chain := (batchOf env extrinsics w).state, clock := w.clock + 1 } := by
  simp only [applyAllExtrinsics, batchOf, bind, EStateM.bind, get, getThe, MonadStateOf.get,
    EStateM.get, set, EStateM.set]
  split <;> rename_i h <;> rw [h] <;> rfl

theorem applyAllExtrinsics_of_ok {extrinsics : List (Option Extrinsic)} {w : World S}
    {rs : List (Option Primitive)} (h : (batchOf env extrinsics w).result = .ok rs) :
    applyAllExtrinsics env extrinsics w =
      .ok rs { w with chain := (batchOf env extrinsics w).state, clock := w.clock + 1 } := by
  rw [applyAllExtrinsics_eq, h]

theorem after_applyAllExtrinsics (extrinsics : List (Option Extrinsic)) (w : World S) :
    after (applyAllExtrinsics env extrinsics) w =
      { w with chain := (batchOf env extrinsics w).state, clock := w.clock + 1 } := by
  unfold after
  rw [applyAllExtrinsics_eq]
  cases (batchOf env extrinsics w).result <;> rfl

theorem applyAllExtrinsics_ok {extrinsics : List (Option Extrinsic)} {w w' : World S}
    {rs : List (Option Primitive)} (h : applyAllExtrinsics env extrinsics w = .ok rs w') :
    (batchOf env extrinsics w).result = .ok rs ∧
      w' = { w with chain := (batchOf env extrinsics w).state, clock := w.clock + 1 } := by
  have hafter := after_of_ok h
  rw [after_applyAllExtrinsics] at hafter
  refine ⟨?_, hafter.symm⟩
  rw [applyAllExtrinsics_eq] at h
  cases hr : (batchOf env extrinsics w).result with
  | ok rs' =>
    rw [hr] at h
    cases h
    rfl
  | error e =>
    rw [hr] at h
    cases h

theorem applyAllExtrinsics_error {extrinsics : List (Option Extrinsic)} {w w' : World S}
    {e : GridError} (h : applyAllExtrinsics env extrinsics w = .error e w') :
    (∃ e', (batchOf env extrinsics w).result = .error e') ∧
      w' = { w with chain := (batchOf env extrinsics w).state, clock := w.clock + 1 } := by
  have hafter := after_of_error h
  rw [after_applyAllExtrinsics] at hafter
  refine ⟨?_, hafter.symm⟩
  rw [applyAllExtrinsics_eq] at h
  cases hr : (batchOf env extrinsics w).result with
  | ok rs =>
    rw [hr] at h
    cases h
  | error e' => exact ⟨e', rfl⟩

/-! The results of a batch without maps. -/

theorem extract_map_none {xs : List Extrinsic} (h : ∀ x ∈ xs, x.map = none) :
    (extractResultSectionsAndEvents xs).map = none := by
  induction xs using List.reverseRecOn with
  | nil => rfl
  | append_singleton xs x ih =>
    rw [extract_map_append, h x (by simp), ih fun y hy => h y (List.mem_append_left _ hy)]
    rfl

theorem agrees_patch {b : List (Extrinsic × Event Primitive)}
    (h : ∀ p ∈ b, ∃ call, p.1 = patchExtrinsic call) : Agrees b := by
  have hnone : (extractResultSectionsAndEvents (b.map Prod.fst)).map = none := by
    refine extract_map_none fun x hx => ?_
    obtain ⟨p, hp, rfl⟩ := List.mem_map.mp hx
    obtain ⟨call, hcall⟩ := h p hp
    rw [hcall]
    rfl
  intro p hp
  refine ⟨Or.inl fun q hq => ?_, ?_⟩
  · obtain ⟨call, hcall⟩ := h q hq
    rw [hcall]
    rfl
  · obtain ⟨call, hcall⟩ := h p hp
    simp only [Extracted.value, ExtrinsicResult.value, hnone, hcall]
    rfl

theorem contractsOf_map (cs : List Contract) :
    contractsOf (cs.map fun c => some (.contract c)) = .ok cs := by
  induction cs with
  | nil => rfl
  | cons c cs ih => simp only [List.map_cons, contractsOf, ih, Except.map]

/-- The extrinsics of the create and update batch. -/
def Plan.creations (plan : Plan) : List Extrinsic := plan.nodeExtrinsics ++ plan.nameExtrinsics

abbrev SoundPlan (env : HandlerEnv S) (s : S) (plan : Plan) : Prop :=
  Sound env.chain s plan.creations plan.deletedExtrinsics plan.updated

theorem filterMap_creations (plan : Plan) :
    (plan.creations.map some).filterMap id = plan.creations := by
  rw [List.filterMap_map]
  exact List.filterMap_some

/-- A create and update batch that goes through reports one contract for each extrinsic. -/
theorem creations_ok {plan : Plan} {w : World S} {rs : List (Option Primitive)}
    (hs : SoundPlan env w.chain plan)
    (h : (batchOf env (plan.creations.map some) w).result = .ok rs) :
    ∃ cs, contractsOf rs = .ok cs ∧
      List.Forall₂ (Made env.chain w.chain) (plan.creations.map (·.call)) cs ∧
      (∀ id, env.chain.contract (batchOf env (plan.creations.map some) w).state id ≠ none ↔
        env.chain.contract w.chain id ≠ none ∨ ∃ c ∈ cs, c.contractId = id) ∧
      (newIds env.chain w.chain cs).Nodup ∧
      List.Forall₂ (KeepsNode env.chain w.chain) (plan.creations.map (·.call)) cs := by
  obtain ⟨ps, hfst, hexec, -, hiff⟩ := batchAll_values (fun x hx => by
    obtain ⟨call, hm, rfl⟩ := hs.makes x (filterMap_creations plan ▸ hx)
    exact oneMatchingEvent_patch hm) h
  rw [filterMap_creations] at hfst
  have hpatch : ∀ p ∈ ps, ∃ call, Makes call ∧ p.1 = patchExtrinsic call := fun p hp =>
    hs.makes p.1 (hfst ▸ List.mem_map_of_mem hp)
  have hrs : rs = ownValues ps := by
    refine hiff.mpr fun b hb => agrees_patch fun p hp => ?_
    have hin : p ∈ ps := by
      rw [← slices_flatten (batchSize - 1) ps]
      exact List.mem_flatten.mpr ⟨b, hb, hp⟩
    obtain ⟨call, -, hcall⟩ := hpatch p hin
    exact ⟨call, hcall⟩
  have hcalls : ps.map (·.1.call) = plan.creations.map (·.call) := by
    rw [← hfst, List.map_map]
    rfl
  rw [hcalls] at hexec
  have hmakes : ∀ call ∈ plan.creations.map (·.call), Makes call := by
    intro call hcall
    obtain ⟨x, hx, rfl⟩ := List.mem_map.mp hcall
    obtain ⟨call, hm, rfl⟩ := hs.makes x hx
    exact hm
  have hexists : ∀ id hash data,
      Call.updateNodeContract id hash data ∈ plan.creations.map (·.call) →
      env.chain.contract w.chain id ≠ none := by
    intro id hash data hcall
    obtain ⟨x, hx, heq⟩ := List.mem_map.mp hcall
    obtain ⟨call, -, rfl⟩ := hs.makes x hx
    obtain ⟨c, hc, rfl⟩ := hs.updates id hash data (by
      rw [← heq]
      exact hx)
    rw [hs.updated c hc]
    exact Option.some_ne_none c
  obtain ⟨cs, hmade, hdata, hgrow, hnodup⟩ := execAll_makes hmakes hexists hexec
  refine ⟨cs, ?_, hmade, hgrow, hnodup, execAll_keepsNode hmakes hexists hexec hdata⟩
  have hvalues : ownValues ps = (ps.map Prod.snd).map (·.data.head?) := by
    rw [ownValues, List.map_map]
    refine List.map_congr_left fun p hp => ?_
    obtain ⟨call, -, hcall⟩ := hpatch p hp
    rw [ExtrinsicResult.value, hcall]
    rfl
  rw [hrs, hvalues, hdata, contractsOf_map]

/-- The contracts reported as created are the ones the batch added. -/
structure Creation (chain : Chain S) (s s' : S) (created : List Contract) : Prop where
  fresh : ∀ c ∈ created, chain.contract s c.contractId = none
  grows : ∀ id, chain.contract s' id ≠ none ↔
    chain.contract s id ≠ none ∨ ∃ c ∈ created, c.contractId = id
  nodup : (created.map (·.contractId)).Nodup

theorem made_fresh_or_updated {plan : Plan} {s : S} (hs : SoundPlan env s plan)
    {x : Extrinsic} (hx : x ∈ plan.creations) {c : Contract} (hm : Made env.chain s x.call c) :
    env.chain.contract s c.contractId = none ∨ ∃ u ∈ plan.updated, u.contractId = c.contractId := by
  obtain ⟨call, hcall, rfl⟩ := hs.makes x hx
  cases hcall with
  | createNode nodeId hash data ips sp => exact Or.inl hm.1
  | updateNode id hash data =>
    obtain ⟨u, hu, hid⟩ := hs.updates id hash data hx
    exact Or.inr ⟨u, hu, hid.trans hm.2.1.symm⟩
  | createName name => exact Or.inl hm.1

theorem creation_of_made {plan : Plan} {s s' : S} {cs : List Contract}
    (hs : SoundPlan env s plan)
    (hmade : List.Forall₂ (Made env.chain s) (plan.creations.map (·.call)) cs)
    (hgrow : ∀ id, env.chain.contract s' id ≠ none ↔
      env.chain.contract s id ≠ none ∨ ∃ c ∈ cs, c.contractId = id)
    (hnodup : (newIds env.chain s cs).Nodup) :
    Creation env.chain s s' (createdOf plan cs) := by
  have hone : ∀ c ∈ cs, env.chain.contract s c.contractId = none ∨
      ∃ u ∈ plan.updated, u.contractId = c.contractId := by
    intro c hc
    obtain ⟨call, hcall, hm⟩ := Forall2.exists_left hmade hc
    obtain ⟨x, hx, rfl⟩ := List.mem_map.mp hcall
    exact made_fresh_or_updated hs hx hm
  have hcreated : ∀ c, c ∈ createdOf plan cs ↔
      c ∈ cs ∧ ∀ u ∈ plan.updated, u.contractId ≠ c.contractId := by
    intro c
    simp [createdOf]
  have hfresh : ∀ c ∈ createdOf plan cs, env.chain.contract s c.contractId = none := by
    intro c hc
    obtain ⟨hin, hnot⟩ := (hcreated c).mp hc
    rcases hone c hin with h | ⟨u, hu, hid⟩
    · exact h
    · exact absurd hid (hnot u hu)
  refine ⟨hfresh, ?_, ?_⟩
  · intro id
    rw [hgrow]
    constructor
    · rintro (h | ⟨c, hc, rfl⟩)
      · exact Or.inl h
      · rcases hone c hc with hfree | ⟨u, hu, hid⟩
        · refine Or.inr ⟨c, (hcreated c).mpr ⟨hc, fun u hu hid => ?_⟩, rfl⟩
          rw [← hid, hs.updated u hu] at hfree
          cases hfree
        · refine Or.inl ?_
          rw [← hid, hs.updated u hu]
          exact Option.some_ne_none u
    · rintro (h | ⟨c, hc, rfl⟩)
      · exact Or.inl h
      · exact Or.inr ⟨c, ((hcreated c).mp hc).1, rfl⟩
  · refine List.Nodup.sublist ?_ hnodup
    have hall : (createdOf plan cs).map (·.contractId) =
        ((createdOf plan cs).map (·.contractId)).filter fun id =>
          (env.chain.contract s id).isNone := by
      refine (List.filter_eq_self.mpr fun id hid => ?_).symm
      obtain ⟨c, hc, rfl⟩ := List.mem_map.mp hid
      rw [hfresh c hc]
      rfl
    rw [hall]
    exact (List.filter_sublist.map _).filter _

/-- What `create` returns: one contract for each extrinsic, in order. -/
theorem create_results {plan : Plan} {w w' : World S} {results : List Contract}
    (hs : SoundPlan env w.chain plan) (h : create env plan w = .ok results w') :
    List.Forall₂ (Made env.chain w.chain) (plan.creations.map (·.call)) results ∧
      List.Forall₂ (KeepsNode env.chain w.chain) (plan.creations.map (·.call)) results ∧
      (newIds env.chain w.chain results).Nodup ∧
      (∀ id, env.chain.contract w'.chain id ≠ none ↔
        env.chain.contract w.chain id ≠ none ∨ ∃ c ∈ results, c.contractId = id) ∧
      w' = { w with chain := w'.chain, clock := w.clock + 1 } := by
  obtain ⟨rs, w₁, hrs, hlift⟩ := bind_eq_ok.mp h
  obtain ⟨hres, rfl⟩ := applyAllExtrinsics_ok hrs
  obtain ⟨cs, hcs, hmade, hgrow, hnodup, hkeeps⟩ := creations_ok hs hres
  have hcontracts : contractsOf rs = .ok results ∧ { w with
      chain := (batchOf env (plan.creations.map some) w).state, clock := w.clock + 1 } = w' := by
    cases hc : contractsOf rs with
    | ok cs' =>
      rw [hc] at hlift
      cases hlift
      exact ⟨rfl, rfl⟩
    | error e =>
      rw [hc] at hlift
      cases hlift
  obtain ⟨hresults, rfl⟩ := hcontracts
  rw [hcs] at hresults
  cases hresults
  exact ⟨hmade, hkeeps, hnodup, hgrow, rfl⟩

/-- What `create` leaves when it returns. -/
theorem create_ok {plan : Plan} {w w' : World S} {results : List Contract}
    (hs : SoundPlan env w.chain plan) (h : create env plan w = .ok results w') :
    Creation env.chain w.chain w'.chain (createdOf plan results) ∧
      w' = { w with chain := w'.chain, clock := w.clock + 1 } := by
  obtain ⟨hmade, -, hnodup, hgrow, hw'⟩ := create_results hs h
  exact ⟨creation_of_made hs hmade hgrow hnodup, hw'⟩

/-- When `create` throws, it is the chain that did not take the batch as a whole. -/
theorem create_error {plan : Plan} {w w' : World S} {e : GridError}
    (hs : SoundPlan env w.chain plan) (h : create env plan w = .error e w') :
    (∃ e', (batchOf env (plan.creations.map some) w).result = .error e') ∧
      w'.chain = (batchOf env (plan.creations.map some) w).state := by
  rcases bind_eq_error.mp h with h | ⟨rs, w₁, hrs, hlift⟩
  · obtain ⟨herr, rfl⟩ := applyAllExtrinsics_error h
    exact ⟨herr, rfl⟩
  · obtain ⟨hres, rfl⟩ := applyAllExtrinsics_ok hrs
    obtain ⟨cs, hcs, -⟩ := creations_ok hs hres
    rw [hcs] at hlift
    cases hlift

/-- No batch of 400 but the first one fails. -/
def NoLateFailure (env : HandlerEnv S) (extrinsics : List (Option Extrinsic)) (w : World S) : Prop :=
  ∀ k, 0 < k → ¬ FailsAt env.chain.runtime (env.rejects w.clock)
    (slices (batchSize - 1) (extrinsics.filterMap id)) w.chain k

/-- `applyAllExtrinsics` is all-or-nothing exactly when no batch of 400 but the first one fails.
Then a create and update batch that fails leaves the chain as it was. -/
theorem applyAllExtrinsics_allOrNothing_iff (env : HandlerEnv S)
    (extrinsics : List (Option Extrinsic)) (w : World S) :
    (AllOrNothing (batchOf env extrinsics w) (extrinsics.filterMap id) ↔
      NoLateFailure env extrinsics w) ∧
    (∃ evs, env.chain.runtime.execAll ((batchOf env extrinsics w).done.map (·.call)) w.chain =
      some ((batchOf env extrinsics w).state, evs)) ∧
    ∀ ts plan w₀ w' e, prepare env ts w₀ = .ok plan w → create env plan w = .error e w' →
      NoLateFailure env (plan.creations.map some) w →
        handle env ts w₀ = .error e w' ∧ w'.chain = w₀.chain := by
  refine ⟨batchAll_allOrNothing_iff _ _ _ _, batchAll_state _ _ _, ?_⟩
  intro ts plan w₀ w' e hplan hcreate hlate
  obtain ⟨hkeep, hs⟩ := reads_prepare ts w₀ plan w hplan
  rw [← hkeep] at hs ⊢
  obtain ⟨⟨e', he'⟩, hchain⟩ := create_error hs hcreate
  refine ⟨?_, ?_⟩
  · have hrest : (create env plan >>= finish env plan) w = .error e w' := bind_of_error hcreate
    unfold handle
    rw [bind_of_ok hplan, hrest]
  · rcases (batchAll_allOrNothing_iff _ _ _ _).mpr hlate with ⟨rs, hok, -⟩ | ⟨-, -, hdone⟩
    · have := he'.symm.trans hok
      cases this
    · obtain ⟨evs, hexec⟩ := batchAll_state (R := env.chain.runtime) (env.rejects w.clock)
        (plan.creations.map some) w.chain
      rw [hdone, List.map_nil, Runtime.execAll, Option.some.injEq, Prod.mk.injEq] at hexec
      exact hchain.trans hexec.1.symm

end

/-- A handler on the ledger; its requests succeed, and no node shows a deployment as ready. -/
def sampleEnv : HandlerEnv Ledger where
  chain := ledgerChain
  validators := ⟨fun _ => true, fun _ => true, fun _ => true⟩
  json := ⟨fun _ s => some s, fun s => some s⟩
  resources :=
    { nodeHasResources := fun _ _ _ _ => .ok true
      verifyNodeStoragePoolCapacity := fun _ _ _ _ => .ok ()
      farmOf := fun _ => .ok (some 1)
      freeIps := fun _ => .ok 10 }
  md5 := id
  signature := id
  keypairType := .sr25519
  twinId := 1
  deploymentTimeoutMinutes := 10
  fails := fun _ => none
  delivered := fun _ => false
  lookupFails := fun _ _ => none
  rejects := fun _ _ => false
  verified := fun _ => true
  polls := fun _ _ => []

/-- A world of one handler that made no request so far. -/
def sampleWorld (chain : Ledger) (held : Nat → Option Deployment) : World Ledger where
  chain := chain
  held := held
  originalDeployments := []
  newContracts := []
  deletedContracts := []
  clock := 0

def sampleZdb (name : String) (version size : Nat) : Workload :=
  ⟨version, name, .zdb, .zdb ⟨size, .user, "pass", false⟩, "", "", none⟩

def sampleDeployment (contractId : Option Nat) (workloads : List Workload) : Deployment :=
  ⟨0, 1, contractId, 0, "", "", workloads, ⟨[⟨1, false, 1⟩], 1, []⟩⟩

/-- When the first batch is refused, a handler that deploys one database leaves no contract. -/
theorem refused_deploy_leaves_chain :
    ∃ w e, handle { sampleEnv with rejects := fun _ _ => true }
        [.make (sampleDeployment none [sampleZdb "db" 0 1]) .deploy 0 11 "" none]
        (sampleWorld .empty fun _ => none) = .error e w ∧ w.chain = .empty := by
  let env : HandlerEnv Ledger := { sampleEnv with rejects := fun _ _ => true }
  let ts := [TwinDeployment.make (sampleDeployment none [sampleZdb "db" 0 1]) .deploy 0 11 "" none]
  have hprepare : returned (prepare env ts (sampleWorld .empty fun _ => none)) = true := by
    decide +kernel
  have hcreate : returned ((prepare env ts >>= create env)
      (sampleWorld .empty fun _ => none)) = false := by
    decide +kernel
  obtain ⟨plan, w, hplan⟩ := exists_ok_of_returned hprepare
  rw [bind_of_ok hplan] at hcreate
  obtain ⟨e, w', herror⟩ := exists_error_of_returned hcreate
  have hlate : NoLateFailure env (plan.creations.map some) w := by
    rintro k hk ⟨hrej, -⟩
    cases hrej 0 hk
  obtain ⟨-, -, hleaves⟩ := applyAllExtrinsics_allOrNothing_iff env [] w
  exact ⟨w', e, hleaves ts plan _ w' e hplan herror hlate⟩

/-- Four hundred name contracts, and the update of a contract that is gone. -/
def manyExtrinsics : List Extrinsic :=
  ((List.range 400).map fun i => createName (toString i)) ++ [updateNode ⟨500, "", ""⟩]

/-- The second batch fails when the first one is on the chain. -/
theorem manyExtrinsics_not_allOrNothing :
    ¬ AllOrNothing (batchOf sampleEnv (manyExtrinsics.map some) (sampleWorld .empty fun _ => none))
      ((manyExtrinsics.map some).filterMap id) := by
  have hxs : (manyExtrinsics.map some).filterMap id = manyExtrinsics := by
    rw [List.filterMap_map]
    exact List.filterMap_some
  have hslices : slices (batchSize - 1) manyExtrinsics =
      [(List.range 400).map fun i => createName (toString i), [updateNode ⟨500, "", ""⟩]] := by
    rw [manyExtrinsics, slices_append (by simp [batchSize]),
      slices_of_length_le (by simp) (by simp)]
  have hcalls : ((List.range 400).map fun i => createName (toString i)).map (·.call) =
      ((List.range 400).map toString).map Call.createNameContract := by
    rw [List.map_map, List.map_map]
    rfl
  obtain ⟨l, evs, hexec, hnext⟩ :=
    execAll_createNames ((List.range 400).map toString) Ledger.empty
  have hfree : l.contract 500 = none := by
    apply l.free
    rw [hnext, List.length_map, List.length_range]
    decide
  have hfails : ledgerRuntime.execAll [.updateNodeContract 500 "" ""] l = none := by
    have hstep : ledgerRuntime.exec (.updateNodeContract 500 "" "") l = none := by
      change l.updateContract 500 "" "" = none
      unfold Ledger.updateContract
      split
      · rfl
      · rename_i c hc
        rw [hfree] at hc
        cases hc
    simp only [Runtime.execAll, hstep]
  rw [batchOf, batchAll_allOrNothing_iff, hxs, hslices]
  intro h
  refine h 1 Nat.one_pos ⟨fun _ _ => rfl, _, l, evs, rfl, ?_, Or.inr hfails⟩
  rw [List.take_succ_cons, List.take_zero, List.flatten_singleton, hcalls]
  exact hexec

end ThreefoldSdk.HighLevel
