import ThreefoldSdk.HighLevel.HandleFrame
import ThreefoldSdk.TfChain.BatchEffects

/-! What a plan holds once it is prepared: its extrinsics create contracts or update and cancel
contracts that exist. -/

namespace ThreefoldSdk.HighLevel
open Zos Primitives TfChain Frame

/-- The extrinsics of a plan against the contracts `s` of the chain. -/
structure Sound {S : Type} (chain : Chain S) (s : S) (creations : List Extrinsic)
    (deletions : List (Option Extrinsic)) (updated : List Contract) : Prop where
  makes : ∀ x ∈ creations, ∃ call, Makes call ∧ x = patchExtrinsic call
  updates : ∀ id hash data, patchExtrinsic (.updateNodeContract id hash data) ∈ creations →
    ∃ c ∈ updated, c.contractId = id
  updated : ∀ c ∈ updated, chain.contract s c.contractId = some c
  cancels : ∀ x, some x ∈ deletions → ∃ id, x = cancelExtrinsic id ∧ chain.contract s id ≠ none

section
variable {S : Type} {env : HandlerEnv S}

theorem sound_nil {chain : Chain S} {s : S} : Sound chain s [] [] [] where
  makes := by simp
  updates := by simp
  updated := by simp
  cancels := by simp

theorem Sound.append {chain : Chain S} {s : S} {xs ys : List Extrinsic}
    {ds es : List (Option Extrinsic)} {us vs : List Contract} (h : Sound chain s xs ds us)
    (h' : Sound chain s ys es vs) : Sound chain s (xs ++ ys) (ds ++ es) (us ++ vs) where
  makes x hx := (List.mem_append.mp hx).elim (h.makes x) (h'.makes x)
  updates id hash data hx := by
    rcases List.mem_append.mp hx with hx | hx
    · obtain ⟨c, hc, hid⟩ := h.updates id hash data hx
      exact ⟨c, List.mem_append_left _ hc, hid⟩
    · obtain ⟨c, hc, hid⟩ := h'.updates id hash data hx
      exact ⟨c, List.mem_append_right _ hc, hid⟩
  updated c hc := (List.mem_append.mp hc).elim (h.updated c) (h'.updated c)
  cancels x hx := (List.mem_append.mp hx).elim (h.cancels x) (h'.cancels x)

/-- The order of the extrinsics does not matter. -/
theorem Sound.perm {chain : Chain S} {s : S} {xs ys : List Extrinsic}
    {ds : List (Option Extrinsic)} {us : List Contract} (h : Sound chain s xs ds us)
    (hp : ∀ x, x ∈ ys ↔ x ∈ xs) : Sound chain s ys ds us where
  makes x hx := h.makes x ((hp x).mp hx)
  updates id hash data hx := h.updates id hash data ((hp _).mp hx)
  updated := h.updated
  cancels := h.cancels

/-- A creation of a node or a name contract. -/
def Creates (x : Extrinsic) : Prop :=
  ∃ call, Makes call ∧ x = patchExtrinsic call ∧
    ∀ id hash data, call ≠ .updateNodeContract id hash data

theorem creates_createNode (o : CreateNodeOptions) : Creates (createNode o) :=
  ⟨_, .createNode .., rfl, fun _ _ _ h => nomatch h⟩

theorem creates_createName (name : String) : Creates (createName name) :=
  ⟨_, .createName name, rfl, fun _ _ _ h => nomatch h⟩

theorem sound_of_creates {chain : Chain S} {s : S} {xs : List Extrinsic}
    (h : ∀ x ∈ xs, Creates x) : Sound chain s xs [] [] where
  makes x hx := by
    obtain ⟨call, hm, heq, -⟩ := h x hx
    exact ⟨call, hm, heq⟩
  updates id hash data hx := by
    obtain ⟨call, -, heq, hne⟩ := h _ hx
    exact absurd (congrArg ExtrinsicResult.call heq).symm (hne id hash data)
  updated := by simp
  cancels := by simp

theorem sound_of_cancels {chain : Chain S} {s : S} {ds : List (Option Extrinsic)}
    (h : ∀ d ∈ ds, ∃ id, d = cancel chain s id) : Sound chain s [] ds [] where
  makes := by simp
  updates := by simp
  updated := by simp
  cancels x hx := by
    obtain ⟨id, hid⟩ := h _ hx
    unfold cancel at hid
    cases hc : chain.contract s id with
    | none => simp [hc] at hid
    | some c =>
      simp only [hc, Option.map_some, Option.some.injEq] at hid
      exact ⟨id, hid, by simp [hc]⟩

/-! What the requests return. -/

theorem keeps_chain {α : Type} {x : M S α} (h : Keeps World.grid x) : Keeps World.chain x :=
  h.comp Prod.fst

theorem reads_getContract (id : Nat) :
    Reads World.chain (fun s c => c = env.chain.contract s id) (getContract env id) := by
  refine (keeps_chain keeps_external).reads.bind fun _ => (reads_get _).bind fun w => ?_
  exact reads_pure fun s hw _ => by rw [hw]

theorem reads_cancelContract (id : Nat) :
    Reads World.chain (fun s x => x = cancel env.chain s id) (cancelContract env id) := by
  refine (keeps_chain keeps_external).reads.bind fun _ => (reads_get _).bind fun w => ?_
  exact reads_pure fun s hw _ => by rw [hw]

theorem contract_zero (chain : Chain S) (s : S) : chain.contract s 0 = none := by
  cases h : chain.contract s 0 with
  | none => rfl
  | some c => exact absurd rfl (chain.contract_id s 0 c h).2

theorem reads_deleteNameContract (name : String) :
    Reads World.chain (fun s x => x = cancel env.chain s (env.chain.contractIdByName s name))
      (deleteNameContract env name) := by
  refine (keeps_chain keeps_external).reads.bind fun _ => (reads_get _).bind fun w => ?_
  simp only
  split
  · rename_i hzero
    refine reads_pure fun s hw _ => ?_
    rw [← hw, hzero, cancel, contract_zero, Option.map_none]
  · exact (reads_cancelContract _).mono fun s x hx hw _ => by rw [hx, hw]

theorem reads_lift {α : Type} (x : Except GridError α) :
    Reads World.chain (fun _ a => x = .ok a) (lift x : M S α) := by
  cases x with
  | ok a => exact reads_pure fun _ => rfl
  | error e => exact reads_throw _ _ _

theorem reads_createNameContract (name : String) :
    Reads World.chain (fun _ x => x = createName name) (createNameContract env name) := by
  have hlast : Reads World.chain (fun _ x => x = createName name) (tryCatch (do
        checkKyc env ("Your account is not verified. Please sign into ThreeFold Dashboard or " ++
          "ThreeFold Connect mobile app to complete your KYC verification.")
        return createName name : M S Extrinsic)
      fun e => throw (.other "TFChainError"
        ("Failed to create name contract " ++ name ++ " due to " ++ e.toText ++ "."))) := by
    refine Reads.tryCatch_throw _ ?_
    exact (keeps_chain (keeps_checkKyc _)).reads.bind fun _ => reads_pure fun _ _ => rfl
  refine (keeps_chain keeps_external).reads.bind fun _ => (reads_get _).bind fun w => ?_
  simp only
  split
  · refine (reads_getContract _).bind fun c => ?_
    split
    · split
      · exact (reads_throw World.chain (fun _ _ => True) _).bind fun _ =>
          hlast.mono fun _ _ h _ _ _ _ => h
      · exact hlast.mono fun _ _ h _ _ _ => h
    · exact hlast.mono fun _ _ h _ _ _ => h
  · exact hlast.mono fun _ _ h _ _ => h

theorem reads_nameExtrinsicsOf (ws : List Workload) :
    Reads World.chain (fun _ xs => ∀ x ∈ xs, Creates x) (nameExtrinsicsOf env ws) := by
  induction ws with
  | nil => exact reads_pure fun _ => by simp
  | cons w ws ih =>
    rw [nameExtrinsicsOf]
    split
    · refine (reads_createNameContract _).bind fun x => ih.bind fun xs => reads_pure ?_
      rintro s hxs rfl y hy
      rcases List.mem_cons.mp hy with rfl | hy
      · exact creates_createName _
      · exact hxs y hy
    · exact ih

theorem reads_deletedNamesOf (ws : List Workload) :
    Reads World.chain (fun s xs => ∀ x ∈ xs, ∃ id, x = cancel env.chain s id)
      (deletedNamesOf env ws) := by
  induction ws with
  | nil => exact reads_pure fun _ => by simp
  | cons w ws ih =>
    rw [deletedNamesOf]
    split
    · refine (reads_deleteNameContract _).bind fun x => ih.bind fun xs => reads_pure ?_
      intro s hxs hx
      split
      · intro y hy
        rcases List.mem_cons.mp hy with rfl | hy
        · exact ⟨_, hx⟩
        · exact hxs y hy
      · exact hxs
    · exact ih

theorem reads_prepareExtrinsic (t : TwinDeployment) :
    Reads World.chain (fun s p => Sound env.chain s (p.nodeExtrinsics ++ p.nameExtrinsics)
      p.deletedExtrinsics p.updated) (prepareExtrinsic env t) := by
  unfold prepareExtrinsic
  split
  · refine (reads_nameExtrinsicsOf _).bind fun names => reads_pure fun s hnames => ?_
    refine sound_of_creates fun x hx => ?_
    rcases List.mem_append.mp hx with hx | hx
    · rw [List.mem_singleton.mp hx]
      exact creates_createNode _
    · exact hnames x hx
  · refine (reads_nameExtrinsicsOf _).bind fun names => (reads_getContract _).bind fun contract =>
      (reads_lift _).bind fun p => reads_pure ?_
    intro s hlift hcontract hnames
    obtain ⟨c, n⟩ := p
    have hc : env.chain.contract s (t.contractId.getD 0) = some c := by
      unfold nodeContractOf at hlift
      split at hlift
      · split at hlift
        · cases hlift
          exact hcontract.symm
        · cases hlift
      · cases hlift
    have hid : c.contractId = t.contractId.getD 0 := (env.chain.contract_id _ _ _ hc).1
    have hone : Sound env.chain s
        [updateNode ⟨t.contractId.getD 0, t.deployment.challengeHash env.md5, n.deploymentData⟩]
        [] [c] :=
      { makes := fun x hx => ⟨_, .updateNode .., List.mem_singleton.mp hx⟩
        updates := fun id hash data hx => by
          have hcall := congrArg ExtrinsicResult.call (List.mem_singleton.mp hx)
          cases hcall
          exact ⟨c, List.mem_singleton_self c, hid⟩
        updated := fun d hd => by rw [List.mem_singleton.mp hd, hid, hc]
        cancels := by simp }
    have hcreates : Sound env.chain s names [] [] := sound_of_creates hnames
    simpa using hone.append hcreates
  · refine (reads_deletedNamesOf _).bind fun names => (reads_cancelContract _).bind fun x =>
      reads_pure fun s hx hnames => ?_
    refine sound_of_cancels fun d hd => ?_
    rcases List.mem_append.mp hd with hd | hd
    · exact hnames d hd
    · rw [List.mem_singleton.mp hd]
      exact ⟨_, hx⟩

theorem reads_prepareAll (ts : List TwinDeployment) :
    Reads World.chain (fun s plan => Sound env.chain s (plan.nodeExtrinsics ++ plan.nameExtrinsics)
      plan.deletedExtrinsics plan.updated) (prepareAll env ts) := by
  induction ts with
  | nil => exact reads_pure fun _ => sound_nil
  | cons t ts ih =>
    refine (reads_lift _).bind fun t => (reads_prepareExtrinsic t).bind fun p => ih.bind fun plan =>
      reads_pure fun s hplan hp _ => ?_
    refine (hp.append hplan).perm fun x => ?_
    simp only [Plan.add, List.mem_append]
    tauto

/-- A plan that was prepared is sound for the chain it was prepared on. -/
theorem reads_prepare (ts : List TwinDeployment) :
    Reads World.chain (fun s plan => Sound env.chain s (plan.nodeExtrinsics ++ plan.nameExtrinsics)
      plan.deletedExtrinsics plan.updated) (prepare env ts) := by
  refine (keeps_chain (keeps_checkKyc _)).reads.bind fun _ =>
    (keeps_chain (keeps_mergeAll _)).reads.bind fun twins => (reads_lift _).bind fun _ =>
    (reads_lift _).bind fun _ => (reads_lift _).bind fun _ => ?_
  exact (reads_prepareAll twins).mono fun s plan h _ _ _ _ _ => h

/-! Where the deletions of a plan come from. -/

/-- The contracts that a twin deployment wants cancelled, of those that exist. -/
def deletedIds (chain : Chain S) (s : S) (t : TwinDeployment) : List Nat :=
  if t.operation = .delete then
    (((t.workloads.filter fun w => decide (w.type = .gatewaynameproxy)).map fun w =>
        chain.contractIdByName s (gatewayName w.data)) ++ [t.contractId.getD 0]).filter fun id =>
      (chain.contract s id).isSome
  else []

theorem filterMap_cancel (chain : Chain S) (s : S) (ids : List Nat) :
    (ids.map (cancel chain s)).filterMap id =
      (ids.filter fun id => (chain.contract s id).isSome).map cancelExtrinsic := by
  induction ids with
  | nil => rfl
  | cons i ids ih =>
    rw [List.map_cons, List.filterMap_cons, ih]
    cases hc : chain.contract s i with
    | none => simp [cancel, hc]
    | some c => simp [cancel, hc]

theorem reads_deletedNames_ids (ws : List Workload) :
    Reads World.chain (fun s xs => xs.filterMap id =
      (((ws.filter fun w => decide (w.type = .gatewaynameproxy)).map fun w =>
        env.chain.contractIdByName s (gatewayName w.data)).map (cancel env.chain s)).filterMap id)
      (deletedNamesOf env ws) := by
  induction ws with
  | nil => exact reads_pure fun _ => rfl
  | cons w ws ih =>
    rw [deletedNamesOf]
    split
    · rename_i hw
      refine (reads_deleteNameContract _).bind fun x => ih.bind fun xs => reads_pure ?_
      rintro s hxs rfl
      rw [List.filter_cons_of_pos (by simpa using hw), List.map_cons, List.map_cons]
      cases cancel env.chain s (env.chain.contractIdByName s (gatewayName w.data)) with
      | none => simpa using hxs
      | some y => simpa using hxs
    · rename_i hw
      rw [List.filter_cons_of_neg (by simpa using hw)]
      exact ih

theorem reads_prepareExtrinsic_ids (t : TwinDeployment) :
    Reads World.chain (fun s p => p.deletedExtrinsics.filterMap id =
      (deletedIds env.chain s t).map cancelExtrinsic) (prepareExtrinsic env t) := by
  unfold prepareExtrinsic
  split
  · rename_i hop
    refine (reads_nameExtrinsicsOf _).bind fun names => reads_pure fun s _ => ?_
    simp [deletedIds, hop]
  · rename_i hop
    refine (reads_nameExtrinsicsOf _).bind fun names => (reads_getContract _).bind fun contract =>
      (reads_lift _).bind fun p => reads_pure fun s _ _ _ => ?_
    simp [deletedIds, hop]
  · rename_i hop
    refine (reads_deletedNames_ids _).bind fun names => (reads_cancelContract _).bind fun x =>
      reads_pure ?_
    rintro s rfl hnames
    rw [List.filterMap_append, hnames, deletedIds, if_pos hop, List.filter_append, List.map_append,
      ← filterMap_cancel, ← filterMap_cancel]
    rfl

theorem updateWorkload_type {json : MetadataJson} {n : AnyNetwork} {nodeId : Nat} {w w' : Workload}
    (h : n.updateWorkload json nodeId w = .ok w') : w'.type = w.type := by
  cases n with
  | network n =>
    obtain ⟨metadata, -, hw⟩ := exceptBind_eq_ok.mp h
    cases hw
    rfl
  | light n =>
    obtain ⟨metadata, -, hw⟩ := exceptBind_eq_ok.mp h
    cases hw
    rfl

/-- A workload after the step on the network: of the same type, and itself unless a network. -/
structure Renewed (w w' : Workload) : Prop where
  type : w'.type = w.type
  other : isAnyNetwork w = false → w' = w

theorem updatedWorkloads_ok {json : MetadataJson} {n : AnyNetwork} {nodeId : Nat}
    {ws ws' : List Workload} (h : updatedWorkloads json n nodeId ws = .ok ws') :
    List.Forall₂ Renewed ws ws' := by
  induction ws generalizing ws' with
  | nil =>
    cases h
    exact .nil
  | cons w ws ih =>
    rw [updatedWorkloads] at h
    split_ifs at h with hnet
    · obtain ⟨w₁, hw, hrest⟩ := exceptBind_eq_ok.mp h
      obtain ⟨ws₁, hws, hok⟩ := exceptBind_eq_ok.mp hrest
      cases hok
      have hkept : isAnyNetwork w = false → w₁ = w := fun hother =>
        absurd (hother ▸ hnet) Bool.false_ne_true
      exact .cons ⟨updateWorkload_type hw, hkept⟩ (ih hws)
    · obtain ⟨w₁, hw, hrest⟩ := exceptBind_eq_ok.mp h
      obtain ⟨ws₁, hws, hok⟩ := exceptBind_eq_ok.mp hrest
      cases hw
      cases hok
      exact .cons ⟨rfl, fun _ => rfl⟩ (ih hws)

/-- The step on the network renews the workloads and nothing else. -/
theorem updateNetworkWorkloads_ok {json : MetadataJson} {t t' : TwinDeployment}
    (h : updateNetworkWorkloads json t = .ok t') :
    ∃ ws, t' = t.withWorkloads ws ∧ List.Forall₂ Renewed t.workloads ws := by
  unfold updateNetworkWorkloads at h
  split at h
  · cases h
    exact ⟨t.workloads, rfl, List.forall₂_same.mpr fun w _ => ⟨rfl, fun _ => rfl⟩⟩
  · obtain ⟨ws, hws, rfl⟩ := exceptMap_eq_ok.mp h
    exact ⟨ws, rfl, updatedWorkloads_ok hws⟩

/-- The twin deployments of a plan are the merged ones, with their network workloads brought up to
date, and its deletions are theirs. -/
theorem reads_prepareAll_ids (ts : List TwinDeployment) :
    Reads World.chain (fun s plan =>
      List.Forall₂ (fun t t' => ∃ ws, t' = t.withWorkloads ws) ts plan.twins ∧
      plan.deletedExtrinsics.filterMap id =
        (plan.twins.flatMap (deletedIds env.chain s)).map cancelExtrinsic) (prepareAll env ts) := by
  induction ts with
  | nil => exact reads_pure fun _ => ⟨.nil, rfl⟩
  | cons t ts ih =>
    refine (reads_lift _).bind fun t' => (reads_prepareExtrinsic_ids t').bind fun p =>
      ih.bind fun plan => reads_pure fun s hplan hp hlift => ?_
    obtain ⟨ws, ht', -⟩ := updateNetworkWorkloads_ok hlift
    refine ⟨.cons ⟨ws, ht'⟩ hplan.1, ?_⟩
    simp only [Plan.add, List.filterMap_append, List.flatMap_cons, List.map_append, hp, hplan.2]

theorem reads_mergeAll (ts : List TwinDeployment) :
    Reads World.chain (fun _ twins => ∃ get, merge get ts = .ok twins) (mergeAll env ts) := by
  intro w twins w' h
  have hstep : mergeAll env ts w =
      (lift (merge (mergeLookup env w) ts) : M S _) { w with clock := w.clock + 1 } := rfl
  rw [hstep] at h
  obtain ⟨hkeep, hok⟩ := reads_lift _ _ _ _ h
  exact ⟨hkeep, _, hok⟩

theorem reads_prepare_ids (ts : List TwinDeployment) :
    Reads World.chain (fun s plan => ∃ get twins, merge get ts = .ok twins ∧
      List.Forall₂ (fun t t' => ∃ ws, t' = t.withWorkloads ws) twins plan.twins ∧
      plan.deletedExtrinsics.filterMap id =
        (plan.twins.flatMap (deletedIds env.chain s)).map cancelExtrinsic) (prepare env ts) := by
  refine (keeps_chain (keeps_checkKyc _)).reads.bind fun _ =>
    (reads_mergeAll _).bind fun twins => (reads_lift _).bind fun _ =>
    (reads_lift _).bind fun _ => (reads_lift _).bind fun _ => ?_
  refine (reads_prepareAll_ids twins).mono ?_
  rintro s plan h - - - ⟨get, hmerge⟩ -
  exact ⟨get, twins, hmerge, h⟩

end

end ThreefoldSdk.HighLevel
