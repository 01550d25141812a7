import ThreefoldSdk.HighLevel.Restore

/-! Under which contract `handle` sends a deployment: the first result with its hash. -/

namespace ThreefoldSdk.HighLevel
open Staged Zos Primitives TfChain Frame

section
variable {S : Type} (env : HandlerEnv S)

/-- The deployments that are sent. -/
def sentTwins (ts : List TwinDeployment) : List TwinDeployment :=
  ts.filter fun t => decide (t.operation ≠ .delete)

def deploysOf (ts : List TwinDeployment) : List TwinDeployment :=
  ts.filter fun t => decide (t.operation = .deploy)

def hashOf (t : TwinDeployment) : String := t.deployment.challengeHash env.md5

/-- What a round of the loop makes of a twin deployment before it is sent. -/
def assigned (results : List Contract) (t : TwinDeployment) : Except GridError TwinDeployment :=
  match t.operation with
  | .deploy => (findByHash (hashOf env t) results).map fun c =>
      match c with
      | some c => { t with deployment := { t.deployment with contractId := some c.contractId } }
      | none => t
  | .update => (findByHash (hashOf env t) results).map fun c =>
      match c.bind (·.nodeContract) with
      | some n => { t with nodeId := n.nodeId }
      | none => t
  | .delete => .ok t

/-- The node a twin deployment is for: an update stays on the node of its contract. -/
def home (s : S) (t : TwinDeployment) : Option Nat :=
  match t.operation with
  | .deploy => some t.nodeId
  | _ => nodeOn env.chain s (t.contractId.getD 0)

/-- Every deployment is sent under a contract created for it, no two under the same one, and every
update to the node of its contract. -/
structure SentUnderOwn (s : S) (plan : Plan) (results : List Contract) : Prop where
  deploys : ∀ t ∈ plan.twins, t.operation = .deploy → ∃ c ∈ createdOf plan results, ∃ n a,
    c.nodeContract = some n ∧ n.nodeId = t.nodeId ∧ n.deploymentHash = hashOf env t ∧
      assigned env results t = .ok a ∧ a.contractId = some c.contractId
  distinct : (deploysOf plan.twins).Pairwise fun t t' => ∀ a a', assigned env results t = .ok a →
    assigned env results t' = .ok a' → a.contractId ≠ a'.contractId
  updates : ∀ t ∈ plan.twins, t.operation = .update → ∃ a, assigned env results t = .ok a ∧
    nodeOn env.chain s (t.contractId.getD 0) = some a.nodeId

/-- The deployments have distinct hashes, and no update has the hash of something before it on
another node. -/
structure Recognised (s : S) (twins : List TwinDeployment) : Prop where
  deploys : ((deploysOf twins).map (hashOf env)).Nodup
  updates : ∀ t ∈ twins, t.operation = .update →
    ∀ u ∈ (sentTwins twins).find? (fun u => decide (hashOf env u = hashOf env t)),
      home env s u = home env s t

/-- The extrinsic that `PrepareExtrinsic` makes of a deployment that is sent. -/
def Requests (t : TwinDeployment) (x : Extrinsic) : Prop :=
  match t.operation with
  | .deploy => x = createNode ⟨t.nodeId, hashOf env t, t.metadata, t.publicIps, t.solutionProviderId⟩
  | .update => ∃ data, x = updateNode ⟨t.contractId.getD 0, hashOf env t, data⟩
  | .delete => False

/-- The contract is the one that was made or changed for the twin deployment. -/
structure OwnResult (s : S) (t : TwinDeployment) (c : Contract) : Prop where
  node : ∃ n, c.nodeContract = some n ∧ n.deploymentHash = hashOf env t ∧
    home env s t = some n.nodeId
  fresh : t.operation = .deploy → env.chain.contract s c.contractId = none

end

section
variable {S : Type} {env : HandlerEnv S} {s : S}

theorem sentTwins_cons (t : TwinDeployment) (ts : List TwinDeployment) :
    sentTwins (t :: ts) = sentTwins [t] ++ sentTwins ts := by
  rw [sentTwins, sentTwins, sentTwins, ← List.filter_append]
  rfl

/-! The results of the batch. -/

theorem reads_prepareExtrinsic_requests (t : TwinDeployment) :
    Reads World.chain (fun _ p => List.Forall₂ (Requests env) (sentTwins [t]) p.nodeExtrinsics)
      (prepareExtrinsic env t) := by
  unfold prepareExtrinsic
  split
  · rename_i hop
    refine (reads_nameExtrinsicsOf _).bind fun names => reads_pure fun s _ => ?_
    have hsent : sentTwins [t] = [t] := by simp [sentTwins, hop]
    rw [hsent]
    refine .cons ?_ .nil
    unfold Requests
    rw [hop]
    rfl
  · rename_i hop
    refine (reads_nameExtrinsicsOf _).bind fun names => (reads_getContract _).bind fun contract =>
      (reads_lift _).bind fun p => reads_pure fun s _ _ _ => ?_
    have hsent : sentTwins [t] = [t] := by simp [sentTwins, hop]
    rw [hsent]
    refine .cons ?_ .nil
    unfold Requests
    rw [hop]
    exact ⟨_, rfl⟩
  · rename_i hop
    refine (reads_deletedNamesOf _).bind fun names => (reads_cancelContract _).bind fun x =>
      reads_pure fun s _ _ => ?_
    have hsent : sentTwins [t] = [] := by simp [sentTwins, hop]
    rw [hsent]
    exact .nil

theorem reads_prepareAll_requests (ts : List TwinDeployment) :
    Reads World.chain (fun _ plan =>
      List.Forall₂ (Requests env) (sentTwins plan.twins) plan.nodeExtrinsics)
      (prepareAll env ts) := by
  induction ts with
  | nil => exact reads_pure fun _ => .nil
  | cons t ts ih =>
    refine (reads_lift _).bind fun t' => (reads_prepareExtrinsic_requests t').bind fun p =>
      ih.bind fun plan => reads_pure fun s hplan hp _ => ?_
    change List.Forall₂ _ (sentTwins (t' :: plan.twins)) (p.nodeExtrinsics ++ plan.nodeExtrinsics)
    rw [sentTwins_cons]
    exact List.rel_append hp hplan

theorem prepare_requests {ts : List TwinDeployment} {w w' : World S} {plan : Plan}
    (h : prepare env ts w = .ok plan w') :
    List.Forall₂ (Requests env) (sentTwins plan.twins) plan.nodeExtrinsics := by
  have hall : Reads World.chain (fun _ plan =>
      List.Forall₂ (Requests env) (sentTwins plan.twins) plan.nodeExtrinsics) (prepare env ts) := by
    refine (keeps_chain (keeps_checkKyc _)).reads.bind fun _ =>
      (reads_mergeAll _).bind fun twins => (reads_lift _).bind fun _ =>
      (reads_lift _).bind fun _ => (reads_lift _).bind fun _ => ?_
    exact (reads_prepareAll_requests twins).mono fun s plan h _ _ _ _ _ => h
  exact (hall w plan w' h).2

/-- The contract made for an extrinsic is the one of its twin deployment. -/
theorem ownResult_of_made {t : TwinDeployment} {x : Extrinsic} {c : Contract}
    (hx : Requests env t x) (hmade : Made env.chain s x.call c)
    (hkeeps : KeepsNode env.chain s x.call c) : OwnResult env s t c := by
  unfold Requests at hx
  split at hx
  · rename_i hop
    rw [hx] at hmade
    refine ⟨⟨_, hmade.2, rfl, ?_⟩, fun _ => hmade.1⟩
    unfold home
    rw [hop]
  · rename_i hop
    obtain ⟨data, rfl⟩ := hx
    obtain ⟨-, -, n, hn, hhash⟩ := hmade
    refine ⟨⟨n, hn, hhash, ?_⟩, fun hdeploy => ?_⟩
    · unfold home
      rw [hop]
      change c.nodeContract.map (·.nodeId) = nodeOn env.chain s (t.contractId.getD 0) at hkeeps
      rw [hn] at hkeeps
      exact hkeeps.symm
    · rw [hop] at hdeploy
      cases hdeploy
  · exact hx.elim

theorem ownResults {ts : List TwinDeployment} {w w₁ w₂ : World S} {plan : Plan}
    {results : List Contract} (hplan : prepare env ts w = .ok plan w₁)
    (hcreate : create env plan w₁ = .ok results w₂) :
    (newIds env.chain w.chain results).Nodup ∧ ∃ cs ds, results = cs ++ ds ∧
      List.Forall₂ (OwnResult env w.chain) (sentTwins plan.twins) cs := by
  obtain ⟨hchain, hsound⟩ := reads_prepare ts w plan w₁ hplan
  have hsound₁ : SoundPlan env w₁.chain plan := hchain ▸ hsound
  obtain ⟨hmade, hkeeps, hnodup, -⟩ := create_results hsound₁ hcreate
  rw [hchain] at hmade hkeeps hnodup
  refine ⟨hnodup, ?_⟩
  have hboth := List.Forall₂.mp (S := fun call c => Made env.chain w.chain call c ∧
    KeepsNode env.chain w.chain call c) (fun _ _ h h' => ⟨h, h'⟩) hmade hkeeps
  rw [Plan.creations, List.map_append] at hboth
  obtain ⟨cs, ds, hresults, hcs, -⟩ := Forall2.split_append hboth
  refine ⟨cs, ds, hresults, ?_⟩
  have hown : ∀ {twins : List TwinDeployment} {xs : List Extrinsic} {cs : List Contract},
      List.Forall₂ (Requests env) twins xs → List.Forall₂ (fun call c =>
        Made env.chain w.chain call c ∧ KeepsNode env.chain w.chain call c)
        (xs.map (·.call)) cs →
      List.Forall₂ (OwnResult env w.chain) twins cs := by
    intro twins xs cs hxs
    induction hxs generalizing cs with
    | nil =>
      intro h
      rw [List.map_nil, List.forall₂_nil_left_iff] at h
      rw [h]
      exact .nil
    | cons hx _ ih =>
      intro h
      obtain ⟨c, cs', hc, hrest, rfl⟩ := List.forall₂_cons_left_iff.mp h
      exact .cons (ownResult_of_made hx hc.1 hc.2) (ih hrest)
  exact hown (prepare_requests hplan) hcs

/-! The search by hash. -/

/-- It finds the result of the first deployment that is sent with the hash. -/
theorem findByHash_first {sent : List TwinDeployment} {cs : List Contract} (ds : List Contract)
    (h : List.Forall₂ (OwnResult env s) sent cs) {t : TwinDeployment} (ht : t ∈ sent) :
    ∃ u ∈ sent, ∃ c ∈ cs, OwnResult env s u c ∧
      sent.find? (fun u => decide (hashOf env u = hashOf env t)) = some u ∧
      findByHash (hashOf env t) (cs ++ ds) = .ok (some c) := by
  induction h with
  | nil => cases ht
  | @cons u c sent cs hown hrest ih =>
    obtain ⟨n, hn, hhash, -⟩ := hown.node
    rw [List.cons_append, findByHash, hn, List.find?_cons]
    by_cases heq : hashOf env u = hashOf env t
    · rw [decide_eq_true heq]
      refine ⟨u, List.mem_cons_self, c, List.mem_cons_self, hown, rfl, ?_⟩
      exact if_pos (heq.symm.trans hhash.symm)
    · rw [decide_eq_false heq]
      have hin : t ∈ sent := by
        rcases List.mem_cons.mp ht with rfl | hin
        · exact absurd rfl heq
        · exact hin
      obtain ⟨v, hv, d, hd, hvd, hfind, hfound⟩ := ih hin
      refine ⟨v, List.mem_cons_of_mem _ hv, d, List.mem_cons_of_mem _ hd, hvd, hfind, ?_⟩
      have hne : hashOf env t ≠ n.deploymentHash := fun h => heq (hhash.symm.trans h.symm)
      exact (if_neg hne).trans hfound

theorem assigned_deploy {results : List Contract} {t : TwinDeployment} {c : Contract}
    (hop : t.operation = .deploy) (h : findByHash (hashOf env t) results = .ok (some c)) :
    ∃ a, assigned env results t = .ok a ∧ a.contractId = some c.contractId := by
  unfold assigned
  rw [hop, h]
  exact ⟨_, rfl, rfl⟩

theorem assigned_update {results : List Contract} {t : TwinDeployment} {c : Contract}
    {n : NodeContract} (hop : t.operation = .update)
    (h : findByHash (hashOf env t) results = .ok (some c)) (hn : c.nodeContract = some n) :
    ∃ a, assigned env results t = .ok a ∧ a.nodeId = n.nodeId := by
  unfold assigned
  rw [hop, h]
  refine ⟨{ t with nodeId := n.nodeId }, ?_, rfl⟩
  simp only [Except.map, Option.bind_some, hn, hop]

/-- A merged plan has its deploys first. -/
theorem sentTwins_deploys_first {ts : List TwinDeployment} {w w' : World S} {plan : Plan}
    (h : prepare env ts w = .ok plan w') :
    ∃ us, sentTwins plan.twins = deploysOf plan.twins ++ us := by
  obtain ⟨-, get, twins, hmerge, htwins, -⟩ := reads_prepare_ids ts w plan w' h
  obtain ⟨us, hus, hout⟩ := merge_ok hmerge
  rw [hout, List.append_assoc] at htwins
  obtain ⟨ds, rest, hsplit, hds, hrest⟩ := Forall2.split_append htwins
  have hdeploy : ∀ t ∈ ds, t.operation = .deploy := by
    intro t ht
    obtain ⟨t₀, ht₀, ws, rfl⟩ := Forall2.exists_left hds ht
    have hop : t₀.operation = .deploy := deployMerge_operation ht₀
    exact hop
  have hother : ∀ t ∈ rest, t.operation ≠ .deploy := by
    intro t ht
    obtain ⟨t₀, ht₀, ws, rfl⟩ := Forall2.exists_left hrest ht
    have hop : t₀.operation ≠ .deploy := by
      rcases List.mem_append.mp ht₀ with ht₀ | ht₀
      · obtain ⟨-, hop, -⟩ := updateMerge_ok hus
        rw [hop t₀ (List.mem_filter.mp ht₀).1]
        decide
      · have hdel := (mergeDelete_spec _).2.1 t₀ ht₀
        rw [of_decide_eq_true (List.mem_filter.mp hdel).2]
        decide
    exact hop
  have hnone : deploysOf rest = [] :=
    List.filter_eq_nil_iff.mpr fun t ht hop => hother t ht (of_decide_eq_true hop)
  have hall : deploysOf ds = ds := List.filter_eq_self.mpr fun t ht => decide_eq_true (hdeploy t ht)
  have hsent : sentTwins ds = ds := by
    refine List.filter_eq_self.mpr fun t ht => decide_eq_true ?_
    rw [hdeploy t ht]
    decide
  refine ⟨sentTwins rest, ?_⟩
  rw [hsplit, sentTwins, List.filter_append, deploysOf, List.filter_append]
  change sentTwins ds ++ sentTwins rest = deploysOf ds ++ deploysOf rest ++ sentTwins rest
  rw [hsent, hall, hnone, List.append_nil]

theorem sendToNode_returns {t t' : TwinDeployment} {w w' : World S}
    (h : sendToNode env t w = .ok t' w') : t'.contractId = t.contractId ∧ t'.nodeId = t.nodeId := by
  have hreads : Reads (fun _ : World S => ())
      (fun _ t' => t'.contractId = t.contractId ∧ t'.nodeId = t.nodeId) (sendToNode env t) := by
    refine Reads.tryCatch_throw _ ?_
    exact (Keeps.reads fun _ => rfl).bind fun _ => (Keeps.reads fun _ => rfl).bind fun _ =>
      reads_pure fun _ _ _ => ⟨rfl, rfl⟩
  exact (hreads w t' w' h).2

/-- A round of the loop sends what it assigned. -/
theorem sendTwin_assigned {results cs us : List Contract} {t t' : TwinDeployment} {w w' : World S}
    (h : sendTwin env results t w = .ok (t', cs, us) w') :
    ∃ a, assigned env results t = .ok a ∧ t'.contractId = a.contractId ∧ t'.nodeId = a.nodeId := by
  unfold sendTwin at h
  unfold assigned hashOf
  cases hop : t.operation with
  | deploy =>
    rw [hop] at h
    obtain ⟨c, w₁, hc, h⟩ := bind_eq_ok.mp h
    obtain ⟨t'', w₂, hsend, h⟩ := bind_eq_ok.mp h
    cases h
    rw [(lift_eq_ok.mp hc).1]
    exact ⟨_, rfl, sendToNode_returns hsend⟩
  | update =>
    rw [hop] at h
    obtain ⟨u, w₀, -, h⟩ := bind_eq_ok.mp h
    obtain ⟨c, w₁, hc, h⟩ := bind_eq_ok.mp h
    obtain ⟨t'', w₂, hsend, h⟩ := bind_eq_ok.mp h
    cases h
    rw [(lift_eq_ok.mp hc).1]
    exact ⟨_, rfl, sendToNode_returns hsend⟩
  | delete =>
    rw [hop] at h
    cases h
    exact ⟨t, rfl, rfl, rfl⟩

theorem sendAll_assigned {results cs us : List Contract} {ts ts' : List TwinDeployment}
    {w w' : World S} (h : sendAll env results ts w = .ok (ts', cs, us) w') :
    List.Forall₂ (fun t t' => ∃ a, assigned env results t = .ok a ∧ t'.contractId = a.contractId ∧
      t'.nodeId = a.nodeId) ts ts' := by
  induction ts generalizing ts' cs us w with
  | nil =>
    cases h
    exact .nil
  | cons t ts ih =>
    obtain ⟨⟨t', cs₁, us₁⟩, w₁, hone, h⟩ := bind_eq_ok.mp h
    obtain ⟨⟨ts'', cs₂, us₂⟩, w₂, hrest, h⟩ := bind_eq_ok.mp h
    cases h
    exact .cons (sendTwin_assigned hone) (ih hrest)

/-- What the loop assigns to a twin deployment that is sent. -/
theorem assigned_first {plan : Plan} {results cs ds : List Contract}
    (hresults : results = cs ++ ds)
    (hown : List.Forall₂ (OwnResult env s) (sentTwins plan.twins) cs) {t : TwinDeployment}
    (ht : t ∈ plan.twins) (hop : t.operation ≠ .delete) :
    ∃ u ∈ plan.twins, ∃ c ∈ results, OwnResult env s u c ∧ hashOf env u = hashOf env t ∧
      (sentTwins plan.twins).find? (fun u => decide (hashOf env u = hashOf env t)) = some u ∧
      findByHash (hashOf env t) results = .ok (some c) := by
  have hin : t ∈ sentTwins plan.twins := List.mem_filter.mpr ⟨ht, decide_eq_true hop⟩
  obtain ⟨u, hu, c, hc, huc, hfind, hfound⟩ := findByHash_first ds hown hin
  rw [← hresults] at hfound
  refine ⟨u, (List.mem_filter.mp hu).1, c, ?_, huc, ?_, hfind, hfound⟩
  · rw [hresults]
    exact List.mem_append_left _ hc
  · have hp := List.find?_some (p := fun u => decide (hashOf env u = hashOf env t)) hfind
    exact of_decide_eq_true hp

/-- Two new contracts of a batch with one id are the same. -/
theorem eq_of_newIds {results : List Contract} (h : (newIds env.chain s results).Nodup)
    {c c' : Contract} (hc : c ∈ results) (hc' : c' ∈ results)
    (hfresh : env.chain.contract s c.contractId = none) (hid : c.contractId = c'.contractId) :
    c = c' := by
  unfold newIds at h
  rw [List.filter_map] at h
  have hnew : ∀ d ∈ results, d.contractId = c.contractId →
      d ∈ results.filter ((fun id => (env.chain.contract s id).isNone) ∘ (·.contractId)) := by
    intro d hd hdid
    refine List.mem_filter.mpr ⟨hd, ?_⟩
    rw [Function.comp_apply, hdid, hfresh]
    rfl
  exact List.inj_on_of_nodup_map h (hnew c hc rfl) (hnew c' hc' hid.symm) hid

/-- Among distinct hashes a deployment finds its own result, for no update comes before it. -/
theorem findByHash_deploy {plan : Plan} {results cs ds : List Contract} {us : List TwinDeployment}
    (hresults : results = cs ++ ds)
    (hown : List.Forall₂ (OwnResult env s) (sentTwins plan.twins) cs)
    (hsent : sentTwins plan.twins = deploysOf plan.twins ++ us)
    (hnodup : ((deploysOf plan.twins).map (hashOf env)).Nodup) {t : TwinDeployment}
    (ht : t ∈ plan.twins) (hop : t.operation = .deploy) :
    ∃ c ∈ results, OwnResult env s t c ∧ findByHash (hashOf env t) results = .ok (some c) := by
  have hne : t.operation ≠ .delete := by rw [hop]; decide
  obtain ⟨u, -, c, hc, huc, hhash, hfind, hfound⟩ := assigned_first hresults hown ht hne
  have htd : t ∈ deploysOf plan.twins := List.mem_filter.mpr ⟨ht, decide_eq_true hop⟩
  have hud : u ∈ deploysOf plan.twins := by
    rw [hsent, List.find?_append] at hfind
    cases hd : (deploysOf plan.twins).find? fun u => decide (hashOf env u = hashOf env t) with
    | none => exact absurd (decide_eq_true rfl) (List.find?_eq_none.mp hd t htd)
    | some v =>
      rw [hd, Option.some_or] at hfind
      exact Option.some.inj hfind ▸ List.mem_of_find?_eq_some hd
  have hut : u = t := List.inj_on_of_nodup_map hnodup hud htd hhash
  exact ⟨c, hc, hut ▸ huc, hfound⟩

/-- Every deployment is sent under a contract created for it and every update to its own node
exactly when the deployments have distinct hashes and no update has the hash of something that is
sent to another node before it. -/
theorem handle_sends_under_own_iff (env : HandlerEnv S) {ts : List TwinDeployment}
    {w w₁ w₂ : World S} {plan : Plan} {results : List Contract}
    (hplan : prepare env ts w = .ok plan w₁) (hcreate : create env plan w₁ = .ok results w₂) :
    (SentUnderOwn env w.chain plan results ↔ Recognised env w.chain plan.twins) ∧
      ∀ w₃ twins cs us w₄, sendAll env results plan.twins w₃ = .ok (twins, cs, us) w₄ →
        List.Forall₂ (fun t t' => ∃ a, assigned env results t = .ok a ∧
          t'.contractId = a.contractId ∧ t'.nodeId = a.nodeId) plan.twins twins := by
  refine ⟨?_, fun w₃ twins cs us w₄ h => sendAll_assigned h⟩
  obtain ⟨hnew, cs, ds, hresults, hown⟩ := ownResults hplan hcreate
  obtain ⟨us, hsent⟩ := sentTwins_deploys_first hplan
  obtain ⟨-, hsound⟩ := reads_prepare ts w plan w₁ hplan
  constructor
  · intro h
    refine ⟨?_, fun t ht hop u hu => ?_⟩
    · rw [List.Nodup, List.pairwise_map]
      refine h.distinct.imp_of_mem fun {t t'} ht ht' hdistinct hhash => ?_
      obtain ⟨htin, htop⟩ := List.mem_filter.mp ht
      obtain ⟨-, htop'⟩ := List.mem_filter.mp ht'
      have hop := of_decide_eq_true htop
      have hne : t.operation ≠ .delete := by rw [hop]; decide
      obtain ⟨u, -, c, -, -, -, -, hfound⟩ := assigned_first hresults hown htin hne
      obtain ⟨a, ha, haid⟩ := assigned_deploy hop hfound
      rw [hhash] at hfound
      obtain ⟨a', ha', haid'⟩ := assigned_deploy (of_decide_eq_true htop') hfound
      exact hdistinct a a' ha ha' (haid.trans haid'.symm)
    · have hne : t.operation ≠ .delete := by rw [hop]; decide
      obtain ⟨v, -, c, -, hvc, -, hfind, hfound⟩ := assigned_first hresults hown ht hne
      obtain rfl : v = u := Option.some.inj (hfind.symm.trans (Option.mem_def.mp hu))
      obtain ⟨n, hn, -, hhome⟩ := hvc.node
      obtain ⟨a, ha, hnode⟩ := assigned_update hop hfound hn
      obtain ⟨a', ha', hkept⟩ := h.updates t ht hop
      obtain rfl : a = a' := Except.ok.inj (ha.symm.trans ha')
      rw [hhome, ← hnode, ← hkept]
      unfold home
      rw [hop]
  · intro h
    have hdeploy : ∀ t ∈ plan.twins, t.operation = .deploy → ∃ c ∈ results,
        OwnResult env w.chain t c ∧ findByHash (hashOf env t) results = .ok (some c) :=
      fun t ht hop => findByHash_deploy hresults hown hsent h.deploys ht hop
    refine ⟨fun t ht hop => ?_, ?_, fun t ht hop => ?_⟩
    · obtain ⟨c, hc, htc, hfound⟩ := hdeploy t ht hop
      obtain ⟨n, hn, hhash, hhome⟩ := htc.node
      obtain ⟨a, ha, haid⟩ := assigned_deploy hop hfound
      have hcreated : c ∈ createdOf plan results := by
        refine List.mem_filter.mpr ⟨hc, List.all_eq_true.mpr fun u hu => decide_eq_true ?_⟩
        intro hid
        have hgone := htc.fresh hop
        rw [← hid, hsound.updated u hu] at hgone
        cases hgone
      unfold home at hhome
      rw [hop] at hhome
      exact ⟨c, hcreated, n, a, hn, (Option.some.inj hhome).symm, hhash, ha, haid⟩
    · have hpairwise := h.deploys
      rw [List.Nodup, List.pairwise_map] at hpairwise
      refine hpairwise.imp_of_mem fun {t t'} ht ht' hhash a a' ha ha' hid => hhash ?_
      obtain ⟨htin, htop⟩ := List.mem_filter.mp ht
      obtain ⟨htin', htop'⟩ := List.mem_filter.mp ht'
      obtain ⟨c, hc, htc, hfound⟩ := hdeploy t htin (of_decide_eq_true htop)
      obtain ⟨c', hc', htc', hfound'⟩ := hdeploy t' htin' (of_decide_eq_true htop')
      obtain ⟨b, hb, hbid⟩ := assigned_deploy (of_decide_eq_true htop) hfound
      obtain ⟨b', hb', hbid'⟩ := assigned_deploy (of_decide_eq_true htop') hfound'
      obtain rfl : b = a := Except.ok.inj (hb.symm.trans ha)
      obtain rfl : b' = a' := Except.ok.inj (hb'.symm.trans ha')
      have hsame : c = c' := eq_of_newIds hnew hc hc' (htc.fresh (of_decide_eq_true htop))
        (Option.some.inj (hbid.symm.trans (hid.trans hbid')))
      obtain ⟨n, hn, hn', -⟩ := htc.node
      obtain ⟨m, hm, hm', -⟩ := htc'.node
      obtain rfl : n = m := Option.some.inj (hn.symm.trans (hsame ▸ hm))
      exact hn'.symm.trans hm'
    · have hne : t.operation ≠ .delete := by rw [hop]; decide
      obtain ⟨u, -, c, -, huc, -, hfind, hfound⟩ := assigned_first hresults hown ht hne
      obtain ⟨n, hn, -, hhome⟩ := huc.node
      obtain ⟨a, ha, hnode⟩ := assigned_update hop hfound hn
      refine ⟨a, ha, ?_⟩
      have hsame := h.updates t ht hop u (Option.mem_def.mpr hfind)
      unfold home at hsame hhome
      rw [hhome, hop] at hsame
      rw [hnode]
      exact hsame.symm

end

theorem of_toOption {α : Type} {x : Except GridError α} {a : α} (h : x.toOption = some a) :
    x = .ok a := by
  cases x with
  | ok b => rw [Option.some.inj h]
  | error e => cases h

/-- A database for each of the nodes 11 and 12. -/
def twoDeploys (first second : String) : List TwinDeployment :=
  [.make (sampleDeployment none [sampleZdb first 0 1]) .deploy 0 11 "" none,
    .make (sampleDeployment none [sampleZdb second 0 1]) .deploy 0 12 "" none]

theorem distinctDeploys_own :
    ∃ plan w₁ results w₂,
      prepare sampleEnv (twoDeploys "a" "b") (sampleWorld .empty fun _ => none) = .ok plan w₁ ∧
      create sampleEnv plan w₁ = .ok results w₂ ∧
      SentUnderOwn sampleEnv Ledger.empty plan results := by
  have hrun : createdWith sampleEnv (twoDeploys "a" "b") (sampleWorld .empty fun _ => none)
      (fun plan _ _ => decide (((deploysOf plan.twins).map (hashOf sampleEnv)).Nodup) &&
        plan.twins.all fun t => decide (t.operation = .deploy)) = true := by
    decide +kernel
  obtain ⟨plan, w₁, results, w₂, hplan, hcreate, htest⟩ := exists_of_createdWith hrun
  rw [Bool.and_eq_true, decide_eq_true_eq, List.all_eq_true] at htest
  refine ⟨plan, w₁, results, w₂, hplan, hcreate, ?_⟩
  refine (handle_sends_under_own_iff sampleEnv hplan hcreate).1.mpr ⟨htest.1, ?_⟩
  intro t ht hop
  have hdeploy := of_decide_eq_true (htest.2 t ht)
  rw [hop] at hdeploy
  cases hdeploy

/-- The same database on two nodes: both deployments are sent under the contract of the first. -/
theorem equalDeploys_not_own :
    ∃ plan w₁ results w₂,
      prepare sampleEnv (twoDeploys "a" "a") (sampleWorld .empty fun _ => none) = .ok plan w₁ ∧
      create sampleEnv plan w₁ = .ok results w₂ ∧
      ¬ SentUnderOwn sampleEnv Ledger.empty plan results := by
  have hrun : createdWith sampleEnv (twoDeploys "a" "a") (sampleWorld .empty fun _ => none)
      (fun plan results _ => decide ((deploysOf plan.twins).map (fun t =>
        (assigned sampleEnv results t).toOption.map (·.contractId)) =
          [some (some 1), some (some 1)])) = true := by
    decide +kernel
  obtain ⟨plan, w₁, results, w₂, hplan, hcreate, htest⟩ := exists_of_createdWith hrun
  refine ⟨plan, w₁, results, w₂, hplan, hcreate, fun h => ?_⟩
  obtain ⟨t, ts, hts, ht, hrest⟩ := List.map_eq_cons_iff.mp (of_decide_eq_true htest)
  obtain ⟨t', ts', hts', ht', -⟩ := List.map_eq_cons_iff.mp hrest
  obtain ⟨a, ha, haid⟩ := Option.map_eq_some_iff.mp ht
  obtain ⟨a', ha', haid'⟩ := Option.map_eq_some_iff.mp ht'
  have hdistinct := h.distinct
  rw [hts, hts'] at hdistinct
  have hne := (List.pairwise_cons.mp hdistinct).1 t' List.mem_cons_self a a'
  exact hne (of_toOption ha) (of_toOption ha') (haid.trans haid'.symm)

end ThreefoldSdk.HighLevel
