import ThreefoldSdk.HighLevel.Handle

/-! What each request of the handler leaves alone. Reading changes nothing but the number of
requests; sending changes what nodes hold and never the chain. -/

namespace ThreefoldSdk.HighLevel
open Zos Primitives TfChain Frame

/-- All of a world but the number of requests. -/
def World.grid {S : Type} (w : World S) :=
  (w.chain, w.held, w.originalDeployments, w.newContracts, w.deletedContracts)

/-- The chain and the deployments kept for a rollback. -/
def World.kept {S : Type} (w : World S) := (w.chain, w.originalDeployments)

/-- The chain and what the nodes hold. -/
def World.shared {S : Type} (w : World S) := (w.chain, w.held)

/-- The chain, what the nodes hold and the deployments kept for a rollback. -/
def World.deployed {S : Type} (w : World S) := (w.chain, w.held, w.originalDeployments)

section
variable {S : Type} {env : HandlerEnv S}

theorem keeps_lift {α γ : Type} (p : World S → γ) (x : Except GridError α) :
    Keeps p (lift x : M S α) := by
  cases x with
  | ok a => exact keeps_pure p a
  | error e => exact keeps_throw p e

theorem lift_of_ok {α : Type} {x : Except GridError α} {a : α} (h : x = .ok a) (w : World S) :
    (lift x : M S α) w = .ok a w := by
  rw [h]
  rfl

theorem lift_of_error {α : Type} {x : Except GridError α} {e : GridError} (h : x = .error e)
    (w : World S) : (lift x : M S α) w = .error e w := by
  rw [h]
  rfl

theorem lift_eq_ok {α : Type} {x : Except GridError α} {a : α} {w w' : World S} :
    (lift x : M S α) w = .ok a w' ↔ x = .ok a ∧ w' = w := by
  cases x with
  | ok b =>
    rw [lift_of_ok rfl]
    simp [eq_comm]
  | error e =>
    rw [lift_of_error rfl]
    simp

theorem keeps_external : Keeps World.grid (external env) := by
  intro w
  cases h : env.fails w.clock with
  | some e =>
    have hx : external env w = .error e { w with clock := w.clock + 1 } := by
      simp only [external, bind, EStateM.bind, get, getThe, MonadStateOf.get, EStateM.get, set,
        EStateM.set, h]
      rfl
    rw [after_of_error hx]
    rfl
  | none =>
    have hx : external env w = .ok () { w with clock := w.clock + 1 } := by
      simp only [external, bind, EStateM.bind, get, getThe, MonadStateOf.get, EStateM.get, set,
        EStateM.set, h]
      rfl
    rw [after_of_ok hx]
    rfl

theorem keeps_getContract (id : Nat) : Keeps World.grid (getContract env id) :=
  keeps_external.bind fun _ => (keeps_get _).bind fun _ => keeps_pure _ _

theorem keeps_cancelContract (id : Nat) : Keeps World.grid (cancelContract env id) :=
  keeps_external.bind fun _ => (keeps_get _).bind fun _ => keeps_pure _ _

theorem keeps_checkKyc (message : String) : Keeps World.grid (checkKyc env message) := by
  refine (keeps_get _).bind fun w => keeps_external.bind fun _ => ?_
  split
  · exact keeps_throw _ _
  · exact keeps_pure _ _

theorem keeps_getNodeIdFromContractId (id : Nat) :
    Keeps World.grid (getNodeIdFromContractId env id) := by
  refine keeps_external.bind fun _ => (keeps_get _).bind fun w => ?_
  split
  · exact keeps_pure _ _
  · exact keeps_throw _ _

theorem keeps_nodeIdLookup (id : Nat) : Keeps World.grid (nodeIdLookup env id) := by
  intro w
  simp only [nodeIdLookup, after, bind, EStateM.bind, get, getThe, MonadStateOf.get, EStateM.get,
    set, EStateM.set]
  cases env.fails w.clock <;> rfl

theorem keeps_createNameContract (name : String) :
    Keeps World.grid (createNameContract env name) := by
  have hlast : Keeps World.grid (tryCatch (do
        checkKyc env ("Your account is not verified. Please sign into ThreeFold Dashboard or " ++
          "ThreeFold Connect mobile app to complete your KYC verification.")
        return createName name : M S Extrinsic)
      fun e => throw (.other "TFChainError"
        ("Failed to create name contract " ++ name ++ " due to " ++ e.toText ++ "."))) := by
    exact ((keeps_checkKyc _).bind fun _ => keeps_pure _ _).tryCatch fun _ => keeps_throw _ _
  refine keeps_external.bind fun _ => (keeps_get _).bind fun w => ?_
  simp only
  split
  · refine (keeps_getContract _).bind fun c => ?_
    split
    · split
      · exact (keeps_throw _ _).bind fun _ => hlast
      · exact hlast
    · exact hlast
  · exact hlast

theorem keeps_deleteNameContract (name : String) :
    Keeps World.grid (deleteNameContract env name) := by
  refine keeps_external.bind fun _ => (keeps_get _).bind fun w => ?_
  simp only
  split
  · exact keeps_pure _ _
  · exact keeps_cancelContract _

theorem keeps_getDeployment (id : Nat) : Keeps World.grid (getDeployment env id) := by
  refine (keeps_getNodeIdFromContractId _).bind fun _ => keeps_external.bind fun _ =>
    keeps_external.bind fun _ => (keeps_get _).bind fun w => ?_
  split
  · exact keeps_pure _ _
  · exact keeps_throw _ _

theorem keeps_getDeploymentFromFactory (id : Nat) :
    Keeps World.grid (getDeploymentFromFactory env id) :=
  (keeps_getDeployment _).bind fun _ => keeps_lift _ _

theorem keeps_nameExtrinsicsOf (ws : List Workload) :
    Keeps World.grid (nameExtrinsicsOf env ws) := by
  induction ws with
  | nil => exact keeps_pure _ _
  | cons w ws ih =>
    rw [nameExtrinsicsOf]
    split
    · exact (keeps_createNameContract _).bind fun _ => ih.bind fun _ => keeps_pure _ _
    · exact ih

theorem keeps_deletedNamesOf (ws : List Workload) : Keeps World.grid (deletedNamesOf env ws) := by
  induction ws with
  | nil => exact keeps_pure _ _
  | cons w ws ih =>
    rw [deletedNamesOf]
    split
    · exact (keeps_deleteNameContract _).bind fun _ => ih.bind fun _ => keeps_pure _ _
    · exact ih

theorem keeps_prepareExtrinsic (t : TwinDeployment) :
    Keeps World.grid (prepareExtrinsic env t) := by
  unfold prepareExtrinsic
  split
  · exact (keeps_nameExtrinsicsOf _).bind fun _ => keeps_pure _ _
  · exact (keeps_nameExtrinsicsOf _).bind fun _ => (keeps_getContract _).bind fun _ =>
      (keeps_lift _ _).bind fun _ => keeps_pure _ _
  · exact (keeps_deletedNamesOf _).bind fun _ => (keeps_cancelContract _).bind fun _ =>
      keeps_pure _ _

theorem keeps_mergeAll (ts : List TwinDeployment) : Keeps World.grid (mergeAll env ts) := by
  intro w
  have hstep : mergeAll env ts w =
      (lift (merge (mergeLookup env w) ts) : M S _) { w with clock := w.clock + 1 } := rfl
  unfold after
  rw [hstep]
  exact keeps_lift World.grid _ _

theorem keeps_waitForDeployment (t : TwinDeployment) :
    Keeps World.grid (waitForDeployment env t) := by
  refine (keeps_getNodeIdFromContractId _).bind fun nodeId => fun w => ?_
  exact keeps_lift World.grid _ { w with clock := w.clock + 1 }

theorem keeps_waitForDeployments (ts : List TwinDeployment) :
    Keeps World.grid (waitForDeployments env ts) := by
  induction ts with
  | nil => exact keeps_pure _ _
  | cons t ts ih =>
    rw [waitForDeployments]
    split
    · exact ih
    · exact (keeps_waitForDeployment _).bind fun _ => ih

theorem keeps_requestDeployment (d : Deployment) :
    Keeps World.kept (requestDeployment env d) := by
  intro w
  simp only [requestDeployment, after, bind, EStateM.bind, get, getThe, MonadStateOf.get,
    EStateM.get, set]
  cases env.fails w.clock with
  | none => rfl
  | some e =>
    cases env.delivered w.clock <;> rfl

theorem keeps_kept {α : Type} {x : M S α} (h : Keeps World.grid x) : Keeps World.kept x :=
  h.comp fun g => (g.1, g.2.2.1)

theorem keeps_shared {α : Type} {x : M S α} (h : Keeps World.grid x) : Keeps World.shared x :=
  h.comp fun g => (g.1, g.2.1)

theorem keeps_sendToNode (t : TwinDeployment) : Keeps World.kept (sendToNode env t) :=
  ((keeps_kept keeps_external).bind fun _ => (keeps_requestDeployment _).bind fun _ =>
    keeps_pure _ _).tryCatch fun _ => keeps_throw _ _

theorem keeps_pushOriginal (d : Deployment) : Keeps World.shared (pushOriginal d : M S Unit) :=
  fun _ => rfl

theorem keeps_popOriginal : Keeps World.shared (popOriginal : M S (Option Deployment)) :=
  fun _ => rfl

theorem keeps_keepOriginal (t : TwinDeployment) : Keeps World.shared (keepOriginal env t) := by
  unfold keepOriginal
  split
  · exact keeps_pure _ _
  · exact keeps_pure _ _
  · exact (keeps_shared (keeps_getDeploymentFromFactory _)).bind fun d => keeps_pushOriginal d

theorem keeps_sendTwin (results : List Contract) (t : TwinDeployment) :
    Keeps World.chain (sendTwin env results t) := by
  have hsend : ∀ t, Keeps World.chain (sendToNode env t) := fun t =>
    (keeps_sendToNode t).comp Prod.fst
  unfold sendTwin
  split
  · exact (keeps_lift _ _).bind fun c => (hsend _).bind fun _ => keeps_pure _ _
  · exact ((keeps_keepOriginal t).comp Prod.fst).bind fun _ => (keeps_lift _ _).bind fun c =>
      (hsend _).bind fun _ => keeps_pure _ _
  · exact keeps_pure _ _

/-- Sending leaves the chain alone. -/
theorem keeps_sendAll (results : List Contract) (ts : List TwinDeployment) :
    Keeps World.chain (sendAll env results ts) := by
  induction ts with
  | nil => exact keeps_pure _ _
  | cons t ts ih =>
    exact (keeps_sendTwin _ _).bind fun _ => ih.bind fun _ => keeps_pure _ _

theorem keeps_modify {γ : Type} {p : World S → γ} {f : World S → World S}
    (h : ∀ w, p (f w) = p w) : Keeps p (modify f : M S PUnit) := h

theorem keeps_saveNetworks (created : List Contract) (ts : List TwinDeployment) :
    Keeps World.deployed (saveNetworks env created ts) := by
  induction ts with
  | nil => exact keeps_pure _ _
  | cons t ts ih =>
    rw [saveNetworks]
    split
    · exact keeps_pure _ _
    · refine Keeps.bind ?_ fun _ => ih
      exact keeps_modify fun _ => rfl
    · refine Keeps.bind ?_ fun _ => ?_
      · exact keeps_modify fun _ => rfl
      split
      · exact (keeps_external.comp fun g => (g.1, g.2.1, g.2.2.1)).bind fun _ => ih
      · exact ih
    · exact ih

theorem keeps_cancelCreated (cs : List Contract) : Keeps World.grid (cancelCreated env cs) := by
  induction cs with
  | nil => exact keeps_pure _ _
  | cons c cs ih => exact (keeps_cancelContract _).bind fun _ => ih.bind fun _ => keeps_pure _ _

theorem keeps_restoreTo (d : Deployment) : Keeps World.grid (restoreTo env d) :=
  (keeps_getContract _).bind fun _ => (keeps_lift _ _).bind fun _ => keeps_pure _ _

theorem keeps_restore (c : Contract) : Keeps World.shared (restore env c) := by
  refine (keeps_shared (keeps_getDeploymentFromFactory _)).bind fun d =>
    keeps_popOriginal.bind fun original => ?_
  split
  · exact keeps_pure _ _
  · refine (keeps_shared (keeps_nodeIdLookup _)).bind fun nodeId =>
      (keeps_lift _ _).bind fun r => ?_
    split
    · exact keeps_pure _ _
    · exact (keeps_shared (keeps_restoreTo _)).bind fun _ => keeps_pure _ _

/-- Until its batch, the rollback leaves the chain and the nodes alone. -/
theorem keeps_restoreAll (cs : List Contract) : Keeps World.shared (restoreAll env cs) := by
  induction cs with
  | nil => exact keeps_pure _ _
  | cons c cs ih => exact (keeps_restore _).bind fun _ => ih.bind fun _ => keeps_pure _ _

theorem keeps_resendAll (ts : List TwinDeployment) : Keeps World.kept (resendAll env ts) := by
  induction ts with
  | nil => exact keeps_pure _ _
  | cons t ts ih => exact (keeps_sendToNode _).bind fun _ => ih

end

end ThreefoldSdk.HighLevel
