import ThreefoldSdk.HighLevel.Delete
import ThreefoldSdk.HighLevel.DeployMerge
import ThreefoldSdk.Primitives.Appended

/-! Updating the deployments of a name (`BaseModule._update` in `modules/base.ts`): the old
deployments are paired with the new twin deployments by node, those with a public IPv4 apart from
the others. -/

namespace ThreefoldSdk.Modules
open Zos Primitives HighLevel Frame

/-- `UpdateDeployment` with a network of some type: the result, the old and the new deployment and
the network afterwards. It writes into the new workloads, but keeps their outlines. -/
structure Updater (N : Type) where
  run : Deployment → Deployment → N →
    Except GridError (Option Deployment × Deployment × Deployment × N)
  network : N → Option AnyNetwork
  keeps : ∀ old new n r, run old new n = .ok r →
    r.2.2.1.workloads.map outline = new.workloads.map outline

/-- `UpdateDeployment` with a `Network` or none, and `light` with a light one; `nodeId` answers
`getNodeIdFromContractId`. -/
def Updater.ofAny (nodeId : Option Nat → Except GridError Nat) (light : Updater ZNetworkLight) :
    Updater (Option AnyNetwork) where
  run old new network :=
    match network with
    | some (.light n) => do
      let (result, old, new, n) ← light.run old new n
      return (result, old, new, some (.light n))
    | some (.network n) => do
      let updated ← updateDeployment (nodeId old.contractId) old new (some n)
      return (updated.result, updated.old, updated.new, updated.network.map AnyNetwork.network)
    | none => do
      let updated ← updateDeployment (nodeId old.contractId) old new none
      return (updated.result, updated.old, updated.new, none)
  network := id
  keeps old new network r h := by
    cases network with
    | none =>
      obtain ⟨updated, hupdated, hrest⟩ := exceptBind_eq_ok.mp h
      cases hrest
      exact updateDeployment_outlines hupdated
    | some network =>
      cases network with
      | network n =>
        obtain ⟨updated, hupdated, hrest⟩ := exceptBind_eq_ok.mp h
        cases hrest
        exact updateDeployment_outlines hupdated
      | light n =>
        obtain ⟨⟨result, o, d, n'⟩, hrun, hrest⟩ := exceptBind_eq_ok.mp h
        cases hrest
        exact light.keeps _ _ _ _ hrun

/-- What `_update` asks for: the node of each contract of the name, and `module.delete(.., [])`. -/
structure UpdateEnv (N : Type) where
  validators : Validators
  updater : Updater N
  contracts : List (Nat × Nat)
  deleteOld : Deployment → Except GridError (List TwinDeployment)
  noDeploy : ∀ d ts, deleteOld d = .ok ts → ∀ t ∈ ts, t.operation ≠ .deploy

/-- `_getNodeIdFromContractId`. -/
def UpdateEnv.nodeOf {N : Type} (env : UpdateEnv N) (contractId : Option Nat) : Nat :=
  ((env.contracts.find? fun c => decide (some c.1 = contractId)).map Prod.snd).getD 0

def isIPv4 (w : Workload) : Bool := decide (w.type = .ip) && w.data.v4

/-- The name of the public IPv4; without one the read throws. -/
def ipv4Name (ws : List Workload) : Except GridError String :=
  match ws.find? isIPv4 with
  | some w => .ok w.name
  | none => .error .typeError

/-- The update of an old deployment, as it is pushed. -/
def updateOf (d : Deployment) (network : Option AnyNetwork) : TwinDeployment :=
  .make d .update 0 0 "" network

section
variable {N : Type} (env : UpdateEnv N)

/-- `_updateWithoutPubIP`, the inner loop: it ends with the first update. -/
def pairWithout (node : Nat) (old : Deployment) (network : N) : List TwinDeployment →
    Except GridError (List TwinDeployment × Bool × List TwinDeployment × N)
  | [] => .ok ([], false, [], network)
  | t :: ts =>
    if t.nodeId ≠ node then do
      let (emitted, found, ts, network) ← pairWithout node old network ts
      return (emitted, found, t :: ts, network)
    else do
      let (result, old, new, network) ← env.updater.run old t.deployment network
      let t := { t with deployment := new }
      match result with
      | some d => return ([updateOf d (env.updater.network network)], true, t :: ts, network)
      | none =>
        let (emitted, _, ts, network) ← pairWithout node old network ts
        return (emitted, true, t :: ts, network)

/-- `module.delete(oldDeployment, [])`, where no new deployment was found for it. -/
def deleteUnless (found : Bool) (old : Deployment) : Except GridError (List TwinDeployment) :=
  if found then .ok [] else env.deleteOld old

/-- `_updateWithoutPubIP`. An old deployment without a new one on its node is deleted. -/
def updateWithoutPubIP (network : N) (twins : List TwinDeployment) :
    List Deployment → Except GridError (List TwinDeployment)
  | [] => .ok []
  | d :: olds => do
    let old ← fromObj env.validators d
    let (emitted, found, twins, network) ←
      pairWithout env (env.nodeOf old.contractId) old network twins
    let deleted ← deleteUnless env found old
    let rest ← updateWithoutPubIP network twins olds
    return emitted ++ deleted ++ rest

/-- `_updateWithPubIP`, the inner loop: the old deployment at its end, how often it is pushed as an
update, and whether a new deployment has the same public IPv4. -/
def pairWith (node : Nat) (name : String) (old : Deployment) (network : N) :
    List TwinDeployment → Except GridError (Deployment × Nat × Bool × List TwinDeployment × N)
  | [] => .ok (old, 0, false, [], network)
  | t :: ts =>
    if t.nodeId ≠ node then do
      let (old, pushed, found, ts, network) ← pairWith node name old network ts
      return (old, pushed, found, t :: ts, network)
    else do
      let name' ← ipv4Name t.workloads
      if name ≠ name' then do
        let (old, pushed, found, ts, network) ← pairWith node name old network ts
        return (old, pushed, found, t :: ts, network)
      else do
        let (result, old, new, network) ← env.updater.run old t.deployment network
        let (old, pushed, _, ts, network) ← pairWith node name old network ts
        return (old, (if result.isSome then pushed + 1 else pushed), true,
          { t with deployment := new } :: ts, network)

/-- The outer loop; it hands back the names that are done, and the new deployments. An old
deployment whose public IPv4 no new one has is deleted. -/
def pairAllWith (network : N) (done : List String) (twins : List TwinDeployment) :
    List Deployment → Except GridError (List TwinDeployment × List String × List TwinDeployment)
  | [] => .ok ([], done, twins)
  | d :: olds => do
    let old ← fromObj env.validators d
    let name ← ipv4Name old.workloads
    let (old, pushed, found, twins, network) ←
      pairWith env (env.nodeOf old.contractId) name old network twins
    let done := if found then done ++ [name] else done
    let deleted ← deleteUnless env (decide (name ∈ done)) old
    let (rest, done, twins) ← pairAllWith network done twins olds
    return (List.replicate pushed (updateOf old (env.updater.network network)) ++ deleted ++ rest,
      done, twins)

/-- The new deployments whose public IPv4 is not among those that are done. -/
def notDone (done : List String) : List TwinDeployment → Except GridError (List TwinDeployment)
  | [] => .ok []
  | t :: ts => do
    let name ← ipv4Name t.workloads
    let rest ← notDone done ts
    return if name ∈ done then rest else t :: rest

/-- `_updateWithPubIP`. -/
def updateWithPubIP (network : N) (twins : List TwinDeployment) (olds : List Deployment) :
    Except GridError (List TwinDeployment) := do
  let (emitted, done, twins) ← pairAllWith env network [] twins olds
  let rest ← notDone done twins
  return emitted ++ rest

/-- The names of the machines of type zmachine. -/
def zmachineNames (ws : List Workload) : List String :=
  (ws.filter fun w => decide (w.type = .zmachine)).map (·.name)

/-- The last public IPv4 that the loop over the workloads comes to. -/
def lastIPv4 (ws : List Workload) : String :=
  ((ws.filter isIPv4).getLast?.map (·.name)).getD ""

/-- One old deployment in `reject_update_pubIP_of_oldDeployment`. -/
def rejectOld (twins : List TwinDeployment) (old : Deployment) : Except GridError Unit := do
  let oldIp := lastIPv4 old.workloads
  if oldIp ≠ "" ∧ twins = [] then
    throw (.base "WorkloadUpdateError" "Cannot remove a public IP of an existent deployment.")
  let o ← fromObj env.validators old
  let same := twins.filter fun t => decide (t.nodeId = env.nodeOf o.contractId) &&
    (zmachineNames old.workloads).any fun n => decide (n ∈ zmachineNames t.workloads)
  same.forM fun t => do
    let newIp := lastIPv4 t.workloads
    if newIp ≠ oldIp then
      if newIp = "" then
        throw (.base "WorkloadUpdateError" "Cannot remove a public IP of an existent deployment.")
      if oldIp = "" then
        throw (.base "WorkloadUpdateError" "Cannot add a public IP to an existent deployment.")

/-- `_update`: what it hands to `handle`. -/
def update (network : N) (olds : List Deployment) (twinDeployments : List TwinDeployment) :
    Except GridError (List TwinDeployment) := do
  let updates := twinDeployments.filter fun t => decide (t.operation = .update)
  let merged := deployMerge twinDeployments
  let nodeIds := env.contracts.map Prod.snd
  let elsewhere := merged.filter fun t => decide (t.nodeId ∉ nodeIds)
  let here := merged.filter fun t => decide (t.nodeId ∈ nodeIds)
  olds.forM (rejectOld env here)
  let withIp ← updateWithPubIP env network (here.filter fun t => t.workloads.any isIPv4)
    (olds.filter fun d => d.workloads.any isIPv4)
  let withoutIp ← updateWithoutPubIP env network (here.filter fun t => !t.workloads.any isIPv4)
    (olds.filter fun d => !d.workloads.any isIPv4)
  return updates ++ elsewhere ++ withIp ++ withoutIp

end

/-! The new deployments that an update hands on. -/

/-- The same twin deployment, with workloads of the same outlines. -/
structure SameTwin (t t' : TwinDeployment) : Prop where
  metadata : t'.metadata = t.metadata
  operation : t'.operation = t.operation
  nodeId : t'.nodeId = t.nodeId
  outlines : t'.workloads.map outline = t.workloads.map outline

theorem SameTwin.refl (t : TwinDeployment) : SameTwin t t := ⟨rfl, rfl, rfl, rfl⟩

theorem SameTwin.trans {t t' t'' : TwinDeployment} (h : SameTwin t t') (h' : SameTwin t' t'') :
    SameTwin t t'' :=
  ⟨h'.metadata.trans h.metadata, h'.operation.trans h.operation, h'.nodeId.trans h.nodeId,
    h'.outlines.trans h.outlines⟩

section
variable {N : Type} {env : UpdateEnv N}

theorem forall₂_sameTwin_refl (ts : List TwinDeployment) : List.Forall₂ SameTwin ts ts :=
  List.forall₂_same.mpr fun t _ => SameTwin.refl t

theorem pairWithout_ok {node : Nat} {old : Deployment} {network network' : N}
    {ts ts' emitted : List TwinDeployment} {found : Bool}
    (h : pairWithout env node old network ts = .ok (emitted, found, ts', network')) :
    (∀ t ∈ emitted, t.operation = .update) ∧ List.Forall₂ SameTwin ts ts' := by
  induction ts generalizing old network network' ts' emitted found with
  | nil =>
    cases h
    exact ⟨fun _ ht => absurd ht List.not_mem_nil, .nil⟩
  | cons t ts ih =>
    unfold pairWithout at h
    by_cases hnode : t.nodeId ≠ node
    · rw [if_pos hnode] at h
      obtain ⟨⟨e, f, ts₁, n₁⟩, hrec, hrest⟩ := exceptBind_eq_ok.mp h
      cases hrest
      obtain ⟨hupdate, hsame⟩ := ih hrec
      exact ⟨hupdate, .cons (SameTwin.refl t) hsame⟩
    · rw [if_neg hnode] at h
      obtain ⟨⟨result, old₁, new₁, n₁⟩, hrun, hrest⟩ := exceptBind_eq_ok.mp h
      have ht : SameTwin t { t with deployment := new₁ } :=
        ⟨rfl, rfl, rfl, env.updater.keeps _ _ _ _ hrun⟩
      cases result with
      | some d =>
        cases hrest
        refine ⟨fun t' ht' => ?_, .cons ht (forall₂_sameTwin_refl ts)⟩
        rw [List.mem_singleton.mp ht']
        rfl
      | none =>
        obtain ⟨⟨e, f, ts₁, n₂⟩, hrec, hrest⟩ := exceptBind_eq_ok.mp hrest
        cases hrest
        obtain ⟨hupdate, hsame⟩ := ih hrec
        exact ⟨hupdate, .cons ht hsame⟩

theorem deleteUnless_no_deploy {found : Bool} {old : Deployment} {ts : List TwinDeployment}
    (h : deleteUnless env found old = .ok ts) : ∀ t ∈ ts, t.operation ≠ .deploy := by
  unfold deleteUnless at h
  split_ifs at h
  · cases h
    exact fun _ ht => absurd ht List.not_mem_nil
  · exact env.noDeploy _ _ h

/-- Without a public IPv4 nothing new is deployed. -/
theorem updateWithoutPubIP_no_deploy {network : N} {twins ts : List TwinDeployment}
    {olds : List Deployment} (h : updateWithoutPubIP env network twins olds = .ok ts) :
    ∀ t ∈ ts, t.operation ≠ .deploy := by
  induction olds generalizing network twins ts with
  | nil =>
    cases h
    exact fun _ ht => absurd ht List.not_mem_nil
  | cons d olds ih =>
    obtain ⟨old, -, hrest⟩ := exceptBind_eq_ok.mp h
    obtain ⟨⟨emitted, found, twins₁, n₁⟩, hpair, hrest⟩ := exceptBind_eq_ok.mp hrest
    obtain ⟨deleted, hdeleted, hrest⟩ := exceptBind_eq_ok.mp hrest
    obtain ⟨rest, hrec, hrest⟩ := exceptBind_eq_ok.mp hrest
    cases hrest
    intro t ht
    rcases List.mem_append.mp ht with ht | ht
    · rcases List.mem_append.mp ht with ht | ht
      · rw [(pairWithout_ok hpair).1 t ht]
        exact fun hdeploy => Operations.noConfusion hdeploy
      · exact deleteUnless_no_deploy hdeleted t ht
    · exact ih hrec t ht

theorem pairWith_ok {node pushed : Nat} {name : String} {old old' : Deployment}
    {network network' : N} {ts ts' : List TwinDeployment} {found : Bool}
    (h : pairWith env node name old network ts = .ok (old', pushed, found, ts', network')) :
    List.Forall₂ SameTwin ts ts' := by
  induction ts generalizing old old' network network' ts' pushed found with
  | nil =>
    cases h
    exact .nil
  | cons t ts ih =>
    unfold pairWith at h
    by_cases hnode : t.nodeId ≠ node
    · rw [if_pos hnode] at h
      obtain ⟨⟨o, k, f, ts₁, n₁⟩, hrec, hrest⟩ := exceptBind_eq_ok.mp h
      cases hrest
      exact .cons (SameTwin.refl t) (ih hrec)
    · rw [if_neg hnode] at h
      obtain ⟨name', -, hrest⟩ := exceptBind_eq_ok.mp h
      by_cases hname : name ≠ name'
      · rw [if_pos hname] at hrest
        obtain ⟨⟨o, k, f, ts₁, n₁⟩, hrec, hrest⟩ := exceptBind_eq_ok.mp hrest
        cases hrest
        exact .cons (SameTwin.refl t) (ih hrec)
      · rw [if_neg hname] at hrest
        obtain ⟨⟨result, old₁, new₁, n₁⟩, hrun, hrest⟩ := exceptBind_eq_ok.mp hrest
        obtain ⟨⟨o, k, f, ts₁, n₂⟩, hrec, hrest⟩ := exceptBind_eq_ok.mp hrest
        cases hrest
        exact .cons ⟨rfl, rfl, rfl, env.updater.keeps _ _ _ _ hrun⟩ (ih hrec)

theorem pairAllWith_ok {network : N} {done done' : List String}
    {twins twins' emitted : List TwinDeployment} {olds : List Deployment}
    (h : pairAllWith env network done twins olds = .ok (emitted, done', twins')) :
    (∀ t ∈ emitted, t.operation ≠ .deploy) ∧ List.Forall₂ SameTwin twins twins' := by
  induction olds generalizing network done done' twins twins' emitted with
  | nil =>
    cases h
    exact ⟨fun _ ht => absurd ht List.not_mem_nil, forall₂_sameTwin_refl twins⟩
  | cons d olds ih =>
    obtain ⟨old, -, hrest⟩ := exceptBind_eq_ok.mp h
    obtain ⟨name, -, hrest⟩ := exceptBind_eq_ok.mp hrest
    obtain ⟨⟨old₁, pushed, found, twins₁, n₁⟩, hpair, hrest⟩ := exceptBind_eq_ok.mp hrest
    obtain ⟨deleted, hdeleted, hrest⟩ := exceptBind_eq_ok.mp hrest
    obtain ⟨⟨rest, done₁, twins₂⟩, hrec, hrest⟩ := exceptBind_eq_ok.mp hrest
    cases hrest
    obtain ⟨hno, hsame⟩ := ih hrec
    refine ⟨?_, Forall2.trans (pairWith_ok hpair) hsame fun _ _ _ h h' => h.trans h'⟩
    intro t ht
    rcases List.mem_append.mp ht with ht | ht
    · rcases List.mem_append.mp ht with ht | ht
      · rw [List.eq_of_mem_replicate ht]
        exact fun hdeploy => Operations.noConfusion hdeploy
      · exact deleteUnless_no_deploy hdeleted t ht
    · exact hno t ht

theorem notDone_subset {done : List String} {ts rest : List TwinDeployment}
    (h : notDone done ts = .ok rest) : rest ⊆ ts := by
  induction ts generalizing rest with
  | nil =>
    cases h
    exact List.Subset.refl _
  | cons t ts ih =>
    obtain ⟨name, -, hrest⟩ := exceptBind_eq_ok.mp h
    obtain ⟨rest₁, hrec, hrest⟩ := exceptBind_eq_ok.mp hrest
    have hsub : rest₁ ⊆ t :: ts := List.Subset.trans (ih hrec) (List.subset_cons_self t ts)
    by_cases hname : name ∈ done
    · rw [if_pos hname] at hrest
      cases hrest
      exact hsub
    · rw [if_neg hname] at hrest
      cases hrest
      exact List.cons_subset.mpr ⟨List.mem_cons_self, hsub⟩

/-- With a public IPv4 only new twin deployments are deployed. -/
theorem updateWithPubIP_deploys {network : N} {twins ts : List TwinDeployment}
    {olds : List Deployment} (h : updateWithPubIP env network twins olds = .ok ts) :
    ∀ t ∈ ts, t.operation = .deploy → ∃ t₀ ∈ twins, SameTwin t₀ t := by
  obtain ⟨⟨emitted, done, twins₁⟩, hpair, hrest⟩ := exceptBind_eq_ok.mp h
  obtain ⟨rest, hnotDone, hrest⟩ := exceptBind_eq_ok.mp hrest
  cases hrest
  obtain ⟨hno, hsame⟩ := pairAllWith_ok hpair
  intro t ht hdeploy
  rcases List.mem_append.mp ht with ht | ht
  · exact absurd hdeploy (hno t ht)
  · exact Forall2.exists_left hsame (notDone_subset hnotDone ht)

/-- Whatever an update deploys is one of the merged new deployments. -/
theorem update_deploys {network : N} {olds : List Deployment} {twins ts : List TwinDeployment}
    (h : update env network olds twins = .ok ts) :
    ∀ t ∈ ts, t.operation = .deploy → ∃ t₀ ∈ deployMerge twins, SameTwin t₀ t := by
  obtain ⟨-, -, hrest⟩ := exceptBind_eq_ok.mp h
  obtain ⟨withIp, hwith, hrest⟩ := exceptBind_eq_ok.mp hrest
  obtain ⟨withoutIp, hwithout, hrest⟩ := exceptBind_eq_ok.mp hrest
  cases hrest
  intro t ht hdeploy
  rcases List.mem_append.mp ht with ht | ht
  · rcases List.mem_append.mp ht with ht | ht
    · rcases List.mem_append.mp ht with ht | ht
      · have hupdate := of_decide_eq_true (List.mem_filter.mp ht).2
        rw [hdeploy] at hupdate
        cases hupdate
      · exact ⟨t, (List.mem_filter.mp ht).1, SameTwin.refl t⟩
    · obtain ⟨t₀, ht₀, hsame⟩ := updateWithPubIP_deploys hwith t ht hdeploy
      exact ⟨t₀, (List.mem_filter.mp (List.mem_filter.mp ht₀).1).1, hsame⟩
  · exact absurd hdeploy (updateWithoutPubIP_no_deploy hwithout t ht)

end

end ThreefoldSdk.Modules
