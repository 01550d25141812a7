import ThreefoldSdk.Lib.Forall2
import ThreefoldSdk.TfChain.Contracts

/-! What a batch of the client's extrinsics does to the contracts of a chain. -/

namespace ThreefoldSdk.TfChain
open Staged

section Batch
variable {S C P : Type*} {R : Runtime S C P}

/-- The state after a batch call is that of the extrinsics that took effect, one after another. -/
theorem batchAll_state (rejects : Nat → Bool) (extrinsics : List (Option (ExtrinsicResult C P)))
    (s : S) :
    ∃ evs, R.execAll ((batchAll R rejects extrinsics s).done.map (·.call)) s =
      some ((batchAll R rejects extrinsics s).state, evs) := by
  have hrule := @run_done _ _ _ _ (submit R rejects)
    (fun done s s' => ∃ evs, R.execAll (done.map (·.call)) s = some (s', evs))
  refine hrule ?_ ?_
  · intro s
    exact ⟨[], rfl⟩
  · rintro j b s rs s' done s'' hb ⟨evs, hdone⟩
    rw [submit_eq] at hb
    split_ifs at hb
    cases hx : R.execAll (b.map (·.call)) s with
    | none => simp [hx] at hb
    | some q =>
      simp only [hx, Except.ok.injEq, Prod.mk.injEq] at hb
      obtain ⟨-, rfl⟩ := hb
      exact ⟨q.2 ++ evs, by rw [List.map_append]; exact execAll_append hx hdone⟩

theorem batchAll_done_initial (rejects : Nat → Bool)
    (extrinsics : List (Option (ExtrinsicResult C P))) (s : S) :
    (batchAll R rejects extrinsics s).done <+: extrinsics.filterMap id := by
  have h := @done_initial _ _ _ _ (submit R rejects) 0
    (slices (batchSize - 1) (extrinsics.filterMap id)) s
  rwa [slices_flatten] at h

theorem batchAll_done_of_ok {rejects : Nat → Bool}
    {extrinsics : List (Option (ExtrinsicResult C P))} {s : S} {rs : List (Option P)}
    (h : (batchAll R rejects extrinsics s).result = .ok rs) :
    (batchAll R rejects extrinsics s).done = extrinsics.filterMap id := by
  have h := done_of_ok h
  rwa [slices_flatten] at h

theorem batchAll_done_of_failsAt {rejects : Nat → Bool}
    {extrinsics : List (Option (ExtrinsicResult C P))} {s : S} {k : Nat}
    (h : FailsAt R rejects (slices (batchSize - 1) (extrinsics.filterMap id)) s k) :
    (batchAll R rejects extrinsics s).done = (extrinsics.filterMap id).take (k * batchSize) := by
  rw [batchAll, done_of_failsAt h, take_slices_flatten]
  rfl

/-- A batch call that throws has stopped at some batch of 400. -/
theorem batchAll_done_of_error {rejects : Nat → Bool}
    {extrinsics : List (Option (ExtrinsicResult C P))} {s : S} {e : ChainError}
    (h : (batchAll R rejects extrinsics s).result = .error e) :
    ∃ k, FailsAt R rejects (slices (batchSize - 1) (extrinsics.filterMap id)) s k ∧
      (batchAll R rejects extrinsics s).done =
        (extrinsics.filterMap id).take (k * batchSize) := by
  obtain ⟨k, hk⟩ := fails_iff.mp (error_iff_fails.mp ⟨e, h⟩)
  exact ⟨k, hk, batchAll_done_of_failsAt hk⟩

theorem execAll_cons {c : C} {cs : List C} {s s' : S} {evs : List (Event P)}
    (h : R.execAll (c :: cs) s = some (s', evs)) :
    ∃ s₁ evs₁ evs₂, R.exec c s = some (s₁, evs₁) ∧ R.execAll cs s₁ = some (s', evs₂) ∧
      evs = evs₁ ++ evs₂ := by
  cases hc : R.exec c s with
  | none => simp [Runtime.execAll, hc] at h
  | some q =>
    cases hcs : R.execAll cs q.1 with
    | none => simp [Runtime.execAll, hc, hcs] at h
    | some r =>
      simp only [Runtime.execAll, hc, hcs, Option.map_some, Option.some.injEq,
        Prod.mk.injEq] at h
      obtain ⟨rfl, rfl⟩ := h
      exact ⟨q.1, q.2, r.2, rfl, hcs, rfl⟩

end Batch

section Contracts
variable {S : Type} {chain : Chain S}

theorem oneMatchingEvent_cancel (id : Nat) : OneMatchingEvent chain.runtime (cancelExtrinsic id) := by
  intro s s' evs h
  obtain ⟨c, e, -, rfl, hpallet, hmethod, -⟩ := chain.exec_cancel s s' evs id h
  refine ⟨e, rfl, ?_⟩
  have hevents : (cancelExtrinsic id).resultEvents = canceledEvents := rfl
  have hsections : (cancelExtrinsic id).pallet :: (cancelExtrinsic id).resultSections =
      [smartContractModule] := rfl
  simp [ExtrinsicResult.isOwn, hevents, hsections, hpallet, hmethod]

/-- The calls that make or change a contract. -/
inductive Makes : Call → Prop where
  | createNode (nodeId : Nat) (hash data : String) (ips : Nat) (sp : Option Nat) :
      Makes (.createNodeContract nodeId hash data ips sp)
  | updateNode (id : Nat) (hash data : String) : Makes (.updateNodeContract id hash data)
  | createName (name : String) : Makes (.createNameContract name)

/-- The contract that a call made or changed, in a batch that started in `s`. -/
def Made (chain : Chain S) (s : S) : Call → Contract → Prop
  | .createNodeContract nodeId hash data ips _, c =>
    chain.contract s c.contractId = none ∧ c.nodeContract = some ⟨nodeId, hash, data, ips⟩
  | .updateNodeContract id hash _, c =>
    chain.contract s id ≠ none ∧ c.contractId = id ∧
      ∃ n, c.nodeContract = some n ∧ n.deploymentHash = hash
  | .createNameContract _, c =>
    chain.contract s c.contractId = none ∧ c.nodeContract = none
  | .cancelContract _, _ => False

theorem exec_makes {call : Call} {s s' : S} {evs : List (Event Primitive)} (hm : Makes call)
    (h : chain.runtime.exec call s = some (s', evs)) :
    ∃ c method, evs = [contractEvent method c] ∧ Made chain s call c ∧
      chain.contract s' = Function.update (chain.contract s) c.contractId (some c) := by
  cases hm with
  | createNode nodeId hash data ips sp =>
    obtain ⟨c, hevs, hfree, htype, hs'⟩ := chain.exec_createNode _ _ _ _ _ _ _ _ h
    exact ⟨c, _, hevs, ⟨hfree, by rw [Contract.nodeContract, htype]; rfl⟩, hs'⟩
  | updateNode id hash data =>
    obtain ⟨c, n, hc, htype, hevs, hs'⟩ := chain.exec_updateNode _ _ _ _ _ _ h
    have hid : c.contractId = id := (chain.contract_id _ _ _ hc).1
    refine ⟨_, _, hevs, ⟨by simp [hc], hid,
      ⟨{ n with deploymentHash := hash, deploymentData := data }, ?_, rfl⟩⟩, ?_⟩
    · simp only [Contract.nodeContract, Contract.withDeployment, htype, ContractType.node]
    · rw [Contract.withDeployment_contractId, hid]
      exact hs'
  | createName name =>
    obtain ⟨c, hevs, hfree, htype, hs'⟩ := chain.exec_createName _ _ _ _ h
    exact ⟨c, _, hevs, ⟨hfree, by rw [Contract.nodeContract, htype]; rfl⟩, hs'⟩

theorem oneMatchingEvent_patch {call : Call} (hm : Makes call) :
    OneMatchingEvent chain.runtime (patchExtrinsic call) := by
  intro s s' evs h
  obtain ⟨c, method, hevs, -⟩ := exec_makes hm h
  exact ⟨_, hevs, by simp [ExtrinsicResult.isOwn, patchExtrinsic, contractEvent]⟩

/-- The ids of the contracts that `s` does not have. -/
def newIds (chain : Chain S) (s : S) (cs : List Contract) : List Nat :=
  (cs.map (·.contractId)).filter fun id => (chain.contract s id).isNone

/-- A batch of creations and updates of contracts that exist: it reports the contracts made, in
order, and adds those that are new. -/
theorem execAll_makes {calls : List Call} {s s' : S} {evs : List (Event Primitive)}
    (hm : ∀ call ∈ calls, Makes call)
    (hex : ∀ id hash data, Call.updateNodeContract id hash data ∈ calls →
      chain.contract s id ≠ none)
    (h : chain.runtime.execAll calls s = some (s', evs)) :
    ∃ cs, List.Forall₂ (Made chain s) calls cs ∧
      evs.map (·.data.head?) = cs.map (fun c => some (.contract c)) ∧
      (∀ id, chain.contract s' id ≠ none ↔
        chain.contract s id ≠ none ∨ ∃ c ∈ cs, c.contractId = id) ∧
      (newIds chain s cs).Nodup := by
  induction calls generalizing s s' evs with
  | nil =>
    cases h
    exact ⟨[], .nil, rfl, by simp, List.nodup_nil⟩
  | cons call calls ih =>
    obtain ⟨s₁, evs₁, evs₂, hcall, hrest, rfl⟩ := execAll_cons h
    obtain ⟨c, method, rfl, hmade, hs₁⟩ := exec_makes (hm call List.mem_cons_self) hcall
    have hgrow : ∀ id, chain.contract s₁ id ≠ none ↔
        chain.contract s id ≠ none ∨ c.contractId = id := by
      intro id
      rw [hs₁]
      by_cases hid : id = c.contractId
      · subst hid
        simp
      · rw [Function.update_of_ne hid]
        simp [Ne.symm hid]
    have hex' : ∀ id hash data, Call.updateNodeContract id hash data ∈ calls →
        chain.contract s₁ id ≠ none := fun id hash data hin =>
      (hgrow id).mpr (Or.inl (hex id hash data (List.mem_cons_of_mem _ hin)))
    obtain ⟨cs, hcs, hdata, hafter, hnodup⟩ :=
      ih (fun x hx => hm x (List.mem_cons_of_mem _ hx)) hex' hrest
    have hfree : ∀ id, chain.contract s₁ id = none → chain.contract s id = none := by
      intro id hnone
      by_contra hsome
      exact (hgrow id).mpr (Or.inl hsome) hnone
    -- a contract that is new later in the batch is new now, and the other way round
    have hstart : ∀ x ∈ calls, ∀ d, Made chain s₁ x d → Made chain s x d ∧
        (chain.contract s d.contractId = none → chain.contract s₁ d.contractId = none) := by
      intro x hx d hd
      cases x with
      | createNodeContract _ _ _ _ _ => exact ⟨⟨hfree _ hd.1, hd.2⟩, fun _ => hd.1⟩
      | updateNodeContract id hash data =>
        have hid := hex id hash data (List.mem_cons_of_mem _ hx)
        exact ⟨⟨hid, hd.2⟩, fun hnone => absurd (hd.2.1 ▸ hnone) hid⟩
      | createNameContract _ => exact ⟨⟨hfree _ hd.1, hd.2⟩, fun _ => hd.1⟩
      | cancelContract _ => exact hd.elim
    have hnew : newIds chain s cs = newIds chain s₁ cs := by
      refine List.filter_congr fun id hid => ?_
      obtain ⟨d, hd, rfl⟩ := List.mem_map.mp hid
      obtain ⟨x, hx, hm⟩ := Forall2.exists_left hcs hd
      rw [Bool.eq_iff_iff, Option.isNone_iff_eq_none, Option.isNone_iff_eq_none]
      exact ⟨(hstart x hx d hm).2, hfree _⟩
    refine ⟨c :: cs, .cons hmade (Forall2.imp_mem hcs fun x hx d hd => (hstart x hx d hd).1), ?_,
      fun id => ?_, ?_⟩
    · rw [List.map_append, hdata]
      rfl
    · rw [hafter, hgrow]
      simp [or_assoc]
    · have htail : (newIds chain s cs).Nodup := hnew ▸ hnodup
      unfold newIds at htail ⊢
      rw [List.map_cons, List.filter_cons]
      split
      · refine List.nodup_cons.mpr ⟨?_, htail⟩
        change c.contractId ∉ newIds chain s cs
        rw [hnew, newIds, List.mem_filter, Option.isNone_iff_eq_none]
        rintro ⟨-, hnone⟩
        exact (hgrow c.contractId).mpr (Or.inr rfl) hnone
      · exact htail

/-- The node of a contract of the chain. -/
def nodeOn (chain : Chain S) (s : S) (id : Nat) : Option Nat :=
  (chain.contract s id).bind fun c => c.nodeContract.map (·.nodeId)

/-- An update leaves the contract on the node it had in `s`. -/
def KeepsNode (chain : Chain S) (s : S) : Call → Contract → Prop
  | .updateNodeContract id _ _, c => c.nodeContract.map (·.nodeId) = nodeOn chain s id
  | _, _ => True

theorem exec_keepsNode {call : Call} {s s' : S} {evs : List (Event Primitive)} (hm : Makes call)
    (h : chain.runtime.exec call s = some (s', evs)) :
    (∀ c, evs.map (·.data.head?) = [some (.contract c)] → KeepsNode chain s call c) ∧
      ∀ id, chain.contract s id ≠ none → nodeOn chain s' id = nodeOn chain s id := by
  have hfresh : ∀ c, chain.contract s c.contractId = none →
      chain.contract s' = Function.update (chain.contract s) c.contractId (some c) →
      ∀ id, chain.contract s id ≠ none → nodeOn chain s' id = nodeOn chain s id := by
    intro c hnone hs' id hid
    have hne : id ≠ c.contractId := by
      rintro rfl
      exact hid hnone
    unfold nodeOn
    rw [hs', Function.update_of_ne hne]
  cases hm with
  | createNode nodeId hash data ips sp =>
    obtain ⟨c, -, hnone, -, hs'⟩ := chain.exec_createNode _ _ _ _ _ _ _ _ h
    exact ⟨fun _ _ => trivial, hfresh c hnone hs'⟩
  | createName name =>
    obtain ⟨c, -, hnone, -, hs'⟩ := chain.exec_createName _ _ _ _ h
    exact ⟨fun _ _ => trivial, hfresh c hnone hs'⟩
  | updateNode id hash data =>
    obtain ⟨c, n, hc, htype, hevs, hs'⟩ := chain.exec_updateNode _ _ _ _ _ _ h
    have hnode : (c.withDeployment hash data).nodeContract.map (·.nodeId) = nodeOn chain s id := by
      unfold nodeOn
      rw [hc, Option.bind_some]
      simp only [Contract.nodeContract, Contract.withDeployment, htype, ContractType.node,
        Option.map_some]
    refine ⟨fun d hd => ?_, fun i hi => ?_⟩
    · rw [hevs] at hd
      simp only [List.map_singleton, contractEvent, List.head?_cons, List.cons.injEq,
        Option.some.injEq, Primitive.contract.injEq, and_true] at hd
      rw [← hd]
      exact hnode
    · by_cases heq : i = id
      · rw [heq, ← hnode, nodeOn, hs', Function.update_self, Option.bind_some]
      · unfold nodeOn
        rw [hs', Function.update_of_ne heq]

/-- The contracts reported of the updates of a batch are on the nodes they were on. -/
theorem execAll_keepsNode {calls : List Call} {s s' : S} {evs : List (Event Primitive)}
    {cs : List Contract} (hm : ∀ call ∈ calls, Makes call)
    (hex : ∀ id hash data, Call.updateNodeContract id hash data ∈ calls →
      chain.contract s id ≠ none)
    (h : chain.runtime.execAll calls s = some (s', evs))
    (hdata : evs.map (·.data.head?) = cs.map fun c => some (.contract c)) :
    List.Forall₂ (KeepsNode chain s) calls cs := by
  induction calls generalizing s s' evs cs with
  | nil =>
    cases h
    rw [List.map_nil, eq_comm, List.map_eq_nil_iff] at hdata
    rw [hdata]
    exact .nil
  | cons call calls ih =>
    obtain ⟨s₁, evs₁, evs₂, hcall, hrest, rfl⟩ := execAll_cons h
    obtain ⟨d, method, rfl, -, hs₁⟩ := exec_makes (hm call List.mem_cons_self) hcall
    obtain ⟨hone, hkeep⟩ := exec_keepsNode (hm call List.mem_cons_self) hcall
    obtain ⟨c, cs, rfl, hhead, htail⟩ : ∃ c cs', cs = c :: cs' ∧
        [contractEvent method d].map (·.data.head?) = [some (Primitive.contract c)] ∧
        evs₂.map (·.data.head?) = cs'.map fun c => some (.contract c) := by
      cases cs with
      | nil => cases hdata
      | cons c cs =>
        obtain ⟨hhead, htail⟩ := List.cons.inj hdata
        exact ⟨c, cs, rfl, congrArg (fun x => [x]) hhead, htail⟩
    have hstays : ∀ id, chain.contract s id ≠ none → chain.contract s₁ id ≠ none := by
      intro id hid
      rw [hs₁]
      by_cases heq : id = d.contractId
      · rw [heq, Function.update_self]
        exact Option.some_ne_none d
      · rw [Function.update_of_ne heq]
        exact hid
    have hlater := ih (fun x hx => hm x (List.mem_cons_of_mem _ hx))
      (fun id hash data hin => hstays id (hex id hash data (List.mem_cons_of_mem _ hin))) hrest htail
    refine .cons (hone c hhead) (Forall2.imp_mem hlater fun x hx e he => ?_)
    cases x with
    | updateNodeContract id hash data =>
      have hid := hex id hash data (List.mem_cons_of_mem _ hx)
      exact Eq.trans he (hkeep id hid)
    | createNodeContract _ _ _ _ _ => trivial
    | createNameContract _ => trivial
    | cancelContract _ => trivial

/-- The calls that create nothing. -/
inductive Settles : Call → Prop where
  | updateNode (id : Nat) (hash data : String) : Settles (.updateNodeContract id hash data)
  | cancel (id : Nat) : Settles (.cancelContract id)

/-- A batch of updates and cancellations removes the contracts that are cancelled and no other. -/
theorem execAll_settles {calls : List Call} {s s' : S} {evs : List (Event Primitive)}
    (hm : ∀ call ∈ calls, Settles call) (h : chain.runtime.execAll calls s = some (s', evs))
    (id : Nat) :
    chain.contract s' id ≠ none ↔ chain.contract s id ≠ none ∧ Call.cancelContract id ∉ calls := by
  induction calls generalizing s s' evs with
  | nil =>
    cases h
    simp
  | cons call calls ih =>
    obtain ⟨s₁, evs₁, evs₂, hcall, hrest, -⟩ := execAll_cons h
    rw [ih (fun x hx => hm x (List.mem_cons_of_mem _ hx)) hrest]
    cases hm call List.mem_cons_self with
    | updateNode i hash data =>
      obtain ⟨c, n, hc, -, -, hs₁⟩ := chain.exec_updateNode _ _ _ _ _ _ hcall
      have hsame : chain.contract s₁ id ≠ none ↔ chain.contract s id ≠ none := by
        rw [hs₁]
        by_cases hid : id = i
        · subst hid
          simp [hc]
        · rw [Function.update_of_ne hid]
      rw [hsame]
      simp
    | cancel i =>
      obtain ⟨c, e, hc, -, -, -, hs₁⟩ := chain.exec_cancel _ _ _ _ hcall
      rw [hs₁]
      by_cases hid : id = i
      · subst hid
        simp
      · rw [Function.update_of_ne hid]
        simp [hid]

end Contracts

end ThreefoldSdk.TfChain
