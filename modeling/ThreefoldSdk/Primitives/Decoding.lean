import ThreefoldSdk.Primitives.Deployment

/-! What `fromObj` keeps of a deployment. -/

namespace ThreefoldSdk.Primitives
open Zos

/-- One workload, decoded without extraneous values. -/
def decoded (w : Workload) : Workload := { w with data := exposed w.data }

@[simp] theorem decoded_name (w : Workload) : (decoded w).name = w.name := rfl

@[simp] theorem decoded_type (w : Workload) : (decoded w).type = w.type := rfl

theorem exposed_type (d : WorkloadData) : (exposed d).type = d.type := by
  cases d <;> rfl

theorem exposed_valid (v : Validators) (d : WorkloadData) : (exposed d).valid v = d.valid v := by
  cases d <;> rfl

theorem decoded_valid (v : Validators) (w : Workload) : (decoded w).valid v = w.valid v := by
  unfold Workload.valid
  rw [show (decoded w).data = exposed w.data from rfl, exposed_type, exposed_valid]
  rfl

theorem fromObj_def (v : Validators) (d : Deployment) :
    fromObj v d = if ({ d with workloads := d.workloads.map decoded } : Deployment).valid v = true
      then .ok { d with workloads := d.workloads.map decoded }
      else .error (.validation "Validation failed.") := by
  show (validateObject v { d with workloads := d.workloads.map decoded } >>= fun _ =>
    Except.ok { d with workloads := d.workloads.map decoded }) = _
  unfold validateObject
  split
  · rfl
  · rfl

theorem fromObj_eq {v : Validators} {d o : Deployment} (h : fromObj v d = .ok o) :
    o = { d with workloads := d.workloads.map decoded } ∧ o.valid v = true := by
  rw [fromObj_def] at h
  split_ifs at h with hvalid
  · cases h
    exact ⟨rfl, hvalid⟩

/-- A valid deployment is always decoded. -/
theorem fromObj_of_valid {v : Validators} {d : Deployment} (h : d.valid v = true) :
    fromObj v d = .ok { d with workloads := d.workloads.map decoded } := by
  have hvalid : ({ d with workloads := d.workloads.map decoded } : Deployment).valid v = true := by
    unfold Deployment.valid at h ⊢
    rw [List.all_map]
    have hall : (Workload.valid v ∘ decoded) = Workload.valid v := funext (decoded_valid v)
    rw [hall]
    exact h
  rw [fromObj_def, if_pos hvalid]

/-- The decoded deployment has the challenge that was signed, and the same data. -/
def Preserves (v : Validators) (d : Deployment) : Prop :=
  ∃ o, fromObj v d = .ok o ∧ o.challenge = d.challenge ∧
    o.workloads.map (·.data) = d.workloads.map (·.data)

/-- Nothing of the data is in a field that is not exposed: the two of a zlogs workload, and what the
network classes put on their data without declaring it. -/
def NothingHidden : WorkloadData → Prop
  | .zlogs d => d.zmachine = none ∧ d.output = none
  | .network d => d.nodeId = none
  | .networklight d => d.nodeId = none ∧ d.ipRange = none
  | _ => True

instance : DecidablePred NothingHidden
  | .zlogs d => inferInstanceAs (Decidable (d.zmachine = none ∧ d.output = none))
  | .network d => inferInstanceAs (Decidable (d.nodeId = none))
  | .networklight d => inferInstanceAs (Decidable (d.nodeId = none ∧ d.ipRange = none))
  | .zmount _ => isTrue trivial
  | .volume _ => isTrue trivial
  | .zmachine _ => isTrue trivial
  | .zdb _ => isTrue trivial
  | .ip _ => isTrue trivial
  | .ipv4 => isTrue trivial
  | .gatewayfqdnproxy _ => isTrue trivial
  | .gatewaynameproxy _ => isTrue trivial
  | .qsfs _ => isTrue trivial
  | .zmachinelight _ => isTrue trivial

theorem exposed_eq_iff (d : WorkloadData) : exposed d = d ↔ NothingHidden d := by
  cases d with
  | zlogs z =>
    obtain ⟨zmachine, output⟩ := z
    constructor
    · intro h
      injection h with h
      injection h with hzmachine houtput
      exact ⟨hzmachine.symm, houtput.symm⟩
    · intro h
      obtain ⟨hzmachine, houtput⟩ := h
      rw [show zmachine = none from hzmachine, show output = none from houtput]
      rfl
  | network z =>
    obtain ⟨subnet, ipRange, privateKey, port, peers, mycelium, nodeId⟩ := z
    constructor
    · intro h
      injection h with h
      injection h with _ _ _ _ _ _ hnode
      exact hnode.symm
    · intro h
      rw [show nodeId = none from h]
      rfl
  | networklight z =>
    obtain ⟨subnet, mycelium, nodeId, ipRange⟩ := z
    constructor
    · intro h
      injection h with h
      injection h with _ _ hnode hrange
      exact ⟨hnode.symm, hrange.symm⟩
    · intro h
      rw [show nodeId = none from h.1, show ipRange = none from h.2]
      rfl
  | _ => exact iff_of_true rfl trivial

theorem map_decoded_data_iff (ws : List Workload) :
    (ws.map decoded).map (·.data) = ws.map (·.data) ↔ ∀ w ∈ ws, exposed w.data = w.data := by
  induction ws with
  | nil => exact iff_of_true rfl fun _ h => nomatch h
  | cons w ws ih =>
    rw [List.map_cons, List.map_cons, List.map_cons, List.cons.injEq, ih, List.forall_mem_cons]
    exact Iff.rfl

theorem map_decoded_of_exposed {ws : List Workload} (h : ∀ w ∈ ws, exposed w.data = w.data) :
    ws.map decoded = ws := by
  induction ws with
  | nil => rfl
  | cons w ws ih =>
    have hw : decoded w = w := by
      unfold decoded
      rw [h w List.mem_cons_self]
    rw [List.map_cons, hw, ih fun w hw => h w (List.mem_cons_of_mem _ hw)]

/-- Decoding keeps what was signed exactly when no workload has anything in a field that is not
exposed; then it keeps the whole deployment. -/
theorem fromObj_preserves_iff {v : Validators} {d : Deployment} (h : d.valid v = true) :
    Preserves v d ↔ ∀ w ∈ d.workloads, NothingHidden w.data := by
  constructor
  · intro hpreserves w hw
    obtain ⟨o, ho, -, hdata⟩ := hpreserves
    rw [(fromObj_eq ho).1] at hdata
    exact (exposed_eq_iff w.data).mp ((map_decoded_data_iff d.workloads).mp hdata w hw)
  · intro hnothing
    have hexposed : ∀ w ∈ d.workloads, exposed w.data = w.data := fun w hw =>
      (exposed_eq_iff w.data).mpr (hnothing w hw)
    refine ⟨_, fromObj_of_valid h, ?_, ?_⟩
    · rw [map_decoded_of_exposed hexposed]
    · exact (map_decoded_data_iff d.workloads).mpr hexposed

/-! A mount with the logs of a machine, which `fromObj` loses. -/

def anyText : Validators := ⟨fun _ => true, fun _ => true, fun _ => true⟩

def deploymentWith (workloads : List Workload) : Deployment :=
  ⟨0, 1, some 7, 0, "", "", workloads, ⟨[⟨1, false, 1⟩], 1, []⟩⟩

def diskWorkload : Workload := ⟨0, "disk", .zmount, .zmount ⟨1024 ^ 3⟩, "", "", none⟩

def logsWorkload : Workload :=
  ⟨0, "zlogs_vm", .zlogs, .zlogs ⟨some "vm", some "redis://10.1.2.3:6379"⟩, "", "", none⟩

theorem disk_preserved : Preserves anyText (deploymentWith [diskWorkload]) :=
  (fromObj_preserves_iff (by decide)).mpr (by decide)

theorem logs_not_preserved : (deploymentWith [logsWorkload]).valid anyText = true ∧
    ¬Preserves anyText (deploymentWith [logsWorkload]) := by
  refine ⟨by decide, fun hpreserves => ?_⟩
  obtain ⟨o, ho, hchallenge, -⟩ := hpreserves
  rw [(fromObj_eq ho).1] at hchallenge
  revert hchallenge
  decide +kernel

end ThreefoldSdk.Primitives
