import ThreefoldSdk.Primitives.UpdateSpec

/-! When `UpdateDeployment` computes the update that was asked for. A new workload is only seen from
inside the loop over the old ones, and names of network workloads hide workloads of the same
name. -/

namespace ThreefoldSdk.Primitives
open Zos

/-- The workloads that are no network workloads. -/
def plain (ws : List Workload) : List Workload := ws.filter fun w => !w.isNetwork

def SameNames (xs ys : List Workload) : Prop :=
  ∀ n, n ∈ xs.map Workload.name ↔ n ∈ ys.map Workload.name

/-- The update asked for: the names are the new ones, what is unchanged stays, what is changed or
new comes with its data and the next version, and nothing is returned when nothing differs. -/
structure RequestedUpdate (keep : Bool) (old new : Deployment) (result : Option Deployment) :
    Prop where
  names : ∀ d, result = some d → SameNames (plain d.workloads) (plain new.workloads)
  unchanged : ∀ d, result = some d → ∀ o ∈ plain old.workloads, ∀ w ∈ plain new.workloads,
    w.name = o.name → Unchanged keep o w → o ∈ d.workloads
  changed : ∀ d, result = some d → ∀ o ∈ plain old.workloads, ∀ w ∈ plain new.workloads,
    w.name = o.name → ¬ Unchanged keep o w →
      ∃ x ∈ d.workloads, x.name = w.name ∧ x.version = old.version + 1 ∧
        x.data = (adopted keep o w).data
  added : ∀ d, result = some d → ∀ w ∈ plain new.workloads,
    w.name ∉ (plain old.workloads).map Workload.name →
      ∃ x ∈ d.workloads, x.name = w.name ∧ x.version = old.version + 1 ∧ x.data = w.data
  nothing : result = none ↔ SameNames (plain old.workloads) (plain new.workloads) ∧
    ∀ o ∈ plain old.workloads, ∀ w ∈ plain new.workloads, w.name = o.name → Unchanged keep o w

/-- No name changes between a network workload and another one; every new name is met from an old
workload whose own workload in the new list is unchanged or stands later; and a network workload
with a new name does not come alone. -/
structure UpdateMeets (keep : Bool) (old new : Deployment) : Prop where
  old_name : ∀ o ∈ plain old.workloads, ∀ w ∈ new.workloads, w.isNetwork → w.name ≠ o.name
  new_name : ∀ w ∈ plain new.workloads, ∀ o ∈ old.workloads, o.isNetwork → o.name ≠ w.name
  seen : ∀ w ∈ plain new.workloads, w.name ∉ old.names →
    ∃ o ∈ plain old.workloads, ∃ w' ∈ plain new.workloads, w'.name = o.name ∧
      (Unchanged keep o w' ∨ [w, w'].Sublist new.workloads)
  network : SameNames (plain old.workloads) (plain new.workloads) →
    (∀ o ∈ plain old.workloads, ∀ w ∈ plain new.workloads, w.name = o.name → Unchanged keep o w) →
    plain old.workloads ≠ [] → ∀ w ∈ new.workloads, w.isNetwork → w.name ∈ old.names

theorem mem_plain {w : Workload} {ws : List Workload} :
    w ∈ plain ws ↔ w ∈ ws ∧ w.isNetwork = false := by
  simp [plain]

theorem eq_of_name {ws : List Workload} (h : (ws.map Workload.name).Nodup) {w w' : Workload}
    (hw : w ∈ ws) (hw' : w' ∈ ws) (hn : w.name = w'.name) : w = w' :=
  List.inj_on_of_nodup_map h hw hw' hn

section Settled
variable {keep : Bool} {version : Nat} {new : List Workload} {o w x : Workload}

theorem partner_eq (hnew : (new.map Workload.name).Nodup) (hw : w ∈ plain new)
    (hn : w.name = o.name) : partner new o = some w := by
  obtain ⟨hmem, hnet⟩ := mem_plain.mp hw
  cases hp : partner new o with
  | none =>
    have := List.find?_eq_none.mp hp w hmem
    exact absurd (decide_eq_true ⟨hnet, hn⟩) this
  | some w' =>
    obtain ⟨hmem', hm⟩ := partner_eq_some hp
    rw [eq_of_name hnew hmem' hmem (hm.2.trans hn.symm)]

theorem settled_name : (settled keep version new o).name = o.name ∧
    (settled keep version new o).isNetwork = o.isNetwork := by
  unfold settled
  split
  · exact ⟨rfl, rfl⟩
  · split <;> exact ⟨rfl, rfl⟩

theorem settle_eq_some (h : settle keep version new o = some x) :
    x.name = o.name ∧ x.isNetwork = o.isNetwork ∧
      (o.isNetwork = false → o.name ∈ new.map Workload.name) := by
  unfold settle at h
  split_ifs at h with hnet hdel
  · cases h
    exact ⟨rfl, rfl, fun hf => absurd hnet (by simp [hf])⟩
  · cases h
    exact ⟨settled_name.1, settled_name.2, fun _ => hdel⟩

theorem settle_of_processed (h : Processed new o) :
    settle keep version new o = some (settled keep version new o) := by
  unfold settle
  rw [if_neg (by simp [h.1]), if_neg (not_not.mpr h.2)]

theorem differs_eq_false_iff (hnew : (new.map Workload.name).Nodup) (ho : o.isNetwork = false) :
    differs keep new o = false ↔
      o.name ∈ new.map Workload.name ∧ ∀ w ∈ plain new, w.name = o.name → Unchanged keep o w := by
  simp only [differs, ho, Bool.not_false, Bool.true_and, Bool.or_eq_false_iff,
    decide_eq_false_iff_not, not_not]
  refine and_congr_right fun _ => ?_
  constructor
  · intro h w hw hn
    rw [changes, partner_eq hnew hw hn] at h
    simpa using h
  · intro h
    rw [changes]
    cases hp : partner new o with
    | none => rfl
    | some w =>
      obtain ⟨hmem, hm⟩ := partner_eq_some hp
      simpa using h w (mem_plain.mpr ⟨hmem, hm.1⟩) hm.2

end Settled

section Update
variable {keep : Bool} {old new : Deployment}

theorem processed_of_mem {o w : Workload} (ho : o ∈ plain old.workloads) (hw : w ∈ new.workloads)
    (hn : w.name = o.name) : Processed new.workloads o :=
  ⟨(mem_plain.mp ho).2, hn ▸ List.mem_map_of_mem hw⟩

theorem mem_updated_of_processed {o : Workload} (ho : o ∈ old.workloads)
    (hp : Processed new.workloads o) :
    settled keep old.version new.workloads o ∈ (updated keep old new).workloads := by
  apply List.mem_append_left
  rw [List.mem_filterMap]
  exact ⟨o, ho, settle_of_processed hp⟩

theorem mem_updated_of_addition {w : Workload}
    (hw : w ∈ additions keep new.workloads old.names old.workloads) :
    bump old.version w ∈ (updated keep old new).workloads :=
  List.mem_append_right _ (List.mem_map_of_mem hw)

theorem mem_updated {x : Workload} (hx : x ∈ (updated keep old new).workloads) :
    (∃ o ∈ old.workloads, x.name = o.name ∧ x.isNetwork = o.isNetwork ∧
        (o.isNetwork = false → o.name ∈ new.names)) ∨
      ∃ w ∈ additions keep new.workloads old.names old.workloads, x = bump old.version w := by
  rcases List.mem_append.mp hx with hx | hx
  · obtain ⟨o, ho, hset⟩ := List.mem_filterMap.mp hx
    obtain ⟨hn, hnet, hin⟩ := settle_eq_some hset
    exact Or.inl ⟨o, ho, hn, hnet, hin⟩
  · obtain ⟨w, hw, rfl⟩ := List.mem_map.mp hx
    exact Or.inr ⟨w, hw, rfl⟩

theorem mem_of_mem_additions (hnew : new.names.Nodup) {w : Workload}
    (hw : w ∈ additions keep new.workloads old.names old.workloads) : w ∈ new.workloads := by
  obtain ⟨-, o, -, -, hr⟩ := (mem_additions_iff hnew).mp hw
  exact reached_subset hr

/-- Under the condition, the additions are the new names; without it, some may be missing. -/
theorem mem_additions_of_meets (hnew : new.names.Nodup) (h : UpdateMeets keep old new)
    {w : Workload} (hw : w ∈ plain new.workloads) (hn : w.name ∉ old.names) :
    w ∈ additions keep new.workloads old.names old.workloads := by
  obtain ⟨o, ho, w', hw', hname, hor⟩ := h.seen w hw hn
  refine (mem_additions_iff hnew).mpr ⟨hn, o, (mem_plain.mp ho).1,
    processed_of_mem ho (mem_plain.mp hw').1 hname, ?_⟩
  refine (mem_reached_iff hnew).mpr ⟨(mem_plain.mp hw).1, fun x hx hm hc => ?_⟩
  have heq : x = w' := eq_of_name hnew hx (mem_plain.mp hw').1 (hm.2.trans hname.symm)
  subst heq
  rcases hor with hu | hs
  · exact absurd hu hc
  · exact Or.inr hs

theorem updateFound_eq_false_iff (hnew : new.names.Nodup) :
    updateFound keep old new = false ↔
      additions keep new.workloads old.names old.workloads = [] ∧
        ∀ o ∈ plain old.workloads, o.name ∈ new.names ∧
          ∀ w ∈ plain new.workloads, w.name = o.name → Unchanged keep o w := by
  simp only [updateFound, Bool.or_eq_false_iff, Bool.not_eq_false', List.isEmpty_iff,
    List.any_eq_false, Bool.not_eq_true]
  refine and_congr_right fun _ => ?_
  constructor
  · intro h o ho
    obtain ⟨hmem, hnet⟩ := mem_plain.mp ho
    exact (differs_eq_false_iff hnew hnet).mp (h o hmem)
  · intro h o ho
    cases hnet : o.isNetwork with
    | true => simp [differs, hnet]
    | false => exact (differs_eq_false_iff hnew hnet).mpr (h o (mem_plain.mpr ⟨ho, hnet⟩))

theorem requestedUpdate_of_meets (hnew : new.names.Nodup)
    (h : UpdateMeets keep old new) :
    RequestedUpdate keep old new
      (if updateFound keep old new then some (updated keep old new) else none) where
  names := by
    intro d hd n
    split_ifs at hd
    cases hd
    simp only [List.mem_map]
    constructor
    · rintro ⟨x, hx, rfl⟩
      obtain ⟨hx, hxnet⟩ := mem_plain.mp hx
      rcases mem_updated hx with ⟨o, ho, hn, hnet, hin⟩ | ⟨w, hw, rfl⟩
      · have honet : o.isNetwork = false := hnet ▸ hxnet
        obtain ⟨w, hw, hwn⟩ := List.mem_map.mp (hin honet)
        have hwnet : w.isNetwork = false := by
          by_contra hc
          exact h.old_name o (mem_plain.mpr ⟨ho, honet⟩) w hw (by simpa using hc) hwn
        exact ⟨w, mem_plain.mpr ⟨hw, hwnet⟩, hwn.trans hn.symm⟩
      · exact ⟨w, mem_plain.mpr ⟨mem_of_mem_additions hnew hw, hxnet⟩, rfl⟩
    · rintro ⟨w, hw, rfl⟩
      obtain ⟨hwmem, hwnet⟩ := mem_plain.mp hw
      by_cases hin : w.name ∈ old.names
      · obtain ⟨o, ho, hon⟩ := List.mem_map.mp hin
        have honet : o.isNetwork = false := by
          by_contra hc
          exact h.new_name w hw o ho (by simpa using hc) hon
        have hp := processed_of_mem (mem_plain.mpr ⟨ho, honet⟩) hwmem hon.symm
        exact ⟨_, mem_plain.mpr ⟨mem_updated_of_processed ho hp, settled_name.2.trans honet⟩,
          settled_name.1.trans hon⟩
      · have hadd := mem_additions_of_meets hnew h hw hin
        exact ⟨_, mem_plain.mpr ⟨mem_updated_of_addition hadd, hwnet⟩, rfl⟩
  unchanged := by
    intro d hd o ho w hw hn hu
    split_ifs at hd
    cases hd
    have hp := processed_of_mem ho (mem_plain.mp hw).1 hn
    have hset : settled keep old.version new.workloads o = o := by
      simp only [settled, partner_eq hnew hw hn, hu, ↓reduceIte]
    exact hset ▸ mem_updated_of_processed (mem_plain.mp ho).1 hp
  changed := by
    intro d hd o ho w hw hn hu
    split_ifs at hd
    cases hd
    have hp := processed_of_mem ho (mem_plain.mp hw).1 hn
    refine ⟨_, mem_updated_of_processed (mem_plain.mp ho).1 hp, settled_name.1.trans hn.symm, ?_⟩
    simp only [settled, partner_eq hnew hw hn, hu, ↓reduceIte, takeOver, and_self]
  added := by
    intro d hd w hw hn
    split_ifs at hd
    cases hd
    have hnot : w.name ∉ old.names := by
      intro hin
      obtain ⟨o, ho, hon⟩ := List.mem_map.mp hin
      cases hnet : o.isNetwork with
      | true => exact h.new_name w hw o ho hnet hon
      | false => exact hn (List.mem_map.mpr ⟨o, mem_plain.mpr ⟨ho, hnet⟩, hon⟩)
    exact ⟨_, mem_updated_of_addition (mem_additions_of_meets hnew h hw hnot), rfl, rfl, rfl⟩
  nothing := by
    have hnone : (if updateFound keep old new then some (updated keep old new) else none) = none ↔
        updateFound keep old new = false := by
      cases updateFound keep old new <;> simp
    rw [hnone, updateFound_eq_false_iff hnew]
    constructor
    · rintro ⟨hadd, hall⟩
      refine ⟨fun n => ?_, fun o ho => (hall o ho).2⟩
      simp only [List.mem_map]
      constructor
      · rintro ⟨o, ho, rfl⟩
        obtain ⟨w, hw, hwn⟩ := List.mem_map.mp (hall o ho).1
        cases hnet : w.isNetwork with
        | true => exact absurd hwn (h.old_name o ho w hw hnet)
        | false => exact ⟨w, mem_plain.mpr ⟨hw, hnet⟩, hwn⟩
      · rintro ⟨w, hw, rfl⟩
        by_cases hin : w.name ∈ old.names
        · obtain ⟨o, ho, hon⟩ := List.mem_map.mp hin
          cases hnet : o.isNetwork with
          | true => exact absurd hon (h.new_name w hw o ho hnet)
          | false => exact ⟨o, mem_plain.mpr ⟨ho, hnet⟩, hon⟩
        · have hmem := mem_additions_of_meets hnew h hw hin
          rw [hadd] at hmem
          cases hmem
    · rintro ⟨hsame, hun⟩
      have hnames : ∀ o ∈ plain old.workloads, o.name ∈ new.names := by
        intro o ho
        obtain ⟨w, hw, hn⟩ := List.mem_map.mp ((hsame o.name).mp (List.mem_map_of_mem ho))
        exact hn ▸ List.mem_map_of_mem (mem_plain.mp hw).1
      refine ⟨?_, fun o ho => ⟨hnames o ho, hun o ho⟩⟩
      rw [List.eq_nil_iff_forall_not_mem]
      intro w hw
      obtain ⟨hn, o, ho, hp, hr⟩ := (mem_additions_iff hnew).mp hw
      have hop : o ∈ plain old.workloads := mem_plain.mpr ⟨ho, hp.1⟩
      have hwmem := reached_subset hr
      cases hnet : w.isNetwork with
      | true => exact hn (h.network hsame hun (List.ne_nil_of_mem hop) w hwmem hnet)
      | false =>
        obtain ⟨o', ho', hon⟩ := List.mem_map.mp
          ((hsame w.name).mpr (List.mem_map_of_mem (mem_plain.mpr ⟨hwmem, hnet⟩)))
        exact hn (hon ▸ List.mem_map_of_mem (mem_plain.mp ho').1)

theorem meets_of_requestedUpdate (hold : old.names.Nodup) (hnew : new.names.Nodup)
    (h : RequestedUpdate keep old new
      (if updateFound keep old new then some (updated keep old new) else none)) :
    UpdateMeets keep old new := by
  have hcases : (updateFound keep old new = false ∧
      SameNames (plain old.workloads) (plain new.workloads)) ∨
      SameNames (plain (updated keep old new).workloads) (plain new.workloads) := by
    cases hf : updateFound keep old new with
    | false => exact Or.inl ⟨rfl, (h.nothing.mp (by simp [hf])).1⟩
    | true => exact Or.inr (h.names _ (by simp [hf]))
  have hold_name : ∀ o ∈ plain old.workloads, ∀ w ∈ new.workloads, w.isNetwork → w.name ≠ o.name := by
    intro o ho w hw hnet hn
    have hnot : o.name ∉ (plain new.workloads).map Workload.name := by
      intro hin
      obtain ⟨w', hw', hn'⟩ := List.mem_map.mp hin
      obtain ⟨hw'mem, hw'net⟩ := mem_plain.mp hw'
      have heq := eq_of_name hnew hw'mem hw (hn'.trans hn.symm)
      rw [heq, hnet] at hw'net
      cases hw'net
    rcases hcases with ⟨-, hsame⟩ | hsame
    · exact hnot ((hsame _).mp (List.mem_map_of_mem ho))
    · have hp := processed_of_mem ho hw hn
      have hin : settled keep old.version new.workloads o ∈ plain (updated keep old new).workloads :=
        mem_plain.mpr ⟨mem_updated_of_processed (mem_plain.mp ho).1 hp, settled_name.2.trans hp.1⟩
      have hmem := (hsame _).mp (List.mem_map_of_mem hin)
      rw [settled_name.1] at hmem
      exact hnot hmem
  have hnew_name : ∀ w ∈ plain new.workloads, ∀ o ∈ old.workloads, o.isNetwork →
      o.name ≠ w.name := by
    intro w hw o ho hnet hn
    have hnot : ∀ o' ∈ old.workloads, o'.name = w.name → o'.isNetwork = true := by
      intro o' ho' hn'
      rwa [eq_of_name hold ho' ho (hn'.trans hn.symm)]
    rcases hcases with ⟨-, hsame⟩ | hsame
    · obtain ⟨o', ho', hn'⟩ := List.mem_map.mp ((hsame _).mpr (List.mem_map_of_mem hw))
      obtain ⟨ho'mem, ho'net⟩ := mem_plain.mp ho'
      rw [hnot o' ho'mem hn'] at ho'net
      cases ho'net
    · obtain ⟨x, hx, hxn⟩ := List.mem_map.mp ((hsame _).mpr (List.mem_map_of_mem hw))
      obtain ⟨hxmem, hxnet⟩ := mem_plain.mp hx
      rcases mem_updated hxmem with ⟨o', ho', hn', hnet', -⟩ | ⟨w', hw', rfl⟩
      · rw [hnet', hnot o' ho' (hn'.symm.trans hxn)] at hxnet
        cases hxnet
      · have hfresh := ((mem_additions_iff hnew).mp hw').1
        have hwn : w'.name = w.name := hxn
        exact hfresh (hwn ▸ hn ▸ List.mem_map_of_mem ho)
  refine ⟨hold_name, hnew_name, ?_, ?_⟩
  · intro w hw hn
    have hadd : w ∈ additions keep new.workloads old.names old.workloads := by
      rcases hcases with ⟨-, hsame⟩ | hsame
      · obtain ⟨o, ho, hon⟩ := List.mem_map.mp ((hsame _).mpr (List.mem_map_of_mem hw))
        exact absurd (hon ▸ List.mem_map_of_mem (mem_plain.mp ho).1) hn
      · obtain ⟨x, hx, hxn⟩ := List.mem_map.mp ((hsame _).mpr (List.mem_map_of_mem hw))
        rcases mem_updated (mem_plain.mp hx).1 with ⟨o, ho, hon, -, -⟩ | ⟨w', hw', rfl⟩
        · exact absurd (hon.symm.trans hxn ▸ List.mem_map_of_mem ho) hn
        · have heq := eq_of_name hnew (mem_of_mem_additions hnew hw') (mem_plain.mp hw).1 hxn
          exact heq ▸ hw'
    obtain ⟨-, o, ho, hp, hr⟩ := (mem_additions_iff hnew).mp hadd
    obtain ⟨w', hw', hn'⟩ := List.mem_map.mp hp.2
    have hop : o ∈ plain old.workloads := mem_plain.mpr ⟨ho, hp.1⟩
    have hnet' : w'.isNetwork = false := by
      by_contra hc
      exact hold_name o hop w' hw' (by simpa using hc) hn'
    refine ⟨o, hop, w', mem_plain.mpr ⟨hw', hnet'⟩, hn', ?_⟩
    by_cases hu : Unchanged keep o w'
    · exact Or.inl hu
    · rcases ((mem_reached_iff hnew).mp hr).2 w' hw' ⟨hnet', hn'⟩ hu with rfl | hs
      · exact absurd (hn' ▸ List.mem_map_of_mem ho) hn
      · exact Or.inr hs
  · intro hsame hun hne w hw hnet
    by_contra hn
    obtain ⟨o, ho⟩ := List.exists_mem_of_ne_nil _ hne
    obtain ⟨w₀, hw₀, hn₀⟩ := List.mem_map.mp ((hsame _).mp (List.mem_map_of_mem ho))
    have hp := processed_of_mem ho (mem_plain.mp hw₀).1 hn₀
    have hr : w ∈ reached keep o new.workloads := by
      refine (mem_reached_iff hnew).mpr ⟨hw, fun x hx hm hc => ?_⟩
      exact absurd (hun o ho x (mem_plain.mpr ⟨hx, hm.1⟩) hm.2) hc
    have hadd : w ∈ additions keep new.workloads old.names old.workloads :=
      (mem_additions_iff hnew).mpr
      ⟨hn, o, (mem_plain.mp ho).1, hp, hr⟩
    have hnone := h.nothing.mpr ⟨hsame, hun⟩
    have hfound : updateFound keep old new = false := by
      cases hf : updateFound keep old new with
      | false => rfl
      | true => simp [hf] at hnone
    rw [((updateFound_eq_false_iff hnew).mp hfound).1] at hadd
    cases hadd

end Update

/-- `UpdateDeployment` computes the requested update exactly when the old and the new workloads
meet the condition. -/
theorem updateDeployment_requested_iff {nodeId : Except GridError Nat} {old new : Deployment}
    {network : Option Network} {r : Updated} (hold : old.names.Nodup) (hnew : new.names.Nodup)
    (h : updateDeployment nodeId old new network = .ok r) :
    RequestedUpdate network.isSome old new r.result ↔ UpdateMeets network.isSome old new := by
  obtain ⟨hr, hres⟩ := updateDeployment_ok h hold hnew
  rw [hres, hr]
  exact ⟨meets_of_requestedUpdate hold hnew, requestedUpdate_of_meets hnew⟩

def zdbWorkload (name : String) (version size : Nat) : Workload :=
  ⟨version, name, .zdb, .zdb ⟨size, .user, "pass", false⟩, "", "", none⟩

def zdbDeployment (version : Nat) (workloads : List Workload) : Deployment :=
  ⟨version, 1, some 7, 0, "", "", workloads, ⟨[⟨1, false, 1⟩], 1, []⟩⟩

/-- A size is changed and a workload is added before it: both come out as asked. -/
theorem resize_and_add_requested :
    RequestedUpdate false (zdbDeployment 0 [zdbWorkload "a" 0 1])
        (zdbDeployment 0 [zdbWorkload "b" 0 1, zdbWorkload "a" 0 2])
        (some (zdbDeployment 0 [zdbWorkload "a" 1 2, zdbWorkload "b" 1 1])) ↔
      UpdateMeets false (zdbDeployment 0 [zdbWorkload "a" 0 1])
        (zdbDeployment 0 [zdbWorkload "b" 0 1, zdbWorkload "a" 0 2]) := by
  have hrun : updateDeployment (.ok 1) (zdbDeployment 0 [zdbWorkload "a" 0 1])
      (zdbDeployment 0 [zdbWorkload "b" 0 1, zdbWorkload "a" 0 2]) none =
      .ok ⟨some (zdbDeployment 0 [zdbWorkload "a" 1 2, zdbWorkload "b" 1 1]),
        zdbDeployment 0 [zdbWorkload "a" 1 2, zdbWorkload "b" 1 1],
        zdbDeployment 0 [zdbWorkload "b" 1 1, zdbWorkload "a" 0 2], none⟩ := by
    decide
  exact updateDeployment_requested_iff (by decide) (by decide) hrun

/-- The only workload is renamed: the old one is deleted and the new one is never added. -/
theorem rename_not_requested :
    (zdbDeployment 0 [zdbWorkload "a" 0 1]).names.Nodup ∧
      (zdbDeployment 0 [zdbWorkload "b" 0 1]).names.Nodup ∧
      ∃ r, updateDeployment (.ok 1) (zdbDeployment 0 [zdbWorkload "a" 0 1])
          (zdbDeployment 0 [zdbWorkload "b" 0 1]) none = .ok r ∧
        ¬ RequestedUpdate false (zdbDeployment 0 [zdbWorkload "a" 0 1])
          (zdbDeployment 0 [zdbWorkload "b" 0 1]) r.result := by
  refine ⟨by decide, by decide, ⟨some (zdbDeployment 0 []), zdbDeployment 0 [],
    zdbDeployment 0 [zdbWorkload "b" 0 1], none⟩, by decide, ?_⟩
  intro h
  have hb : "b" ∈ (plain (zdbDeployment 0 [zdbWorkload "b" 0 1]).workloads).map Workload.name := by
    decide
  have hnot : "b" ∉ (plain (zdbDeployment 0 []).workloads).map Workload.name := by decide
  exact hnot ((h.names _ rfl "b").mpr hb)

end ThreefoldSdk.Primitives
