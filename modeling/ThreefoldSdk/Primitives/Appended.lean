import ThreefoldSdk.Lib.Frame
import ThreefoldSdk.Primitives.RequestedUpdate

/-! `UpdateDeployment` when the new deployment is the old one with workloads appended. -/

namespace ThreefoldSdk.Primitives
open Zos

/-- The old workloads, and after them the appended ones with the next version. -/
def appended (old : Deployment) (added : List Workload) : Deployment :=
  { old with workloads := old.workloads ++ added.map (bump old.version) }

/-! Appended workloads with names of their own. -/

theorem adopted_self (keep : Bool) (o : Workload) : adopted keep o o = o := by
  unfold adopted
  cases ho : o.data.firstInterface with
  | none => rfl
  | some iface =>
    dsimp only
    rw [setFirstIp_self ho, ite_self]

theorem unchanged_self (keep : Bool) (o : Workload) : Unchanged keep o o := by
  unfold Unchanged
  rw [adopted_self]

section Own
variable {keep : Bool} {old : Deployment} {added : List Workload}

theorem reached_of_unchanged {o : Workload} {ws : List Workload}
    (h : ∀ w ∈ ws, Matches o w → Unchanged keep o w) : reached keep o ws = ws := by
  induction ws with
  | nil => rfl
  | cons w ws ih =>
    have hw : ¬(Matches o w ∧ ¬Unchanged keep o w) := fun hc => hc.2 (h w List.mem_cons_self hc.1)
    rw [reached, if_neg hw, ih fun w hw => h w (List.mem_cons_of_mem _ hw)]

/-- An old workload matches itself alone among the old and the appended workloads. -/
theorem matches_self (hnodup : ((old.workloads ++ added).map Workload.name).Nodup) {o w : Workload}
    (ho : o ∈ old.workloads) (hw : w ∈ old.workloads ++ added) (hm : Matches o w) : w = o :=
  eq_of_name hnodup hw (List.mem_append_left _ ho) hm.2

theorem settled_self (hnodup : ((old.workloads ++ added).map Workload.name).Nodup) {o : Workload}
    (ho : o ∈ old.workloads) {version : Nat} :
    settled keep version (old.workloads ++ added) o = o := by
  unfold settled
  cases hp : partner (old.workloads ++ added) o with
  | none => rfl
  | some w =>
    obtain ⟨hw, hm⟩ := partner_eq_some hp
    have hself : w = o := matches_self hnodup ho hw hm
    dsimp only
    rw [hself, if_pos (unchanged_self keep o)]

theorem settle_self (hnodup : ((old.workloads ++ added).map Workload.name).Nodup) {o : Workload}
    (ho : o ∈ old.workloads) {version : Nat} :
    settle keep version (old.workloads ++ added) o = some o := by
  have hname : o.name ∈ (old.workloads ++ added).map Workload.name :=
    List.mem_map_of_mem (List.mem_append_left _ ho)
  unfold settle
  rw [if_neg (not_not.mpr hname), settled_self hnodup ho, ite_self]

theorem filterMap_settle (hnodup : ((old.workloads ++ added).map Workload.name).Nodup) :
    old.workloads.filterMap (settle keep old.version (old.workloads ++ added)) = old.workloads := by
  rw [List.filterMap_congr fun o ho => settle_self hnodup ho]
  exact List.filterMap_some

/-- The first old workload adds all that is appended. -/
theorem fresh_first (hnodup : ((old.workloads ++ added).map Workload.name).Nodup) {o : Workload}
    (ho : o ∈ old.workloads) : fresh keep old.names (old.workloads ++ added) o = added := by
  have hall : reached keep o (old.workloads ++ added) = old.workloads ++ added := by
    apply reached_of_unchanged
    intro w hw hm
    rw [matches_self hnodup ho hw hm]
    exact unchanged_self keep o
  have hold : ∀ w ∈ old.workloads, ¬decide (w.name ∉ old.names) = true := by
    intro w hw hc
    exact of_decide_eq_true hc (List.mem_map_of_mem hw)
  have hadded : ∀ w ∈ added, decide (w.name ∉ old.names) = true := by
    intro w hw
    rw [List.map_append, List.nodup_append'] at hnodup
    exact decide_eq_true fun hc => hnodup.2.2 hc (List.mem_map_of_mem hw)
  unfold fresh
  rw [hall, List.filter_append, List.filter_eq_nil_iff.mpr hold, List.nil_append,
    List.filter_eq_self.mpr hadded]

/-- No name is left to add. -/
theorem additions_eq_nil {new os : List Workload} {names : List String}
    (h : ∀ w ∈ new, w.name ∈ names) : additions keep new names os = [] := by
  induction os generalizing names with
  | nil => rfl
  | cons o os ih =>
    have hfresh : fresh keep names new o = [] := by
      unfold fresh
      rw [List.filter_eq_nil_iff]
      intro w hw hc
      exact of_decide_eq_true hc (h w (reached_subset hw))
    rw [additions, hfresh, List.map_nil, List.append_nil, ih h, List.append_nil, ite_self]

theorem additions_appended (hnodup : ((old.workloads ++ added).map Workload.name).Nodup)
    (hplain : ∀ o ∈ old.workloads, o.isNetwork = false) (hne : old.workloads ≠ []) :
    additions keep (old.workloads ++ added) old.names old.workloads = added := by
  obtain ⟨o, os, hos⟩ := List.exists_cons_of_ne_nil hne
  have ho : o ∈ old.workloads := hos ▸ List.mem_cons_self
  have hproc : Processed (old.workloads ++ added) o :=
    ⟨hplain o ho, List.mem_map_of_mem (List.mem_append_left _ ho)⟩
  have hrest : additions keep (old.workloads ++ added) (old.names ++ added.map Workload.name) os =
      [] := by
    apply additions_eq_nil
    intro w hw
    have hname := List.mem_map_of_mem (f := Workload.name) hw
    rw [List.map_append] at hname
    exact hname
  have hcons : additions keep (old.workloads ++ added) old.names (o :: os) = added := by
    rw [additions, if_pos hproc, fresh_first hnodup ho, hrest, List.append_nil]
  rw [← hos] at hcons
  exact hcons

/-- Workloads with names of their own are appended; an old workload has to be there to see them. -/
theorem updateDeployment_appended {nodeId : Except GridError Nat} {network : Option Network}
    {r : Updated}
    (h : updateDeployment nodeId old { old with workloads := old.workloads ++ added } network =
      .ok r)
    (hnodup : ((old.workloads ++ added).map Workload.name).Nodup)
    (hplain : ∀ o ∈ old.workloads, o.isNetwork = false) (hne : old.workloads ≠ [])
    (hadded : added ≠ []) : r.result = some (appended old added) := by
  have hold : old.names.Nodup := by
    rw [List.map_append, List.nodup_append'] at hnodup
    exact hnodup.1
  obtain ⟨hr, hres⟩ := updateDeployment_ok h hold hnodup
  have hupdated : updated network.isSome old { old with workloads := old.workloads ++ added } =
      appended old added := by
    unfold updated appended
    dsimp only
    rw [filterMap_settle hnodup, additions_appended hnodup hplain hne]
  have hfound : updateFound network.isSome old { old with workloads := old.workloads ++ added } =
      true := by
    unfold updateFound
    dsimp only
    rw [additions_appended hnodup hplain hne, List.isEmpty_eq_false_iff.mpr hadded]
    rfl
  rw [hres, hfound, if_pos rfl, hr, hupdated]

end Own

/-! Any appended workloads: what is added has new names, each once. -/

/-- What a part of the scan added, from workloads with the names `news`. -/
structure ScanAdds (news : List String) (added : List Workload) (st st' : Scan) : Prop where
  newWorkloads : st'.newWorkloads = st.newWorkloads ++ added
  oldWorkloadNames : st'.oldWorkloadNames = st.oldWorkloadNames ++ added.map Workload.name
  distinct : (added.map Workload.name).Nodup
  fresh : ∀ n ∈ added.map Workload.name, n ∉ st.oldWorkloadNames
  among : ∀ n ∈ added.map Workload.name, n ∈ news

namespace ScanAdds

theorem nothing (news : List String) {st st' : Scan} (hnew : st'.newWorkloads = st.newWorkloads)
    (hold : st'.oldWorkloadNames = st.oldWorkloadNames) : ScanAdds news [] st st' where
  newWorkloads := by rw [hnew, List.append_nil]
  oldWorkloadNames := by rw [hold, List.map_nil, List.append_nil]
  distinct := List.nodup_nil
  fresh := fun _ h => nomatch h
  among := fun _ h => nomatch h

theorem mono {news news' : List String} {added : List Workload} {st st' : Scan}
    (h : ScanAdds news added st st') (hsub : ∀ n ∈ news, n ∈ news') : ScanAdds news' added st st' :=
  { h with among := fun n hn => hsub n (h.among n hn) }

theorem trans {news : List String} {added added' : List Workload} {st st' st'' : Scan}
    (h : ScanAdds news added st st') (h' : ScanAdds news added' st' st'') :
    ScanAdds news (added ++ added') st st'' where
  newWorkloads := by rw [h'.newWorkloads, h.newWorkloads, List.append_assoc]
  oldWorkloadNames := by
    rw [h'.oldWorkloadNames, h.oldWorkloadNames, List.map_append, List.append_assoc]
  distinct := by
    rw [List.map_append, List.nodup_append']
    refine ⟨h.distinct, h'.distinct, ?_⟩
    intro n hn hn'
    apply h'.fresh n hn'
    rw [h.oldWorkloadNames]
    exact List.mem_append_right _ hn
  fresh := by
    intro n hn hold
    rw [List.map_append] at hn
    rcases List.mem_append.mp hn with hn | hn
    · exact h.fresh n hn hold
    · apply h'.fresh n hn
      rw [h.oldWorkloadNames]
      exact List.mem_append_left _ hold
  among := by
    intro n hn
    rw [List.map_append] at hn
    rcases List.mem_append.mp hn with hn | hn
    · exact h.among n hn
    · exact h'.among n hn

end ScanAdds

/-- What the loops leave alone of a new workload: the name, the type and whether it is an IPv4. -/
def outline (w : Workload) : String × WorkloadTypes × Bool := (w.name, w.type, w.data.v4)

theorem map_name_of_outline {ws ws' : List Workload} (h : ws'.map outline = ws.map outline) :
    ws'.map Workload.name = ws.map Workload.name := by
  have hnames := congrArg (List.map Prod.fst) h
  rw [List.map_map, List.map_map] at hnames
  exact hnames

theorem v4_setFirstIp (ip : String) (d : WorkloadData) : (d.setFirstIp ip).v4 = d.v4 := by
  cases d <;> rfl

theorem adopt_outline {nodeId : Except GridError Nat} {o w w' : Workload} {n n' : Option Network}
    (h : adopt nodeId o w n = .ok (w', n')) : outline w' = outline w := by
  rw [(adopt_ok h).1]
  have hv4 : (adopted n.isSome o w).data.v4 = w.data.v4 := by
    unfold adopted
    cases o.data.firstInterface with
    | none => rfl
    | some iface =>
      dsimp only
      split
      · exact v4_setFirstIp iface.ip w.data
      · rfl
  unfold outline
  rw [hv4]
  rfl

theorem matchWorkload_adds {nodeId : Except GridError Nat} {version : Nat} {o o' : Workload}
    {ws ws' : List Workload} {st st' : Scan}
    (h : matchWorkload nodeId version o ws st = .ok (o', ws', st')) :
    ws'.map outline = ws.map outline ∧
      ∃ added, ScanAdds (ws.map Workload.name) added st st' := by
  induction ws generalizing o' ws' st st' with
  | nil =>
    cases h
    exact ⟨rfl, [], ScanAdds.nothing _ rfl rfl⟩
  | cons w ws ih =>
    have hmono : ∀ n ∈ ws.map Workload.name, n ∈ (w :: ws).map Workload.name :=
      fun n hn => List.mem_cons_of_mem _ hn
    rw [matchWorkload] at h
    by_cases hfresh : w.name ∉ st.oldWorkloadNames
    · rw [if_pos hfresh] at h
      obtain ⟨⟨o₁, ws₁, st₁⟩, hrec, hrest⟩ := Frame.exceptBind_eq_ok.mp h
      cases hrest
      obtain ⟨hnames, added, hadds⟩ := ih hrec
      have hone : ScanAdds ((w :: ws).map Workload.name) [{ w with version := version + 1 }] st
          { st with
            oldWorkloadNames := st.oldWorkloadNames ++ [w.name]
            newWorkloads := st.newWorkloads ++ [{ w with version := version + 1 }]
            foundUpdate := true } := by
        refine ⟨rfl, rfl, List.nodup_singleton _, ?_, ?_⟩
        · intro n hn
          rw [List.mem_singleton.mp hn]
          exact hfresh
        · intro n hn
          rw [List.mem_singleton.mp hn]
          exact List.mem_cons_self
      refine ⟨?_, _, hone.trans (hadds.mono hmono)⟩
      rw [List.map_cons, List.map_cons, hnames]
      rfl
    rw [if_neg hfresh] at h
    by_cases hskip : w.isNetwork ∨ w.name ≠ o.name
    · rw [if_pos hskip] at h
      obtain ⟨⟨o₁, ws₁, st₁⟩, hrec, hrest⟩ := Frame.exceptBind_eq_ok.mp h
      cases hrest
      obtain ⟨hnames, added, hadds⟩ := ih hrec
      refine ⟨?_, added, hadds.mono hmono⟩
      rw [List.map_cons, List.map_cons, hnames]
    · rw [if_neg hskip] at h
      obtain ⟨⟨w₁, network⟩, hadopt, hrest⟩ := Frame.exceptBind_eq_ok.mp h
      have hw : outline w₁ = outline w := adopt_outline hadopt
      dsimp only at hrest
      split_ifs at hrest with hsame
      · obtain ⟨⟨o₁, ws₁, st₁⟩, hrec, hrest⟩ := Frame.exceptBind_eq_ok.mp hrest
        cases hrest
        obtain ⟨hnames, added, hadds⟩ := ih hrec
        -- only the network of the shared variables is another one
        have hfrom : ScanAdds ((w :: ws).map Workload.name) added st st₁ :=
          { hadds.mono hmono with }
        refine ⟨?_, added, hfrom⟩
        rw [List.map_cons, List.map_cons, hnames, hw]
      · cases hrest
        refine ⟨?_, [], ScanAdds.nothing _ rfl rfl⟩
        rw [List.map_cons, List.map_cons, hw]

theorem scanWorkloads_adds {nodeId : Except GridError Nat} {version : Nat} {names : List String}
    {os ws ws' : List Workload} {kept : List (Option Workload)} {st st' : Scan}
    (h : scanWorkloads nodeId version names os ws st = .ok (kept, ws', st')) :
    kept.length = os.length ∧ ws'.map outline = ws.map outline ∧
      ∃ added, ScanAdds (ws.map Workload.name) added st st' := by
  induction os generalizing ws ws' kept st st' with
  | nil =>
    cases h
    exact ⟨rfl, rfl, [], ScanAdds.nothing _ rfl rfl⟩
  | cons o os ih =>
    rw [scanWorkloads] at h
    by_cases hnet : o.isNetwork
    · rw [if_pos hnet] at h
      obtain ⟨⟨kept₁, ws₁, st₁⟩, hrec, hrest⟩ := Frame.exceptBind_eq_ok.mp h
      cases hrest
      obtain ⟨hlength, houtlines, hadds⟩ := ih hrec
      exact ⟨congrArg (· + 1) hlength, houtlines, hadds⟩
    rw [if_neg hnet] at h
    by_cases hdel : o.name ∉ names
    · rw [if_pos hdel] at h
      obtain ⟨⟨kept₁, ws₁, st₁⟩, hrec, hrest⟩ := Frame.exceptBind_eq_ok.mp h
      cases hrest
      obtain ⟨hlength, houtlines, added, hadds⟩ := ih hrec
      exact ⟨congrArg (· + 1) hlength, houtlines, added, { hadds with }⟩
    · rw [if_neg hdel] at h
      obtain ⟨⟨o₁, ws₁, st₁⟩, hmatch, hrest⟩ := Frame.exceptBind_eq_ok.mp h
      obtain ⟨⟨kept₂, ws₂, st₂⟩, hrec, hrest⟩ := Frame.exceptBind_eq_ok.mp hrest
      cases hrest
      obtain ⟨houtlines, added, hadds⟩ := matchWorkload_adds hmatch
      obtain ⟨hlength, houtlines', added', hadds'⟩ := ih hrec
      rw [map_name_of_outline houtlines] at hadds'
      exact ⟨congrArg (· + 1) hlength, houtlines'.trans houtlines, _, hadds.trans hadds'⟩

/-- Whatever is appended, the result has at most the old workloads, and new ones with new names. -/
theorem updateDeployment_result {nodeId : Except GridError Nat} {old new d : Deployment}
    {network : Option Network} {r : Updated}
    (h : updateDeployment nodeId old new network = .ok r) (hd : r.result = some d) :
    ∃ kept added, d = { old with workloads := kept ++ added } ∧
      kept.length ≤ old.workloads.length ∧ (added.map Workload.name).Nodup ∧
        ∀ n ∈ added.map Workload.name, n ∈ new.names ∧ n ∉ old.names := by
  unfold updateDeployment at h
  obtain ⟨⟨kept, ws, st⟩, hscan, hrest⟩ := Frame.exceptBind_eq_ok.mp h
  cases hrest
  obtain ⟨hlength, -, added, hadds⟩ := scanWorkloads_adds hscan
  dsimp only at hd
  split_ifs at hd
  cases hd
  refine ⟨kept.filterMap id, added, ?_, ?_, hadds.distinct, ?_⟩
  · rw [hadds.newWorkloads]
    rfl
  · rw [← hlength]
    exact List.length_filterMap_le _ _
  · intro n hn
    exact ⟨hadds.among n hn, hadds.fresh n hn⟩

/-- The new workloads keep their outlines. -/
theorem updateDeployment_outlines {nodeId : Except GridError Nat} {old new : Deployment}
    {network : Option Network} {r : Updated}
    (h : updateDeployment nodeId old new network = .ok r) :
    r.new.workloads.map outline = new.workloads.map outline := by
  unfold updateDeployment at h
  obtain ⟨⟨kept, ws, st⟩, hscan, hrest⟩ := Frame.exceptBind_eq_ok.mp h
  cases hrest
  exact (scanWorkloads_adds hscan).2.1

end ThreefoldSdk.Primitives
