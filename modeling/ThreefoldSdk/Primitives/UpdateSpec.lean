import ThreefoldSdk.Lib.Frame
import ThreefoldSdk.Primitives.Deployment

/-! What `UpdateDeployment` returns, in closed form: every old workload settles by itself against
the new ones, and of the new ones those are added that the inner loop gets to see. -/

namespace ThreefoldSdk.Primitives
open Zos Frame

/-- The new workload as it is compared with the old one; `keep` says that a network is passed. -/
def adopted (keep : Bool) (workload w : Workload) : Workload :=
  { w with
    version := workload.version
    data :=
      match workload.data.firstInterface with
      | some iface => if keep ∧ w.type = .zmachine then w.data.setFirstIp iface.ip else w.data
      | none => w.data }

/-- The test of the source on a pair of workloads of one name. -/
def Unchanged (keep : Bool) (workload w : Workload) : Prop :=
  (adopted keep workload w).challenge = workload.challenge

instance (keep : Bool) (workload w : Workload) : Decidable (Unchanged keep workload w) :=
  inferInstanceAs (Decidable (_ = _))

/-- The old workload once it took over a changed one. -/
def takeOver (version : Nat) (workload w : Workload) : Workload :=
  { workload with
    version := version + 1
    data := w.data
    description := w.description
    metadata := w.metadata }

def bump (version : Nat) (w : Workload) : Workload := { w with version := version + 1 }

/-- The workload of the new deployment that is compared with an old one. -/
def Matches (workload w : Workload) : Prop := w.isNetwork = false ∧ w.name = workload.name

instance (workload w : Workload) : Decidable (Matches workload w) :=
  inferInstanceAs (Decidable (_ ∧ _))

def partner (ws : List Workload) (workload : Workload) : Option Workload :=
  ws.find? fun w => decide (Matches workload w)

/-- The new workloads the inner loop goes through for one old workload. -/
def reached (keep : Bool) (workload : Workload) : List Workload → List Workload
  | [] => []
  | w :: ws =>
    if Matches workload w ∧ ¬ Unchanged keep workload w then [w] else w :: reached keep workload ws

/-- What becomes of an old workload that is not deleted. -/
def settled (keep : Bool) (version : Nat) (ws : List Workload) (workload : Workload) : Workload :=
  match partner ws workload with
  | none => workload
  | some w =>
    if Unchanged keep workload w then workload
    else takeOver version workload (adopted keep workload w)

/-- Some new workload differs from the old one it is compared with. -/
def changes (keep : Bool) (ws : List Workload) (workload : Workload) : Bool :=
  (partner ws workload).any fun w => decide (¬ Unchanged keep workload w)

/-- Of the new workloads reached, those whose names are not known yet. -/
def fresh (keep : Bool) (names : List String) (ws : List Workload) (workload : Workload) :
    List Workload :=
  (reached keep workload ws).filter fun w => decide (w.name ∉ names)

theorem setFirstIp_self {d : WorkloadData} {i : ZNetworkInterface} (h : d.firstInterface = some i) :
    d.setFirstIp i.ip = d := by
  cases d with
  | zmachine z =>
    obtain ⟨fl, ⟨pub, ifs, pl, my⟩, sz, cc, mo, en, ev, co, gp⟩ := z
    cases ifs with
    | nil => cases h
    | cons a rest =>
      cases h
      rfl
  | zmachinelight z =>
    obtain ⟨fl, ⟨ifs, my⟩, sz, cc, mo, en, ev, co, gp⟩ := z
    cases ifs with
    | nil => cases h
    | cons a rest =>
      cases h
      rfl
  | _ => cases h

theorem adopt_ok {nodeId : Except GridError Nat} {o w w' : Workload} {n n' : Option Network}
    (h : adopt nodeId o w n = .ok (w', n')) :
    w' = adopted n.isSome o w ∧ n'.isSome = n.isSome := by
  unfold adopt at h
  by_cases hz : w.type = .zmachine
  · simp only [hz, ↓reduceIte] at h
    obtain ⟨node, -, h⟩ := exceptBind_eq_ok.mp h
    cases ho : o.data.firstInterface with
    | none =>
      simp only [ho] at h
      cases h
    | some i =>
      cases hw : w.data.firstInterface with
      | none =>
        simp only [ho, hw] at h
        cases h
      | some j =>
        simp only [ho, hw] at h
        cases n with
        | none =>
          cases h
          simp [adopted, ho, hz.symm]
        | some n =>
          by_cases hip : j.ip = i.ip
          · simp only [hip, ne_eq, not_true_eq_false, ↓reduceIte] at h
            cases h
            have hself := setFirstIp_self hw
            rw [hip] at hself
            simp [adopted, ho, hz, hself]
          · simp only [hip, ne_eq, not_false_eq_true, ↓reduceIte] at h
            cases h
            simp [adopted, ho, hz]
  · simp only [hz, ↓reduceIte, pure, Except.pure, Except.ok.injEq, Prod.mk.injEq] at h
    obtain ⟨rfl, rfl⟩ := h
    cases ho : o.data.firstInterface <;> simp [adopted, ho, hz]

/-! The inner loop. -/

/-- The new workloads after some runs of the inner loop: those still to be compared, and those
still to be added, are as they were. -/
def Tracks (todo names : List String) (new ws : List Workload) : Prop :=
  List.Forall₂ (fun w w' => w'.name = w.name ∧ w'.type = w.type ∧
    (w.name ∈ todo ∨ w.name ∉ names → w' = w)) new ws

theorem Tracks.refl (todo names : List String) (ws : List Workload) : Tracks todo names ws ws :=
  List.forall₂_same.mpr fun _ _ => ⟨rfl, rfl, fun _ => rfl⟩

theorem Tracks.trans {todo todo' names names' : List String} {new ws ws' : List Workload}
    (h : Tracks todo names new ws) (h' : Tracks todo' names' ws ws')
    (htodo : ∀ n ∈ todo', n ∈ todo) (hnames : ∀ n ∈ names, n ∈ names') :
    Tracks todo' names' new ws' := by
  induction h generalizing ws' with
  | nil =>
    cases h'
    exact .nil
  | cons hw _ ih =>
    cases h' with
    | cons hw' hrest =>
      obtain ⟨hn, ht, heq⟩ := hw
      obtain ⟨hn', ht', heq'⟩ := hw'
      refine .cons ⟨hn'.trans hn, ht'.trans ht, ?_⟩ (ih hrest)
      intro hmem
      have hmem' := hmem
      rw [← hn] at hmem'
      rw [heq' hmem', heq (hmem.imp (htodo _) fun hnot hin => hnot (hnames _ hin))]

theorem Tracks.reached_eq {keep : Bool} {todo names : List String} {new ws : List Workload}
    {o : Workload} (h : Tracks todo names new ws) (ho : o.name ∈ todo) :
    fresh keep names ws o = fresh keep names new o ∧ partner ws o = partner new o := by
  induction h with
  | nil => exact ⟨rfl, rfl⟩
  | @cons w w' new ws hw _ ih =>
    obtain ⟨hn, ht, heq⟩ := hw
    obtain ⟨ihf, ihp⟩ := ih
    have hmatch : Matches o w' ↔ Matches o w := by
      simp only [Matches, Workload.isNetwork, hn, ht]
    by_cases hm : Matches o w
    · have hww : w' = w := heq (Or.inl (hm.2 ▸ ho))
      subst hww
      constructor
      · simp only [fresh, reached] at ihf ⊢
        split_ifs
        · rfl
        · rw [List.filter_cons, List.filter_cons, ihf]
      · simp only [partner, List.find?_cons, hm, decide_true]
    · have hm' : ¬ Matches o w' := fun h => hm (hmatch.mp h)
      constructor
      · simp only [fresh, reached, hm, hm', false_and, ↓reduceIte, List.filter_cons, hn] at ihf ⊢
        split_ifs with hfresh
        · rw [heq (Or.inr (of_decide_eq_true hfresh)), ihf]
        · exact ihf
      · simp only [partner, List.find?_cons, hm, hm', decide_false] at ihp ⊢
        exact ihp

theorem reached_subset {keep : Bool} {o w : Workload} {ws : List Workload}
    (h : w ∈ reached keep o ws) : w ∈ ws := by
  induction ws with
  | nil => exact h
  | cons x ws ih =>
    rw [reached] at h
    split_ifs at h
    · rw [List.mem_singleton.mp h]
      exact List.mem_cons_self
    · rcases List.mem_cons.mp h with rfl | h
      · exact List.mem_cons_self
      · exact List.mem_cons_of_mem _ (ih h)

theorem fresh_append_name {keep : Bool} {names : List String} {ws : List Workload} {o : Workload}
    {n : String} (hn : n ∉ ws.map Workload.name) :
    fresh keep (names ++ [n]) ws o = fresh keep names ws o := by
  unfold fresh
  apply List.filter_congr
  intro w hw
  have hne : w.name ≠ n := by
    rintro rfl
    exact hn (List.mem_map_of_mem (reached_subset hw))
  simp [hne]

theorem partner_eq_none {ws : List Workload} {o : Workload} (h : o.name ∉ ws.map Workload.name) :
    partner ws o = none := by
  rw [partner, List.find?_eq_none]
  intro w hw hm
  exact h ((of_decide_eq_true hm).2 ▸ List.mem_map_of_mem hw)

theorem partner_eq_some {ws : List Workload} {o w : Workload} (h : partner ws o = some w) :
    w ∈ ws ∧ Matches o w := by
  unfold partner at h
  have hm := List.find?_some h
  exact ⟨List.mem_of_find?_eq_some h, of_decide_eq_true hm⟩

theorem partner_cons_of_matches {o w : Workload} {ws : List Workload} (h : Matches o w) :
    partner (w :: ws) o = some w := by
  simp [partner, h]

theorem partner_cons_of_not_matches {o w : Workload} {ws : List Workload} (h : ¬ Matches o w) :
    partner (w :: ws) o = partner ws o := by
  simp [partner, h]

theorem fresh_cons_of_mem {keep : Bool} {names : List String} {o w : Workload}
    {ws : List Workload} (hw : w.name ∈ names)
    (h : ¬ (Matches o w ∧ ¬ Unchanged keep o w)) :
    fresh keep names (w :: ws) o = fresh keep names ws o := by
  simp [fresh, reached, h, hw]

/-- What one run of the inner loop does to the shared variables. -/
structure Scanned (keep : Bool) (version : Nat) (added : List Workload) (changed : Bool)
    (st st' : Scan) : Prop where
  newWorkloads : st'.newWorkloads = st.newWorkloads ++ added.map (bump version)
  oldWorkloadNames : st'.oldWorkloadNames = st.oldWorkloadNames ++ added.map Workload.name
  foundUpdate : st'.foundUpdate = (st.foundUpdate || !added.isEmpty || changed)
  network : st.network.isSome = keep ∧ st'.network.isSome = keep

theorem matchWorkload_ok {keep : Bool} {nodeId : Except GridError Nat} {version : Nat}
    {o o' : Workload} {ws ws' : List Workload} {st st' : Scan} {todo : List String}
    (h : matchWorkload nodeId version o ws st = .ok (o', ws', st'))
    (hkeep : st.network.isSome = keep) (hname : o.name ∈ st.oldWorkloadNames)
    (hnodup : (ws.map Workload.name).Nodup) (htodo : ∀ n ∈ todo, n ∈ st.oldWorkloadNames)
    (hother : o.name ∉ todo) :
    o' = settled keep version ws o ∧
      Scanned keep version (fresh keep st.oldWorkloadNames ws o) (changes keep ws o) st st' ∧
      Tracks todo st'.oldWorkloadNames ws ws' := by
  induction ws generalizing o' ws' st st' with
  | nil =>
    cases h
    exact ⟨rfl, ⟨by simp [fresh, reached], by simp [fresh, reached],
      by simp [fresh, reached, changes, partner], hkeep, hkeep⟩, .nil⟩
  | cons w ws ih =>
    rw [List.map_cons, List.nodup_cons] at hnodup
    obtain ⟨hw, hnodup⟩ := hnodup
    rw [matchWorkload] at h
    by_cases hfresh : w.name ∉ st.oldWorkloadNames
    · have hm : ¬ Matches o w := fun hm => hfresh (hm.2 ▸ hname)
      simp only [hfresh, not_false_eq_true, ↓reduceIte] at h
      obtain ⟨⟨o₁, ws₁, st₁⟩, hrec, hok⟩ := exceptBind_eq_ok.mp h
      cases hok
      obtain ⟨hset, hscan, htr⟩ := ih hrec hkeep (List.mem_append_left _ hname) hnodup
        fun n hn => List.mem_append_left _ (htodo n hn)
      have hadd : fresh keep st.oldWorkloadNames (w :: ws) o =
          w :: fresh keep st.oldWorkloadNames ws o := by
        simp [fresh, reached, hm, hfresh]
      rw [fresh_append_name hw] at hscan
      refine ⟨?_, ⟨?_, ?_, ?_, hscan.network⟩, .cons ⟨rfl, rfl, ?_⟩ htr⟩
      · rw [hset, settled, settled, partner_cons_of_not_matches hm]
      · rw [hscan.newWorkloads, hadd]
        simp [bump]
      · rw [hscan.oldWorkloadNames, hadd]
        simp
      · rw [hscan.foundUpdate, hadd, changes, changes, partner_cons_of_not_matches hm]
        simp
      · rintro (hin | hout)
        · exact absurd (htodo _ hin) hfresh
        · rw [hscan.oldWorkloadNames] at hout
          simp at hout
    · rw [not_not] at hfresh
      simp only [hfresh, not_true_eq_false, ↓reduceIte] at h
      by_cases hskip : w.isNetwork = true ∨ w.name ≠ o.name
      · have hm : ¬ Matches o w := by
          rintro ⟨hnet, hn⟩
          rcases hskip with hskip | hskip
          · rw [hnet] at hskip
            cases hskip
          · exact hskip hn
        simp only [hskip, ↓reduceIte] at h
        obtain ⟨⟨o₁, ws₁, st₁⟩, hrec, hok⟩ := exceptBind_eq_ok.mp h
        cases hok
        obtain ⟨hset, hscan, htr⟩ := ih hrec hkeep hname hnodup htodo
        refine ⟨?_, ?_, .cons ⟨rfl, rfl, fun _ => rfl⟩ htr⟩
        · rw [hset, settled, settled, partner_cons_of_not_matches hm]
        · rw [fresh_cons_of_mem hfresh fun hc => hm hc.1, changes, partner_cons_of_not_matches hm]
          exact hscan
      · have hm : Matches o w := by
          simp only [not_or, not_not, Bool.not_eq_true] at hskip
          exact hskip
        have hnone : partner ws o = none := partner_eq_none (hm.2 ▸ hw)
        simp only [hskip, ↓reduceIte] at h
        obtain ⟨⟨w₁, net⟩, had, h⟩ := exceptBind_eq_ok.mp h
        obtain ⟨hw₁, hnet⟩ := adopt_ok had
        rw [hkeep] at hw₁ hnet
        have hmiss : w.name ∉ todo := hm.2 ▸ hother
        by_cases hu : Unchanged keep o w
        · have hcond : w₁.challenge = o.challenge := hw₁ ▸ hu
          simp only [hcond, ↓reduceIte] at h
          obtain ⟨⟨o₁, ws₁, st₁⟩, hrec, hok⟩ := exceptBind_eq_ok.mp h
          cases hok
          obtain ⟨hset, hscan, htr⟩ := ih hrec hnet hname hnodup htodo
          have hch : changes keep (w :: ws) o = changes keep ws o := by
            simp [changes, partner_cons_of_matches hm, hnone, hu]
          rw [fresh_cons_of_mem hfresh fun hc => hc.2 hu, hch]
          refine ⟨?_, ⟨hscan.newWorkloads, hscan.oldWorkloadNames, hscan.foundUpdate,
            hkeep, hscan.network.2⟩, .cons ⟨?_, ?_, ?_⟩ htr⟩
          · rw [hset]
            simp [settled, hnone, partner_cons_of_matches hm, hu]
          · rw [hw₁]
            rfl
          · rw [hw₁]
            rfl
          · rintro (hin | hout)
            · exact absurd hin hmiss
            · rw [hscan.oldWorkloadNames] at hout
              exact absurd (List.mem_append_left _ hfresh) hout
        · have hcond : ¬ w₁.challenge = o.challenge := hw₁ ▸ hu
          simp only [hcond, ↓reduceIte, pure, Except.pure, Except.ok.injEq,
            Prod.mk.injEq] at h
          obtain ⟨rfl, rfl, rfl⟩ := h
          have hadd : fresh keep st.oldWorkloadNames (w :: ws) o = [] := by
            simp [fresh, reached, hm, hu, hfresh]
          have hch : changes keep (w :: ws) o = true := by
            simp [changes, partner_cons_of_matches hm, hu]
          rw [hadd, hch]
          refine ⟨?_, ⟨by simp, by simp, by simp, hkeep, hnet⟩, .cons ⟨?_, ?_, ?_⟩ ?_⟩
          · simp [settled, partner_cons_of_matches hm, hu, takeOver, hw₁]
          · rw [hw₁]
            rfl
          · rw [hw₁]
            rfl
          · rintro (hin | hout)
            · exact absurd hin hmiss
            · exact absurd hfresh hout
          · exact Tracks.refl _ _ _

/-! The outer loop. -/

/-- An old workload the inner loop is run for. -/
def Processed (new : List Workload) (o : Workload) : Prop :=
  o.isNetwork = false ∧ o.name ∈ new.map Workload.name

instance (new : List Workload) (o : Workload) : Decidable (Processed new o) :=
  inferInstanceAs (Decidable (_ ∧ _))

/-- An old workload after the loops, or nothing when it is deleted. -/
def settle (keep : Bool) (version : Nat) (new : List Workload) (o : Workload) : Option Workload :=
  if o.isNetwork then some o
  else if o.name ∉ new.map Workload.name then none
  else some (settled keep version new o)

/-- The new workloads added for the old workloads `os`, when `names` are known before. -/
def additions (keep : Bool) (new : List Workload) : List String → List Workload → List Workload
  | _, [] => []
  | names, o :: os =>
    if Processed new o then
      fresh keep names new o ++
        additions keep new (names ++ (fresh keep names new o).map Workload.name) os
    else additions keep new names os

/-- The old workload is deleted or changed. -/
def differs (keep : Bool) (new : List Workload) (o : Workload) : Bool :=
  !o.isNetwork && (decide (o.name ∉ new.map Workload.name) || changes keep new o)

theorem Tracks.map_name {todo names : List String} {new ws : List Workload}
    (h : Tracks todo names new ws) : ws.map Workload.name = new.map Workload.name := by
  induction h with
  | nil => rfl
  | cons hw _ ih => rw [List.map_cons, List.map_cons, hw.1, ih]

theorem Tracks.mono {todo todo' names : List String} {new ws : List Workload}
    (h : Tracks todo names new ws) (hsub : ∀ n ∈ todo', n ∈ todo) : Tracks todo' names new ws :=
  h.trans (Tracks.refl todo' names ws) hsub fun _ hn => hn

theorem Scanned.trans {keep c c' : Bool} {version : Nat} {a a' : List Workload}
    {st st' st'' : Scan} (h : Scanned keep version a c st st')
    (h' : Scanned keep version a' c' st' st'') :
    Scanned keep version (a ++ a') (c || c') st st'' where
  newWorkloads := by
    rw [h'.newWorkloads, h.newWorkloads, List.map_append, List.append_assoc]
  oldWorkloadNames := by
    rw [h'.oldWorkloadNames, h.oldWorkloadNames, List.map_append, List.append_assoc]
  foundUpdate := by
    have happ : (a ++ a').isEmpty = (a.isEmpty && a'.isEmpty) := by cases a <;> rfl
    rw [h'.foundUpdate, h.foundUpdate, happ]
    cases st.foundUpdate <;> cases a.isEmpty <;> cases a'.isEmpty <;> cases c <;> cases c' <;> rfl
  network := ⟨h.network.1, h'.network.2⟩

theorem scanWorkloads_ok {keep : Bool} {nodeId : Except GridError Nat} {version : Nat}
    {new os ws ws' : List Workload} {kept : List (Option Workload)} {st st' : Scan}
    (h : scanWorkloads nodeId version (new.map Workload.name) os ws st = .ok (kept, ws', st'))
    (hkeep : st.network.isSome = keep)
    (htr : Tracks (os.map Workload.name) st.oldWorkloadNames new ws)
    (hnew : (new.map Workload.name).Nodup) (hold : (os.map Workload.name).Nodup)
    (hsub : ∀ n ∈ os.map Workload.name, n ∈ st.oldWorkloadNames) :
    kept = os.map (settle keep version new) ∧
      Scanned keep version (additions keep new st.oldWorkloadNames os)
        (os.any (differs keep new)) st st' := by
  induction os generalizing ws ws' kept st st' with
  | nil =>
    cases h
    exact ⟨rfl, ⟨by simp [additions], by simp [additions], by simp [additions], hkeep, hkeep⟩⟩
  | cons o os ih =>
    rw [List.map_cons, List.nodup_cons] at hold
    rw [List.map_cons, List.forall_mem_cons] at hsub
    obtain ⟨honotin, hold⟩ := hold
    obtain ⟨honame, hsub⟩ := hsub
    have htr' : Tracks (os.map Workload.name) st.oldWorkloadNames new ws :=
      htr.mono fun n hn => List.mem_cons_of_mem _ hn
    rw [scanWorkloads] at h
    by_cases hnet : o.isNetwork = true
    · simp only [hnet, ↓reduceIte] at h
      obtain ⟨⟨kept₁, ws₁, st₁⟩, hrec, hok⟩ := exceptBind_eq_ok.mp h
      cases hok
      obtain ⟨hkept, hscan⟩ := ih hrec hkeep htr' hold hsub
      have hproc : ¬ Processed new o := by simp [Processed, hnet]
      refine ⟨by simp [hkept, settle, hnet], ?_⟩
      simpa [additions, hproc, differs, hnet] using hscan
    · rw [Bool.not_eq_true] at hnet
      by_cases hdel : o.name ∉ new.map Workload.name
      · simp only [hnet, Bool.false_eq_true, ↓reduceIte, hdel, not_false_eq_true] at h
        obtain ⟨⟨kept₁, ws₁, st₁⟩, hrec, hok⟩ := exceptBind_eq_ok.mp h
        cases hok
        obtain ⟨hkept, hscan⟩ := ih hrec hkeep htr' hold hsub
        have hproc : ¬ Processed new o := fun hp => hdel hp.2
        have hdiff : differs keep new o = true := by
          simp only [differs, hnet, decide_eq_true hdel, Bool.not_false, Bool.true_or,
            Bool.and_self]
        refine ⟨?_, ?_⟩
        · rw [hkept, List.map_cons, settle, if_neg (by simp [hnet]), if_pos hdel]
        · simp only [additions, hproc, ↓reduceIte, List.any_cons, hdiff, Bool.true_or]
          exact ⟨hscan.newWorkloads, hscan.oldWorkloadNames,
            by simp [hscan.foundUpdate], hscan.network⟩
      · have hproc : Processed new o := ⟨hnet, not_not.mp hdel⟩
        simp only [hnet, Bool.false_eq_true, ↓reduceIte, hdel] at h
        obtain ⟨⟨o₁, ws₁, st₁⟩, hm, h⟩ := exceptBind_eq_ok.mp h
        have hwsnodup : (ws.map Workload.name).Nodup := htr.map_name ▸ hnew
        obtain ⟨hset, hscan₁, htr₁⟩ :=
          matchWorkload_ok hm hkeep honame hwsnodup hsub honotin
        obtain ⟨hfresh, hpartner⟩ := @Tracks.reached_eq keep _ _ _ _ o htr
          List.mem_cons_self
        have hknown : ∀ n ∈ st.oldWorkloadNames, n ∈ st₁.oldWorkloadNames := by
          intro n hn
          rw [hscan₁.oldWorkloadNames]
          exact List.mem_append_left _ hn
        obtain ⟨⟨kept₂, ws₂, st₂⟩, hrec, hok⟩ := exceptBind_eq_ok.mp h
        cases hok
        obtain ⟨hkept, hscan₂⟩ := ih hrec hscan₁.network.2
          (htr'.trans htr₁ (fun _ hn => hn) hknown) hold fun n hn => hknown n (hsub n hn)
        have hch : changes keep ws o = changes keep new o := by
          rw [changes, changes, hpartner]
        have hdiff : differs keep new o = changes keep new o := by
          simp only [differs, hnet, decide_eq_false hdel, Bool.not_false, Bool.false_or,
            Bool.true_and]
        rw [hfresh, hch] at hscan₁
        refine ⟨?_, ?_⟩
        · rw [hkept, hset, List.map_cons, settle, if_neg (by simp [hnet]), if_neg hdel,
            settled, settled, hpartner]
        · have hboth := hscan₁.trans hscan₂
          rw [hscan₁.oldWorkloadNames] at hboth
          simpa [additions, hproc, hdiff] using hboth

/-- The old deployment once the loops are done. -/
def updated (keep : Bool) (old new : Deployment) : Deployment :=
  { old with
    workloads := old.workloads.filterMap (settle keep old.version new.workloads) ++
      (additions keep new.workloads old.names old.workloads).map (bump old.version) }

def updateFound (keep : Bool) (old new : Deployment) : Bool :=
  !(additions keep new.workloads old.names old.workloads).isEmpty ||
    old.workloads.any (differs keep new.workloads)

/-- The closed form of `UpdateDeployment` on deployments with unique workload names. -/
theorem updateDeployment_ok {nodeId : Except GridError Nat} {old new : Deployment}
    {network : Option Network} {r : Updated}
    (h : updateDeployment nodeId old new network = .ok r)
    (hold : old.names.Nodup) (hnew : new.names.Nodup) :
    r.old = updated network.isSome old new ∧
      r.result = if updateFound network.isSome old new then some r.old else none := by
  unfold updateDeployment at h
  obtain ⟨⟨kept, ws, st⟩, hrec, hok⟩ := exceptBind_eq_ok.mp h
  cases hok
  obtain ⟨hkept, hscan⟩ := scanWorkloads_ok hrec rfl
    (Tracks.refl _ _ _) hnew hold fun _ hn => hn
  simp only [hkept, hscan.newWorkloads, hscan.foundUpdate, List.nil_append, Bool.false_or,
    List.filterMap_map, Function.id_comp, updated, updateFound, and_self]

theorem mem_reached_iff {keep : Bool} {o w : Workload} {ws : List Workload}
    (hnodup : (ws.map Workload.name).Nodup) :
    w ∈ reached keep o ws ↔ w ∈ ws ∧
      ∀ w' ∈ ws, Matches o w' → ¬ Unchanged keep o w' → w = w' ∨ [w, w'].Sublist ws := by
  induction ws with
  | nil => simp [reached]
  | cons x ws ih =>
    rw [List.map_cons, List.nodup_cons] at hnodup
    obtain ⟨hx, hnodup⟩ := hnodup
    have hxnot : x ∉ ws := fun hmem => hx (List.mem_map_of_mem hmem)
    have hbefore : ∀ w' ∈ ws, [x, w'].Sublist (x :: ws) := fun w' hw' =>
      (List.singleton_sublist.mpr hw').cons_cons x
    rw [reached]
    by_cases hstop : Matches o x ∧ ¬ Unchanged keep o x
    · rw [if_pos hstop, List.mem_singleton]
      constructor
      · rintro rfl
        refine ⟨List.mem_cons_self, fun w' hw' hm hc => ?_⟩
        rcases List.mem_cons.mp hw' with rfl | hw'
        · exact Or.inl rfl
        · exact Or.inr (hbefore w' hw')
      · rintro ⟨-, hall⟩
        rcases hall x List.mem_cons_self hstop.1 hstop.2 with h | h
        · exact h
        · -- nothing stands before the head
          have hmem : x ∈ ws := by
            cases h with
            | cons _ h => exact h.subset (by simp)
            | cons_cons _ h => exact h.subset (by simp)
          exact absurd hmem hxnot
    · rw [if_neg hstop, List.mem_cons, ih hnodup]
      constructor
      · rintro (rfl | ⟨hw, hall⟩)
        · refine ⟨List.mem_cons_self, fun w' hw' hm hc => ?_⟩
          rcases List.mem_cons.mp hw' with rfl | hw'
          · exact Or.inl rfl
          · exact Or.inr (hbefore w' hw')
        · refine ⟨List.mem_cons_of_mem _ hw, fun w' hw' hm hc => ?_⟩
          rcases List.mem_cons.mp hw' with rfl | hw'
          · exact absurd ⟨hm, hc⟩ hstop
          · exact (hall w' hw' hm hc).imp_right fun h => h.cons x
      · rintro ⟨hw, hall⟩
        rcases List.mem_cons.mp hw with rfl | hin
        · exact Or.inl rfl
        · refine Or.inr ⟨hin, fun w' hw' hm hc => ?_⟩
          refine (hall w' (List.mem_cons_of_mem _ hw') hm hc).imp_right fun h => ?_
          cases h with
          | cons _ h => exact h
          | cons_cons _ h => exact absurd hin hxnot

theorem mem_additions_iff {keep : Bool} {new os : List Workload} {names : List String}
    {w : Workload} (hnew : (new.map Workload.name).Nodup) :
    w ∈ additions keep new names os ↔
      w.name ∉ names ∧ ∃ o ∈ os, Processed new o ∧ w ∈ reached keep o new := by
  induction os generalizing names with
  | nil => simp [additions]
  | cons o os ih =>
    rw [additions]
    by_cases hp : Processed new o
    · rw [if_pos hp, List.mem_append, ih]
      constructor
      · rintro (hw | ⟨hn, o', ho', hp', hr⟩)
        · obtain ⟨hr, hn⟩ := List.mem_filter.mp hw
          exact ⟨of_decide_eq_true hn, o, List.mem_cons_self, hp, hr⟩
        · exact ⟨fun h => hn (List.mem_append_left _ h), o', List.mem_cons_of_mem _ ho', hp', hr⟩
      · rintro ⟨hn, o', ho', hp', hr⟩
        by_cases hin : w ∈ fresh keep names new o
        · exact Or.inl hin
        · rcases List.mem_cons.mp ho' with rfl | ho'
          · exact absurd (List.mem_filter.mpr ⟨hr, decide_eq_true hn⟩) hin
          · refine Or.inr ⟨fun h => ?_, o', ho', hp', hr⟩
            rcases List.mem_append.mp h with h | h
            · exact hn h
            · -- another workload of this name would be the same one
              obtain ⟨w', hw', hname⟩ := List.mem_map.mp h
              have hw'new := reached_subset (List.mem_filter.mp hw').1
              have heq := List.inj_on_of_nodup_map hnew hw'new (reached_subset hr) hname
              exact hin (heq ▸ hw')
    · rw [if_neg hp, ih]
      constructor
      · rintro ⟨hn, o', ho', hp', hr⟩
        exact ⟨hn, o', List.mem_cons_of_mem _ ho', hp', hr⟩
      · rintro ⟨hn, o', ho', hp', hr⟩
        rcases List.mem_cons.mp ho' with rfl | ho'
        · exact absurd hp' hp
        · exact ⟨hn, o', ho', hp', hr⟩

end ThreefoldSdk.Primitives
