import ThreefoldSdk.Lib.Runs

/-! `useAsync`: a task that may be run again while earlier runs of it still wait. Each event below
takes one run from the `await` it waits at to its next one, so that a list of events is one
interleaving of the runs. -/

namespace ThreefoldSdk.Playground.UseAsync

variable {T E : Type}

structure AsyncTaskOptions (T : Type) where
  default : Option T
  tries : Option Nat

structure Options (T : Type) where
  default : Option T
  tries : Nat
  tries_pos : 0 < tries

/-- `options.default || null`; `Math.max(1, options.tries)`, and 3 for none. -/
def normalizeOptions (truthy : T → Bool) (options : AsyncTaskOptions T) : Options T where
  default := options.default.filter truthy
  tries := match options.tries with
    | none => 3
    | some tries => max 1 tries
  tries_pos := by
    cases options.tries with
    | none => exact Nat.succ_pos 2
    | some tries => exact lt_of_lt_of_le Nat.one_pos (le_max_left 1 tries)

/-- The `await` at which a run waits. -/
inductive Stage where
  | notCalled
  | shouldRun
  | onBeforeTask
  | task
  | attempted (succeeded : Bool)
  | returned
deriving DecidableEq

/-- A call of `run` with its variables, and what the task has answered it. -/
structure Run (T E : Type) where
  stage : Stage
  taskId : Nat
  i : Nat
  answers : List (Except E T)

structure TaskResult (T E : Type) where
  loading : Bool
  data : Option T
  error : Option E
  initialized : Bool

/-- The variables that the runs share, the runs, and the calls of `onAfterTask`. -/
structure Hook (T E : Type) where
  data : Option T
  error : Option E
  loading : Bool
  initialized : Bool
  taskIdCounter : Nat
  runs : Nat → Run T E
  afterTask : List (Nat × TaskResult T E)

def initial (o : Options T) : Hook T E where
  data := o.default
  error := none
  loading := false
  initialized := false
  taskIdCounter := 0
  runs := fun _ => ⟨.notCalled, 0, 0, []⟩
  afterTask := []

/-- What the component shows. -/
def asyncTask (o : Options T) (s : Hook T E) : TaskResult T E where
  data := if s.initialized && !s.loading then s.data else o.default
  error := if s.initialized && !s.loading then s.error else none
  loading := if s.initialized then s.loading else false
  initialized := s.initialized

def Hook.set (s : Hook T E) (r : Nat) (run : Run T E) : Hook T E :=
  { s with runs := Function.update s.runs r run }

/-- The end of `run`, behind its loop. -/
def leaveLoop (o : Options T) (s : Hook T E) (r : Nat) (run : Run T E) : Hook T E :=
  if run.taskId = s.taskIdCounter then
    let s' := { s with loading := false }.set r { run with stage := .returned }
    { s' with afterTask := s'.afterTask ++ [(r, asyncTask o s')] }
  else s.set r { run with stage := .returned }

/-- The head of the loop: another run may have begun since. -/
def nextAttempt (o : Options T) (s : Hook T E) (r : Nat) (run : Run T E) : Hook T E :=
  if run.i < o.tries then
    if run.taskId ≠ s.taskIdCounter then s.set r { run with stage := .returned }
    else s.set r { run with stage := .task }
  else leaveLoop o s r run

/-- The body of the loop behind `await __run`. -/
def afterAttempt (o : Options T) (s : Hook T E) (r : Nat) : Hook T E :=
  match (s.runs r).stage with
  | .attempted true => leaveLoop o s r (s.runs r)
  | .attempted false => nextAttempt o s r { s.runs r with i := (s.runs r).i + 1 }
  | _ => s

/-- `__run` behind its `await`: the answer is kept for the run that began last. -/
def settle (o : Options T) (s : Hook T E) (r : Nat) (run : Run T E) (answer : Except E T) :
    Hook T E :=
  let s' := s.set r
    { run with stage := .attempted answer.isOk, answers := run.answers ++ [answer] }
  if run.taskId = s.taskIdCounter then
    match answer with
    | .ok res => { s' with data := some res, error := none }
    | .error err => { s' with data := o.default, error := some err }
  else s'

/-- What happens next: `run` or `reset` is called, or what the run `r` waits for is there. A hook
that throws is a missing answer. -/
inductive Event (T E : Type) where
  | run (r : Nat)
  | shouldRun (r : Nat) (answer : Option Bool)
  | onBeforeTask (r : Nat) (returns : Bool)
  | task (r : Nat) (answer : Except E T)
  | attempted (r : Nat)
  | reset

def step (o : Options T) (s : Hook T E) : Event T E → Hook T E
  | .run r =>
    if (s.runs r).stage = .notCalled then s.set r { s.runs r with stage := .shouldRun } else s
  | .shouldRun r answer =>
    if (s.runs r).stage = .shouldRun then
      match answer with
      | none => s.set r { s.runs r with stage := .returned }
      | some false => { s with initialized := false }.set r { s.runs r with stage := .returned }
      | some true => { s with initialized := true }.set r { s.runs r with stage := .onBeforeTask }
    else s
  | .onBeforeTask r returns =>
    if (s.runs r).stage = .onBeforeTask then
      if returns then
        let taskId := s.taskIdCounter + 1
        nextAttempt o { s with taskIdCounter := taskId, loading := true } r
          { s.runs r with taskId := taskId, i := 0 }
      else s.set r { s.runs r with stage := .returned }
    else s
  | .task r answer =>
    if (s.runs r).stage = .task then settle o s r (s.runs r) answer else s
  | .attempted r => afterAttempt o s r
  | .reset => { s with initialized := false }

def exec (o : Options T) (es : List (Event T E)) : Hook T E :=
  es.foldl (step o) (initial o)

/-- The hook of a component, after the events. -/
def useAsync (truthy : T → Bool) (options : AsyncTaskOptions T) (es : List (Event T E)) :
    Hook T E := exec (normalizeOptions truthy options) es

/-- No answer is a result. -/
def Failed (answers : List (Except E T)) : Prop := ∀ a ∈ answers, a.isOk = false

/-- The run stopped at its first result, or has no tries left. -/
def Concluded (o : Options T) (run : Run T E) : Prop :=
  ∃ before a, run.answers = before ++ [a] ∧ Failed before ∧
    (a.isOk = true ∨ run.answers.length = o.tries)

def Run.Ok (o : Options T) (run : Run T E) : Prop :=
  match run.stage with
  | .notCalled | .shouldRun | .onBeforeTask => run.taskId = 0 ∧ run.answers = []
  | .task => 0 < run.taskId ∧ Failed run.answers ∧ run.answers.length = run.i ∧ run.i < o.tries
  | .attempted succeeded => 0 < run.taskId ∧ ∃ before a, run.answers = before ++ [a] ∧
      Failed before ∧ a.isOk = succeeded ∧ before.length = run.i ∧ run.i < o.tries
  | .returned => (run.taskId = 0 → run.answers = []) ∧ run.answers.length ≤ o.tries ∧
      Failed run.answers.dropLast

/-- The data and the error that an answer leaves. -/
def shownOf (o : Options T) : Except E T → Option T × Option E
  | .ok res => (some res, none)
  | .error err => (o.default, some err)

/-- What the variables say about a run, while `taskIdCounter` is the id of the last one. -/
structure Run.Fits (o : Options T) (s : Hook T E) (run : Run T E) : Prop where
  ok : run.Ok o
  le : run.taskId ≤ s.taskIdCounter
  shown : 0 < run.taskId → run.taskId = s.taskIdCounter →
    ∀ a, run.answers.getLast? = some a → (s.data, s.error) = shownOf o a
  concluded : 0 < run.taskId → run.taskId = s.taskIdCounter → run.stage = .returned →
    Concluded o run

/-- The run that began last is still at work. -/
def Hook.Busy (s : Hook T E) : Prop :=
  ∃ r, 0 < (s.runs r).taskId ∧ (s.runs r).taskId = s.taskIdCounter ∧ (s.runs r).stage ≠ .returned

/-- What `onAfterTask` was given by a run: its last answer, and nothing behind a reset. -/
structure Reported (o : Options T) (run : Run T E) (result : TaskResult T E) : Prop where
  returned : run.stage = .returned
  concluded : Concluded o run
  loading : result.loading = false
  shown : result.initialized = true → ∃ a, run.answers.getLast? = some a ∧
    (result.data, result.error) = shownOf o a
  reset : result.initialized = false → (result.data, result.error) = (o.default, none)

structure Inv (o : Options T) (s : Hook T E) : Prop where
  fits : ∀ r, (s.runs r).Fits o s
  own : ∀ r r', 0 < (s.runs r).taskId → (s.runs r).taskId = (s.runs r').taskId → r = r'
  last : 0 < s.taskIdCounter → ∃ r, (s.runs r).taskId = s.taskIdCounter
  loading_iff : s.loading = true ↔ s.Busy
  fresh : s.taskIdCounter = 0 → s.data = o.default ∧ s.error = none
  reported : ∀ p ∈ s.afterTask, Reported o (s.runs p.1) p.2
  once : (s.afterTask.map Prod.fst).Nodup

variable {o : Options T} {s : Hook T E} {r : Nat} {run : Run T E}

@[simp] theorem set_runs_self : (s.set r run).runs r = run := Function.update_self ..

theorem set_runs_of_ne {r' : Nat} (h : r' ≠ r) : (s.set r run).runs r' = s.runs r' :=
  Function.update_of_ne h ..

theorem inv_initial (o : Options T) : Inv o (initial o : Hook T E) where
  fits r :=
    { ok := ⟨rfl, rfl⟩
      le := le_rfl
      shown := fun hpos => absurd hpos (lt_irrefl 0)
      concluded := fun hpos => absurd hpos (lt_irrefl 0) }
  own r r' hpos := absurd hpos (lt_irrefl 0)
  last hpos := absurd hpos (lt_irrefl 0)
  loading_iff := by
    refine iff_of_false (by simp [initial]) ?_
    intro hbusy
    obtain ⟨r, hpos, -, -⟩ := hbusy
    exact absurd hpos (lt_irrefl 0)
  fresh _ := ⟨rfl, rfl⟩
  reported p hp := absurd hp List.not_mem_nil
  once := List.nodup_nil

theorem Inv.withInitialized (h : Inv o s) (b : Bool) : Inv o { s with initialized := b } where
  fits r :=
    { ok := (h.fits r).ok
      le := (h.fits r).le
      shown := (h.fits r).shown
      concluded := (h.fits r).concluded }
  own := h.own
  last := h.last
  loading_iff := h.loading_iff
  fresh := h.fresh
  reported := h.reported
  once := h.once

/-- A run that has not returned has not called `onAfterTask`. -/
theorem Inv.not_mem_afterTask (h : Inv o s) (hstage : (s.runs r).stage ≠ .returned) :
    ∀ p ∈ s.afterTask, p.1 ≠ r := by
  intro p hp heq
  apply hstage
  rw [← heq]
  exact (h.reported p hp).returned

theorem Inv.reported_set (h : Inv o s) (hstage : (s.runs r).stage ≠ .returned) :
    ∀ p ∈ s.afterTask, Reported o ((s.set r run).runs p.1) p.2 := by
  intro p hp
  rw [set_runs_of_ne (h.not_mem_afterTask hstage p hp)]
  exact h.reported p hp

theorem ids_set (hid : run.taskId = (s.runs r).taskId) (r' : Nat) :
    ((s.set r run).runs r').taskId = (s.runs r').taskId := by
  by_cases heq : r' = r
  · rw [heq, set_runs_self, hid]
  · rw [set_runs_of_ne heq]

theorem Inv.own_set (h : Inv o s) (hid : run.taskId = (s.runs r).taskId) (r₁ r₂ : Nat)
    (hpos : 0 < ((s.set r run).runs r₁).taskId)
    (heq : ((s.set r run).runs r₁).taskId = ((s.set r run).runs r₂).taskId) : r₁ = r₂ := by
  rw [ids_set hid] at hpos heq
  rw [ids_set hid] at heq
  exact h.own r₁ r₂ hpos heq

theorem Inv.last_set (h : Inv o s) (hid : run.taskId = (s.runs r).taskId)
    (hpos : 0 < s.taskIdCounter) : ∃ r', ((s.set r run).runs r').taskId = s.taskIdCounter := by
  obtain ⟨r', hr'⟩ := h.last hpos
  exact ⟨r', (ids_set hid r').trans hr'⟩

/-- A run that goes on, or returns without being the last one, changes none of the variables. -/
theorem Inv.set (h : Inv o s) (hid : run.taskId = (s.runs r).taskId)
    (hanswers : run.answers = (s.runs r).answers) (hok : run.Ok o)
    (hold : (s.runs r).stage ≠ .returned)
    (hnew : run.stage = .returned → 0 < run.taskId → run.taskId ≠ s.taskIdCounter) :
    Inv o (s.set r run) where
  fits r' := by
    by_cases heq : r' = r
    · rw [heq, set_runs_self]
      refine ⟨hok, ?_, ?_, ?_⟩
      · rw [hid]
        exact (h.fits r).le
      · intro hpos hlast a ha
        rw [hid] at hpos hlast
        rw [hanswers] at ha
        exact (h.fits r).shown hpos hlast a ha
      · intro hpos hlast hreturned
        exact absurd hlast (hnew hreturned hpos)
    · rw [set_runs_of_ne heq]
      exact ⟨(h.fits r').ok, (h.fits r').le, (h.fits r').shown, (h.fits r').concluded⟩
  own := h.own_set hid
  last := h.last_set hid
  loading_iff := by
    refine h.loading_iff.trans (exists_congr fun r' => ?_)
    rw [ids_set hid]
    refine and_congr_right fun hpos => and_congr_right fun hlast => ?_
    by_cases heq : r' = r
    · rw [heq] at hpos hlast ⊢
      rw [set_runs_self]
      refine iff_of_true hold fun hreturned => hnew hreturned ?_ ?_
      · rw [hid]
        exact hpos
      · rw [hid]
        exact hlast
    · rw [set_runs_of_ne heq]
  fresh := h.fresh
  reported := h.reported_set hold
  once := h.once

/-- The last run returns. -/
theorem Inv.finish (h : Inv o s) (hid : run.taskId = (s.runs r).taskId)
    (hanswers : run.answers = (s.runs r).answers) (hok : run.Ok o)
    (hold : (s.runs r).stage ≠ .returned) (hnew : run.stage = .returned)
    (hpos : 0 < run.taskId) (hlast : run.taskId = s.taskIdCounter) (hdone : Concluded o run) :
    Inv o { { s with loading := false }.set r run with
      afterTask := s.afterTask ++ [(r, asyncTask o ({ s with loading := false }.set r run))] } := by
  have hshown : ∀ a, run.answers.getLast? = some a → (s.data, s.error) = shownOf o a := by
    intro a ha
    rw [hanswers] at ha
    exact (h.fits r).shown (hid ▸ hpos) (hid ▸ hlast) a ha
  exact
    { fits := by
        intro r'
        show Run.Fits o _ ((s.set r run).runs r')
        by_cases heq : r' = r
        · rw [heq, set_runs_self]
          exact ⟨hok, hlast.le, fun _ _ => hshown, fun _ _ _ => hdone⟩
        · rw [set_runs_of_ne heq]
          exact ⟨(h.fits r').ok, (h.fits r').le, (h.fits r').shown, (h.fits r').concluded⟩
      own := h.own_set hid
      last := h.last_set hid
      loading_iff := by
        refine iff_of_false (by simp [Hook.set]) ?_
        intro hbusy
        obtain ⟨r', hpos', hlast', hstage⟩ := hbusy
        -- only the run that returns has the last id
        have heq : r' = r := h.own_set hid r' r hpos' (by
          rw [set_runs_self, hlast]
          exact hlast')
        apply hstage
        show ((s.set r run).runs r').stage = .returned
        rw [heq, set_runs_self, hnew]
      fresh := fun hzero => absurd hzero (by
        show s.taskIdCounter ≠ 0
        omega)
      reported := by
        intro p hp
        show Reported o ((s.set r run).runs p.1) p.2
        rcases List.mem_append.mp hp with hp | hp
        · exact h.reported_set hold p hp
        · rw [List.mem_singleton.mp hp, set_runs_self]
          have hanswer : ∃ a, run.answers.getLast? = some a := by
            obtain ⟨before, a, hsplit, -⟩ := hdone
            exact ⟨a, by rw [hsplit, List.getLast?_concat]⟩
          obtain ⟨a, ha⟩ := hanswer
          refine ⟨hnew, hdone, ite_self false, fun hinit => ⟨a, ha, ?_⟩, fun hinit => ?_⟩
          · have hinit : s.initialized = true := hinit
            rw [← hshown a ha]
            simp [asyncTask, Hook.set, hinit]
          · have hinit : s.initialized = false := hinit
            simp [asyncTask, Hook.set, hinit]
      once := by
        show ((s.afterTask ++ [(r, _)]).map Prod.fst).Nodup
        rw [List.map_append, List.map_singleton]
        refine List.Nodup.append h.once (List.nodup_singleton r) ?_
        intro i hi hr
        rw [List.mem_singleton.mp hr] at hi
        obtain ⟨p, hp, hpr⟩ := List.mem_map.mp hi
        exact h.not_mem_afterTask hold p hp hpr }

theorem Inv.leaveLoop (h : Inv o s) (hid : run.taskId = (s.runs r).taskId)
    (hanswers : run.answers = (s.runs r).answers)
    (hok : Run.Ok o { run with stage := .returned })
    (hold : (s.runs r).stage ≠ .returned) (hpos : 0 < run.taskId) (hdone : Concluded o run) :
    Inv o (leaveLoop o s r run) := by
  unfold UseAsync.leaveLoop
  by_cases hlast : run.taskId = s.taskIdCounter
  · rw [if_pos hlast]
    exact @Inv.finish T E o s r { run with stage := .returned } h hid hanswers hok hold rfl hpos
      hlast hdone
  · rw [if_neg hlast]
    exact h.set hid hanswers hok hold fun _ _ => hlast

/-- The task answers: the last run leaves the answer in the variables. -/
theorem Inv.settle (h : Inv o s) (hstage : (s.runs r).stage = .task) (answer : Except E T) :
    Inv o (settle o s r (s.runs r) answer) := by
  have hok := (h.fits r).ok
  unfold Run.Ok at hok
  rw [hstage] at hok
  obtain ⟨hpos, hfailed, hlength, htries⟩ := hok
  set run : Run T E := { s.runs r with
    stage := .attempted answer.isOk, answers := (s.runs r).answers ++ [answer] } with hrun
  have hid : run.taskId = (s.runs r).taskId := rfl
  have hrunOk : run.Ok o := ⟨hpos, (s.runs r).answers, answer, rfl, hfailed, rfl, hlength, htries⟩
  have hold : (s.runs r).stage ≠ .returned := by
    rw [hstage]
    exact fun hreturned => Stage.noConfusion hreturned
  have hnew : run.stage ≠ .returned := fun hreturned => Stage.noConfusion hreturned
  have hbusy : (s.set r run).Busy ↔ s.Busy := by
    refine exists_congr fun r' => ?_
    rw [ids_set hid]
    refine and_congr_right fun _ => and_congr_right fun _ => ?_
    by_cases heq : r' = r
    · rw [heq, set_runs_self]
      exact iff_of_true hnew hold
    · rw [set_runs_of_ne heq]
  by_cases hlast : (s.runs r).taskId = s.taskIdCounter
  · -- no other run has the last id, so that only this one has to fit the new variables
    have hothers : ∀ r', r' ≠ r → 0 < (s.runs r').taskId →
        (s.runs r').taskId ≠ s.taskIdCounter := by
      intro r' hne hpos' hlast'
      exact hne (h.own r' r hpos' (hlast'.trans hlast.symm))
    have hset : ∀ data error, (data, error) = shownOf o answer →
        Inv o { s.set r run with data := data, error := error } := by
      intro data error hshown
      exact
        { fits := by
            intro r'
            show Run.Fits o _ ((s.set r run).runs r')
            by_cases heq : r' = r
            · rw [heq, set_runs_self]
              refine ⟨hrunOk, (h.fits r).le, ?_, fun _ _ hreturned => absurd hreturned hnew⟩
              intro _ _ a ha
              rw [show run.answers = (s.runs r).answers ++ [answer] from rfl,
                List.getLast?_concat] at ha
              rw [← Option.some.inj ha]
              exact hshown
            · rw [set_runs_of_ne heq]
              exact ⟨(h.fits r').ok, (h.fits r').le,
                fun hpos' hlast' => absurd hlast' (hothers r' heq hpos'), (h.fits r').concluded⟩
          own := h.own_set hid
          last := h.last_set hid
          loading_iff := h.loading_iff.trans hbusy.symm
          fresh := fun hzero => absurd (hlast.trans hzero) hpos.ne'
          reported := h.reported_set hold
          once := h.once }
    unfold UseAsync.settle
    rw [if_pos hlast]
    cases answer with
    | ok res => exact hset (some res) none rfl
    | error err => exact hset o.default (some err) rfl
  · unfold UseAsync.settle
    rw [if_neg hlast]
    exact
      { fits := by
          intro r'
          by_cases heq : r' = r
          · rw [heq, set_runs_self]
            exact ⟨hrunOk, (h.fits r).le, fun _ hlast' => absurd hlast' hlast,
              fun _ hlast' => absurd hlast' hlast⟩
          · rw [set_runs_of_ne heq]
            exact ⟨(h.fits r').ok, (h.fits r').le, (h.fits r').shown, (h.fits r').concluded⟩
        own := h.own_set hid
        last := h.last_set hid
        loading_iff := h.loading_iff.trans hbusy.symm
        fresh := h.fresh
        reported := h.reported_set hold
        once := h.once }

/-- A run takes the next id. Every other run is behind it from here on. -/
theorem Inv.begin (h : Inv o s) (hstage : (s.runs r).stage = .onBeforeTask) :
    Inv o (nextAttempt o { s with taskIdCounter := s.taskIdCounter + 1, loading := true } r
      { s.runs r with taskId := s.taskIdCounter + 1, i := 0 }) := by
  have hok := (h.fits r).ok
  unfold Run.Ok at hok
  rw [hstage] at hok
  obtain ⟨hzero, hnone⟩ := hok
  have hold : (s.runs r).stage ≠ .returned := by
    rw [hstage]
    exact fun hreturned => Stage.noConfusion hreturned
  set run : Run T E :=
    { s.runs r with stage := .task, taskId := s.taskIdCounter + 1, i := 0 } with hrun
  have hshape : nextAttempt o { s with taskIdCounter := s.taskIdCounter + 1, loading := true } r
      { s.runs r with taskId := s.taskIdCounter + 1, i := 0 } =
        { s with taskIdCounter := s.taskIdCounter + 1, loading := true }.set r run := by
    unfold nextAttempt
    rw [if_pos o.tries_pos, if_neg (fun hne => hne rfl)]
  have hbehind : ∀ r', (s.runs r').taskId ≠ s.taskIdCounter + 1 := by
    intro r'
    have hle := (h.fits r').le
    omega
  rw [hshape]
  exact
    { fits := by
        intro r'
        show Run.Fits o _ ((s.set r run).runs r')
        by_cases heq : r' = r
        · rw [heq, set_runs_self]
          refine ⟨⟨Nat.succ_pos _, ?_, ?_, o.tries_pos⟩, le_rfl, ?_, ?_⟩
          · rw [show run.answers = [] from hnone]
            exact fun a ha => absurd ha List.not_mem_nil
          · rw [show run.answers = [] from hnone]
            rfl
          · intro _ _ a ha
            rw [show run.answers = [] from hnone, List.getLast?_nil] at ha
            exact absurd ha (Option.some_ne_none a).symm
          · exact fun _ _ hreturned => Stage.noConfusion hreturned
        · rw [set_runs_of_ne heq]
          exact ⟨(h.fits r').ok, (h.fits r').le.trans (Nat.le_succ _),
            fun _ hlast => absurd hlast (hbehind r'), fun _ hlast => absurd hlast (hbehind r')⟩
      own := by
        intro r₁ r₂ hpos heq
        replace hpos : 0 < ((s.set r run).runs r₁).taskId := hpos
        replace heq : ((s.set r run).runs r₁).taskId = ((s.set r run).runs r₂).taskId := heq
        by_cases h₁ : r₁ = r
        · by_cases h₂ : r₂ = r
          · rw [h₁, h₂]
          · rw [h₁, set_runs_self, set_runs_of_ne h₂] at heq
            exact absurd heq.symm (hbehind r₂)
        · by_cases h₂ : r₂ = r
          · rw [h₂, set_runs_self, set_runs_of_ne h₁] at heq
            exact absurd heq (hbehind r₁)
          · rw [set_runs_of_ne h₁] at hpos heq
            rw [set_runs_of_ne h₂] at heq
            exact h.own r₁ r₂ hpos heq
      last := by
        intro _
        refine ⟨r, ?_⟩
        show ((s.set r run).runs r).taskId = s.taskIdCounter + 1
        rw [set_runs_self]
      loading_iff := by
        refine iff_of_true rfl ⟨r, ?_⟩
        show 0 < ((s.set r run).runs r).taskId ∧
          ((s.set r run).runs r).taskId = s.taskIdCounter + 1 ∧
            ((s.set r run).runs r).stage ≠ .returned
        rw [set_runs_self]
        exact ⟨Nat.succ_pos _, rfl, fun hreturned => Stage.noConfusion hreturned⟩
      fresh := fun hcounter => absurd hcounter (Nat.succ_ne_zero _)
      reported := h.reported_set hold
      once := h.once }

/-- The loop goes on behind an attempt. -/
theorem Inv.afterAttempt (h : Inv o s) (r : Nat) : Inv o (afterAttempt o s r) := by
  have hok := (h.fits r).ok
  unfold Run.Ok at hok
  unfold UseAsync.afterAttempt
  cases hstage : (s.runs r).stage with
  | attempted succeeded =>
    rw [hstage] at hok
    obtain ⟨hpos, before, a, hanswers, hfailed, ha, hlength, htries⟩ := hok
    have hold : (s.runs r).stage ≠ .returned := by
      rw [hstage]
      exact fun hreturned => Stage.noConfusion hreturned
    have hcount : (s.runs r).answers.length = (s.runs r).i + 1 := by
      rw [hanswers, List.length_append, hlength, List.length_singleton]
    have hreturned : (s.runs r).answers.length ≤ o.tries ∧ Failed (s.runs r).answers.dropLast := by
      rw [hcount, hanswers, List.dropLast_concat]
      exact ⟨htries, hfailed⟩
    cases succeeded with
    | true =>
      exact h.leaveLoop rfl rfl ⟨fun hzero => absurd hzero hpos.ne', hreturned⟩ hold hpos
        ⟨before, a, hanswers, hfailed, Or.inl ha⟩
    | false =>
      show Inv o (nextAttempt o s r { s.runs r with i := (s.runs r).i + 1 })
      unfold nextAttempt
      by_cases hmore : (s.runs r).i + 1 < o.tries
      · rw [if_pos hmore]
        by_cases hlast : (s.runs r).taskId = s.taskIdCounter
        · rw [if_neg (not_not_intro hlast)]
          refine h.set rfl rfl ⟨hpos, ?_, hcount, hmore⟩ hold fun hreturned =>
            Stage.noConfusion hreturned
          intro b hb
          rw [hanswers] at hb
          rcases List.mem_append.mp hb with hb | hb
          · exact hfailed b hb
          · rw [List.mem_singleton.mp hb]
            exact ha
        · rw [if_pos hlast]
          exact h.set rfl rfl ⟨fun hzero => absurd hzero hpos.ne', hreturned⟩ hold
            fun _ _ => hlast
      · rw [if_neg hmore]
        refine h.leaveLoop rfl rfl ⟨fun hzero => absurd hzero hpos.ne', hreturned⟩ hold hpos
          ⟨before, a, hanswers, hfailed, Or.inr ?_⟩
        show (s.runs r).answers.length = o.tries
        omega
  | _ => exact h

/-- A run that has not begun returns. -/
theorem Inv.return_early (h : Inv o s) (hzero : (s.runs r).taskId = 0)
    (hnone : (s.runs r).answers = []) (hold : (s.runs r).stage ≠ .returned) :
    Inv o (s.set r { s.runs r with stage := .returned }) := by
  refine h.set rfl rfl ⟨fun _ => hnone, ?_, ?_⟩ hold fun _ hpos => absurd hzero (ne_of_gt hpos)
  · rw [show (s.runs r).answers = [] from hnone]
    exact Nat.zero_le _
  · rw [show (s.runs r).answers = [] from hnone]
    exact fun a ha => absurd ha List.not_mem_nil

theorem Inv.step (h : Inv o s) (e : Event T E) : Inv o (step o s e) := by
  cases e with
  | run r =>
    dsimp only [UseAsync.step]
    by_cases hstage : (s.runs r).stage = .notCalled
    · rw [if_pos hstage]
      have hok := (h.fits r).ok
      unfold Run.Ok at hok
      rw [hstage] at hok
      refine h.set rfl rfl hok ?_ fun hreturned => Stage.noConfusion hreturned
      rw [hstage]
      exact fun hreturned => Stage.noConfusion hreturned
    · rw [if_neg hstage]
      exact h
  | shouldRun r answer =>
    dsimp only [UseAsync.step]
    by_cases hstage : (s.runs r).stage = .shouldRun
    · rw [if_pos hstage]
      have hok := (h.fits r).ok
      unfold Run.Ok at hok
      rw [hstage] at hok
      have hold : (s.runs r).stage ≠ .returned := by
        rw [hstage]
        exact fun hreturned => Stage.noConfusion hreturned
      have hreturn : Inv o (s.set r { s.runs r with stage := .returned }) :=
        h.return_early hok.1 hok.2 hold
      cases answer with
      | none => exact hreturn
      | some go =>
        cases go with
        | false => exact hreturn.withInitialized false
        | true =>
          have hgo : Inv o (s.set r { s.runs r with stage := .onBeforeTask }) :=
            h.set rfl rfl hok hold fun hreturned => Stage.noConfusion hreturned
          exact hgo.withInitialized true
    · rw [if_neg hstage]
      exact h
  | onBeforeTask r returns =>
    dsimp only [UseAsync.step]
    by_cases hstage : (s.runs r).stage = .onBeforeTask
    · rw [if_pos hstage]
      cases returns with
      | true => exact h.begin hstage
      | false =>
        have hok := (h.fits r).ok
        unfold Run.Ok at hok
        rw [hstage] at hok
        refine h.return_early hok.1 hok.2 ?_
        rw [hstage]
        exact fun hreturned => Stage.noConfusion hreturned
    · rw [if_neg hstage]
      exact h
  | task r answer =>
    dsimp only [UseAsync.step]
    by_cases hstage : (s.runs r).stage = .task
    · rw [if_pos hstage]
      exact h.settle hstage answer
    · rw [if_neg hstage]
      exact h
  | attempted r => exact h.afterAttempt r
  | reset => exact h.withInitialized false

theorem inv_exec (o : Options T) (es : List (Event T E)) : Inv o (exec o es) := by
  unfold exec
  induction es using List.reverseRecOn with
  | nil => exact inv_initial o
  | append_singleton es e ih =>
    rw [List.foldl_append]
    exact ih.step e

/-- The run has the last id that was given out. -/
def Hook.Last (s : Hook T E) (r : Nat) : Prop :=
  0 < (s.runs r).taskId ∧ (s.runs r).taskId = s.taskIdCounter

/-- What the component shows of the runs. -/
structure ShowsLast (o : Options T) (s : Hook T E) : Prop where
  /-- It loads exactly as long as the run that began last is at work, but not behind a reset. -/
  loading_iff : (asyncTask o s).loading = true ↔
    s.initialized = true ∧ ∃ r, s.Last r ∧ (s.runs r).stage ≠ .returned
  /-- Behind a reset, and while it loads, there is nothing to show. -/
  nothing : (asyncTask o s).initialized = false ∨ (asyncTask o s).loading = true →
    (asyncTask o s).data = o.default ∧ (asyncTask o s).error = none
  /-- Else there is the last answer of the run that began last, if one did. -/
  answer : (asyncTask o s).initialized = true → (asyncTask o s).loading = false →
    (s.taskIdCounter = 0 ∧ (asyncTask o s).data = o.default ∧ (asyncTask o s).error = none) ∨
      ∃ r a, s.Last r ∧ (∀ r', s.Last r' → r' = r) ∧ (s.runs r).answers.getLast? = some a ∧
        ((asyncTask o s).data, (asyncTask o s).error) = shownOf o a

theorem Inv.showsLast (h : Inv o s) : ShowsLast o s where
  loading_iff := by
    have hbusy : s.Busy ↔ ∃ r, s.Last r ∧ (s.runs r).stage ≠ .returned :=
      exists_congr fun r => and_assoc.symm
    rw [← hbusy, ← h.loading_iff]
    cases hinit : s.initialized with
    | false => simp [asyncTask, hinit]
    | true => simp [asyncTask, hinit]
  nothing := by
    rintro (hinit | hloading)
    · have hinit : s.initialized = false := hinit
      simp [asyncTask, hinit]
    · cases hinit : s.initialized with
      | false => simp [asyncTask, hinit]
      | true =>
        have hbusy : s.loading = true := by simpa [asyncTask, hinit] using hloading
        simp [asyncTask, hbusy]
  answer := by
    intro hinit hloading
    have hinit : s.initialized = true := hinit
    have hidle : s.loading = false := by simpa [asyncTask, hinit] using hloading
    have hdata : (asyncTask o s).data = s.data := by simp [asyncTask, hinit, hidle]
    have herror : (asyncTask o s).error = s.error := by simp [asyncTask, hinit, hidle]
    rw [hdata, herror]
    rcases Nat.eq_zero_or_pos s.taskIdCounter with hzero | hpos
    · exact Or.inl ⟨hzero, h.fresh hzero⟩
    · obtain ⟨r, hr⟩ := h.last hpos
      have hlast : s.Last r := ⟨hr ▸ hpos, hr⟩
      have hreturned : (s.runs r).stage = .returned := by
        by_contra hstage
        have hbusy : s.Busy := ⟨r, hlast.1, hlast.2, hstage⟩
        rw [h.loading_iff.mpr hbusy] at hidle
        exact Bool.noConfusion hidle
      obtain ⟨before, a, hanswers, -⟩ := (h.fits r).concluded hlast.1 hr hreturned
      have ha : (s.runs r).answers.getLast? = some a := by rw [hanswers, List.getLast?_concat]
      refine Or.inr ⟨r, a, hlast, ?_, ha, (h.fits r).shown hlast.1 hr a ha⟩
      intro r' hlast'
      exact h.own r' r hlast'.1 (hlast'.2.trans hr.symm)

/-- Whatever order the runs go on in: the component shows that it loads as long as the run that
began last is at work, and behind it the last answer of that run, never one of another. -/
theorem asyncTask_shows_last (truthy : T → Bool) (options : AsyncTaskOptions T)
    (es : List (Event T E)) :
    ShowsLast (normalizeOptions truthy options) (useAsync truthy options es) :=
  (inv_exec (normalizeOptions truthy options) es).showsLast

/-- How often a run has called the task. -/
def calls (s : Hook T E) (r : Nat) : Nat :=
  (s.runs r).answers.length + if (s.runs r).stage = .task then 1 else 0

/-- Another run has begun since. -/
def Hook.Overtaken (s : Hook T E) (r : Nat) : Prop :=
  0 < (s.runs r).taskId ∧ (s.runs r).taskId < s.taskIdCounter

theorem leaveLoop_runs (s : Hook T E) (r : Nat) (run : Run T E) :
    (leaveLoop o s r run).runs = Function.update s.runs r { run with stage := .returned } ∧
      (leaveLoop o s r run).taskIdCounter = s.taskIdCounter := by
  unfold leaveLoop
  split_ifs
  · exact ⟨rfl, rfl⟩
  · exact ⟨rfl, rfl⟩

theorem nextAttempt_runs_of_ne {r' : Nat} (h : r' ≠ r) :
    (nextAttempt o s r run).runs r' = s.runs r' ∧
      (nextAttempt o s r run).taskIdCounter = s.taskIdCounter := by
  unfold nextAttempt
  split_ifs
  · exact ⟨set_runs_of_ne h, rfl⟩
  · exact ⟨set_runs_of_ne h, rfl⟩
  · rw [(leaveLoop_runs s r run).1, Function.update_of_ne h]
    exact ⟨rfl, (leaveLoop_runs s r run).2⟩

theorem nextAttempt_overtaken (h : run.taskId ≠ s.taskIdCounter) :
    (nextAttempt o s r run).runs = Function.update s.runs r { run with stage := .returned } ∧
      (nextAttempt o s r run).taskIdCounter = s.taskIdCounter := by
  unfold nextAttempt
  split_ifs
  · exact ⟨rfl, rfl⟩
  · exact leaveLoop_runs s r run

theorem settle_runs (s : Hook T E) (r : Nat) (run : Run T E) (answer : Except E T) :
    (settle o s r run answer).runs = Function.update s.runs r
        { run with stage := .attempted answer.isOk, answers := run.answers ++ [answer] } ∧
      (settle o s r run answer).taskIdCounter = s.taskIdCounter := by
  unfold settle
  split_ifs
  · cases answer with
    | ok res => exact ⟨rfl, rfl⟩
    | error err => exact ⟨rfl, rfl⟩
  · exact ⟨rfl, rfl⟩

/-- Nothing that another run does changes what an overtaken run has done. -/
theorem overtaken_of_same {s' : Hook T E} (hr : s.Overtaken r) (hruns : s'.runs r = s.runs r)
    (hcounter : s.taskIdCounter ≤ s'.taskIdCounter) :
    s'.Overtaken r ∧ calls s' r = calls s r := by
  unfold Hook.Overtaken calls
  rw [hruns]
  exact ⟨⟨hr.1, lt_of_lt_of_le hr.2 hcounter⟩, rfl⟩

/-- An overtaken run that returns has made all its calls. -/
theorem overtaken_of_returned {s' : Hook T E} (hr : s.Overtaken r)
    (hstage : (s.runs r).stage ≠ .task) {i : Nat}
    (hruns : s'.runs r = { s.runs r with stage := .returned, i := i })
    (hcounter : s'.taskIdCounter = s.taskIdCounter) :
    s'.Overtaken r ∧ calls s' r = calls s r := by
  unfold Hook.Overtaken calls
  rw [hruns, hcounter, if_neg hstage, if_neg fun htask => Stage.noConfusion htask]
  exact ⟨hr, rfl⟩

theorem Inv.notBegun (h : Inv o s) (hr : s.Overtaken r) :
    (s.runs r).stage ≠ .notCalled ∧ (s.runs r).stage ≠ .shouldRun ∧
      (s.runs r).stage ≠ .onBeforeTask := by
  have hok := (h.fits r).ok
  unfold Run.Ok at hok
  refine ⟨fun hstage => ?_, fun hstage => ?_, fun hstage => ?_⟩
  all_goals
    rw [hstage] at hok
    exact absurd hok.1 (ne_of_gt hr.1)

theorem overtaken_afterAttempt (hr : s.Overtaken r) (r' : Nat) :
    (UseAsync.afterAttempt o s r').Overtaken r ∧
      calls (UseAsync.afterAttempt o s r') r = calls s r := by
  unfold UseAsync.afterAttempt
  cases hstage : (s.runs r').stage with
  | attempted succeeded =>
    by_cases heq : r' = r
    · rw [heq] at hstage ⊢
      have htask : (s.runs r).stage ≠ .task := by
        rw [hstage]
        exact fun htask => Stage.noConfusion htask
      cases succeeded with
      | true =>
        obtain ⟨hruns, hcounter⟩ := @leaveLoop_runs T E o s r (s.runs r)
        apply overtaken_of_returned hr htask _ hcounter
        · exact (s.runs r).i
        · rw [hruns, Function.update_self]
      | false =>
        obtain ⟨hruns, hcounter⟩ := @nextAttempt_overtaken T E o s r
          { s.runs r with i := (s.runs r).i + 1 } (ne_of_lt hr.2)
        apply overtaken_of_returned hr htask _ hcounter
        · exact (s.runs r).i + 1
        · rw [hruns, Function.update_self]
    · have hne : r ≠ r' := fun hsame => heq hsame.symm
      cases succeeded with
      | true =>
        obtain ⟨hruns, hcounter⟩ := @leaveLoop_runs T E o s r' (s.runs r')
        exact overtaken_of_same hr (by rw [hruns, Function.update_of_ne hne]) hcounter.ge
      | false =>
        obtain ⟨hruns, hcounter⟩ := @nextAttempt_runs_of_ne T E o s r'
          { s.runs r' with i := (s.runs r').i + 1 } r hne
        exact overtaken_of_same hr hruns hcounter.ge
  | _ => exact ⟨hr, rfl⟩

theorem Inv.overtaken_step (h : Inv o s) (hr : s.Overtaken r) (e : Event T E) :
    (UseAsync.step o s e).Overtaken r ∧ calls (UseAsync.step o s e) r = calls s r := by
  obtain ⟨hnotCalled, hshouldRun, hbefore⟩ := h.notBegun hr
  cases e with
  | run r' =>
    dsimp only [UseAsync.step]
    split_ifs with hstage
    · have hne : r ≠ r' := fun heq => hnotCalled (heq ▸ hstage)
      exact overtaken_of_same hr (set_runs_of_ne hne) le_rfl
    · exact ⟨hr, rfl⟩
  | shouldRun r' answer =>
    dsimp only [UseAsync.step]
    split_ifs with hstage
    · have hne : r ≠ r' := fun heq => hshouldRun (heq ▸ hstage)
      cases answer with
      | none => exact overtaken_of_same hr (set_runs_of_ne hne) le_rfl
      | some go =>
        cases go with
        | false => exact overtaken_of_same hr (set_runs_of_ne hne) le_rfl
        | true => exact overtaken_of_same hr (set_runs_of_ne hne) le_rfl
    · exact ⟨hr, rfl⟩
  | onBeforeTask r' returns =>
    dsimp only [UseAsync.step]
    split_ifs with hstage hreturns
    · have hne : r ≠ r' := fun heq => hbefore (heq ▸ hstage)
      obtain ⟨hruns, hcounter⟩ := @nextAttempt_runs_of_ne T E o
        { s with taskIdCounter := s.taskIdCounter + 1, loading := true } r'
        { s.runs r' with taskId := s.taskIdCounter + 1, i := 0 } r hne
      refine overtaken_of_same hr hruns ?_
      rw [hcounter]
      exact Nat.le_succ _
    · have hne : r ≠ r' := fun heq => hbefore (heq ▸ hstage)
      exact overtaken_of_same hr (set_runs_of_ne hne) le_rfl
    · exact ⟨hr, rfl⟩
  | task r' answer =>
    dsimp only [UseAsync.step]
    split_ifs with hstage
    · obtain ⟨hruns, hcounter⟩ := @settle_runs T E o s r' (s.runs r') answer
      by_cases heq : r' = r
      · -- the call in flight is answered
        rw [heq] at hstage hruns hcounter ⊢
        unfold Hook.Overtaken calls
        rw [hruns, hcounter, Function.update_self, if_pos hstage]
        refine ⟨hr, ?_⟩
        rw [if_neg fun htask => Stage.noConfusion htask, List.length_append,
          List.length_singleton]
      · have hne : r ≠ r' := fun hsame => heq hsame.symm
        exact overtaken_of_same hr (by rw [hruns, Function.update_of_ne hne]) hcounter.ge
    · exact ⟨hr, rfl⟩
  | attempted r' => exact overtaken_afterAttempt hr r'
  | reset => exact ⟨hr, rfl⟩

/-- The answers that came before the last call of the task. -/
def earlier (run : Run T E) : List (Except E T) :=
  if run.stage = .task then run.answers else run.answers.dropLast

theorem Run.Ok.tries (h : run.Ok o) :
    run.answers.length + (if run.stage = .task then 1 else 0) ≤ o.tries ∧ Failed (earlier run) := by
  unfold Run.Ok at h
  unfold earlier
  cases hstage : run.stage with
  | task =>
    rw [hstage] at h
    obtain ⟨-, hfailed, hlength, htries⟩ := h
    rw [if_pos rfl, if_pos rfl, hlength]
    exact ⟨htries, hfailed⟩
  | attempted succeeded =>
    rw [hstage] at h
    obtain ⟨-, before, a, hanswers, hfailed, -, hlength, htries⟩ := h
    rw [if_neg fun htask => Stage.noConfusion htask, if_neg fun htask => Stage.noConfusion htask,
      hanswers, List.dropLast_concat, List.length_append, List.length_singleton, hlength]
    exact ⟨htries, hfailed⟩
  | returned =>
    rw [hstage] at h
    exact h.2
  | _ =>
    rw [hstage] at h
    rw [h.2]
    exact ⟨Nat.zero_le _, fun a ha => absurd ha List.not_mem_nil⟩

theorem overtaken_exec (o : Options T) (es later : List (Event T E))
    (hr : (exec o es).Overtaken r) : (exec o (es ++ later)).Overtaken r ∧
      calls (exec o (es ++ later)) r = calls (exec o es) r := by
  induction later using List.reverseRecOn with
  | nil =>
    rw [List.append_nil]
    exact ⟨hr, rfl⟩
  | append_singleton later e ih =>
    obtain ⟨hover, hcalls⟩ := ih
    obtain ⟨hover', hcalls'⟩ := (inv_exec o (es ++ later)).overtaken_step hover e
    have hexec : exec o (es ++ (later ++ [e])) =
        UseAsync.step o (exec o (es ++ later)) e := by
      unfold exec
      rw [← List.append_assoc, List.foldl_append (l := es ++ later)]
      rfl
    rw [hexec]
    exact ⟨hover', hcalls'.trans hcalls⟩

/-- A run calls the task again only behind an error and at most `tries` times. It calls
`onAfterTask` once at most, behind a result or its last try. An overtaken run calls the task no
more. -/
theorem runs_keep_to_tries (truthy : T → Bool) (options : AsyncTaskOptions T)
    (es : List (Event T E)) (r : Nat) :
    calls (useAsync truthy options es) r ≤ (normalizeOptions truthy options).tries ∧
    Failed (earlier ((useAsync truthy options es).runs r)) ∧
    ((useAsync truthy options es).afterTask.map Prod.fst).Nodup ∧
    (∀ p ∈ (useAsync truthy options es).afterTask, Reported (normalizeOptions truthy options)
      ((useAsync truthy options es).runs p.1) p.2) ∧
    ((useAsync truthy options es).Overtaken r → ∀ later,
      calls (useAsync truthy options (es ++ later)) r = calls (useAsync truthy options es) r) := by
  have h := inv_exec (normalizeOptions truthy options) es
  obtain ⟨htries, hfailed⟩ := (h.fits r).ok.tries
  exact ⟨htries, hfailed, h.once, h.reported, fun hr later => (overtaken_exec _ es later hr).2⟩

end ThreefoldSdk.Playground.UseAsync
