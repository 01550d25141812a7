import Mathlib

/-! The lock around the migration of the keys to another store secret (`helpers/migration.ts`), over
the calls of all clients that have the same migration key. The lock is taken out of its map by the
first call that ends, while others still wait for it. -/

namespace ThreefoldSdk.Storage.KeysMigration

/-- Where a call of `migrateKeysEncryption` is, with its lock: the locks are numbered as they are
made. -/
inductive Stage where
  | idle
  | waiting (lock : ℕ)
  | holding (lock : ℕ)
  | migrating (lock : ℕ)
  | ending (lock : ℕ)
  | done
deriving DecidableEq

def Stage.holds : Stage → Option ℕ
  | holding lock | migrating lock | ending lock => some lock
  | _ => none

structure State where
  stage : ℕ → Stage
  locks : ℕ
  acquired : ℕ → Bool
  /-- The entry of `migrationLock`. -/
  migrationLock : Option ℕ
  /-- Whether the key is in `migrated`. -/
  migrated : Bool
  started : List ℕ
  failed : List ℕ

/-- `call` is the part of a call up to where it waits for its lock; only clients whose mnemonic is
not the secret of the store take part. A call that resumes behind the lock looks first whether the
key is migrated. -/
inductive Event where
  | call (r : ℕ)
  | acquired (r : ℕ)
  | resumed (r : ℕ)
  | succeeded (r : ℕ)
  | failed (r : ℕ)
  | released (r : ℕ)

def State.set (s : State) (r : ℕ) (stage : Stage) : State :=
  { s with stage := Function.update s.stage r stage }

/-- `migrationLock.get`, behind the `set` of a new lock when there is none. -/
def State.getLock (s : State) : State × ℕ :=
  match s.migrationLock with
  | some lock => (s, lock)
  | none => ({ s with locks := s.locks + 1, migrationLock := some s.locks }, s.locks)

def step (s : State) : Event → State
  | .call r =>
    match s.stage r with
    | .idle =>
      if s.migrated then s.set r .done
      else s.getLock.1.set r (.waiting s.getLock.2)
    | _ => s
  | .acquired r =>
    match s.stage r with
    | .waiting lock =>
      if s.acquired lock then s
      else { s.set r (.holding lock) with acquired := Function.update s.acquired lock true }
    | _ => s
  | .resumed r =>
    match s.stage r with
    | .holding lock =>
      if s.migrated then s.set r (.ending lock)
      else { s.set r (.migrating lock) with started := s.started ++ [r] }
    | _ => s
  | .succeeded r =>
    match s.stage r with
    | .migrating lock => { s.set r (.ending lock) with migrated := true }
    | _ => s
  | .failed r =>
    match s.stage r with
    | .migrating lock => { s.set r (.ending lock) with failed := s.failed ++ [r] }
    | _ => s
  | .released r =>
    match s.stage r with
    | .ending lock =>
      { s.set r .done with
        acquired := Function.update s.acquired lock false
        migrationLock := none }
    | _ => s

def start : State := ⟨fun _ => .idle, 0, fun _ => false, none, false, [], []⟩

def exec (es : List Event) : State := es.foldl step start

/-- What an event does, where it does anything. -/
inductive Move (s : State) : State → Prop where
  | skipped (r : ℕ) (h : s.stage r = .idle) (hmigrated : s.migrated = true) : Move s (s.set r .done)
  | joined (r lock : ℕ) (h : s.stage r = .idle) (hmigrated : s.migrated = false)
    (hlock : s.migrationLock = some lock) : Move s (s.set r (.waiting lock))
  | made (r : ℕ) (h : s.stage r = .idle) (hmigrated : s.migrated = false)
    (hlock : s.migrationLock = none) :
    Move s { s.set r (.waiting s.locks) with locks := s.locks + 1, migrationLock := some s.locks }
  | acquired (r lock : ℕ) (h : s.stage r = .waiting lock) (hfree : s.acquired lock = false) :
    Move s { s.set r (.holding lock) with acquired := Function.update s.acquired lock true }
  | late (r lock : ℕ) (h : s.stage r = .holding lock) (hmigrated : s.migrated = true) :
    Move s (s.set r (.ending lock))
  | started (r lock : ℕ) (h : s.stage r = .holding lock) (hmigrated : s.migrated = false) :
    Move s { s.set r (.migrating lock) with started := s.started ++ [r] }
  | succeeded (r lock : ℕ) (h : s.stage r = .migrating lock) :
    Move s { s.set r (.ending lock) with migrated := true }
  | failed (r lock : ℕ) (h : s.stage r = .migrating lock) :
    Move s { s.set r (.ending lock) with failed := s.failed ++ [r] }
  | released (r lock : ℕ) (h : s.stage r = .ending lock) :
    Move s { s.set r .done with
      acquired := Function.update s.acquired lock false
      migrationLock := none }

theorem step_moves (s : State) (e : Event) : step s e = s ∨ Move s (step s e) := by
  cases e with
  | call r =>
    cases h : s.stage r with
    | idle =>
      cases hmigrated : s.migrated with
      | true =>
        have hstep : step s (.call r) = s.set r .done := by simp [step, h, hmigrated]
        rw [hstep]
        exact Or.inr (.skipped r h hmigrated)
      | false =>
        cases hlock : s.migrationLock with
        | some lock =>
          have hstep : step s (.call r) = s.set r (.waiting lock) := by
            simp [step, State.getLock, h, hmigrated, hlock]
          rw [hstep]
          exact Or.inr (.joined r lock h hmigrated hlock)
        | none =>
          have hstep : step s (.call r) = { s.set r (.waiting s.locks) with
              locks := s.locks + 1, migrationLock := some s.locks } := by
            simp [step, State.getLock, State.set, h, hmigrated, hlock]
          rw [hstep]
          exact Or.inr (.made r h hmigrated hlock)
    | _ => exact Or.inl (by simp only [step, h])
  | acquired r =>
    cases h : s.stage r with
    | waiting lock =>
      cases hfree : s.acquired lock with
      | true => exact Or.inl (by simp [step, h, hfree])
      | false =>
        have hstep : step s (.acquired r) = { s.set r (.holding lock) with
            acquired := Function.update s.acquired lock true } := by
          simp [step, h, hfree]
        rw [hstep]
        exact Or.inr (.acquired r lock h hfree)
    | _ => exact Or.inl (by simp only [step, h])
  | resumed r =>
    cases h : s.stage r with
    | holding lock =>
      cases hmigrated : s.migrated with
      | true =>
        have hstep : step s (.resumed r) = s.set r (.ending lock) := by simp [step, h, hmigrated]
        rw [hstep]
        exact Or.inr (.late r lock h hmigrated)
      | false =>
        have hstep : step s (.resumed r) = { s.set r (.migrating lock) with
            started := s.started ++ [r] } := by
          simp [step, h, hmigrated]
        rw [hstep]
        exact Or.inr (.started r lock h hmigrated)
    | _ => exact Or.inl (by simp only [step, h])
  | succeeded r =>
    cases h : s.stage r with
    | migrating lock =>
      have hstep : step s (.succeeded r) = { s.set r (.ending lock) with migrated := true } := by
        simp only [step, h]
      rw [hstep]
      exact Or.inr (.succeeded r lock h)
    | _ => exact Or.inl (by simp only [step, h])
  | failed r =>
    cases h : s.stage r with
    | migrating lock =>
      have hstep : step s (.failed r) = { s.set r (.ending lock) with failed := s.failed ++ [r] } := by
        simp only [step, h]
      rw [hstep]
      exact Or.inr (.failed r lock h)
    | _ => exact Or.inl (by simp only [step, h])
  | released r =>
    cases h : s.stage r with
    | ending lock =>
      have hstep : step s (.released r) = { s.set r .done with
          acquired := Function.update s.acquired lock false
          migrationLock := none } := by
        simp only [step, h]
      rw [hstep]
      exact Or.inr (.released r lock h)
    | _ => exact Or.inl (by simp only [step, h])

/-! Locks. -/

/-- The lock that a call has a part in. -/
def Stage.lock : Stage → Option ℕ
  | waiting lock | holding lock | migrating lock | ending lock => some lock
  | _ => none

structure Guarded (s : State) : Prop where
  one : ∀ r r' lock, (s.stage r).holds = some lock → (s.stage r').holds = some lock → r = r'
  acquired : ∀ r lock, (s.stage r).holds = some lock → s.acquired lock = true
  made : ∀ r lock, (s.stage r).lock = some lock → lock < s.locks
  current : ∀ lock, s.migrationLock = some lock → lock < s.locks

section
variable {s s' : State} {r r' lock : ℕ} {stage : Stage}

theorem set_stage (h : r' ≠ r) : (s.set r stage).stage r' = s.stage r' :=
  Function.update_of_ne h _ _

theorem set_stage_self : (s.set r stage).stage r = stage := Function.update_self ..

theorem lock_of_holds {stage : Stage} (h : stage.holds = some lock) : stage.lock = some lock := by
  cases stage with
  | idle => cases h
  | waiting lock => cases h
  | holding lock => exact h
  | migrating lock => exact h
  | ending lock => exact h
  | done => cases h

/-- A stage that is set and holds nothing else leaves who holds what. -/
theorem holds_of_set (hstage : ∀ lock, stage.holds = some lock → (s.stage r).holds = some lock)
    (h : ((s.set r stage).stage r').holds = some lock) : (s.stage r').holds = some lock := by
  by_cases heq : r' = r
  · subst heq
    rw [set_stage_self] at h
    exact hstage lock h
  · rwa [set_stage heq] at h

theorem lock_of_set {bound : ℕ} (hmade : ∀ r lock, (s.stage r).lock = some lock → lock < bound)
    (hstage : ∀ lock, stage.lock = some lock → lock < bound)
    (h : ((s.set r stage).stage r').lock = some lock) : lock < bound := by
  by_cases heq : r' = r
  · subst heq
    rw [set_stage_self] at h
    exact hstage lock h
  · rw [set_stage heq] at h
    exact hmade r' lock h

/-- One call at most holds a lock, and then the lock is acquired. -/
theorem Guarded.set (h : Guarded s)
    (hholds : ∀ lock, stage.holds = some lock → (s.stage r).holds = some lock)
    (hlock : ∀ lock, stage.lock = some lock → lock < s.locks) : Guarded (s.set r stage) where
  one r₁ r₂ lock h₁ h₂ := h.one r₁ r₂ lock (holds_of_set hholds h₁) (holds_of_set hholds h₂)
  acquired r' lock h' := h.acquired r' lock (holds_of_set hholds h')
  made _ _ h' := lock_of_set h.made hlock h'
  current := h.current

theorem guarded_move (h : Guarded s) (hmove : Move s s') : Guarded s' := by
  cases hmove with
  | skipped r hr => exact h.set (by simp [Stage.holds]) (by simp [Stage.lock])
  | joined r lock hr hmigrated hcurrent =>
    refine h.set (by simp [Stage.holds]) ?_
    intro lock' hlock'
    rw [← Option.some.inj hlock']
    exact h.current lock hcurrent
  | made r hr =>
    constructor
    · intro r₁ r₂ lock h₁ h₂
      exact h.one r₁ r₂ lock (holds_of_set (by simp [Stage.holds]) h₁)
        (holds_of_set (by simp [Stage.holds]) h₂)
    · exact fun r' lock h' => h.acquired r' lock (holds_of_set (by simp [Stage.holds]) h')
    · intro r' lock h'
      have hmade : ∀ r lock, (s.stage r).lock = some lock → lock < s.locks + 1 :=
        fun r' lock h' => (h.made r' lock h').trans (Nat.lt_succ_self _)
      apply lock_of_set hmade _ h'
      intro lock' hlock'
      rw [← Option.some.inj hlock']
      exact Nat.lt_succ_self _
    · intro lock hlock
      rw [← Option.some.inj hlock]
      exact Nat.lt_succ_self _
  | acquired r lock hr hfree =>
    have hown : ∀ r', (s.stage r').holds ≠ some lock := by
      intro r' h'
      have hacquired := h.acquired r' lock h'
      rw [hfree] at hacquired
      cases hacquired
    have hcases : ∀ {r' lock' : ℕ}, ((s.set r (.holding lock)).stage r').holds = some lock' →
        r' = r ∧ lock' = lock ∨ (s.stage r').holds = some lock' := by
      intro r' lock' h'
      by_cases heq : r' = r
      · subst heq
        rw [set_stage_self] at h'
        exact Or.inl ⟨rfl, (Option.some.inj h').symm⟩
      · rw [set_stage heq] at h'
        exact Or.inr h'
    constructor
    · intro r₁ r₂ lock' h₁ h₂
      rcases hcases h₁ with ⟨rfl, rfl⟩ | h₁'
      · rcases hcases h₂ with ⟨rfl, -⟩ | h₂'
        · rfl
        · exact absurd h₂' (hown r₂)
      · rcases hcases h₂ with ⟨-, rfl⟩ | h₂'
        · exact absurd h₁' (hown r₁)
        · exact h.one r₁ r₂ lock' h₁' h₂'
    · intro r' lock' h'
      by_cases heq : lock' = lock
      · subst heq
        exact Function.update_self ..
      · rcases hcases h' with ⟨-, hlock⟩ | hold
        · exact absurd hlock heq
        · exact (Function.update_of_ne heq _ _).trans (h.acquired r' lock' hold)
    · intro r' lock' h'
      apply lock_of_set h.made _ h'
      intro lock'' hlock
      rw [← Option.some.inj hlock]
      exact h.made r lock (congrArg Stage.lock hr)
    · exact h.current
  | late r lock hr =>
    exact h.set (fun lock' h' => by rw [hr]; exact h')
      fun lock' h' => h.made r lock' (by rw [hr]; exact h')
  | started r lock hr =>
    have hset : Guarded (s.set r (.migrating lock)) := h.set (fun lock' h' => by rw [hr]; exact h')
      fun lock' h' => h.made r lock' (by rw [hr]; exact h')
    exact ⟨hset.one, hset.acquired, hset.made, hset.current⟩
  | succeeded r lock hr =>
    have hset : Guarded (s.set r (.ending lock)) := h.set (fun lock' h' => by rw [hr]; exact h')
      fun lock' h' => h.made r lock' (by rw [hr]; exact h')
    exact ⟨hset.one, hset.acquired, hset.made, hset.current⟩
  | failed r lock hr =>
    have hset : Guarded (s.set r (.ending lock)) := h.set (fun lock' h' => by rw [hr]; exact h')
      fun lock' h' => h.made r lock' (by rw [hr]; exact h')
    exact ⟨hset.one, hset.acquired, hset.made, hset.current⟩
  | released r lock hr =>
    have hset : Guarded (s.set r .done) := h.set (by simp [Stage.holds]) (by simp [Stage.lock])
    constructor
    · exact hset.one
    · intro r' lock' h'
      have hne : lock' ≠ lock := by
        intro heq
        subst heq
        have hholds := holds_of_set (by simp [Stage.holds]) h'
        have hself : r' = r := h.one r' r lock' hholds (by rw [hr]; rfl)
        subst hself
        change ((s.set r' .done).stage r').holds = some lock' at h'
        rw [set_stage_self] at h'
        cases h'
      exact (Function.update_of_ne hne _ _).trans (hset.acquired r' lock' h')
    · exact hset.made
    · intro lock' hlock'
      cases hlock'

end

/-! Counting. -/

/-- How far a call is. -/
def Stage.rank : Stage → ℕ
  | idle => 0
  | waiting _ => 1
  | holding _ => 2
  | migrating _ => 3
  | ending _ => 4
  | done => 5

def Stage.isMigrating (stage : Stage) : Prop := stage.rank = 3

/-- Calls that failed have given their locks back, and as many locks were made behind them. -/
def Freed (s : State) : Prop :=
  ∃ released : List ℕ, released.Nodup ∧ (∀ r ∈ released, r ∈ s.failed ∧ s.stage r = .done) ∧
    s.locks ≤ released.length + (if s.migrationLock = none then 0 else 1)

structure Counted (s : State) : Prop where
  startedOnce : s.started.Nodup
  failedOnce : s.failed.Nodup
  started : ∀ r ∈ s.started, 3 ≤ (s.stage r).rank
  failed : ∀ r ∈ s.failed, 4 ≤ (s.stage r).rank
  ongoing : s.migrated = false → ∀ r ∈ s.started, (s.stage r).isMigrating ∨ r ∈ s.failed
  ended : s.migrated = false → ∀ r lock, s.stage r = .ending lock → r ∈ s.failed
  freed : s.migrated = false → Freed s
  locks : s.locks ≤ s.failed.length + 1

section
variable {s s' : State} {r r' lock : ℕ} {stage : Stage}

theorem rank_set (hrank : (s.stage r).rank ≤ stage.rank) (r' : ℕ) :
    (s.stage r').rank ≤ ((s.set r stage).stage r').rank := by
  by_cases heq : r' = r
  · subst heq
    rwa [set_stage_self]
  · rw [set_stage heq]

theorem done_of_set (hr : s.stage r ≠ .done) (h : s.stage r' = .done) :
    (s.set r stage).stage r' = .done := by
  rw [set_stage]
  · exact h
  · intro heq
    rw [heq] at h
    exact hr h

theorem Freed.set (h : Freed s) (hr : s.stage r ≠ .done) : Freed (s.set r stage) := by
  obtain ⟨released, hnodup, hdone, hlocks⟩ := h
  exact ⟨released, hnodup, fun r' h' => ⟨(hdone r' h').1, done_of_set hr (hdone r' h').2⟩, hlocks⟩

theorem Freed.le (h : Freed s) : s.locks ≤ s.failed.length + 1 := by
  obtain ⟨released, hnodup, hdone, hlocks⟩ := h
  have hlength : released.length ≤ s.failed.length :=
    (hnodup.subperm fun r hr => (hdone r hr).1).length_le
  split_ifs at hlocks with hnone
  · omega
  · omega

/-- A call that goes on without a word in the records. -/
theorem Counted.set (h : Counted s) (hr : s.stage r ≠ .done)
    (hrank : (s.stage r).rank ≤ stage.rank) (hmigrating : ¬(s.stage r).isMigrating)
    (hstage : s.migrated = false → stage.rank ≠ 4) : Counted (s.set r stage) where
  startedOnce := h.startedOnce
  failedOnce := h.failedOnce
  started r' h' := (h.started r' h').trans (rank_set hrank r')
  failed r' h' := (h.failed r' h').trans (rank_set hrank r')
  ongoing hopen r' h' := by
    rcases h.ongoing hopen r' h' with hstays | hfailed
    · left
      rwa [set_stage]
      intro heq
      subst heq
      exact hmigrating hstays
    · exact Or.inr hfailed
  ended hopen r' lock h' := by
    by_cases heq : r' = r
    · subst heq
      rw [set_stage_self] at h'
      exact absurd (congrArg Stage.rank h') (hstage hopen)
    · rw [set_stage heq] at h'
      exact h.ended hopen r' lock h'
  freed hopen := (h.freed hopen).set hr
  locks := h.locks

theorem counted_move (h : Counted s) (hmove : Move s s') : Counted s' := by
  cases hmove with
  | skipped r hr hmigrated =>
    refine h.set ?_ ?_ ?_ ?_
    · simp [hr]
    · simp [hr, Stage.rank]
    · simp [hr, Stage.isMigrating, Stage.rank]
    · simp [Stage.rank]
  | joined r lock hr hmigrated hlock =>
    refine h.set ?_ ?_ ?_ ?_
    · simp [hr]
    · simp [hr, Stage.rank]
    · simp [hr, Stage.isMigrating, Stage.rank]
    · simp [Stage.rank]
  | made r hr hmigrated hlock =>
    have hset : Counted (s.set r (.waiting s.locks)) := by
      refine h.set ?_ ?_ ?_ ?_
      · simp [hr]
      · simp [hr, Stage.rank]
      · simp [hr, Stage.isMigrating, Stage.rank]
      · simp [Stage.rank]
    have hfreed : Freed { s.set r (.waiting s.locks) with
        locks := s.locks + 1, migrationLock := some s.locks } := by
      obtain ⟨released, hnodup, hdone, hlocks⟩ := hset.freed hmigrated
      refine ⟨released, hnodup, hdone, ?_⟩
      change s.locks ≤ released.length + (if s.migrationLock = none then 0 else 1) at hlocks
      rw [if_pos hlock] at hlocks
      exact Nat.succ_le_succ hlocks
    exact {
      startedOnce := hset.startedOnce
      failedOnce := hset.failedOnce
      started := hset.started
      failed := hset.failed
      ongoing := hset.ongoing
      ended := hset.ended
      freed := fun _ => hfreed
      locks := hfreed.le }
  | acquired r lock hr hfree =>
    have hset : Counted (s.set r (.holding lock)) := by
      refine h.set ?_ ?_ ?_ ?_
      · simp [hr]
      · simp [hr, Stage.rank]
      · simp [hr, Stage.isMigrating, Stage.rank]
      · simp [Stage.rank]
    exact ⟨hset.startedOnce, hset.failedOnce, hset.started, hset.failed, hset.ongoing, hset.ended,
      hset.freed, hset.locks⟩
  | late r lock hr hmigrated =>
    refine h.set ?_ ?_ ?_ ?_
    · simp [hr]
    · simp [hr, Stage.rank]
    · simp [hr, Stage.isMigrating, Stage.rank]
    · simp [hmigrated]
  | started r lock hr hmigrated =>
    have hset : Counted (s.set r (.migrating lock)) := by
      refine h.set ?_ ?_ ?_ ?_
      · simp [hr]
      · simp [hr, Stage.rank]
      · simp [hr, Stage.isMigrating, Stage.rank]
      · simp [Stage.rank]
    have hnew : r ∉ s.started := by
      intro hin
      have hrank := h.started r hin
      rw [hr] at hrank
      exact absurd hrank (by simp [Stage.rank])
    have hnow : ((s.set r (.migrating lock)).stage r).isMigrating := by
      rw [set_stage_self]
      rfl
    have honce : (s.started ++ [r]).Nodup := by
      rw [← List.concat_eq_append]
      exact hset.startedOnce.concat hnew
    constructor
    · exact honce
    · exact hset.failedOnce
    · intro r' hin
      rcases List.mem_append.mp hin with hin | hin
      · exact hset.started r' hin
      · rw [List.mem_singleton.mp hin]
        exact hnow.ge
    · exact hset.failed
    · intro hopen r' hin
      rcases List.mem_append.mp hin with hin | hin
      · exact hset.ongoing hopen r' hin
      · rw [List.mem_singleton.mp hin]
        exact Or.inl hnow
    · exact hset.ended
    · exact hset.freed
    · exact hset.locks
  | succeeded r lock hr =>
    have hrank : (s.stage r).rank ≤ (Stage.ending lock).rank := by simp [hr, Stage.rank]
    constructor
    · exact h.startedOnce
    · exact h.failedOnce
    · exact fun r' h' => (h.started r' h').trans (rank_set hrank r')
    · exact fun r' h' => (h.failed r' h').trans (rank_set hrank r')
    · exact fun hopen => absurd hopen (by simp)
    · exact fun hopen => absurd hopen (by simp)
    · exact fun hopen => absurd hopen (by simp)
    · exact h.locks
  | failed r lock hr =>
    have hrank : (s.stage r).rank ≤ (Stage.ending lock).rank := by simp [hr, Stage.rank]
    have hdone : s.stage r ≠ .done := by simp [hr]
    have hnew : r ∉ s.failed := by
      intro hin
      have hrank := h.failed r hin
      rw [hr] at hrank
      exact absurd hrank (by simp [Stage.rank])
    have hself : r ∈ s.failed ++ [r] := List.mem_append_right _ (List.mem_singleton_self r)
    have honce : (s.failed ++ [r]).Nodup := by
      rw [← List.concat_eq_append]
      exact h.failedOnce.concat hnew
    constructor
    · exact h.startedOnce
    · exact honce
    · exact fun r' h' => (h.started r' h').trans (rank_set hrank r')
    · intro r' hin
      rcases List.mem_append.mp hin with hin | hin
      · exact (h.failed r' hin).trans (rank_set hrank r')
      · rw [List.mem_singleton.mp hin]
        change 4 ≤ ((s.set r (.ending lock)).stage r).rank
        rw [set_stage_self]
        exact le_rfl
    · intro hopen r' hin
      by_cases heq : r' = r
      · rw [heq]
        exact Or.inr hself
      · rcases h.ongoing hopen r' hin with hstays | hfailed
        · left
          change ((s.set r (.ending lock)).stage r').isMigrating
          rwa [set_stage heq]
        · exact Or.inr (List.mem_append_left _ hfailed)
    · intro hopen r' lock' h'
      by_cases heq : r' = r
      · rw [heq]
        exact hself
      · change (s.set r (.ending lock)).stage r' = .ending lock' at h'
        rw [set_stage heq] at h'
        exact List.mem_append_left _ (h.ended hopen r' lock' h')
    · intro hopen
      obtain ⟨released, hnodup, hold, hlocks⟩ := (h.freed hopen).set hdone
      exact ⟨released, hnodup, fun r' h' => ⟨List.mem_append_left _ (hold r' h').1, (hold r' h').2⟩,
        hlocks⟩
    · change s.locks ≤ (s.failed ++ [r]).length + 1
      rw [List.length_append]
      exact h.locks.trans (by simp)
  | released r lock hr =>
    have hset : Counted (s.set r .done) := by
      refine h.set ?_ ?_ ?_ ?_
      · simp [hr]
      · simp [hr, Stage.rank]
      · simp [hr, Stage.isMigrating, Stage.rank]
      · simp [Stage.rank]
    refine ⟨hset.startedOnce, hset.failedOnce, hset.started, hset.failed, hset.ongoing, hset.ended, ?_,
      hset.locks⟩
    intro hopen
    obtain ⟨released, hnodup, hold, hlocks⟩ := h.freed hopen
    have hfailed : r ∈ s.failed := h.ended hopen r lock hr
    have hnot : r ∉ released := by
      intro hin
      have hdone := (hold r hin).2
      rw [hr] at hdone
      cases hdone
    refine ⟨r :: released, List.nodup_cons.mpr ⟨hnot, hnodup⟩, ?_, ?_⟩
    · intro r' hin
      rcases List.mem_cons.mp hin with rfl | hin
      · exact ⟨hfailed, set_stage_self⟩
      · exact ⟨(hold r' hin).1, done_of_set (by simp [hr]) (hold r' hin).2⟩
    · change s.locks ≤ (r :: released).length + 0
      rw [List.length_cons]
      split_ifs at hlocks <;> omega

/-- Calls that migrate hold different locks. -/
theorem migrating_le (hguarded : Guarded s) (hcounted : Counted s) {rs : List ℕ} (hrs : rs.Nodup)
    (hmigrating : ∀ r ∈ rs, (s.stage r).isMigrating) : rs.length ≤ s.failed.length + 1 := by
  have hlock : ∀ r ∈ rs, ∃ lock, (s.stage r).holds = some lock := by
    intro r hr
    have hrank := hmigrating r hr
    unfold Stage.isMigrating at hrank
    cases hstage : s.stage r with
    | migrating lock => exact ⟨lock, rfl⟩
    | _ => simp [hstage, Stage.rank] at hrank
  have hbelow : (rs.map fun r => ((s.stage r).holds).getD 0) ⊆ List.range s.locks := by
    intro lock hin
    obtain ⟨r, hr, rfl⟩ := List.mem_map.mp hin
    obtain ⟨lock, hholds⟩ := hlock r hr
    rw [hholds]
    exact List.mem_range.mpr (hguarded.made r lock (lock_of_holds hholds))
  have hapart : (rs.map fun r => ((s.stage r).holds).getD 0).Nodup := by
    refine (List.nodup_map_iff_inj_on hrs).mpr ?_
    intro r hr r' hr' heq
    obtain ⟨lock, hholds⟩ := hlock r hr
    obtain ⟨lock', hholds'⟩ := hlock r' hr'
    rw [hholds, hholds'] at heq
    have hsame : lock = lock' := heq
    rw [← hsame] at hholds'
    exact hguarded.one r r' lock hholds hholds'
  have hlength := (hapart.subperm hbelow).length_le
  rw [List.length_map, List.length_range] at hlength
  exact hlength.trans hcounted.locks

/-- Until one succeeds, every migration that started goes on or has failed. -/
theorem started_le (hguarded : Guarded s) (hcounted : Counted s) (hopen : s.migrated = false) :
    s.started.length ≤ 2 * s.failed.length + 1 := by
  have hfailed : (s.started.filter fun r => decide (r ∈ s.failed)).length ≤ s.failed.length := by
    refine ((hcounted.startedOnce.filter _).subperm ?_).length_le
    intro r hr
    exact of_decide_eq_true (List.mem_filter.mp hr).2
  have hgoing : (s.started.filter fun r => !decide (r ∈ s.failed)).length ≤
      s.failed.length + 1 := by
    refine migrating_le hguarded hcounted (hcounted.startedOnce.filter _) ?_
    intro r hr
    obtain ⟨hin, hnot⟩ := List.mem_filter.mp hr
    rcases hcounted.ongoing hopen r hin with hmigrating | hfailed
    · exact hmigrating
    · simp [hfailed] at hnot
  have hsplit := List.length_eq_length_filter_add (l := s.started) fun r => decide (r ∈ s.failed)
  omega

end

/-! Runs. -/

section
variable {s s' : State}

theorem exec_concat (es : List Event) (e : Event) : exec (es ++ [e]) = step (exec es) e :=
  List.foldl_concat ..

theorem guarded_start : Guarded start where
  one _ _ _ h _ := absurd h (Option.some_ne_none _).symm
  acquired _ _ h := absurd h (Option.some_ne_none _).symm
  made _ _ h := absurd h (Option.some_ne_none _).symm
  current _ h := absurd h (Option.some_ne_none _).symm

theorem counted_start : Counted start where
  startedOnce := List.nodup_nil
  failedOnce := List.nodup_nil
  started _ h := absurd h List.not_mem_nil
  failed _ h := absurd h List.not_mem_nil
  ongoing _ _ h := absurd h List.not_mem_nil
  ended _ _ _ h := Stage.noConfusion h
  freed _ := ⟨[], List.nodup_nil, fun _ h => absurd h List.not_mem_nil, Nat.zero_le _⟩
  locks := Nat.zero_le _

theorem guarded_exec (es : List Event) : Guarded (exec es) ∧ Counted (exec es) := by
  induction es using List.reverseRecOn with
  | nil => exact ⟨guarded_start, counted_start⟩
  | append_singleton es e ih =>
    rw [exec_concat]
    rcases step_moves (exec es) e with hsame | hmove
    · rw [hsame]
      exact ih
    · exact ⟨guarded_move ih.1 hmove, counted_move ih.2 hmove⟩

/-- A call that finds the key migrated starts nothing. -/
theorem started_of_migrated (hmove : Move s s') (h : s'.migrated = true) :
    s'.started = s.started := by
  cases hmove with
  | started r lock hr hmigrated =>
    have hnow : s.migrated = true := h
    rw [hmigrated] at hnow
    cases hnow
  | _ => rfl

theorem migrated_move (hmove : Move s s') (h : s.migrated = true) : s'.migrated = true := by
  cases hmove with
  | succeeded r lock hr => rfl
  | _ => exact h

theorem failed_le_move (hmove : Move s s') : s.failed.length ≤ s'.failed.length := by
  cases hmove with
  | failed r lock hr =>
    change s.failed.length ≤ (s.failed ++ [r]).length
    rw [List.length_append]
    exact Nat.le_add_right _ _
  | _ => exact le_rfl

theorem started_exec_le (es : List Event) :
    (exec es).started.length ≤ 2 * (exec es).failed.length + 1 := by
  induction es using List.reverseRecOn with
  | nil => exact Nat.zero_le _
  | append_singleton es e ih =>
    obtain ⟨hguarded, hcounted⟩ := guarded_exec (es ++ [e])
    cases hnow : (exec (es ++ [e])).migrated with
    | false => exact started_le hguarded hcounted hnow
    | true =>
      rw [exec_concat] at hnow ⊢
      rcases step_moves (exec es) e with hsame | hmove
      · rw [hsame]
        exact ih
      · have hfailed := failed_le_move hmove
        rw [started_of_migrated hmove hnow]
        omega

theorem started_append {es : List Event} (h : (exec es).migrated = true) (later : List Event) :
    (exec (es ++ later)).migrated = true ∧ (exec (es ++ later)).started = (exec es).started := by
  induction later using List.reverseRecOn with
  | nil =>
    rw [List.append_nil]
    exact ⟨h, rfl⟩
  | append_singleton later e ih =>
    rw [← List.append_assoc, exec_concat]
    rcases step_moves (exec (es ++ later)) e with hsame | hmove
    · rw [hsame]
      exact ih
    · have hnow := migrated_move hmove ih.1
      exact ⟨hnow, (started_of_migrated hmove hnow).trans ih.2⟩

end

/-! Failures let migrations run at once: a call that still waits for a lock that is out of its map
goes on beside the calls of the next lock. -/

/-- The first of two calls fails, and the second one begins. -/
def failingRound (n : ℕ) : List Event :=
  [.call (2 * n), .acquired (2 * n), .call (2 * n + 1), .resumed (2 * n), .failed (2 * n),
    .released (2 * n), .acquired (2 * n + 1), .resumed (2 * n + 1)]

structure Overlapping (s : State) (n : ℕ) : Prop where
  ongoing : s.migrated = false
  free : s.migrationLock = none
  failed : s.failed.length = n
  idle : ∀ r, 2 * n ≤ r → s.stage r = .idle
  apart : ∀ lock, s.locks ≤ lock → s.acquired lock = false
  migrating : ∀ k < n, (s.stage (2 * k + 1)).isMigrating

section
variable {s : State} {n : ℕ}

theorem overlapping_round (h : Overlapping s n) :
    (failingRound n).foldl step s = {
      stage := Function.update (Function.update s.stage (2 * n) .done) (2 * n + 1)
        (.migrating s.locks)
      locks := s.locks + 1
      acquired := Function.update s.acquired s.locks true
      migrationLock := none
      migrated := false
      started := s.started ++ [2 * n] ++ [2 * n + 1]
      failed := s.failed ++ [2 * n] } := by
  have hfirst : s.stage (2 * n) = .idle := h.idle _ le_rfl
  have hsecond : s.stage (2 * n + 1) = .idle := h.idle _ (Nat.le_succ _)
  have hne : 2 * n ≠ 2 * n + 1 := Nat.ne_of_lt (Nat.lt_succ_self _)
  have hlock : s.acquired s.locks = false := h.apart _ le_rfl
  simp only [failingRound, List.foldl_cons, List.foldl_nil, step, State.getLock, State.set]
  simp [hfirst, hsecond, hlock, h.ongoing, h.free]
  rw [Function.update_comm hne, Function.update_idem, Function.update_comm hne.symm,
    Function.update_idem]

theorem overlapping_next (h : Overlapping s n) :
    Overlapping ((failingRound n).foldl step s) (n + 1) := by
  rw [overlapping_round h]
  constructor
  · rfl
  · rfl
  · rw [List.length_append, h.failed]
    rfl
  · intro r hr
    have hfirst : r ≠ 2 * n := by omega
    have hsecond : r ≠ 2 * n + 1 := by omega
    have hidle : s.stage r = .idle := h.idle r (by omega)
    exact (Function.update_of_ne hsecond _ _).trans ((Function.update_of_ne hfirst _ _).trans hidle)
  · intro lock hlock
    have hne : lock ≠ s.locks := Nat.ne_of_gt hlock
    exact (Function.update_of_ne hne _ _).trans (h.apart lock (Nat.le_of_succ_le hlock))
  · intro k hk
    rcases Nat.lt_succ_iff_lt_or_eq.mp hk with hlt | rfl
    · have hfirst : 2 * k + 1 ≠ 2 * n := by omega
      have hsecond : 2 * k + 1 ≠ 2 * n + 1 := by omega
      have hold := h.migrating k hlt
      have hstage : Function.update (Function.update s.stage (2 * n) .done) (2 * n + 1)
          (.migrating s.locks) (2 * k + 1) = s.stage (2 * k + 1) :=
        (Function.update_of_ne hsecond _ _).trans (Function.update_of_ne hfirst _ _)
      exact (congrArg Stage.rank hstage).trans hold
    · have hstage : Function.update (Function.update s.stage (2 * k) .done) (2 * k + 1)
          (.migrating s.locks) (2 * k + 1) = .migrating s.locks := Function.update_self ..
      exact congrArg Stage.rank hstage

theorem overlapping_exec (n : ℕ) : Overlapping (exec ((List.range n).flatMap failingRound)) n := by
  induction n with
  | zero =>
    exact ⟨rfl, rfl, rfl, fun _ _ => rfl, fun _ _ => rfl, fun k hk => absurd hk (Nat.not_lt_zero k)⟩
  | succ n ih =>
    rw [List.range_succ, List.flatMap_append, List.flatMap_singleton]
    unfold exec
    rw [List.foldl_append]
    exact overlapping_next ih

/-- One migration more than failed can go on at once. -/
theorem overlapping_one_more (h : Overlapping s n) :
    ([.call (2 * n), .acquired (2 * n), .resumed (2 * n)] : List Event).foldl step s = {
      stage := Function.update s.stage (2 * n) (.migrating s.locks)
      locks := s.locks + 1
      acquired := Function.update s.acquired s.locks true
      migrationLock := some s.locks
      migrated := false
      started := s.started ++ [2 * n]
      failed := s.failed } := by
  have hfirst : s.stage (2 * n) = .idle := h.idle _ le_rfl
  have hlock : s.acquired s.locks = false := h.apart _ le_rfl
  simp only [List.foldl_cons, List.foldl_nil, step, State.getLock, State.set]
  simp [hfirst, hlock, h.ongoing, h.free]

end

/-- The migrations that go on at once are one more than have failed at most, and each of that many
can be; twice as many and one start at most, and none behind one that succeeded. -/
theorem migrations_bounded :
    (∀ es : List Event,
      (∀ rs : List ℕ, rs.Nodup → (∀ r ∈ rs, ((exec es).stage r).isMigrating) →
        rs.length ≤ (exec es).failed.length + 1) ∧
      (exec es).started.Nodup ∧
      (exec es).started.length ≤ 2 * (exec es).failed.length + 1 ∧
      ((exec es).migrated = true → ∀ later, (exec (es ++ later)).started = (exec es).started)) ∧
    ∀ n, ∃ es : List Event, (exec es).failed.length = n ∧ ∃ rs : List ℕ, rs.Nodup ∧
      (∀ r ∈ rs, ((exec es).stage r).isMigrating) ∧ rs.length = n + 1 := by
  constructor
  · intro es
    obtain ⟨hguarded, hcounted⟩ := guarded_exec es
    exact ⟨fun rs hrs hmigrating => migrating_le hguarded hcounted hrs hmigrating,
      hcounted.startedOnce, started_exec_le es, fun h later => (started_append h later).2⟩
  · intro n
    have hrounds := overlapping_exec n
    have hone := overlapping_one_more hrounds
    refine ⟨(List.range n).flatMap failingRound ++ [.call (2 * n), .acquired (2 * n), .resumed (2 * n)],
      ?_, 2 * n :: (List.range n).map (2 * · + 1), ?_, ?_, ?_⟩
    · unfold exec at hrounds hone ⊢
      rw [List.foldl_append, hone]
      exact hrounds.failed
    · refine List.nodup_cons.mpr ⟨?_, ?_⟩
      · intro hin
        obtain ⟨k, -, hk⟩ := List.mem_map.mp hin
        omega
      · refine (List.nodup_map_iff_inj_on List.nodup_range).mpr ?_
        intro k _ k' _ heq
        omega
    · intro r hr
      unfold exec at hrounds hone ⊢
      rw [List.foldl_append, hone]
      rcases List.mem_cons.mp hr with rfl | hin
      · have hnow := Function.update_self (2 * n) (Stage.migrating (exec
          ((List.range n).flatMap failingRound)).locks) (exec
          ((List.range n).flatMap failingRound)).stage
        exact congrArg Stage.rank hnow
      · obtain ⟨k, hk, rfl⟩ := List.mem_map.mp hin
        have hne : 2 * k + 1 ≠ 2 * n := by omega
        have hold := hrounds.migrating k (List.mem_range.mp hk)
        exact (congrArg Stage.rank (Function.update_of_ne hne _ _)).trans hold
    · rw [List.length_cons, List.length_map, List.length_range]

end ThreefoldSdk.Storage.KeysMigration
