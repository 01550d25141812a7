import ThreefoldSdk.Lib.Runs

/-! The twins that a client of the relay keeps (`getTwin` in `lib/util.ts`), and what becomes of them
while the chain changes. Times are in milliseconds. -/

namespace ThreefoldSdk.Rmb.TwinCache
open Runs

structure Entry (T : Type) where
  twin : T
  timestamp : ℕ
deriving DecidableEq

/-- `Math.round(Date.now() / 1000)`, as `getTwin` and `connect` write it. -/
def unixTime (now : ℕ) : ℕ := (now + 500) / 1000

def tenMinutes : ℕ := 10 * 60 * 1000

def isValid {T : Type} (e : Entry T) (now : ℕ) : Bool :=
  -- `moment(timestamp)` takes the seconds for milliseconds; zero is falsy
  decide (e.timestamp ≠ 0 ∧ e.timestamp + tenMinutes < now)

def cached {T : Type} (twins : ℕ → Option (Entry T)) (id now : ℕ) : Option T :=
  ((twins id).filter fun e => isValid e now).map Entry.twin

/-- The chain, the map of the client, and the twins that the chain is asked for. `read` is no part of
the program: what the chain answered last, and when. -/
structure Client (T : Type) where
  chain : ℕ → T
  twins : ℕ → Option (Entry T)
  asked : List ℕ
  read : ℕ → Option (ℕ × T)

inductive Event (T : Type) where
  | change (id : ℕ) (twin : T)
  | getTwin (id now : ℕ)
  | answered (id now : ℕ)
  | connect (id now : ℕ)

section
variable {T : Type}

/-- The chain answers, and the twin is set in the map. -/
def Client.store (s : Client T) (id now : ℕ) : Client T :=
  { s with
    twins := Function.update s.twins id (some ⟨s.chain id, unixTime now⟩)
    read := Function.update s.read id (some (now, s.chain id)) }

def step (s : Client T) : Event T → Client T
  | .change id twin => { s with chain := Function.update s.chain id twin }
  | .getTwin id now =>
    match cached s.twins id now with
    | some _ => s
    -- the call waits for the chain, while anything may happen; `twins.get` throws for the id zero
    | none => if id = 0 then s else { s with asked := id :: s.asked }
  | .answered id now =>
    if id ∈ s.asked then { s with asked := s.asked.erase id }.store id now else s
  -- without a twin of its own the client throws before it asks
  | .connect id now => if id = 0 then s else s.store id now

def start (chain : ℕ → T) : Client T := ⟨chain, fun _ => none, [], fun _ => none⟩

/-- A twin from the map was read at most ten minutes ago, and one that was read less than ten minutes
ago comes from the map. -/
def Expires (s : Client T) : Event T → Prop
  | .getTwin id now =>
    (∀ twin, cached s.twins id now = some twin →
      ∃ time, s.read id = some (time, twin) ∧ now ≤ time + tenMinutes) ∧
    ∀ time twin, s.read id = some (time, twin) → now < time + tenMinutes →
      cached s.twins id now = some twin
  | _ => True

/-- No twin that was read before is older than ten minutes when it is asked for; in the first half
second of the epoch none is younger. -/
def NeverOld (s : Client T) : Event T → Prop
  | .getTwin id now => ∀ time twin, s.read id = some (time, twin) →
      if time < 500 then time + tenMinutes ≤ now
      else unixTime time + tenMinutes < now ∧ now ≤ time + tenMinutes
  | _ => True

/-- An entry is what the chain answered last, with the time in seconds. -/
def Recorded (s : Client T) : Prop :=
  ∀ id, s.twins id = (s.read id).map fun answer => ⟨answer.2, unixTime answer.1⟩

variable {s : Client T}

theorem store_recorded (h : Recorded s) (id now : ℕ) : Recorded (s.store id now) := by
  intro id'
  unfold Client.store
  dsimp only
  by_cases hid : id' = id
  · subst hid
    rw [Function.update_self, Function.update_self]
    rfl
  · rw [Function.update_of_ne hid, Function.update_of_ne hid]
    exact h id'

theorem step_recorded (s : Client T) (e : Event T) (h : Recorded s) : Recorded (step s e) := by
  cases e with
  | change id twin => exact h
  | getTwin id now =>
    unfold step
    dsimp only
    split
    · exact h
    · split_ifs <;> exact h
  | answered id now =>
    unfold step
    dsimp only
    split_ifs
    · exact store_recorded h id now
    · exact h
  | connect id now =>
    unfold step
    dsimp only
    split_ifs
    · exact h
    · exact store_recorded h id now

theorem cached_never_read (h : Recorded s) {id : ℕ} (hread : s.read id = none) (now : ℕ) :
    cached s.twins id now = none := by
  rw [cached, h id, hread]
  rfl

/-- The map gives what was read, once its number of seconds is ten minutes back in milliseconds. -/
theorem cached_read (h : Recorded s) {id time : ℕ} {twin : T} (hread : s.read id = some (time, twin))
    (now : ℕ) : cached s.twins id now =
      if unixTime time ≠ 0 ∧ unixTime time + tenMinutes < now then some twin else none := by
  rw [cached, h id, hread, Option.map_some, Option.filter_some, isValid]
  split_ifs with hvalid hif hif
  · rfl
  · exact absurd (of_decide_eq_true hvalid) hif
  · exact absurd (decide_eq_true hif) hvalid
  · rfl

theorem unixTime_eq_zero_iff {time : ℕ} : unixTime time = 0 ↔ time < 500 := by
  unfold unixTime
  omega

theorem unixTime_lt {time : ℕ} (h : 500 ≤ time) : unixTime time < time := by
  unfold unixTime
  omega

/-- The test is right about an age exactly when the age is at most ten minutes, but for the first half
second, whose seconds are zero. -/
theorem valid_iff_inTime (time now : ℕ) :
    ((unixTime time ≠ 0 ∧ unixTime time + tenMinutes < now → now ≤ time + tenMinutes) ∧
      (now < time + tenMinutes → unixTime time ≠ 0 ∧ unixTime time + tenMinutes < now)) ↔
    if time < 500 then time + tenMinutes ≤ now
    else unixTime time + tenMinutes < now ∧ now ≤ time + tenMinutes := by
  have hzero : unixTime time = 0 ↔ time < 500 := unixTime_eq_zero_iff
  split_ifs with hearly
  · omega
  · have hlt := unixTime_lt (Nat.le_of_not_lt hearly)
    constructor
    · rintro ⟨hserved, hyoung⟩
      by_cases hnow : now < time + tenMinutes
      · exact ⟨(hyoung hnow).2, hnow.le⟩
      · have hvalid : unixTime time ≠ 0 ∧ unixTime time + tenMinutes < now := by omega
        exact ⟨hvalid.2, hserved hvalid⟩
    · rintro ⟨hvalid, hage⟩
      exact ⟨fun _ => hage, fun _ => ⟨fun h => hearly (hzero.mp h), hvalid⟩⟩

theorem expires_iff (h : Recorded s) (e : Event T) : Expires s e ↔ NeverOld s e := by
  cases e with
  | change id twin => exact Iff.rfl
  | answered id now => exact Iff.rfl
  | connect id now => exact Iff.rfl
  | getTwin id now =>
    unfold Expires NeverOld
    dsimp only
    cases hread : s.read id with
    | none =>
      rw [cached_never_read h hread]
      refine iff_of_true ⟨?_, ?_⟩ ?_
      · intro twin htwin
        cases htwin
      · intro time twin hsome
        cases hsome
      · intro time twin hsome
        cases hsome
    | some answer =>
      obtain ⟨time, twin⟩ := answer
      have hcached := cached_read h hread now
      constructor
      -- both parts are about the one answer that is recorded
      · rintro ⟨hserved, hyoung⟩ time' twin' hsome
        cases hsome
        refine (valid_iff_inTime time now).mp ⟨fun hvalid => ?_, fun hlt => ?_⟩
        · obtain ⟨_, hsome, hage⟩ := hserved twin (hcached.trans (if_pos hvalid))
          cases hsome
          exact hage
        · by_contra hvalid
          exact nomatch (hyoung time twin rfl hlt).symm.trans (hcached.trans (if_neg hvalid))
      · intro hall
        obtain ⟨hserved, hyoung⟩ := (valid_iff_inTime time now).mpr (hall time twin rfl)
        refine ⟨fun twin' htwin' => ?_, fun time' twin' hsome hlt => ?_⟩
        · rw [hcached] at htwin'
          split_ifs at htwin' with hvalid
          cases htwin'
          exact ⟨time, rfl, hserved hvalid⟩
        · cases hsome
          exact hcached.trans (if_pos (hyoung hlt))

/-- The map keeps to the ten minutes in exactly the runs in which no twin gets older: what it holds
is never fetched again. -/
theorem getTwin_expires_iff (chain : ℕ → T) (events : List (Event T)) :
    EachMeets step Expires (start chain) events ↔ EachMeets step NeverOld (start chain) events :=
  eachMeets_congr (fun s e h _ => step_recorded s e h) (fun _ e h => expires_iff h e) (fun _ => rfl)
    events

end

/-- A twin is asked for; an hour after the answer, and a change on the chain, it is asked for again. -/
def hourLater : List (Event String) :=
  [.getTwin 7 1700000000000, .answered 7 1700000000400, .change 7 "new key", .getTwin 7 1700003600400]

/-- The second call gets the twin that was read an hour ago. -/
theorem hourLater_not_expires : ¬EachMeets step Expires (start fun _ => "key") hourLater := by
  intro h
  have hlast := (h (hourLater.take 3) (.getTwin 7 1700003600400) ⟨[], rfl⟩).1 "key" (by decide)
  obtain ⟨time, hread, hage⟩ := hlast
  have htime : some (1700000000400, "key") = some (time, "key") := hread
  cases htime
  revert hage
  decide

end ThreefoldSdk.Rmb.TwinCache
