import ThreefoldSdk.Lib.Runs

/-! The metadata that the playground keeps of a user (`storeSSH` and `storeEmail` in `utils/grid.ts`):
each call reads the document and writes all of it. -/

namespace ThreefoldSdk.Playground.Metadata
open Runs

inductive Call where
  | storeSSH
  | storeEmail
deriving DecidableEq

def Call.field : Call → String
  | storeSSH => "sshkey"
  | storeEmail => "email"

def Call.other : Call → Call
  | storeSSH => storeEmail
  | storeEmail => storeSSH

/-- The fields of a document; one that is not stored has none. -/
abbrev Document (V : Type) := String → Option V

/-- Where a call is: it was not started, it has loaded the document, or failed to, or it is done. -/
inductive Phase (V : Type) where
  | idle
  | read (loaded : Option (Document V))
  | done

structure Grid (V : Type) where
  metadata : Document V
  phase : Call → Phase V

inductive Event where
  | read (c : Call) (fails : Bool)
  | write (c : Call)

section
variable {V : Type} [DecidableEq V]

/-- Whatever `load` throws, the answer is the empty object. -/
def getMetadata (loaded : Option (Document V)) : Document V := loaded.getD fun _ => none

/-- `storeEmail` returns when the email is stored. -/
def returnsEarly (value : Call → V) (c : Call) (loaded : Option (Document V)) : Prop :=
  c = .storeEmail ∧ getMetadata loaded c.field = some (value c)

instance (value : Call → V) (c : Call) (loaded : Option (Document V)) :
    Decidable (returnsEarly value c loaded) := inferInstanceAs (Decidable (_ ∧ _))

/-- What a call writes: `dump` of what it was given, with its own field. -/
def written (value : Call → V) (c : Call) (loaded : Option (Document V)) : Document V :=
  Function.update (getMetadata loaded) c.field (some (value c))

/-- A step of one of the calls, with the new keys and the new email as values. -/
def step (value : Call → V) (s : Grid V) : Event → Grid V
  | .read c fails =>
    match s.phase c with
    | .idle =>
      { s with phase := Function.update s.phase c (.read (if fails then none else some s.metadata)) }
    | _ => s
  | .write c =>
    match s.phase c with
    | .read loaded =>
      -- since the call has read, the other one may have written
      { metadata := if returnsEarly value c loaded then s.metadata else written value c loaded
        phase := Function.update s.phase c .done }
    | _ => s

def start (metadata : Document V) : Grid V := ⟨metadata, fun _ => .idle⟩

/-- A call that writes changes its own field only; one that could not read changes nothing. -/
def KeepsFields (value : Call → V) (s : Grid V) : Event → Prop
  | .read _ _ => True
  | .write c =>
    (∀ f, f ≠ c.field → (step value s (.write c)).metadata f = s.metadata f) ∧
      (s.phase c = .read none → (step value s (.write c)).metadata = s.metadata)

/-- The call has read the document, and since then the other one has not changed its field; or there
is nothing in the document but what the call writes. -/
def ReadHolds (value : Call → V) (s : Grid V) : Event → Prop
  | .read _ _ => True
  | .write c => ∀ loaded, s.phase c = .read loaded → ¬returnsEarly value c loaded →
      match loaded with
      | some metadata => metadata c.other.field = s.metadata c.other.field
      | none => s.metadata = Function.update (fun _ => none) c.field (some (value c))

/-- The fields of neither call are as they were read. -/
def OthersRead (s : Grid V) : Prop :=
  ∀ c metadata, s.phase c = .read (some metadata) →
    ∀ f, f ≠ c.field → f ≠ c.other.field → metadata f = s.metadata f

variable {value : Call → V} {s : Grid V}

theorem field_ne_other (c : Call) : c.other.field ≠ c.field := by
  cases c with
  | storeSSH => decide
  | storeEmail => decide

theorem eq_or_eq_other (c c' : Call) : c' = c ∨ c' = c.other := by
  cases c with
  | storeSSH => cases c' <;> decide
  | storeEmail => cases c' <;> decide

theorem step_write {c : Call} {loaded : Option (Document V)} (h : s.phase c = .read loaded) :
    step value s (.write c) =
      { metadata := if returnsEarly value c loaded then s.metadata else written value c loaded
        phase := Function.update s.phase c .done } := by
  simp only [step, h]

theorem step_write_outside {c : Call} (h : ¬∃ loaded, s.phase c = .read loaded) :
    step value s (.write c) = s := by
  simp only [step]
  split
  · exact absurd ⟨_, ‹_›⟩ h
  · rfl

theorem step_othersRead (s : Grid V) (e : Event) (hs : OthersRead s) (h : KeepsFields value s e) :
    OthersRead (step value s e) := by
  cases e with
  | read c fails =>
    unfold step
    dsimp only
    split
    · intro c' metadata hread
      dsimp only at hread
      by_cases hc : c' = c
      · subst hc
        rw [Function.update_self] at hread
        split_ifs at hread
        · cases hread
        · cases hread
          exact fun f _ _ => rfl
      · rw [Function.update_of_ne hc] at hread
        exact hs c' metadata hread
    · exact hs
  | write c =>
    intro c' metadata hread f hf hother
    by_cases hphase : ∃ loaded, s.phase c = .read loaded
    · obtain ⟨loaded, hphase⟩ := hphase
      have hfield : f ≠ c.field := by
        rcases eq_or_eq_other c' c with rfl | rfl
        · exact hf
        · exact hother
      rw [h.1 f hfield]
      rw [step_write hphase] at hread
      dsimp only at hread
      by_cases hc : c' = c
      · rw [hc, Function.update_self] at hread
        cases hread
      · rw [Function.update_of_ne hc] at hread
        exact hs c' metadata hread f hf hother
    · rw [step_write_outside hphase] at hread ⊢
      exact hs c' metadata hread f hf hother

theorem keepsFields_iff (hs : OthersRead s) (e : Event) :
    KeepsFields value s e ↔ ReadHolds value s e := by
  cases e with
  | read c fails => exact Iff.rfl
  | write c =>
    unfold KeepsFields ReadHolds
    dsimp only
    by_cases hphase : ∃ loaded, s.phase c = .read loaded
    · obtain ⟨loaded, hphase⟩ := hphase
      rw [step_write hphase, hphase]
      dsimp only
      split_ifs with hearly
      · refine iff_of_true ⟨fun _ _ => rfl, fun _ => rfl⟩ fun loaded' hread hnot => ?_
        cases hread
        exact absurd hearly hnot
      · cases loaded with
        | some metadata =>
          constructor
          · rintro ⟨hframe, -⟩ loaded' hread -
            cases hread
            have hother := hframe c.other.field (field_ne_other c)
            rwa [written, Function.update_of_ne (field_ne_other c)] at hother
          · intro hholds
            refine ⟨fun f hf => ?_, fun hread => nomatch hread⟩
            rw [written, Function.update_of_ne hf]
            by_cases hother : f = c.other.field
            · rw [hother]
              exact hholds _ rfl hearly
            · exact hs c metadata hphase f hf hother
        | none =>
          constructor
          · rintro ⟨-, hsame⟩ loaded' hread -
            cases hread
            exact (hsame rfl).symm
          · intro hholds
            have hsame : s.metadata = written value c none := hholds none rfl hearly
            rw [← hsame]
            exact ⟨fun _ _ => rfl, fun _ => rfl⟩
    · rw [step_write_outside hphase]
      exact iff_of_true ⟨fun _ _ => rfl, fun _ => rfl⟩ fun loaded hread => absurd ⟨loaded, hread⟩ hphase

/-- The calls change nothing but their fields in exactly the runs in which each reads before it writes,
and the other one does not change its field in between. -/
theorem metadata_keepsFields_iff (value : Call → V) (metadata : Document V) (events : List Event) :
    EachMeets (step value) (KeepsFields value) (start metadata) events ↔
      EachMeets (step value) (ReadHolds value) (start metadata) events :=
  eachMeets_congr step_othersRead (fun _ e hs => keepsFields_iff hs e)
    (by intro c loaded hread; cases hread) events

end

def stored : Document String := fun f => if f = "email" then some "a@b" else none

def newValue : Call → String
  | .storeSSH => "key"
  | .storeEmail => "c@d"

/-- The email is lost when the keys are stored after a failed request; and the old one is back when
both calls read first. -/
theorem stored_not_keepsFields :
    ¬EachMeets (step newValue) (KeepsFields newValue) (start stored)
      [.read .storeSSH true, .write .storeSSH] ∧
    ¬EachMeets (step newValue) (KeepsFields newValue) (start stored)
      [.read .storeSSH false, .read .storeEmail false, .write .storeEmail, .write .storeSSH] := by
  constructor
  · intro h
    have hframe := (h [.read .storeSSH true] (.write .storeSSH) ⟨[], rfl⟩).1 "email" (by decide)
    revert hframe
    decide
  · intro h
    have hframe := (h [.read .storeSSH false, .read .storeEmail false, .write .storeEmail]
      (.write .storeSSH) ⟨[], rfl⟩).1 "email" (by decide)
    revert hframe
    decide

end ThreefoldSdk.Playground.Metadata
