import ThreefoldSdk.Storage.Pkid

/-! Two PKID calls at once: when both are kept. -/

namespace ThreefoldSdk.Storage
open Interleave

/-! What is asked of the calls, and when it holds. -/

/-- The call is over. -/
def Requests.Finished : Requests → Prop
  | .done => True
  | .throw => True
  | _ => False

namespace PKID

namespace Call

def key : Call → List Char
  | set key _ => cropKey key
  | remove key => cropKey key

/-- The text that the call leaves; an empty one removes the key. -/
def value : Call → List Char
  | set _ value => value
  | remove _ => []

/-- The requests up to the one that reads the listing. -/
def reads (c : Call) : Nat := if c.value = [] then 2 else 1

/-- What the key reads as when the call is kept. -/
def readBack (c : Call) : Doc := .text (if c.value = [] then missing else c.value)

end Call

/-- The key is in the document that `list` reads. -/
def Listed (docs : Docs) (key : List Char) : Prop := ∃ ks, docs allKey = some (.keys ks) ∧ key ∈ ks

/-- A key that was set reads as its value and is listed; one that was removed reads as missing and
is not. -/
def Kept (docs : Docs) (c : Call) : Prop :=
  read (docs (docName c.key)) = c.readBack ∧ (Listed docs c.key ↔ c.value ≠ [])

/-- What `listAll` makes of the document that it reads. -/
def listing (value : Option Doc) : Doc :=
  if IsMissing (read value) then .keys [] else read value

/-- The listing is a list without duplicates, or there is none. -/
def WellListed (docs : Docs) : Prop := ∃ ks, listing (docs allKey) = .keys ks ∧ ks.Nodup

def listedKeys (docs : Docs) : List (List Char) :=
  match listing (docs allKey) with
  | .keys ks => ks
  | .text _ => []

/-- No value goes into the listing or, unless they read the same, into the other one's document. -/
def DocumentsApart (c : Bool → Call) : Prop :=
  (∀ i, docName (c i).key ≠ allKey) ∧
    (docName (c true).key = docName (c false).key → (c true).readBack = (c false).readBack)

/-- Where the call `a` is the first to write the listing, the other one has not read it yet and `a`
does not list `""` alone, which is taken for an empty listing; or `a` changes nothing in it. -/
def ListingSafe (docs : Docs) (c : Bool → Call) (schedule : List Bool) : Prop :=
  ∀ a before, before ++ [a] <+: schedule → before.count a = (c a).reads →
    before.count (!a) ≤ (c !a).reads →
    (before.count (!a) < (c !a).reads ∧
        ¬((c a).value ≠ [] ∧ (c a).key = missing ∧ listedKeys docs = [])) ∨
      (before.count (!a) = (c !a).reads ∧ ((c a).key ∈ listedKeys docs ↔ (c a).value ≠ []))

/-! The calls as they run. -/

/-- How far a call is. -/
inductive Phase where
  | asking
  | reading
  | holding (doc : Doc)
  | listed
  | done
  | failed
deriving DecidableEq

/-- What a call makes of the listing. -/
def change (key value : List Char) (keys : Doc) : Option Doc :=
  if value = [] then spliced key keys else pushed key keys

/-- From the listing on. -/
def update (key value : List Char) : Requests :=
  listAll fun keys =>
    match change key value keys with
    | none => .throw
    | some allKeys => .setDoc allKey allKeys (.setDoc (docName key) (.text value) .done)

namespace Phase

def requests (key value : List Char) : Phase → Requests
  | asking => get key fun old => if old = .text [] then .done else update key value
  | reading => update key value
  | holding doc => .setDoc allKey doc (.setDoc (docName key) (.text value) .done)
  | listed => .setDoc (docName key) (.text value) .done
  | done => .done
  | failed => .throw

def advance (key value : List Char) (docs : Docs) : Phase → Docs × Phase
  | asking => (docs, reading)
  | reading =>
    match change key value (listing (docs allKey)) with
    | none => (docs, failed)
    | some doc => (docs, holding doc)
  | holding doc => (Function.update docs allKey (some doc), listed)
  | listed => (Function.update docs (docName key) (some (.text value)), done)
  | done => (docs, done)
  | failed => (docs, failed)

def start (value : List Char) : Phase := if value = [] then asking else reading

theorem read_ne_empty (value : Option Doc) : read value ≠ .text [] := by
  unfold read
  split
  · decide
  · decide
  · rename_i doc hdoc
    intro heq
    exact hdoc (heq ▸ rfl)

/-- The phases take the steps of the requests. -/
theorem requests_step (key value : List Char) (docs : Docs) (phase : Phase) :
    (phase.requests key value).step docs =
      ((phase.advance key value docs).1, (phase.advance key value docs).2.requests key value) := by
  cases phase with
  | asking =>
    show (docs, if read (docs (docName (cropKey key))) = .text [] then .done else update key value) = _
    rw [if_neg (read_ne_empty _)]
    rfl
  | reading =>
    show (docs, match change key value (listing (docs allKey)) with
      | none => Requests.throw
      | some allKeys => .setDoc allKey allKeys (.setDoc (docName key) (.text value) .done)) = _
    unfold advance
    cases change key value (listing (docs allKey)) with
    | none => rfl
    | some doc => rfl
  | holding doc => rfl
  | listed => rfl
  | done => rfl
  | failed => rfl

theorem finished_requests {key value : List Char} {phase : Phase}
    (h : (phase.requests key value).Finished) : phase = done ∨ phase = failed := by
  cases phase with
  | done => exact Or.inl rfl
  | failed => exact Or.inr rfl
  | asking => exact absurd h id
  | reading => exact absurd h id
  | holding doc => exact absurd h id
  | listed => exact absurd h id

end Phase

theorem remove_eq (key : List Char) :
    PKID.remove key = Phase.asking.requests (cropKey key) [] := by
  unfold PKID.remove Phase.requests update change
  rfl

theorem Call.requests_eq (c : Call) :
    c.requests = (Phase.start c.value).requests c.key c.value := by
  cases c with
  | remove key => exact remove_eq key
  | set key value =>
    show PKID.set key value = (Phase.start value).requests (cropKey key) value
    unfold PKID.set Phase.start
    by_cases hvalue : value = []
    · rw [if_pos hvalue, if_pos hvalue, hvalue, remove_eq, cropKey_cropKey]
    · rw [if_neg hvalue, if_neg hvalue]
      have hchange : pushed (cropKey key) = change (cropKey key) value := by
        funext keys
        exact (if_neg hvalue).symm
      exact congrArg (fun push => listAll fun keys =>
        match push keys with
        | none => Requests.throw
        | some allKeys =>
          .setDoc allKey allKeys (.setDoc (docName (cropKey key)) (.text value) .done)) hchange

/-- The two calls, by their phases. -/
def phased (docs : Docs) (c : Bool → Call) (schedule : List Bool) : State Bool Docs Phase :=
  run (fun i => Phase.advance (c i).key (c i).value) ⟨docs, fun i => Phase.start (c i).value⟩ schedule

theorem interleaved_eq (docs : Docs) (c : Bool → Call) (schedule : List Bool) :
    interleaved docs c schedule =
      (phased docs c schedule).map fun i => Phase.requests (c i).key (c i).value := by
  have hstart : (⟨docs, fun i => (c i).requests⟩ : State Bool Docs Requests) =
      State.map (fun i => Phase.requests (c i).key (c i).value)
        ⟨docs, fun i => Phase.start (c i).value⟩ := by
    unfold State.map
    simp only [Call.requests_eq]
  unfold interleaved phased
  rw [hstart]
  apply run_map
  intro i docs phase
  exact phase.requests_step _ _ docs

/-- Where a call is after `n` steps alone. -/
def alone (docs : Docs) (c : Call) (n : Nat) : Phase :=
  (fun p => (Phase.advance c.key c.value docs p).2)^[n] (Phase.start c.value)

/-- Before its last reading step a call has not read the listing; with it, it holds what it will
write. -/
theorem alone_spec (docs : Docs) (c : Call) (n : Nat) :
    (n < c.reads → alone docs c n = .asking ∨ alone docs c n = .reading) ∧
      (n = c.reads → ∀ doc, change c.key c.value (listing (docs allKey)) = some doc →
        alone docs c n = .holding doc) := by
  have hread : ∀ doc, change c.key c.value (listing (docs allKey)) = some doc →
      (Phase.advance c.key c.value docs .reading).2 = .holding doc := by
    intro doc hdoc
    unfold Phase.advance
    rw [hdoc]
  unfold Call.reads alone Phase.start
  by_cases hvalue : c.value = []
  · rw [if_pos hvalue, if_pos hvalue]
    constructor
    · intro hn
      have hcases : n = 0 ∨ n = 1 := by omega
      rcases hcases with rfl | rfl
      · exact Or.inl rfl
      · exact Or.inr rfl
    · intro hn
      rw [hn]
      exact hread
  · rw [if_neg hvalue, if_neg hvalue]
    constructor
    · intro hn
      obtain rfl : n = 0 := Nat.lt_one_iff.mp hn
      exact Or.inr rfl
    · intro hn
      rw [hn]
      exact hread

section
variable {docs : Docs} {c : Bool → Call} {schedule : List Bool}

/-- As long as no call has written the listing, nothing has changed. -/
theorem phased_quiet (h : ∀ i, schedule.count i ≤ (c i).reads) :
    phased docs c schedule = ⟨docs, fun i => alone docs (c i) (schedule.count i)⟩ := by
  apply run_quiet fun i => (c i).reads
  · intro i n hn
    show (Phase.advance (c i).key (c i).value docs (alone docs (c i) n)).1 = docs
    rcases (alone_spec docs (c i) n).1 hn with hphase | hphase
    · rw [hphase]
      rfl
    · rw [hphase]
      show (match change (c i).key (c i).value (listing (docs allKey)) with
        | none => (docs, Phase.failed)
        | some doc => (docs, .holding doc)).1 = docs
      split <;> rfl
  · exact h

/-- What the listing will be once the call is over. -/
def foreseen (c : Call) (docs : Docs) : Phase → Option Doc
  | .asking => change c.key c.value (listing (docs allKey))
  | .reading => change c.key c.value (listing (docs allKey))
  | .holding doc => some doc
  | .listed => docs allKey
  | .done => docs allKey
  | .failed => none

/-- The call's own steps do not change what it will make of the listing. -/
theorem foreseen_advance {c : Call} (hname : docName c.key ≠ allKey) (docs : Docs) (phase : Phase) :
    foreseen c (phase.advance c.key c.value docs).1 (phase.advance c.key c.value docs).2 =
      foreseen c docs phase := by
  cases phase with
  | asking => rfl
  | reading =>
    unfold Phase.advance foreseen
    cases change c.key c.value (listing (docs allKey)) with
    | none => rfl
    | some doc => rfl
  | holding doc => exact Function.update_self allKey (some doc) docs
  | listed => exact Function.update_of_ne hname.symm (some (Doc.text c.value)) docs
  | done => rfl
  | failed => rfl

/-- The call has written the listing. -/
def Wrote (phase : Phase) : Prop := phase = .listed ∨ phase = .done

/-- When one call has written the listing, what the other one will make of it is decided. -/
theorem foreseen_step (hnames : ∀ i, docName (c i).key ≠ allKey) (a i : Bool)
    (s : State Bool Docs Phase) (h : Wrote (s.task a)) :
    Wrote ((step (fun i => Phase.advance (c i).key (c i).value) s i).task a) ∧
      foreseen (c !a) (step (fun i => Phase.advance (c i).key (c i).value) s i).shared
          ((step (fun i => Phase.advance (c i).key (c i).value) s i).task !a) =
        foreseen (c !a) s.shared (s.task !a) := by
  by_cases hi : i = a
  · subst hi
    have hother : (!i) ≠ i := by cases i <;> decide
    rw [step_task_self, step_task_of_ne hother]
    show Wrote (Phase.advance _ _ s.shared (s.task i)).2 ∧
      foreseen _ (Phase.advance _ _ s.shared (s.task i)).1 _ = _
    rcases h with h | h
    · rw [h]
      refine ⟨Or.inr rfl, ?_⟩
      -- the step writes the call's own document
      have hkeep : (Phase.advance (c i).key (c i).value s.shared .listed).1 allKey =
          s.shared allKey := by
        show Function.update s.shared (docName (c i).key) (some (Doc.text (c i).value)) allKey = _
        exact Function.update_of_ne (hnames i).symm _ _
      unfold foreseen
      rw [hkeep]
    · rw [h]
      exact ⟨Or.inr rfl, rfl⟩
  · obtain rfl : i = !a := Bool.eq_not.mpr hi
    have hother : a ≠ (!a) := by cases a <;> decide
    rw [step_task_self, step_task_of_ne hother]
    exact ⟨h, foreseen_advance (hnames !a) _ _⟩

/-- A call that is over has left its value, unless the other one left another value in its
document. -/
def LeftValues (c : Bool → Call) (s : State Bool Docs Phase) : Prop :=
  ∀ i, s.task i = .done → read (s.shared (docName (c i).key)) = (c i).readBack

theorem read_value (c : Call) : read (some (.text c.value)) = c.readBack := by
  unfold Call.readBack
  cases c.value with
  | nil => rfl
  | cons a v => rfl

theorem advance_done {c : Call} {docs : Docs} {phase : Phase}
    (h : (phase.advance c.key c.value docs).2 = .done) : phase = .listed ∨ phase = .done := by
  cases phase with
  | listed => exact Or.inl rfl
  | done => exact Or.inr rfl
  | reading =>
    unfold Phase.advance at h
    cases hchange : change c.key c.value (listing (docs allKey)) with
    | none =>
      rw [hchange] at h
      cases h
    | some doc =>
      rw [hchange] at h
      cases h
  | asking => cases h
  | holding doc => cases h
  | failed => cases h

theorem advance_doc {name : List Char} (hname : name ≠ allKey) (c : Call) (docs : Docs)
    (phase : Phase) : (phase.advance c.key c.value docs).1 name =
      if phase = .listed ∧ name = docName c.key then some (.text c.value) else docs name := by
  cases phase with
  | listed =>
    show Function.update docs (docName c.key) (some (.text c.value)) name = _
    rw [Function.update_apply]
    simp only [true_and]
  | holding doc =>
    show Function.update docs allKey (some doc) name = _
    rw [Function.update_of_ne hname]
    exact (if_neg fun h => nomatch h.1).symm
  | reading =>
    rw [if_neg fun h => nomatch h.1]
    unfold Phase.advance
    cases change c.key c.value (listing (docs allKey)) with
    | none => rfl
    | some doc => rfl
  | asking => exact (if_neg fun h => nomatch h.1).symm
  | done => exact (if_neg fun h => nomatch h.1).symm
  | failed => exact (if_neg fun h => nomatch h.1).symm

theorem leftValues_step (hapart : DocumentsApart c) (s : State Bool Docs Phase) (i : Bool)
    (h : LeftValues c s) :
    LeftValues c (step (fun i => Phase.advance (c i).key (c i).value) s i) := by
  have hsame : ∀ j, docName (c j).key = docName (c i).key → (c i).readBack = (c j).readBack := by
    intro j hj
    cases i <;> cases j
    · rfl
    · exact (hapart.2 hj).symm
    · exact hapart.2 hj.symm
    · rfl
  intro j hdone
  show read ((Phase.advance (c i).key (c i).value s.shared (s.task i)).1 (docName (c j).key)) = _
  rw [advance_doc (hapart.1 j)]
  by_cases hwritten : s.task i = .listed ∧ docName (c j).key = docName (c i).key
  · rw [if_pos hwritten, read_value, hsame j hwritten.2]
  · rw [if_neg hwritten]
    apply h j
    by_cases hj : j = i
    · subst hj
      rw [step_task_self] at hdone
      rcases advance_done hdone with hlisted | hdone
      · exact absurd ⟨hlisted, rfl⟩ hwritten
      · exact hdone
    · rw [step_task_of_ne hj] at hdone
      exact hdone

theorem phased_leftValues (hapart : DocumentsApart c) (docs : Docs) (schedule : List Bool) :
    LeftValues c (phased docs c schedule) := by
  apply run_inv (leftValues_step hapart)
  intro i hdone
  have hstart : Phase.start (c i).value = .done := hdone
  unfold Phase.start at hstart
  split at hstart
  · cases hstart
  · cases hstart

theorem lawful_key : LawfulBEq (List Char) := inferInstance

attribute [local instance] lawful_key in
/-- The keys that the call lists. -/
def changed (c : Call) (ks : List (List Char)) : List (List Char) :=
  if c.value = [] then ks.erase c.key else if c.key ∈ ks then ks else ks ++ [c.key]

/-- The keys that are read where these were written. -/
def relisted (ks : List (List Char)) : List (List Char) :=
  if [','].intercalate ks = missing then [] else ks

theorem change_keys (c : Call) (ks : List (List Char)) :
    change c.key c.value (.keys ks) = some (.keys (changed c ks)) := by
  unfold change changed
  split
  · rfl
  · rfl

theorem listing_keys (ks : List (List Char)) : listing (some (.keys ks)) = .keys (relisted ks) := by
  show (if [','].intercalate ks = missing then Doc.keys [] else .keys ks) = _
  unfold relisted
  split <;> rfl

/-- The listing after both calls: the later writer's change of what it read. -/
theorem listing_after {ks : List (List Char)} (hks : listing (docs allKey) = .keys ks)
    (hnames : ∀ i, docName (c i).key ≠ allKey) {before rest : List Bool} {a : Bool}
    (hfirst : before.count a = (c a).reads) (hother : before.count (!a) ≤ (c !a).reads)
    (hdone : ∀ i, ((interleaved docs c (before ++ [a] ++ rest)).task i).Finished) :
    (∀ i, (phased docs c (before ++ [a] ++ rest)).task i = .done) ∧
    (phased docs c (before ++ [a] ++ rest)).shared allKey =
      some (.keys (changed (c !a) (if before.count (!a) < (c !a).reads
        then relisted (changed (c a) ks) else ks))) := by
  have hchange : ∀ i, change (c i).key (c i).value (listing (docs allKey)) =
      some (.keys (changed (c i) ks)) := by
    intro i
    rw [hks, change_keys]
  have hne : (!a) ≠ a := by cases a <;> decide
  have hquiet : ∀ i, before.count i ≤ (c i).reads := by
    intro i
    by_cases hi : i = a
    · rw [hi, hfirst]
    · rw [Bool.eq_not.mpr hi]
      exact hother
  -- the first call to write the listing holds what it made of it
  have hholding := (alone_spec docs (c a) (before.count a)).2 hfirst _ (hchange a)
  let s : State Bool Docs Phase :=
    ⟨docs, fun i => alone docs (c i) (before.count i)⟩
  have hs : phased docs c before = s := phased_quiet hquiet
  let s₁ := step (fun i => Phase.advance (c i).key (c i).value) s a
  have hshared : s₁.shared = Function.update docs allKey (some (.keys (changed (c a) ks))) := by
    show (Phase.advance _ _ docs (alone docs (c a) (before.count a))).1 = _
    rw [hholding]
    rfl
  have hwrote : s₁.task a = .listed := by
    show (step _ s a).task a = _
    rw [step_task_self]
    show (Phase.advance _ _ docs (alone docs (c a) (before.count a))).2 = _
    rw [hholding]
    rfl
  have htask : s₁.task (!a) = alone docs (c !a) (before.count (!a)) := step_task_of_ne hne
  have hrun : phased docs c (before ++ [a] ++ rest) =
      run (fun i => Phase.advance (c i).key (c i).value) s₁ rest := by
    show run _ _ (before ++ [a] ++ rest) = _
    rw [run_append, run_append]
    show run _ (run _ (phased docs c before) [a]) rest = _
    rw [hs]
    rfl
  obtain ⟨hfinal, hforeseen⟩ := run_const
    (fun s => foreseen (c !a) s.shared (s.task !a)) (fun s => Wrote (s.task a))
    (fun s i => foreseen_step hnames a i s) (Or.inl hwrote : Wrote (s₁.task a)) rest
  rw [← hrun] at hfinal hforeseen
  have hseen : foreseen (c !a) s₁.shared (s₁.task !a) =
      some (.keys (changed (c !a) (if before.count (!a) < (c !a).reads
        then relisted (changed (c a) ks) else ks))) := by
    rw [htask, hshared]
    by_cases hearly : before.count (!a) < (c !a).reads
    · have hread : change (c !a).key (c !a).value (listing (Function.update docs allKey
          (some (.keys (changed (c a) ks))) allKey)) =
          some (.keys (changed (c !a) (relisted (changed (c a) ks)))) := by
        rw [Function.update_self, listing_keys, change_keys]
      rw [if_pos hearly]
      rcases (alone_spec docs (c !a) _).1 hearly with hphase | hphase
      · rw [hphase]
        exact hread
      · rw [hphase]
        exact hread
    · have hheld := (alone_spec docs (c !a) (before.count (!a))).2 (by omega) _ (hchange !a)
      rw [if_neg hearly, hheld]
      rfl
  have hover : ∀ i, (phased docs c (before ++ [a] ++ rest)).task i = .done ∨
      (phased docs c (before ++ [a] ++ rest)).task i = .failed := by
    intro i
    have hfinished := hdone i
    rw [interleaved_eq] at hfinished
    exact Phase.finished_requests hfinished
  have hlast : (phased docs c (before ++ [a] ++ rest)).task (!a) = .done := by
    rcases hover !a with hdone | hfailed
    · exact hdone
    · rw [hseen, hfailed] at hforeseen
      cases hforeseen
  constructor
  · intro i
    by_cases hi : i = a
    · rw [hi]
      rcases hover a with hdone | hfailed
      · exact hdone
      · rw [hfailed] at hfinal
        rcases hfinal with h | h
        · cases h
        · cases h
    · rw [Bool.eq_not.mpr hi]
      exact hlast
  · rw [hseen, hlast] at hforeseen
    exact hforeseen

end

/-! The keys that are listed. -/

section
variable {ks : List (List Char)} {c : Call}

theorem intercalate_eq_missing : [','].intercalate ks = missing ↔ ks = [missing] := by
  constructor
  · intro h
    match ks with
    | [] => exact absurd h (by decide)
    | [k] =>
      rw [List.intercalate_singleton] at h
      rw [h]
    | k :: k' :: rest =>
      rw [List.intercalate_cons_cons] at h
      have hcomma : ',' ∈ missing := by
        rw [← h]
        simp
      exact absurd hcomma (by decide)
  · intro h
    rw [h]
    rfl

theorem relisted_of_listing {value : Option Doc} (h : listing value = .keys ks) :
    relisted ks = ks := by
  unfold listing at h
  split at h
  · cases h
    rfl
  · rename_i hsome
    rw [h] at hsome
    exact if_neg hsome

theorem relisted_subset : relisted ks ⊆ ks := by
  unfold relisted
  split
  · exact List.nil_subset _
  · exact List.Subset.refl _

theorem relisted_nodup (h : ks.Nodup) : (relisted ks).Nodup := by
  unfold relisted
  split
  · exact List.nodup_nil
  · exact h

theorem changed_nodup (h : ks.Nodup) : (changed c ks).Nodup := by
  unfold changed
  split
  · exact h.erase _
  · split
    · exact h
    · rename_i hnew
      exact List.nodup_append.mpr ⟨h, List.nodup_singleton _, by
        intro k hk k' hk' heq
        rw [List.mem_singleton.mp hk'] at heq
        exact hnew (heq ▸ hk)⟩

theorem mem_changed_self (h : ks.Nodup) : c.key ∈ changed c ks ↔ c.value ≠ [] := by
  unfold changed
  by_cases hvalue : c.value = []
  · rw [if_pos hvalue]
    exact iff_of_false h.not_mem_erase (fun hne => hne hvalue)
  · rw [if_neg hvalue]
    refine iff_of_true ?_ hvalue
    split
    · assumption
    · exact List.mem_append_right _ (List.mem_singleton_self _)

theorem mem_changed_of_ne {k : List Char} (hk : k ≠ c.key) : k ∈ changed c ks ↔ k ∈ ks := by
  unfold changed
  split
  · exact List.mem_erase_of_ne hk
  · split
    · rfl
    · rw [List.mem_append, List.mem_singleton]
      exact or_iff_left hk

/-- A change is lost on the next reader only when it lists `""` alone. -/
theorem mem_relisted_iff (hlist : relisted ks = ks) (h : ks.Nodup) :
    (c.key ∈ relisted (changed c ks) ↔ c.value ≠ []) ↔
      ¬(c.value ≠ [] ∧ c.key = missing ∧ ks = []) := by
  by_cases hvalue : c.value = []
  · refine iff_of_true (iff_of_false ?_ fun hne => hne hvalue) fun hall => hall.1 hvalue
    intro hin
    exact (mem_changed_self h).mp (relisted_subset hin) hvalue
  · have hself := (mem_changed_self (c := c) h).mpr hvalue
    by_cases halone : changed c ks = [missing]
    · have hkey : c.key = missing := by
        rw [halone] at hself
        exact List.mem_singleton.mp hself
      have hempty : ks = [] := by
        unfold changed at halone
        rw [if_neg hvalue] at halone
        split at halone
        · rename_i hin
          rw [halone] at hlist
          exact absurd hlist (by decide)
        · rw [hkey] at halone
          exact List.append_left_eq_self.mp halone
      have hnone : relisted (changed c ks) = [] := by
        rw [halone]
        rfl
      rw [hnone]
      exact iff_of_false (fun hiff => List.not_mem_nil (hiff.mpr hvalue))
        (fun hnot => hnot ⟨hvalue, hkey, hempty⟩)
    · have hsame : relisted (changed c ks) = changed c ks :=
        if_neg fun hjoin => halone (intercalate_eq_missing.mp hjoin)
      rw [hsame]
      refine iff_of_true (iff_of_true hself hvalue) ?_
      intro hall
      apply halone
      unfold changed
      rw [if_neg hvalue, hall.2.2, hall.2.1]
      rfl

end

section
variable {docs : Docs} {c : Bool → Call} {schedule : List Bool}

theorem interleaved_shared :
    (interleaved docs c schedule).shared = (phased docs c schedule).shared := by
  rw [interleaved_eq]
  rfl

/-- A call that is kept has its document for itself. -/
theorem documentsApart_of_kept {docs : Docs} (hset : ∃ i, (c i).value ≠ [])
    (h : ∀ i, Kept docs (c i)) : DocumentsApart c := by
  constructor
  · intro i hname
    obtain ⟨j, hj⟩ := hset
    obtain ⟨ks, hks, -⟩ := (h j).2.mpr hj
    have hread := (h i).1
    rw [hname, hks] at hread
    cases hread
  · intro hsame
    have htrue := (h true).1
    have hfalse := (h false).1
    rw [hsame] at htrue
    exact htrue.symm.trans hfalse

/-- A call writes the listing. -/
theorem exists_first_write {ks : List (List Char)} (hks : listing (docs allKey) = .keys ks)
    (hdone : ∀ i, ((interleaved docs c schedule).task i).Finished) :
    ∃ before a, before ++ [a] <+: schedule ∧ before.count a = (c a).reads ∧
      before.count (!a) ≤ (c !a).reads := by
  rcases exists_first_over (fun i => (c i).reads) schedule with hquiet | hfirst
  · have hover := hdone true
    rw [interleaved_eq, phased_quiet hquiet] at hover
    have hphase := Phase.finished_requests hover
    change alone docs (c true) _ = _ ∨ alone docs (c true) _ = _ at hphase
    obtain ⟨hearly, hheld⟩ := alone_spec docs (c true) (schedule.count true)
    rcases Nat.lt_or_eq_of_le (hquiet true) with hlt | heq
    · rcases hearly hlt with h | h <;> rw [h] at hphase <;> simp at hphase
    · have hchange : change (c true).key (c true).value (listing (docs allKey)) =
          some (.keys (changed (c true) ks)) := by
        rw [hks, change_keys]
      rw [hheld heq _ hchange] at hphase
      simp at hphase
  · obtain ⟨before, a, hpre, hcount, hall⟩ := hfirst
    exact ⟨before, a, hpre, hcount, hall (!a)⟩

/-- Whether both calls are kept is decided by the first one to write the listing. -/
theorem kept_iff_first {ks : List (List Char)} (hks : listing (docs allKey) = .keys ks)
    (hnodup : ks.Nodup) (hkeys : (c true).key ≠ (c false).key) (hapart : DocumentsApart c)
    (hdone : ∀ i, ((interleaved docs c schedule).task i).Finished) {before : List Bool} {a : Bool}
    (hpre : before ++ [a] <+: schedule) (hfirst : before.count a = (c a).reads)
    (hother : before.count (!a) ≤ (c !a).reads) :
    (∀ i, Kept (interleaved docs c schedule).shared (c i)) ↔
      (before.count (!a) < (c !a).reads ∧
          ¬((c a).value ≠ [] ∧ (c a).key = missing ∧ ks = [])) ∨
        (before.count (!a) = (c !a).reads ∧ ((c a).key ∈ ks ↔ (c a).value ≠ [])) := by
  obtain ⟨rest, rfl⟩ := hpre
  obtain ⟨htasks, hfinal⟩ := listing_after hks hapart.1 hfirst hother hdone
  have hvalues := phased_leftValues hapart docs (before ++ [a] ++ rest)
  have hne : (c a).key ≠ (c !a).key := by
    cases a
    · exact hkeys.symm
    · exact hkeys
  have hseen : (if before.count (!a) < (c !a).reads then relisted (changed (c a) ks)
      else ks).Nodup := by
    split
    · exact relisted_nodup (changed_nodup hnodup)
    · exact hnodup
  have hlisted : ∀ key, Listed (phased docs c (before ++ [a] ++ rest)).shared key ↔
      key ∈ changed (c !a) (if before.count (!a) < (c !a).reads
        then relisted (changed (c a) ks) else ks) := by
    intro key
    unfold Listed
    rw [hfinal]
    constructor
    · intro h
      obtain ⟨ks', hks', hkey⟩ := h
      cases hks'
      exact hkey
    · exact fun h => ⟨_, rfl, h⟩
  have hkept : (∀ i, Kept (phased docs c (before ++ [a] ++ rest)).shared (c i)) ↔
      (Listed (phased docs c (before ++ [a] ++ rest)).shared (c a).key ↔ (c a).value ≠ []) := by
    constructor
    · exact fun h => (h a).2
    · intro h i
      refine ⟨hvalues i (htasks i), ?_⟩
      by_cases hi : i = a
      · rw [hi]
        exact h
      · rw [Bool.eq_not.mpr hi, hlisted, mem_changed_self hseen]
  rw [interleaved_shared, hkept, hlisted, mem_changed_of_ne hne]
  by_cases hearly : before.count (!a) < (c !a).reads
  · rw [if_pos hearly, mem_relisted_iff (relisted_of_listing hks) hnodup]
    constructor
    · exact fun h => Or.inl ⟨hearly, h⟩
    · intro h
      rcases h with h | h
      · exact h.2
      · exact absurd h.1 (Nat.ne_of_lt hearly)
  · rw [if_neg hearly]
    constructor
    · exact fun h => Or.inr ⟨by omega, h⟩
    · intro h
      rcases h with h | h
      · exact absurd h.1 hearly
      · exact h.2

/-- Two calls for different keys, at least one of which sets its key, are both kept exactly when
their documents are apart and no change of the listing is lost. -/
theorem calls_kept_iff (hdocs : WellListed docs) (hkeys : (c true).key ≠ (c false).key)
    (hset : ∃ i, (c i).value ≠ [])
    (hdone : ∀ i, ((interleaved docs c schedule).task i).Finished) :
    (∀ i, Kept (interleaved docs c schedule).shared (c i)) ↔
      DocumentsApart c ∧ ListingSafe docs c schedule := by
  obtain ⟨ks, hks, hnodup⟩ := hdocs
  have hlistedKeys : listedKeys docs = ks := by
    unfold listedKeys
    rw [hks]
  unfold ListingSafe
  rw [hlistedKeys]
  constructor
  · intro h
    have hapart := documentsApart_of_kept hset h
    refine ⟨hapart, ?_⟩
    intro a before hpre hfirst hother
    exact (kept_iff_first hks hnodup hkeys hapart hdone hpre hfirst hother).mp h
  · intro h
    obtain ⟨hapart, hsafe⟩ := h
    obtain ⟨before, a, hpre, hfirst, hother⟩ := exists_first_write hks hdone
    exact (kept_iff_first hks hnodup hkeys hapart hdone hpre hfirst hother).mpr
      (hsafe a before hpre hfirst hother)

end

/-- Two keys are set. -/
def twoSets : Bool → Call
  | true => .set ['a'] ['x']
  | false => .set ['b'] ['y']

theorem twoSets_kept_in_turn :
    Kept (interleaved (fun _ => none) twoSets [true, true, true, false, false, false]).shared
        (.set ['a'] ['x']) ∧
      Kept (interleaved (fun _ => none) twoSets [true, true, true, false, false, false]).shared
        (.set ['b'] ['y']) := by
  have hdone : ∀ i, ((interleaved (fun _ => none) twoSets
      [true, true, true, false, false, false]).task i).Finished := by
    intro i
    cases i
    · exact trivial
    · exact trivial
  suffices hkept : ∀ i, Kept (interleaved (fun _ => none) twoSets
      [true, true, true, false, false, false]).shared (twoSets i) from ⟨hkept true, hkept false⟩
  apply (calls_kept_iff ⟨[], rfl, List.nodup_nil⟩ (by decide) ⟨true, by decide⟩ hdone).mpr
  refine ⟨⟨by decide, by decide⟩, ?_⟩
  intro a before hpre hfirst hother
  have hinits : ∀ l ∈ [true, true, true, false, false, false].inits, ∀ a, l.getLast? = some a →
      l.dropLast.count a = (twoSets a).reads → l.dropLast.count (!a) ≤ (twoSets !a).reads →
      l.dropLast.count (!a) < (twoSets !a).reads := by decide
  have hlast := hinits (before ++ [a]) ((List.mem_inits _ _).mpr hpre) a List.getLast?_concat
  rw [List.dropLast_concat] at hlast
  refine Or.inl ⟨hlast hfirst hother, ?_⟩
  intro h
  cases a
  · exact absurd h.2.1 (by decide)
  · exact absurd h.2.1 (by decide)

/-- Both read the listing before either writes it. -/
theorem twoSets_lost :
    (∀ i, ((interleaved (fun _ => none) twoSets
      [true, false, true, false, true, false]).task i).Finished) ∧
    (interleaved (fun _ => none) twoSets [true, false, true, false, true, false]).shared allKey =
      some (.keys [['b']]) ∧
    ¬Kept (interleaved (fun _ => none) twoSets [true, false, true, false, true, false]).shared
      (twoSets true) := by
  have hfinal : (interleaved (fun _ => none) twoSets
      [true, false, true, false, true, false]).shared allKey = some (.keys [['b']]) := rfl
  refine ⟨?_, hfinal, ?_⟩
  · intro i
    cases i
    · exact trivial
    · exact trivial
  · intro h
    obtain ⟨ks, hks, hin⟩ := h.2.mpr (by decide)
    rw [hfinal] at hks
    cases hks
    exact absurd hin (by decide)

end PKID

end ThreefoldSdk.Storage
