import ThreefoldSdk.TfChain.BatchEffects
import ThreefoldSdk.TfChain.Ledger

/-! The name contracts of a twin, and what batches of creations and cancellations do to them. -/

namespace ThreefoldSdk.TfChain
open Staged

/-- `contractType.nameContract.name`. -/
def ContractType.name : ContractType → Option String
  | nameContract n => some n
  | _ => none

section
variable {S : Type} (chain : Chain S) (twinId : Nat)

/-- The name of the contract, when it is a name contract. -/
def nameAt (s : S) (id : Nat) : Option String := (chain.contract s id).bind (·.contractType.name)

/-- What the chain says of name contracts: the lookup by name finds the one contract of the name,
and a name that is free goes to the twin that asks. -/
structure NameRegistry : Prop where
  lookup : ∀ s name id, chain.contractIdByName s name = id ∧ id ≠ 0 ↔ nameAt chain s id = some name
  free : ∀ s s' evs name, chain.runtime.exec (.createNameContract name) s = some (s', evs) →
    chain.contractIdByName s name = 0
  owner : ∀ s s' evs name, chain.runtime.exec (.createNameContract name) s = some (s', evs) →
    ∀ c, chain.contract s' (chain.contractIdByName s' name) = some c → c.twinId = twinId

/-- The twin holds the name in this contract. -/
def HoldsAt (s : S) (id : Nat) (name : String) : Prop :=
  ∃ c, chain.contract s id = some c ∧ c.twinId = twinId ∧ c.contractType.name = some name

def Holds (s : S) (name : String) : Prop := ∃ id, HoldsAt chain twinId s id name

/-- There is one name contract of the twin for each of the names, and no other one. -/
structure HoldsExactly (s : S) (names : List String) : Prop where
  nodup : names.Nodup
  iff : ∀ name, Holds chain twinId s name ↔ name ∈ names

/-- The names that a batch asks for. -/
def namesOf (calls : List Call) : List String :=
  calls.filterMap fun call =>
    match call with
    | .createNameContract name => some name
    | _ => none

/-- The names whose contracts a batch cancels. -/
def canceledNames (s : S) (calls : List Call) : List String :=
  calls.filterMap fun call =>
    match call with
    | .cancelContract id => nameAt chain s id
    | _ => none

end

section
variable {S : Type} {chain : Chain S} {twinId : Nat}

theorem HoldsAt.nameAt {s : S} {id : Nat} {name : String} (h : HoldsAt chain twinId s id name) :
    nameAt chain s id = some name := by
  obtain ⟨c, hc, -, hname⟩ := h
  unfold TfChain.nameAt
  rw [hc]
  exact hname

theorem HoldsAt.exists {s : S} {id : Nat} {name : String} (h : HoldsAt chain twinId s id name) :
    chain.contract s id ≠ none := by
  obtain ⟨c, hc, -⟩ := h
  rw [hc]
  exact Option.some_ne_none c

/-- The lookup finds the contract that holds a name. -/
theorem HoldsAt.lookup (reg : NameRegistry chain twinId) {s : S} {id : Nat} {name : String}
    (h : HoldsAt chain twinId s id name) : chain.contractIdByName s name = id :=
  ((reg.lookup s name id).mpr h.nameAt).1

/-- A contract that is written under a free id. -/
theorem holdsAt_update_free {s s' : S} {c : Contract} (hfree : chain.contract s c.contractId = none)
    (hs' : chain.contract s' = Function.update (chain.contract s) c.contractId (some c)) (id : Nat)
    (name : String) : HoldsAt chain twinId s' id name ↔ HoldsAt chain twinId s id name ∨
      id = c.contractId ∧ c.twinId = twinId ∧ c.contractType.name = some name := by
  unfold HoldsAt
  rw [hs']
  by_cases hid : id = c.contractId
  · subst hid
    rw [Function.update_self, hfree]
    constructor
    · intro h
      obtain ⟨d, hd, htwin, hname⟩ := h
      rw [← Option.some.inj hd] at htwin hname
      exact Or.inr ⟨rfl, htwin, hname⟩
    · intro h
      rcases h with ⟨d, hd, -⟩ | ⟨-, htwin, hname⟩
      · cases hd
      · exact ⟨c, rfl, htwin, hname⟩
  · rw [Function.update_of_ne hid]
    constructor
    · exact Or.inl
    · intro h
      rcases h with h | ⟨h, -⟩
      · exact h
      · exact absurd h hid

/-- What one creation or update does to the names: the contracts that are there keep theirs, and a
name that is created was free. -/
theorem exec_makes_holdsAt (reg : NameRegistry chain twinId) {call : Call} {s s' : S}
    {evs : List (Event Primitive)} (hmakes : Makes call)
    (h : chain.runtime.exec call s = some (s', evs)) :
    (∀ id, chain.contract s id ≠ none → chain.contract s' id ≠ none ∧
      ∀ name, HoldsAt chain twinId s' id name ↔ HoldsAt chain twinId s id name) ∧
    (∀ name, Holds chain twinId s' name ↔ Holds chain twinId s name ∨ name ∈ namesOf [call]) ∧
    ∀ name ∈ namesOf [call], ¬Holds chain twinId s name := by
  cases hmakes with
  | createNode nodeId hash data ips sp =>
    obtain ⟨c, -, hfree, htype, hs'⟩ := chain.exec_createNode _ _ _ _ _ _ _ _ h
    have hholds : ∀ id name, HoldsAt chain twinId s' id name ↔ HoldsAt chain twinId s id name := by
      intro id name
      rw [holdsAt_update_free hfree hs', htype]
      exact or_iff_left fun hnew => nomatch hnew.2.2
    refine ⟨fun id hid => ⟨?_, hholds id⟩, fun name => ?_, fun name hname => absurd hname List.not_mem_nil⟩
    · have hne : id ≠ c.contractId := fun heq => hid (heq ▸ hfree)
      rw [hs', Function.update_of_ne hne]
      exact hid
    · have hsame : Holds chain twinId s' name ↔ Holds chain twinId s name :=
        exists_congr fun id => hholds id name
      rw [hsame]
      exact (or_iff_left List.not_mem_nil).symm
  | updateNode id hash data =>
    obtain ⟨c, n, hc, htype, -, hs'⟩ := chain.exec_updateNode _ _ _ _ _ _ h
    have hholds : ∀ i name, HoldsAt chain twinId s' i name ↔ HoldsAt chain twinId s i name := by
      intro i name
      unfold HoldsAt
      rw [hs']
      by_cases hi : i = id
      · -- neither the old contract nor the new one is a name contract
        subst hi
        rw [Function.update_self, hc]
        constructor
        · intro h
          obtain ⟨d, hd, -, hname⟩ := h
          rw [← Option.some.inj hd, Contract.withDeployment, htype] at hname
          cases hname
        · intro h
          obtain ⟨d, hd, -, hname⟩ := h
          rw [← Option.some.inj hd, htype] at hname
          cases hname
      · rw [Function.update_of_ne hi]
    refine ⟨fun i hi => ⟨?_, hholds i⟩, fun name => ?_, fun name hname => absurd hname List.not_mem_nil⟩
    · rw [hs']
      by_cases heq : i = id
      · subst heq
        rw [Function.update_self]
        exact Option.some_ne_none _
      · rw [Function.update_of_ne heq]
        exact hi
    · have hsame : Holds chain twinId s' name ↔ Holds chain twinId s name :=
        exists_congr fun i => hholds i name
      rw [hsame]
      exact (or_iff_left List.not_mem_nil).symm
  | createName name =>
    obtain ⟨c, -, hfree, htype, hs'⟩ := chain.exec_createName _ _ _ _ h
    have hat : chain.contract s' c.contractId = some c := by rw [hs', Function.update_self]
    have hname : c.contractType.name = some name := by
      rw [htype]
      rfl
    have htwin : c.twinId = twinId := by
      have hnameAt : nameAt chain s' c.contractId = some name := by
        unfold nameAt
        rw [hat]
        exact hname
      have hlookup := ((reg.lookup s' name c.contractId).mpr hnameAt).1
      exact reg.owner s s' evs name h c (hlookup.symm ▸ hat)
    refine ⟨fun id hid => ?_, fun n => ?_, fun n hn hholds => ?_⟩
    · have hne : id ≠ c.contractId := fun heq => hid (heq ▸ hfree)
      constructor
      · rw [hs', Function.update_of_ne hne]
        exact hid
      · intro n
        rw [holdsAt_update_free hfree hs']
        exact or_iff_left fun hnew => hne hnew.1
    · unfold Holds
      constructor
      · intro h'
        obtain ⟨id, hid⟩ := h'
        rcases (holdsAt_update_free hfree hs' id n).mp hid with hold | ⟨-, -, hnew⟩
        · exact Or.inl ⟨id, hold⟩
        · rw [hname] at hnew
          exact Or.inr (List.mem_singleton.mpr (Option.some.inj hnew).symm)
      · intro h'
        rcases h' with ⟨id, hold⟩ | hnew
        · exact ⟨id, (holdsAt_update_free hfree hs' id n).mpr (Or.inl hold)⟩
        · refine ⟨c.contractId, (holdsAt_update_free hfree hs' _ n).mpr (Or.inr ⟨rfl, htwin, ?_⟩)⟩
          rw [hname, List.mem_singleton.mp hnew]
    · obtain ⟨id, hid⟩ := hholds
      have heq : n = name := List.mem_singleton.mp hn
      subst heq
      have hzero := reg.free s s' evs n h
      have hfound := (reg.lookup s n id).mpr hid.nameAt
      exact hfound.2 (hfound.1.symm.trans hzero)

theorem namesOf_cons (call : Call) (calls : List Call) :
    namesOf (call :: calls) = namesOf [call] ++ namesOf calls := by
  show namesOf ([call] ++ calls) = _
  exact List.filterMap_append

/-- A batch of creations and updates: the contracts that are there keep their names, and each
created name is a new one. -/
theorem execAll_makes_holds (reg : NameRegistry chain twinId) {calls : List Call} {s s' : S}
    {evs : List (Event Primitive)} (hmakes : ∀ call ∈ calls, Makes call)
    (h : chain.runtime.execAll calls s = some (s', evs)) :
    (∀ id, chain.contract s id ≠ none →
      ∀ name, HoldsAt chain twinId s' id name ↔ HoldsAt chain twinId s id name) ∧
    (∀ name, Holds chain twinId s' name ↔ Holds chain twinId s name ∨ name ∈ namesOf calls) ∧
    (namesOf calls).Nodup ∧ ∀ name ∈ namesOf calls, ¬Holds chain twinId s name := by
  induction calls generalizing s evs with
  | nil =>
    cases h
    exact ⟨fun _ _ _ => Iff.rfl, fun _ => (or_iff_left List.not_mem_nil).symm, List.nodup_nil,
      fun _ hname => nomatch hname⟩
  | cons call calls ih =>
    obtain ⟨s₁, evs₁, evs₂, hcall, hrest, -⟩ := execAll_cons h
    obtain ⟨hkeep, hone, hnew⟩ := exec_makes_holdsAt reg (hmakes call List.mem_cons_self) hcall
    obtain ⟨hkeeps, hall, hnodup, hnews⟩ :=
      ih (fun c hc => hmakes c (List.mem_cons_of_mem _ hc)) hrest
    rw [namesOf_cons]
    refine ⟨fun id hid name => ?_, fun name => ?_, ?_, fun name hname => ?_⟩
    · rw [hkeeps id (hkeep id hid).1, (hkeep id hid).2]
    · rw [hall, hone, List.mem_append, or_assoc]
    · rw [List.nodup_append]
      refine ⟨?_, hnodup, ?_⟩
      · cases call <;> first | exact List.nodup_nil | exact List.nodup_singleton _
      · intro a ha b hb hab
        exact hnews b hb ((hone b).mpr (Or.inr (hab ▸ ha)))
    · rcases List.mem_append.mp hname with hname | hname
      · exact hnew name hname
      · intro hheld
        exact hnews name hname ((hone name).mpr (Or.inl hheld))

theorem execAll_cancels_holdsAt {ids : List Nat} {s s' : S} {evs : List (Event Primitive)}
    (h : chain.runtime.execAll (ids.map Call.cancelContract) s = some (s', evs)) (id : Nat)
    (name : String) :
    HoldsAt chain twinId s' id name ↔ HoldsAt chain twinId s id name ∧ id ∉ ids := by
  induction ids generalizing s evs with
  | nil =>
    cases h
    exact (and_iff_left List.not_mem_nil).symm
  | cons i ids ih =>
    obtain ⟨s₁, evs₁, evs₂, hcall, hrest, -⟩ := execAll_cons h
    obtain ⟨c, e, -, -, -, -, hs₁⟩ := chain.exec_cancel _ _ _ _ hcall
    rw [ih hrest, List.mem_cons, not_or]
    unfold HoldsAt
    rw [hs₁]
    by_cases hid : id = i
    · subst hid
      rw [Function.update_self]
      constructor
      · intro h
        obtain ⟨⟨d, hd, -⟩, -⟩ := h
        cases hd
      · intro h
        exact absurd rfl h.2.1
    · rw [Function.update_of_ne hid]
      constructor
      · intro h
        exact ⟨h.1, hid, h.2⟩
      · intro h
        exact ⟨h.1, h.2.2⟩

/-- A batch of creations and then one of cancellations: the twin holds the names it created, and
those it held and did not cancel. -/
theorem holdsExactly_after (reg : NameRegistry chain twinId) {s s' s'' : S} {calls : List Call}
    {ids : List Nat} {kept gone : List String} {evs evs' : List (Event Primitive)}
    (hbefore : HoldsExactly chain twinId s (kept ++ gone)) (hmakes : ∀ call ∈ calls, Makes call)
    (hids : ∀ id ∈ ids, chain.contract s id ≠ none)
    (hgone : ∀ name ∈ gone, chain.contractIdByName s name ∈ ids)
    (hkept : ∀ name ∈ kept, chain.contractIdByName s name ∉ ids)
    (hcreate : chain.runtime.execAll calls s = some (s', evs))
    (hcancel : chain.runtime.execAll (ids.map Call.cancelContract) s' = some (s'', evs')) :
    HoldsExactly chain twinId s'' (kept ++ namesOf calls) := by
  obtain ⟨hkeeps, hall, hnodup, hnew⟩ := execAll_makes_holds reg hmakes hcreate
  have hheld : ∀ name ∈ kept, Holds chain twinId s name := fun name hname =>
    (hbefore.iff name).mpr (List.mem_append_left _ hname)
  constructor
  · rw [List.nodup_append]
    refine ⟨(List.nodup_append.mp hbefore.nodup).1, hnodup, ?_⟩
    intro a ha b hb hab
    exact hnew b hb (hheld b (hab ▸ ha))
  · intro name
    constructor
    · intro h
      obtain ⟨id, hid⟩ := h
      obtain ⟨hid', hnot⟩ := (execAll_cancels_holdsAt hcancel id name).mp hid
      rcases (hall name).mp ⟨id, hid'⟩ with hold | hcreated
      · obtain ⟨id₀, hid₀⟩ := hold
        have hsame : id₀ = id := by
          rw [← ((hkeeps id₀ hid₀.exists name).mpr hid₀).lookup reg, hid'.lookup reg]
        rcases List.mem_append.mp ((hbefore.iff name).mp ⟨id₀, hid₀⟩) with h | h
        · exact List.mem_append_left _ h
        · have hcancelled := hgone name h
          rw [hid₀.lookup reg, hsame] at hcancelled
          exact absurd hcancelled hnot
      · exact List.mem_append_right _ hcreated
    · intro h
      rcases List.mem_append.mp h with h | h
      · obtain ⟨id, hid⟩ := hheld name h
        have hnot := hkept name h
        rw [hid.lookup reg] at hnot
        have hid' := (hkeeps id hid.exists name).mpr hid
        exact ⟨id, (execAll_cancels_holdsAt hcancel id name).mpr ⟨hid', hnot⟩⟩
      · obtain ⟨id, hid'⟩ := (hall name).mpr (Or.inr h)
        refine ⟨id, (execAll_cancels_holdsAt hcancel id name).mpr ⟨hid', fun hmem => ?_⟩⟩
        exact hnew name h ⟨id, (hkeeps id (hids id hmem) name).mp hid'⟩

end

end ThreefoldSdk.TfChain
