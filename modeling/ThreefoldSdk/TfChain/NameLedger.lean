import ThreefoldSdk.TfChain.NameRegistry

/-! The table of contracts as a registry of names: it does not give a name away twice. -/

namespace ThreefoldSdk.TfChain
open Staged

/-- The contract with this name. -/
def Ledger.idByName (l : Ledger) (name : String) : Nat :=
  ((List.range l.next).find? fun id =>
    decide ((l.contract id).bind (·.contractType.name) = some name)).getD 0

/-- No two contracts have one name. -/
structure NameLedger where
  ledger : Ledger
  unique : ∀ id id' name, (ledger.contract id).bind (·.contractType.name) = some name →
    (ledger.contract id').bind (·.contractType.name) = some name → id = id'

theorem Ledger.named_lt {l : Ledger} {id : Nat} {name : String}
    (h : (l.contract id).bind (·.contractType.name) = some name) : id < l.next ∧ id ≠ 0 := by
  cases hc : l.contract id with
  | none =>
    rw [hc] at h
    cases h
  | some c =>
    refine ⟨?_, (l.contract_id id c hc).2⟩
    by_contra hle
    rw [l.free id (Nat.le_of_not_lt hle)] at hc
    cases hc

theorem NameLedger.idByName_iff (l : NameLedger) (name : String) (id : Nat) :
    l.ledger.idByName name = id ∧ id ≠ 0 ↔
      (l.ledger.contract id).bind (·.contractType.name) = some name := by
  unfold Ledger.idByName
  cases hfind : (List.range l.ledger.next).find? fun id =>
      decide ((l.ledger.contract id).bind (·.contractType.name) = some name) with
  | none =>
    constructor
    · intro h
      exact absurd h.1.symm h.2
    · intro h
      have hrange := List.mem_range.mpr (Ledger.named_lt h).1
      exact absurd (decide_eq_true h) (List.find?_eq_none.mp hfind id hrange)
  | some found =>
    have hname : (l.ledger.contract found).bind (·.contractType.name) = some name :=
      of_decide_eq_true (List.find?_some (p := fun id =>
        decide ((l.ledger.contract id).bind (·.contractType.name) = some name)) hfind)
    constructor
    · intro h
      rw [← h.1]
      exact hname
    · intro h
      exact ⟨l.unique _ _ _ hname h, (Ledger.named_lt h).2⟩

namespace NameLedger

/-- Only the creation of a name contract may be refused for its name. -/
def grants (l : NameLedger) : Call → Prop
  | .createNameContract name => l.ledger.idByName name = 0
  | _ => True

instance (l : NameLedger) : DecidablePred l.grants
  | .createNameContract name => inferInstanceAs (Decidable (l.ledger.idByName name = 0))
  | .createNodeContract .. => isTrue trivial
  | .updateNodeContract .. => isTrue trivial
  | .cancelContract _ => isTrue trivial

theorem not_named {l : NameLedger} {name : String} (h : l.ledger.idByName name = 0) (id : Nat) :
    (l.ledger.contract id).bind (·.contractType.name) ≠ some name := by
  intro hname
  obtain ⟨heq, hne⟩ := (l.idByName_iff name id).mpr hname
  exact hne (heq.symm.trans h)

/-- A call that is granted leaves the names unique: the contract it writes has none, or a free
one. -/
theorem unique_after {l : NameLedger} {call : Call} {l' : Ledger} {evs : List (Event Primitive)}
    (hgrants : l.grants call) (h : l.ledger.exec call = some (l', evs)) (id id' : Nat) (name : String)
    (hid : (l'.contract id).bind (·.contractType.name) = some name)
    (hid' : (l'.contract id').bind (·.contractType.name) = some name) : id = id' := by
  have hwritten : ∃ at_ : Nat, (∀ i, i ≠ at_ → l'.contract i = l.ledger.contract i) ∧
      ∀ n, (l'.contract at_).bind (·.contractType.name) = some n → l.ledger.idByName n = 0 := by
    cases call with
    | createNodeContract nodeId hash data ips sp =>
      obtain ⟨c, -, -, htype, hc⟩ := ledgerChain.exec_createNode _ _ _ _ _ _ _ _ h
      have hc : l'.contract = Function.update l.ledger.contract c.contractId (some c) := hc
      refine ⟨c.contractId, fun i hi => by rw [hc, Function.update_of_ne hi], fun n hn => ?_⟩
      rw [hc, Function.update_self, Option.bind_some, htype] at hn
      cases hn
    | updateNodeContract i hash data =>
      obtain ⟨c, n, -, htype, -, hc⟩ := ledgerChain.exec_updateNode _ _ _ _ _ _ h
      have hc : l'.contract =
        Function.update l.ledger.contract i (some (c.withDeployment hash data)) := hc
      refine ⟨i, fun j hj => by rw [hc, Function.update_of_ne hj], fun m hm => ?_⟩
      rw [hc, Function.update_self, Option.bind_some, Contract.withDeployment, htype] at hm
      cases hm
    | createNameContract n =>
      obtain ⟨c, -, -, htype, hc⟩ := ledgerChain.exec_createName _ _ _ _ h
      have hc : l'.contract = Function.update l.ledger.contract c.contractId (some c) := hc
      refine ⟨c.contractId, fun i hi => by rw [hc, Function.update_of_ne hi], fun m hm => ?_⟩
      rw [hc, Function.update_self, Option.bind_some, htype] at hm
      rw [← Option.some.inj hm]
      exact hgrants
    | cancelContract i =>
      obtain ⟨c, e, -, -, -, -, hc⟩ := ledgerChain.exec_cancel _ _ _ _ h
      have hc : l'.contract = Function.update l.ledger.contract i none := hc
      refine ⟨i, fun j hj => by rw [hc, Function.update_of_ne hj], fun m hm => ?_⟩
      rw [hc, Function.update_self] at hm
      cases hm
  obtain ⟨i, hsame, hfree⟩ := hwritten
  by_cases h₁ : id = i
  · by_cases h₂ : id' = i
    · rw [h₁, h₂]
    · rw [hsame id' h₂] at hid'
      exact absurd hid' (not_named (hfree name (h₁ ▸ hid)) id')
  · by_cases h₂ : id' = i
    · rw [hsame id h₁] at hid
      exact absurd hid (not_named (hfree name (h₂ ▸ hid')) id)
    · rw [hsame id h₁] at hid
      rw [hsame id' h₂] at hid'
      exact l.unique id id' name hid hid'

def exec (call : Call) (l : NameLedger) : Option (NameLedger × List (Event Primitive)) :=
  if hgrants : l.grants call then
    match h : l.ledger.exec call with
    | none => none
    | some (l', evs) => some (⟨l', unique_after hgrants h⟩, evs)
  else none

theorem exec_eq_some {call : Call} {l l' : NameLedger} {evs : List (Event Primitive)}
    (h : exec call l = some (l', evs)) :
    l.grants call ∧ l.ledger.exec call = some (l'.ledger, evs) := by
  unfold exec at h
  split_ifs at h with hgrants
  refine ⟨hgrants, ?_⟩
  split at h
  · cases h
  · rename_i l₁ evs₁ hexec
    cases h
    exact hexec

def empty : NameLedger := ⟨Ledger.empty, fun _ _ _ h => nomatch h⟩

end NameLedger

def nameRuntime : Runtime NameLedger Call Primitive where
  exec := NameLedger.exec
  quiet := fun c s s' evs h =>
    ledgerRuntime.quiet c s.ledger s'.ledger evs (NameLedger.exec_eq_some h).2

theorem nameRuntime_exec {call : Call} {l l' : NameLedger} {evs : List (Event Primitive)}
    (h : nameRuntime.exec call l = some (l', evs)) :
    l.grants call ∧ ledgerRuntime.exec call l.ledger = some (l'.ledger, evs) :=
  NameLedger.exec_eq_some h

def nameChain : Chain NameLedger where
  runtime := nameRuntime
  contract := fun l => l.ledger.contract
  contractIdByName := fun l => l.ledger.idByName
  contract_id := fun l id c h => l.ledger.contract_id id c h
  exec_createNode := fun _ _ _ _ _ _ _ _ h =>
    ledgerChain.exec_createNode _ _ _ _ _ _ _ _ (nameRuntime_exec h).2
  exec_updateNode := fun _ _ _ _ _ _ h =>
    ledgerChain.exec_updateNode _ _ _ _ _ _ (nameRuntime_exec h).2
  exec_createName := fun _ _ _ _ h => ledgerChain.exec_createName _ _ _ _ (nameRuntime_exec h).2
  exec_cancel := fun _ _ _ _ h => ledgerChain.exec_cancel _ _ _ _ (nameRuntime_exec h).2

/-- The ledger's contracts are those of twin 1. -/
theorem nameChain_registry : NameRegistry nameChain 1 where
  lookup l name id := l.idByName_iff name id
  free _ _ _ _ h := (NameLedger.exec_eq_some h).1
  owner l l' evs name h c hc := by
    obtain ⟨hfree, hexec⟩ := NameLedger.exec_eq_some h
    have hl' : l.ledger.create ⟨l.ledger.next, 1, .created, .nameContract name, none⟩ = l'.ledger :=
      congrArg Prod.fst (Option.some.inj hexec)
    have hat : l'.ledger.contract l.ledger.next =
        some ⟨l.ledger.next, 1, .created, .nameContract name, none⟩ := by
      rw [← hl']
      exact Function.update_self _ _ _
    have hnamed : (l'.ledger.contract l.ledger.next).bind (·.contractType.name) = some name := by
      rw [hat]
      rfl
    have hlookup := ((l'.idByName_iff name _).mpr hnamed).1
    have hc : l'.ledger.contract (l'.ledger.idByName name) = some c := hc
    rw [hlookup, hat] at hc
    exact congrArg Contract.twinId (Option.some.inj hc).symm

end ThreefoldSdk.TfChain
