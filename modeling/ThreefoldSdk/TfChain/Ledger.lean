import ThreefoldSdk.TfChain.Contracts

/-! A chain that keeps its contracts in a table: the calls do what `Chain` asks of them. -/

namespace ThreefoldSdk.TfChain

/-- The ids from `next` on are free. -/
structure Ledger where
  contract : Nat → Option Contract
  next : Nat
  next_pos : 0 < next
  free : ∀ id, next ≤ id → contract id = none
  contract_id : ∀ id c, contract id = some c → c.contractId = id ∧ id ≠ 0

namespace Ledger

/-- Adds a contract under the next id. -/
def create (l : Ledger) (c : Contract) : Ledger where
  contract := Function.update l.contract l.next (some { c with contractId := l.next })
  next := l.next + 1
  next_pos := Nat.succ_pos _
  free := by
    intro id h
    have hne : id ≠ l.next := by omega
    rw [Function.update_of_ne hne]
    exact l.free id (by omega)
  contract_id := by
    intro id c' h
    by_cases hid : id = l.next
    · subst hid
      rw [Function.update_self] at h
      cases h
      exact ⟨rfl, Nat.ne_of_gt l.next_pos⟩
    · rw [Function.update_of_ne hid] at h
      exact l.contract_id id c' h

/-- Writes or removes a contract that is there. -/
def write (l : Ledger) (id : Nat) (c : Contract) (hc : l.contract id = some c)
    (c' : Option Contract) (h : ∀ d, c' = some d → d.contractId = id) : Ledger where
  contract := Function.update l.contract id c'
  next := l.next
  next_pos := l.next_pos
  free := by
    intro id' hle
    have hne : id' ≠ id := by
      rintro rfl
      rw [l.free id' hle] at hc
      cases hc
    rw [Function.update_of_ne hne]
    exact l.free id' hle
  contract_id := by
    intro id' d hd
    by_cases hid : id' = id
    · subst hid
      rw [Function.update_self] at hd
      exact ⟨h d hd, (l.contract_id id' c hc).2⟩
    · rw [Function.update_of_ne hid] at hd
      exact l.contract_id id' d hd

/-- Nothing when there is no node contract of this id. -/
def updateContract (l : Ledger) (id : Nat) (hash data : String) :
    Option (Ledger × List (Event Primitive)) :=
  match h : l.contract id with
  | none => none
  | some c =>
    match c.contractType with
    | .nodeContract _ =>
      some (l.write id c h (some (c.withDeployment hash data)) (by
          intro d hd
          cases hd
          exact (l.contract_id id c h).1),
        [contractEvent "ContractUpdated" (c.withDeployment hash data)])
    | _ => none

/-- Nothing when there is no contract of this id. -/
def cancelContract (l : Ledger) (id : Nat) : Option (Ledger × List (Event Primitive)) :=
  match h : l.contract id with
  | none => none
  | some c =>
    some (l.write id c h none (fun _ hd => nomatch hd),
      [⟨smartContractModule, "NodeContractCanceled", [.number id]⟩])

def exec (call : Call) (l : Ledger) : Option (Ledger × List (Event Primitive)) :=
  match call with
  | .createNodeContract nodeId hash data ips sp =>
    let c : Contract := ⟨l.next, 1, .created, .nodeContract ⟨nodeId, hash, data, ips⟩, sp⟩
    some (l.create c, [contractEvent "ContractCreated" c])
  | .updateNodeContract id hash data => l.updateContract id hash data
  | .createNameContract name =>
    let c : Contract := ⟨l.next, 1, .created, .nameContract name, none⟩
    some (l.create c, [contractEvent "ContractCreated" c])
  | .cancelContract id => l.cancelContract id

theorem updateContract_eq_some {l l' : Ledger} {id : Nat} {hash data : String}
    {evs : List (Event Primitive)} (h : l.updateContract id hash data = some (l', evs)) :
    ∃ c n, l.contract id = some c ∧ c.contractType = .nodeContract n ∧
      evs = [contractEvent "ContractUpdated" (c.withDeployment hash data)] ∧
      l'.contract = Function.update l.contract id (some (c.withDeployment hash data)) := by
  unfold updateContract at h
  split at h
  · cases h
  · rename_i c hc
    split at h
    · rename_i n hn
      cases h
      exact ⟨c, n, hc, hn, rfl, rfl⟩
    · cases h

theorem cancelContract_eq_some {l l' : Ledger} {id : Nat} {evs : List (Event Primitive)}
    (h : l.cancelContract id = some (l', evs)) :
    ∃ c, l.contract id = some c ∧
      evs = [⟨smartContractModule, "NodeContractCanceled", [.number id]⟩] ∧
      l'.contract = Function.update l.contract id none := by
  unfold cancelContract at h
  split at h
  · cases h
  · rename_i c hc
    cases h
    exact ⟨c, hc, rfl, rfl⟩

def empty : Ledger where
  contract := fun _ => none
  next := 1
  next_pos := Nat.one_pos
  free := fun _ _ => rfl
  contract_id := fun _ _ h => nomatch h

end Ledger

def ledgerRuntime : Runtime Ledger Call Primitive where
  exec := Ledger.exec
  quiet := by
    intro c s s' evs h e he hsys
    have hpallet : e.pallet = smartContractModule := by
      cases c with
      | createNodeContract nodeId hash data ips sp =>
        cases h
        rw [List.mem_singleton.mp he]
        rfl
      | createNameContract name =>
        cases h
        rw [List.mem_singleton.mp he]
        rfl
      | updateNodeContract id hash data =>
        obtain ⟨c, n, -, -, rfl, -⟩ := Ledger.updateContract_eq_some h
        rw [List.mem_singleton.mp he]
        rfl
      | cancelContract id =>
        obtain ⟨c, -, rfl, -⟩ := Ledger.cancelContract_eq_some h
        rw [List.mem_singleton.mp he]
    rw [hpallet] at hsys
    exact absurd hsys (by decide)

def ledgerChain : Chain Ledger where
  runtime := ledgerRuntime
  contract := Ledger.contract
  contractIdByName := fun _ _ => 0
  contract_id := fun s id c h => s.contract_id id c h
  exec_createNode := by
    intro s s' evs nodeId hash data ips sp h
    cases h
    exact ⟨_, rfl, s.free _ le_rfl, rfl, rfl⟩
  exec_updateNode := fun _ _ _ _ _ _ h => Ledger.updateContract_eq_some h
  exec_createName := by
    intro s s' evs name h
    cases h
    exact ⟨_, rfl, s.free _ le_rfl, rfl, rfl⟩
  exec_cancel := by
    intro s s' evs id h
    obtain ⟨c, hc, hevs, hcontract⟩ := Ledger.cancelContract_eq_some h
    exact ⟨c, _, hc, hevs, rfl, List.mem_cons_self, hcontract⟩

/-- The ledger creates every name contract it is asked for. -/
theorem execAll_createNames (names : List String) (l : Ledger) :
    ∃ l' evs, ledgerRuntime.execAll (names.map Call.createNameContract) l = some (l', evs) ∧
      l'.next = l.next + names.length := by
  induction names generalizing l with
  | nil => exact ⟨l, [], rfl, rfl⟩
  | cons name names ih =>
    let c : Contract := ⟨l.next, 1, .created, .nameContract name, none⟩
    obtain ⟨l', evs, hexec, hnext⟩ := ih (l.create c)
    refine ⟨l', [contractEvent "ContractCreated" c] ++ evs, ?_, ?_⟩
    · have hstep : ledgerRuntime.exec (.createNameContract name) l =
          some (l.create c, [contractEvent "ContractCreated" c]) := rfl
      simp only [List.map_cons, Runtime.execAll, hstep, hexec, Option.map_some]
    · rw [hnext, List.length_cons]
      change l.next + 1 + names.length = _
      omega

end ThreefoldSdk.TfChain
