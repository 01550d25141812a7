import ThreefoldSdk.Lib.Forall2
import ThreefoldSdk.Lib.Frame
import ThreefoldSdk.Lib.ObjectMap
import ThreefoldSdk.Primitives.Network

/-! The Stellar wallets (`modules/stellar.ts`): the secrets under their names in one stored object,
and an update, which deletes a wallet and imports it again. -/

namespace ThreefoldSdk.Modules.Stellar
open Primitives Frame

/-- The package `stellar-sdk`: the public key of a secret, and the answer of the network to the
`n`-th lookup of an account. -/
structure StellarSdk where
  fromSecret : String → Except GridError String
  loadAccount : ℕ → String → Except GridError Unit

structure StellarWalletInitModel where
  name : String
  secret : String

/-- The stored object, and how many accounts were looked up. -/
structure Wallets where
  data : ObjectMap String String
  lookups : ℕ

abbrev StellarM := EStateM GridError Wallets

def lift {α : Type} (x : Except GridError α) : StellarM α :=
  match x with
  | .ok a => pure a
  | .error e => throw e

def NameLength : ℕ := 35

/-- `@IsNotEmpty() @IsAlphanumeric() @MaxLength(NameLength)`. -/
def validName (name : String) : Bool :=
  decide (name ≠ "") && name.toList.all Char.isAlphanum && decide (name.length ≤ NameLength)

def StellarWalletInitModel.valid (o : StellarWalletInitModel) : Bool :=
  validName o.name && decide (o.secret ≠ "")

def validateInput (valid : Bool) : StellarM Unit :=
  if valid = true then pure () else throw (.validation "Validation failed.")

/-- The names that an object has from its prototype, as far as they are alphanumeric. -/
def inherited : List String :=
  ["constructor", "hasOwnProperty", "isPrototypeOf", "propertyIsEnumerable", "toLocaleString",
    "toString", "valueOf"]

/-- `data[name]`, as a condition. -/
def found (data : ObjectMap String String) (name : String) : Prop :=
  match data.get name with
  | some secret => secret ≠ ""
  | none => name ∈ inherited

instance (data : ObjectMap String String) (name : String) : Decidable (found data name) :=
  match h : data.get name with
  | some secret => decidable_of_iff (secret ≠ "") (by rw [found, h])
  | none => decidable_of_iff (name ∈ inherited) (by rw [found, h])

inductive StorageUpdateAction where
  | add
  | delete

/-- `backendStorage.update`, of a storage that works. -/
def storageUpdate (field data : String) (action : StorageUpdateAction) : StellarM Unit :=
  modify fun s =>
    match action with
    | .add => { s with data := s.data.upsert field fun _ => data }
    | .delete => { s with data := s.data.erase field }

def save (name secret : String) : StellarM Unit := do
  if found (← get).data name then
    throw (.validation s!"A wallet with the same name {name} already exists.")
  storageUpdate name secret .add

/-- Only names that `exist` has found are asked for, which are the object's own. -/
def getWalletSecret (name : String) : StellarM String := do
  let s ← get
  if ¬found s.data name then
    throw (.validation s!"Couldn't find a wallet with name {name}.")
  return (s.data.get name).getD ""

def delete (name : String) : StellarM Unit := do
  validateInput (validName name)
  if ¬found (← get).data name then
    throw (.validation s!"Couldn't find a wallet with name {name}.")
  storageUpdate name "" .delete

section
variable (sdk : StellarSdk)

/-- The names with the public keys. -/
def list : StellarM (List (String × String)) := do
  lift ((← get).data.entries.mapM fun e => (sdk.fromSecret e.2).map fun key => (e.1, key))

def exist (name : String) : StellarM Bool := do
  validateInput (validName name)
  return (← list sdk).any fun account => decide (account.1 = name)

def loadAccount (publicKey : String) : StellarM Unit := do
  let s ← get
  set { s with lookups := s.lookups + 1 }
  lift (sdk.loadAccount s.lookups publicKey)

def init (o : StellarWalletInitModel) : StellarM String := do
  validateInput o.valid
  let walletPublicKey ← lift (sdk.fromSecret o.secret)
  loadAccount sdk walletPublicKey
  save o.name o.secret
  return walletPublicKey

/-- The `try` of `update`, once the wallet is deleted. -/
def importAgain (o : StellarWalletInitModel) (secret : String) : StellarM String :=
  tryCatch (init sdk o) fun e => do
    let _ ← init sdk { o with secret := secret }
    throw (.base "GridClientError"
      s!"Couldn't import wallet with the secret {o.secret} due to: {e.toText}")

def update (o : StellarWalletInitModel) : StellarM String := do
  validateInput o.valid
  if ¬(← exist sdk o.name) then
    throw (.validation s!"Couldn't find a wallet with name {o.name} to update.")
  let secret ← getWalletSecret o.name
  delete o.name
  importAgain sdk o secret

/-- If an update throws, the secrets are those before; if it returns, the wallet has the new one. -/
def KeepsSecrets (o : StellarWalletInitModel) (s : Wallets) : Prop :=
  match update sdk o s with
  | .ok _ s' => s'.data.get = Function.update s.data.get o.name (some o.secret)
  | .error _ s' => s'.data.get = s.data.get

/-- The secret is a valid one, and the `n`-th lookup finds its account. -/
def Imports (n : ℕ) (secret : String) : Prop :=
  ∃ key, sdk.fromSecret secret = .ok key ∧ sdk.loadAccount n key = .ok ()

/-- The number of the next lookup after an import, which looks up the account of a valid secret. -/
def nextLookup (n : ℕ) (secret : String) : ℕ :=
  match sdk.fromSecret secret with
  | .ok _ => n + 1
  | .error _ => n

/-- The wallet is there, with the old secret, and nothing is refused before it is deleted. -/
structure Deletes (o : StellarWalletInitModel) (s : Wallets) (old : String) : Prop where
  valid : o.valid = true
  stored : s.data.get o.name = some old
  nonempty : old ≠ ""
  secrets : ∀ e ∈ s.data.entries, ∃ key, sdk.fromSecret e.2 = .ok key

/-- The new secret is imported, or otherwise the old one again. -/
def Recovers (o : StellarWalletInitModel) (s : Wallets) (old : String) : Prop :=
  o.name ∉ inherited ∧ (Imports sdk s.lookups o.secret ∨
    Imports sdk (nextLookup sdk s.lookups o.secret) old)

end

section
variable {sdk : StellarSdk} {o : StellarWalletInitModel} {s s' : Wallets}

theorem found_iff {data : ObjectMap String String} {name : String} :
    found data name ↔ (∃ secret, data.get name = some secret ∧ secret ≠ "") ∨
      (data.get name = none ∧ name ∈ inherited) := by
  unfold found
  cases data.get name with
  | some secret => simp
  | none => simp

theorem validateInput_of_valid {b : Bool} (h : b = true) : validateInput b s = .ok () s := by
  unfold validateInput
  rw [if_pos h]
  rfl

theorem validateInput_of_not_valid {b : Bool} (h : ¬b = true) :
    ∃ e, validateInput b s = .error e s := by
  refine ⟨.validation "Validation failed.", ?_⟩
  unfold validateInput
  rw [if_neg h]
  rfl

theorem lift_of_ok {α : Type} {x : Except GridError α} {a : α} (h : x = .ok a) :
    lift x s = .ok a s := by
  rw [h]
  rfl

theorem lift_of_error {α : Type} {x : Except GridError α} {e : GridError} (h : x = .error e) :
    lift x s = .error e s := by
  rw [h]
  rfl

theorem loadAccount_eq {key : String} :
    loadAccount sdk key s =
      lift (sdk.loadAccount s.lookups key) { s with lookups := s.lookups + 1 } := rfl

theorem get_bind {α : Type} {f : Wallets → StellarM α} : (get >>= f) s = f s s := rfl

theorem save_of_free {name secret : String} (h : ¬found s.data name) :
    save name secret s = .ok () { s with data := s.data.upsert name fun _ => secret } := by
  unfold save
  refine get_bind.trans ?_
  rw [if_neg h]
  rfl

theorem save_of_found {name : String} (secret : String) (h : found s.data name) :
    ∃ e, save name secret s = .error e s := by
  refine ⟨.validation s!"A wallet with the same name {name} already exists.", ?_⟩
  unfold save
  refine get_bind.trans ?_
  rw [if_pos h]
  rfl

theorem init_eq (hvalid : o.valid = true) {key : String}
    (hkey : sdk.fromSecret o.secret = .ok key) (hload : sdk.loadAccount s.lookups key = .ok ()) :
    init sdk o s =
      (do save o.name o.secret; return key : StellarM String)
        { s with lookups := s.lookups + 1 } := by
  unfold init
  rw [bind_of_ok (validateInput_of_valid hvalid), bind_of_ok (lift_of_ok hkey),
    bind_of_ok (loadAccount_eq.trans (lift_of_ok hload))]

/-- An import under a name that is free. -/
theorem init_of_imports (hvalid : o.valid = true) (hfree : ¬found s.data o.name)
    (h : Imports sdk s.lookups o.secret) :
    ∃ key, init sdk o s =
      .ok key ⟨s.data.upsert o.name fun _ => o.secret, s.lookups + 1⟩ := by
  obtain ⟨key, hkey, hload⟩ := h
  refine ⟨key, ?_⟩
  rw [init_eq hvalid hkey hload]
  exact bind_of_ok (save_of_free hfree)

/-- An import that throws leaves the secrets alone. -/
theorem init_of_not_imports (hvalid : o.valid = true)
    (h : found s.data o.name ∨ ¬Imports sdk s.lookups o.secret) :
    ∃ e, init sdk o s = .error e { s with lookups := nextLookup sdk s.lookups o.secret } := by
  unfold nextLookup
  rcases hkey : sdk.fromSecret o.secret with e | key
  · refine ⟨e, ?_⟩
    unfold init
    rw [bind_of_ok (validateInput_of_valid hvalid)]
    exact bind_of_error (lift_of_error hkey)
  rcases hload : sdk.loadAccount s.lookups key with e | ⟨⟨⟩⟩
  · refine ⟨e, ?_⟩
    unfold init
    rw [bind_of_ok (validateInput_of_valid hvalid), bind_of_ok (lift_of_ok hkey)]
    exact bind_of_error (loadAccount_eq.trans (lift_of_error hload))
  · have hfound : found s.data o.name := h.resolve_right (not_not.2 ⟨key, hkey, hload⟩)
    obtain ⟨e, he⟩ := save_of_found (s := { s with lookups := s.lookups + 1 }) o.secret hfound
    exact ⟨e, (init_eq hvalid hkey hload).trans (bind_of_error he)⟩

theorem valid_iff : o.valid = true ↔ validName o.name = true ∧ o.secret ≠ "" := by
  simp [StellarWalletInitModel.valid]

theorem list_eq :
    list sdk s =
      lift (s.data.entries.mapM fun e => (sdk.fromSecret e.2).map fun key => (e.1, key)) s := rfl

theorem exist_of_list_error {name : String} {e : GridError} (hname : validName name = true)
    (h : list sdk s = .error e s) : exist sdk name s = .error e s := by
  unfold exist
  rw [bind_of_ok (validateInput_of_valid hname)]
  exact bind_of_error h

theorem exist_of_list {name : String} {accounts : List (String × String)}
    (hname : validName name = true) (h : list sdk s = .ok accounts s) :
    exist sdk name s = .ok (accounts.any fun account => decide (account.1 = name)) s := by
  unfold exist
  rw [bind_of_ok (validateInput_of_valid hname), bind_of_ok h]
  rfl

theorem fromSecret_map_eq_ok {e account : String × String} :
    (sdk.fromSecret e.2).map (fun key => (e.1, key)) = .ok account ↔
      ∃ key, sdk.fromSecret e.2 = .ok key ∧ (e.1, key) = account :=
  exceptMap_eq_ok

/-- Listing throws at a secret that is not valid; otherwise the names are those stored. -/
theorem list_cases :
    (∃ e, list sdk s = .error e s ∧ ¬∀ e ∈ s.data.entries, ∃ key, sdk.fromSecret e.2 = .ok key) ∨
      ∃ accounts, list sdk s = .ok accounts s ∧
        accounts.map Prod.fst = s.data.entries.map Prod.fst ∧
        ∀ e ∈ s.data.entries, ∃ key, sdk.fromSecret e.2 = .ok key := by
  rcases hmap : s.data.entries.mapM fun e => (sdk.fromSecret e.2).map fun key => (e.1, key)
    with e | accounts
  · refine .inl ⟨e, list_eq.trans (lift_of_error hmap), fun hall => ?_⟩
    have hexists : ∀ e ∈ s.data.entries, ∃ account,
        (sdk.fromSecret e.2).map (fun key => (e.1, key)) = .ok account := by
      intro e he
      obtain ⟨key, hkey⟩ := hall e he
      exact ⟨(e.1, key), fromSecret_map_eq_ok.mpr ⟨key, hkey, rfl⟩⟩
    obtain ⟨accounts, hpairs⟩ := Forall2.exists_of_forall hexists
    rw [mapM_eq_ok.mpr hpairs] at hmap
    cases hmap
  · have hpairs := mapM_eq_ok.mp hmap
    refine .inr ⟨accounts, list_eq.trans (lift_of_ok hmap), ?_, ?_⟩
    · refine Forall2.map_eq hpairs fun e account he => ?_
      obtain ⟨key, -, rfl⟩ := fromSecret_map_eq_ok.mp he
      rfl
    · intro e he
      obtain ⟨account, -, haccount⟩ := Forall2.exists_right hpairs he
      obtain ⟨key, hkey, -⟩ := fromSecret_map_eq_ok.mp haccount
      exact ⟨key, hkey⟩

theorem getWalletSecret_of_found {name : String} (h : found s.data name) :
    getWalletSecret name s = .ok ((s.data.get name).getD "") s := by
  unfold getWalletSecret
  refine get_bind.trans ?_
  rw [if_neg (not_not.2 h)]
  rfl

theorem getWalletSecret_of_not_found {name : String} (h : ¬found s.data name) :
    ∃ e, getWalletSecret name s = .error e s := by
  refine ⟨.validation s!"Couldn't find a wallet with name {name}.", ?_⟩
  unfold getWalletSecret
  refine get_bind.trans ?_
  rw [if_pos h]
  rfl

theorem delete_of_found {name : String} (hname : validName name = true)
    (h : found s.data name) :
    delete name s = .ok () { s with data := s.data.erase name } := by
  unfold delete
  rw [bind_of_ok (validateInput_of_valid hname)]
  refine get_bind.trans ?_
  rw [if_neg (not_not.2 h)]
  rfl

theorem update_eq (hvalid : o.valid = true) {b : Bool} (h : exist sdk o.name s = .ok b s) :
    update sdk o s =
      (do
        if ¬b = true then
          throw (.validation s!"Couldn't find a wallet with name {o.name} to update.")
        let secret ← getWalletSecret o.name
        delete o.name
        importAgain sdk o secret : StellarM String) s := by
  unfold update
  rw [bind_of_ok (validateInput_of_valid hvalid), bind_of_ok h]

/-- What an update comes to: it is refused, or the wallet is deleted and imported again. -/
theorem update_cases :
    ((∀ old, ¬Deletes sdk o s old) ∧ ∃ e, update sdk o s = .error e s) ∨
      ∃ old, Deletes sdk o s old ∧
        update sdk o s = importAgain sdk o old { s with data := s.data.erase o.name } := by
  by_cases hvalid : o.valid = true
  swap
  · obtain ⟨e, he⟩ := validateInput_of_not_valid (s := s) hvalid
    exact .inl ⟨fun old h => hvalid h.valid, e, bind_of_error he⟩
  have hname : validName o.name = true := (valid_iff.mp hvalid).1
  rcases @list_cases sdk s with ⟨e, he, hnot⟩ | ⟨accounts, hlist, hnames, hall⟩
  · refine .inl ⟨fun old h => hnot h.secrets, e, ?_⟩
    unfold update
    rw [bind_of_ok (validateInput_of_valid hvalid)]
    exact bind_of_error (exist_of_list_error hname he)
  rw [update_eq hvalid (exist_of_list hname hlist)]
  have hany : accounts.any (fun account => decide (account.1 = o.name)) = true ↔
      o.name ∈ s.data.entries.map Prod.fst := by
    rw [← hnames, List.any_eq_true]
    simp
  by_cases hmem : o.name ∈ s.data.entries.map Prod.fst
  swap
  · refine .inl ⟨fun old h => ?_,
      .validation s!"Couldn't find a wallet with name {o.name} to update.", ?_⟩
    · have hnone := ObjectMap.get_eq_none_iff.mpr hmem
      rw [h.stored] at hnone
      cases hnone
    · rw [if_pos (fun hb => hmem (hany.mp hb))]
      rfl
  rw [if_neg (not_not.2 (hany.mpr hmem))]
  obtain ⟨⟨name, old⟩, hentry, hfst⟩ := List.mem_map.mp hmem
  have hstored : s.data.get o.name = some old :=
    ObjectMap.get_eq_some_iff.mpr (hfst ▸ hentry)
  by_cases hold : old = ""
  · have hlost : ¬found s.data o.name := by
      rw [found_iff, hstored]
      simp [hold]
    obtain ⟨e, he⟩ := getWalletSecret_of_not_found hlost
    refine .inl ⟨fun old' h => h.nonempty ?_, e, bind_of_error he⟩
    exact (Option.some.inj (h.stored.symm.trans hstored)).trans hold
  · have hfound : found s.data o.name := found_iff.mpr (.inl ⟨old, hstored, hold⟩)
    refine .inr ⟨old, ⟨hvalid, hstored, hold, hall⟩, ?_⟩
    refine (bind_of_ok (getWalletSecret_of_found hfound)).trans ?_
    rw [hstored]
    exact bind_of_ok (delete_of_found hname hfound)

theorem importAgain_of_imports (old : String) (hvalid : o.valid = true)
    (hfree : ¬found s.data o.name) (h : Imports sdk s.lookups o.secret) :
    ∃ key n, importAgain sdk o old s =
      .ok key ⟨s.data.upsert o.name fun _ => o.secret, n⟩ := by
  obtain ⟨key, hinit⟩ := init_of_imports hvalid hfree h
  exact ⟨key, _, tryCatch_of_ok hinit⟩

/-- The recovery, and the error that is thrown after it. -/
theorem importAgain_of_recovery {old : String} (hvalid : o.valid = true) (hold : old ≠ "")
    (hfree : ¬found s.data o.name) (hnew : ¬Imports sdk s.lookups o.secret)
    (h : Imports sdk (nextLookup sdk s.lookups o.secret) old) :
    ∃ e n, importAgain sdk o old s = .error e ⟨s.data.upsert o.name fun _ => old, n⟩ := by
  obtain ⟨e, hinit⟩ := init_of_not_imports hvalid (.inr hnew)
  obtain ⟨key, hagain⟩ := init_of_imports (o := { o with secret := old })
    (s := { s with lookups := nextLookup sdk s.lookups o.secret })
    (valid_iff.mpr ⟨(valid_iff.mp hvalid).1, hold⟩) hfree h
  exact ⟨_, _, (tryCatch_of_error hinit).trans (bind_of_ok hagain)⟩

/-- A recovery that throws leaves the wallet deleted. -/
theorem importAgain_of_failure {old : String} (hvalid : o.valid = true) (hold : old ≠ "")
    (hnew : found s.data o.name ∨ ¬Imports sdk s.lookups o.secret)
    (h : found s.data o.name ∨ ¬Imports sdk (nextLookup sdk s.lookups o.secret) old) :
    ∃ e n, importAgain sdk o old s = .error e ⟨s.data, n⟩ := by
  obtain ⟨e, hinit⟩ := init_of_not_imports hvalid hnew
  obtain ⟨e', hagain⟩ := init_of_not_imports (o := { o with secret := old })
    (s := { s with lookups := nextLookup sdk s.lookups o.secret })
    (valid_iff.mpr ⟨(valid_iff.mp hvalid).1, hold⟩) h
  exact ⟨e', _, (tryCatch_of_error hinit).trans (bind_of_error hagain)⟩

theorem get_upsert_erase (data : ObjectMap String String) (name secret : String) :
    ((data.erase name).upsert name fun _ => secret).get =
      Function.update data.get name (some secret) := by
  funext k
  rw [ObjectMap.get_upsert, ObjectMap.get_erase, Function.update_apply]
  split_ifs <;> rfl

theorem found_erase (data : ObjectMap String String) {name : String} :
    found (data.erase name) name ↔ name ∈ inherited := by
  have hget : (data.erase name).get name = none := by simp [ObjectMap.get_erase]
  rw [found_iff, hget]
  simp

theorem get_erase_ne {data : ObjectMap String String} {name old : String}
    (h : data.get name = some old) : (data.erase name).get ≠ data.get := by
  intro hget
  have hnone := (ObjectMap.get_erase data name name).symm.trans (congrFun hget name)
  rw [if_pos rfl, h] at hnone
  cases hnone

theorem keepsSecrets_of_ok {key : String} (h : update sdk o s = .ok key s') :
    KeepsSecrets sdk o s ↔ s'.data.get = Function.update s.data.get o.name (some o.secret) := by
  rw [KeepsSecrets, h]

theorem keepsSecrets_of_error {e : GridError} (h : update sdk o s = .error e s') :
    KeepsSecrets sdk o s ↔ s'.data.get = s.data.get := by
  rw [KeepsSecrets, h]

/-- After the deletion it depends on the two imports. -/
theorem Deletes.keepsSecrets_iff {old : String} (h : Deletes sdk o s old)
    (hupdate : update sdk o s = importAgain sdk o old { s with data := s.data.erase o.name }) :
    KeepsSecrets sdk o s ↔ Recovers sdk o s old := by
  by_cases hfree : o.name ∈ inherited
  · -- `save` takes the name for that of another wallet.
    have hfound := (found_erase s.data).mpr hfree
    obtain ⟨e, n, herror⟩ := importAgain_of_failure (s := { s with data := s.data.erase o.name })
      h.valid h.nonempty (.inl hfound) (.inl hfound)
    rw [keepsSecrets_of_error (hupdate.trans herror)]
    exact iff_of_false (get_erase_ne h.stored) fun hrecovers => hrecovers.1 hfree
  have hfound : ¬found (s.data.erase o.name) o.name := fun hf => hfree ((found_erase s.data).mp hf)
  by_cases hnew : Imports sdk s.lookups o.secret
  · obtain ⟨key, n, hok⟩ := importAgain_of_imports old
      (s := { s with data := s.data.erase o.name }) h.valid hfound hnew
    rw [keepsSecrets_of_ok (hupdate.trans hok)]
    exact iff_of_true (get_upsert_erase s.data o.name o.secret) ⟨hfree, .inl hnew⟩
  by_cases hold : Imports sdk (nextLookup sdk s.lookups o.secret) old
  · obtain ⟨e, n, herror⟩ := importAgain_of_recovery (s := { s with data := s.data.erase o.name })
      h.valid h.nonempty hfound hnew hold
    rw [keepsSecrets_of_error (hupdate.trans herror)]
    refine iff_of_true ?_ ⟨hfree, .inr hold⟩
    rw [get_upsert_erase, ← h.stored, Function.update_eq_self]
  · obtain ⟨e, n, herror⟩ := importAgain_of_failure (s := { s with data := s.data.erase o.name })
      h.valid h.nonempty (.inr hnew) (.inr hold)
    rw [keepsSecrets_of_error (hupdate.trans herror)]
    exact iff_of_false (get_erase_ne h.stored) fun hrecovers => hrecovers.2.elim hnew hold

/-- An update is all or nothing exactly when no wallet is deleted that cannot be imported again. -/
theorem update_keepsSecrets_iff (sdk : StellarSdk) (o : StellarWalletInitModel) (s : Wallets) :
    KeepsSecrets sdk o s ↔ ∀ old, Deletes sdk o s old → Recovers sdk o s old := by
  rcases @update_cases sdk o s with
    ⟨hnot, e, herror⟩ | ⟨old, hdeletes, hupdate⟩
  · rw [keepsSecrets_of_error herror]
    exact iff_of_true rfl fun old h => absurd h (hnot old)
  · rw [hdeletes.keepsSecrets_iff hupdate]
    constructor
    · intro hrecovers old' h
      cases Option.some.inj (hdeletes.stored.symm.trans h.stored)
      exact hrecovers
    · exact fun h => h old hdeletes

end

/-- A network that finds no account. -/
def unreachable : StellarSdk where
  fromSecret := fun secret => .ok secret
  loadAccount := fun _ _ => .error (.base "NetworkError" "Request failed with status code 503")

theorem not_imports_of_unreachable (n : ℕ) (secret : String) :
    ¬Imports unreachable n secret := by
  rintro ⟨key, -, hload⟩
  cases hload

theorem unreachable_loses_secret :
    ¬KeepsSecrets unreachable ⟨"savings", "SNEW"⟩
      ⟨ObjectMap.empty.upsert "savings" fun _ => "SOLD", 0⟩ := by
  have hvalid : StellarWalletInitModel.valid ⟨"savings", "SNEW"⟩ = true := by decide
  have hstored : (ObjectMap.empty.upsert "savings" fun _ => "SOLD").get "savings" =
      some "SOLD" := by
    rw [ObjectMap.get_upsert, if_pos rfl]
  rcases @update_cases unreachable ⟨"savings", "SNEW"⟩
    ⟨ObjectMap.empty.upsert "savings" fun _ => "SOLD", 0⟩ with ⟨hnot, -⟩ | ⟨old, hdeletes, hupdate⟩
  · exact absurd ⟨hvalid, hstored, by decide, fun e _ => ⟨e.2, rfl⟩⟩ (hnot "SOLD")
  · rw [hdeletes.keepsSecrets_iff hupdate]
    rintro ⟨-, hnew | hold⟩
    · exact not_imports_of_unreachable _ _ hnew
    · exact not_imports_of_unreachable _ _ hold

end ThreefoldSdk.Modules.Stellar
