import ThreefoldSdk.HighLevel.Merge
import ThreefoldSdk.Lib.Commits
import ThreefoldSdk.Modules.Stellar

/-! The TFChain wallets (`modules/tfchain.ts`): the mnemonics under their names in one stored object,
which every call changes in one write or not at all. -/

namespace ThreefoldSdk.Modules.TFChain
open Primitives Frame
open Stellar (NameLength validName inherited found StorageUpdateAction)

/-- What is asked from outside, by the number of the request: the address of the account of a
mnemonic, once its client is connected, an account that is created and activated with a twin on a
relay, and a write of the storage. -/
structure External where
  connect : ℕ → String → Except GridError String
  createAccount : ℕ → String → Except GridError String
  dump : ℕ → Except GridError Unit

/-- The stored object, and how many requests were made. -/
structure Wallets where
  data : ObjectMap String String
  requests : ℕ

abbrev TFChainM := EStateM GridError Wallets

structure TfchainWalletInitModel where
  name : String
  secret : String

structure TfchainCreateModel where
  name : String
  relay : String

def TfchainWalletInitModel.valid (o : TfchainWalletInitModel) : Bool :=
  validName o.name && decide (o.secret ≠ "")

def TfchainCreateModel.valid (o : TfchainCreateModel) : Bool :=
  validName o.name && decide (o.relay ≠ "")

def lift {α : Type} : Except GridError α → TFChainM α
  | .ok a => pure a
  | .error e => throw e

def request {α : Type} (f : ℕ → Except GridError α) : TFChainM α := do
  let s ← get
  set { s with requests := s.requests + 1 }
  lift (f s.requests)

def validateInput (valid : Bool) : TFChainM Unit :=
  if valid = true then pure () else throw (.validation "Validation failed.")

section
variable (ext : External)

/-- `backendStorage.update`, with the write on the chain where that is the storage. -/
def storageUpdate (field data : String) (action : StorageUpdateAction) : TFChainM Unit := do
  request ext.dump
  modify fun s =>
    match action with
    | .add => { s with data := s.data.upsert field fun _ => data }
    | .delete => { s with data := s.data.erase field }

def save (name mnemonic : String) : TFChainM Unit := do
  if found (← get).data name then
    throw (.validation s!"An account with the same name {name} already exists.")
  storageUpdate ext name mnemonic .add

def init (o : TfchainWalletInitModel) : TFChainM String := do
  validateInput o.valid
  let address ← request fun n => ext.connect n o.secret
  save ext o.name o.secret
  return address

/-- Only names of the object itself are asked for. -/
def getMnemonics (name : String) : TFChainM String := do
  let s ← get
  if ¬found s.data name then
    throw (.validation s!"An account with the name {name} does not exist.")
  return (s.data.get name).getD ""

/-- The loop of `list`, over the names. -/
def listFrom : List String → TFChainM (List (String × String))
  | [] => return []
  | name :: names => do
    let mnemonics ← getMnemonics name
    let address ← request fun n => ext.connect n mnemonics
    let accounts ← listFrom names
    return (name, address) :: accounts

def list : TFChainM (List (String × String)) := do
  listFrom ext (((← get).data.ordered HighLevel.nameIndex).map Prod.fst)

def exist (name : String) : TFChainM Bool := do
  validateInput (validName name)
  return (← list ext).any fun account => decide (account.1 = name)

/-- What `update` throws when its write fails. -/
def updateError (e : GridError) : GridError :=
  if e.isBase = true then e.withPrefix "Could not update account mnemonics"
  else .base "TFChainError" s!"Could not update account mnemonics: {e.toText}"

def update (o : TfchainWalletInitModel) : TFChainM String := do
  validateInput o.valid
  if ¬(← exist ext o.name) then
    throw (.validation s!"Couldn't find an account with name {o.name}.")
  let address ← request fun n => ext.connect n o.secret
  tryCatch (storageUpdate ext o.name o.secret .add) fun e => throw (updateError e)
  return address

def delete (name : String) : TFChainM String := do
  validateInput (validName name)
  if ¬(← exist ext name) then
    throw (.validation s!"Couldn't find an account with name {name}.")
  storageUpdate ext name "" .delete
  return "Deleted"

/-- The mnemonic of the new account. -/
def create (o : TfchainCreateModel) : TFChainM String := do
  validateInput o.valid
  if (← exist ext o.name) then
    throw (.validation s!"An account with the same name {o.name} already exists.")
  let mnemonic ← request fun n => ext.createAccount n o.relay
  let _ ← init ext ⟨o.name, mnemonic⟩
  return mnemonic

end

inductive Call where
  | init (o : TfchainWalletInitModel)
  | update (o : TfchainWalletInitModel)
  | delete (name : String)
  | create (o : TfchainCreateModel)
  | list
  | exist (name : String)

/-- What a call returns: a text, or the names with their addresses, or whether a name is there. -/
inductive Answer where
  | text (s : String)
  | accounts (accounts : List (String × String))
  | there (b : Bool)

def Call.exec (ext : External) : Call → TFChainM Answer
  | .init o => return .text (← TFChain.init ext o)
  | .update o => return .text (← TFChain.update ext o)
  | .delete name => return .text (← TFChain.delete ext name)
  | .create o => return .text (← TFChain.create ext o)
  | .list => return .accounts (← TFChain.list ext)
  | .exist name => return .there (← TFChain.exist ext name)

/-- A name that is not in use; an empty mnemonic is as good as none. -/
def Free (c : String → Option String) (name : String) : Prop :=
  c name = none ∨ c name = some ""

/-- The account of a stored name with the address of its mnemonic. -/
def Listed (ext : External) (c : String → Option String) (account : String × String) : Prop :=
  ∃ secret n, c account.1 = some secret ∧ ext.connect n secret = .ok account.2

/-- What an accepted call returns, and what it does to the names and their mnemonics. -/
inductive Accepts (ext : External) (c : String → Option String) :
    Call → Answer → (String → Option String) → Prop where
  | init {o : TfchainWalletInitModel} (hfree : Free c o.name) (hsecret : o.secret ≠ "") {n : ℕ}
    {address : String} (haddress : ext.connect n o.secret = .ok address) :
    Accepts ext c (.init o) (.text address) (Function.update c o.name (some o.secret))
  | update {o : TfchainWalletInitModel} (hstored : c o.name ≠ none) (hsecret : o.secret ≠ "") {n : ℕ}
    {address : String} (haddress : ext.connect n o.secret = .ok address) :
    Accepts ext c (.update o) (.text address) (Function.update c o.name (some o.secret))
  | delete {name : String} (hstored : c name ≠ none) :
    Accepts ext c (.delete name) (.text "Deleted") (Function.update c name none)
  | create {o : TfchainCreateModel} (hfree : c o.name = none) {n : ℕ} {mnemonic : String}
    (hnew : ext.createAccount n o.relay = .ok mnemonic) (hsecret : mnemonic ≠ "") :
    Accepts ext c (.create o) (.text mnemonic) (Function.update c o.name (some mnemonic))
  | list {accounts : List (String × String)} (hnodup : (accounts.map Prod.fst).Nodup)
    (hall : ∀ name, c name ≠ none → name ∈ accounts.map Prod.fst)
    (hlisted : ∀ account ∈ accounts, Listed ext c account) : Accepts ext c .list (.accounts accounts) c
  | exist {name : String} {b : Bool} (hthere : b = true ↔ c name ≠ none) :
    Accepts ext c (.exist name) (.there b) c

section
variable {ext : External} {name : String}

theorem keeps_lift {α : Type} (x : Except GridError α) : Keeps Wallets.data (lift x) := by
  cases x with
  | ok a => exact keeps_pure _ a
  | error e => exact keeps_throw _ e

theorem keeps_request {α : Type} (f : ℕ → Except GridError α) : Keeps Wallets.data (request f) := by
  intro s
  exact keeps_lift (f s.requests) { s with requests := s.requests + 1 }

theorem reads_request {α : Type} (f : ℕ → Except GridError α) :
    Reads Wallets.data (fun _ a => ∃ n, f n = .ok a) (request f) := by
  intro s a s' hs
  refine ⟨(keeps_request f).of_ok hs, s.requests, ?_⟩
  obtain ⟨s₀, s₁, hget, hs⟩ := bind_eq_ok.mp hs
  cases hget
  obtain ⟨u, s₂, hset, hs⟩ := bind_eq_ok.mp hs
  cases hset
  cases hf : f s.requests with
  | ok b =>
    rw [hf] at hs
    cases hs
    rfl
  | error e =>
    rw [hf] at hs
    cases hs

theorem keeps_validateInput (b : Bool) : Keeps Wallets.data (validateInput b) := by
  unfold validateInput
  split_ifs
  · exact keeps_pure _ _
  · exact keeps_throw _ _

theorem keeps_getMnemonics (name : String) : Keeps Wallets.data (getMnemonics name) := by
  unfold getMnemonics
  refine (keeps_get _).bind fun s => ?_
  split_ifs
  · exact keeps_pure _ _
  · exact keeps_throw _ _

theorem keeps_listFrom (names : List String) : Keeps Wallets.data (listFrom ext names) := by
  induction names with
  | nil => exact keeps_pure _ _
  | cons name names ih =>
    refine (keeps_getMnemonics name).bind fun mnemonics => ?_
    refine (keeps_request _).bind fun address => ?_
    exact ih.bind fun accounts => keeps_pure _ _

theorem keeps_list : Keeps Wallets.data (list ext) :=
  (keeps_get _).bind fun _ => keeps_listFrom _

theorem keeps_exist : Keeps Wallets.data (exist ext name) :=
  (keeps_validateInput _).bind fun _ => keeps_list.bind fun _ => keeps_pure _ _

theorem reads_getMnemonics (name : String) : Reads Wallets.data
    (fun d mnemonics => mnemonics = (d.get name).getD "") (getMnemonics name) := by
  intro s mnemonics s' hs
  refine ⟨(keeps_getMnemonics name).of_ok hs, ?_⟩
  obtain ⟨s₀, s₁, hread, hs⟩ := bind_eq_ok.mp hs
  cases hread
  split_ifs at hs
  · cases hs
    rfl
  · cases hs

theorem reads_listFrom (names : List String) : Reads Wallets.data
    (fun d accounts => accounts.map Prod.fst = names ∧
      ((∀ n ∈ names, d.get n ≠ none) → ∀ account ∈ accounts, Listed ext d.get account))
    (listFrom ext names) := by
  induction names with
  | nil => exact reads_pure fun d => ⟨rfl, fun _ => List.forall_mem_nil _⟩
  | cons name names ih =>
    intro s accounts s' hs
    obtain ⟨mnemonics, s₁, hget, hs⟩ := bind_eq_ok.mp hs
    obtain ⟨address, s₂, hconnect, hs⟩ := bind_eq_ok.mp hs
    obtain ⟨rest, s₃, hrest, hs⟩ := bind_eq_ok.mp hs
    cases hs
    obtain ⟨h₁, hmnemonics⟩ := reads_getMnemonics name s mnemonics s₁ hget
    obtain ⟨h₂, n, haddress⟩ := reads_request _ s₁ address s₂ hconnect
    obtain ⟨h₃, hnames, hlisted⟩ := ih s₂ rest s' hrest
    rw [h₂, h₁] at h₃ hlisted
    refine ⟨h₃, by rw [List.map_cons, hnames], fun hstored => ?_⟩
    rw [List.forall_mem_cons] at hstored
    refine List.forall_mem_cons.mpr ⟨?_, hlisted hstored.2⟩
    obtain ⟨secret, hsecret⟩ := Option.ne_none_iff_exists'.mp hstored.1
    refine ⟨secret, n, hsecret, ?_⟩
    rw [← haddress, hmnemonics, hsecret, Option.getD_some]

theorem mem_ordered_iff (d : ObjectMap String String) :
    name ∈ (d.ordered HighLevel.nameIndex).map Prod.fst ↔ d.get name ≠ none := by
  rw [Ne, ObjectMap.get_eq_none_iff, not_not]
  exact ((ObjectMap.ordered_perm _ d).map Prod.fst).mem_iff

theorem reads_list : Reads Wallets.data
    (fun d accounts => accounts.map Prod.fst = (d.ordered HighLevel.nameIndex).map Prod.fst ∧
      ∀ account ∈ accounts, Listed ext d.get account) (list ext) := by
  intro s accounts s' hs
  obtain ⟨s₀, s₁, hread, hs⟩ := bind_eq_ok.mp hs
  cases hread
  obtain ⟨hdata, hnames, hlisted⟩ := reads_listFrom _ s accounts s' hs
  exact ⟨hdata, hnames, hlisted fun n hn => (mem_ordered_iff s.data).mp hn⟩

theorem reads_exist : Reads Wallets.data (fun d b => b = true ↔ d.get name ≠ none)
    (exist ext name) := by
  intro s b s' hs
  obtain ⟨u, s₁, hvalid, hs⟩ := bind_eq_ok.mp hs
  obtain ⟨accounts, s₂, hlist, hs⟩ := bind_eq_ok.mp hs
  cases hs
  have h₁ : s₁.data = s.data := (keeps_validateInput _).of_ok hvalid
  obtain ⟨h₂, hnames, -⟩ := reads_list s₁ accounts s' hlist
  rw [h₁] at h₂ hnames
  refine ⟨h₂, ?_⟩
  have hmem : (accounts.any fun account => decide (account.1 = name)) = true ↔
      name ∈ accounts.map Prod.fst := by
    rw [List.any_eq_true]
    simp
  show (accounts.any fun account => decide (account.1 = name)) = true ↔ s.data.get name ≠ none
  rw [hmem, hnames]
  exact mem_ordered_iff s.data

theorem reads_validateInput (b : Bool) :
    Reads Wallets.data (fun _ _ => b = true) (validateInput b) := by
  intro s u s' hs
  unfold validateInput at hs
  by_cases hb : b = true
  · rw [if_pos hb] at hs
    cases hs
    exact ⟨rfl, hb⟩
  · rw [if_neg hb] at hs
    cases hs

/-- The object behind a write. -/
def written (field data : String) (action : StorageUpdateAction) (d : ObjectMap String String) :
    ObjectMap String String :=
  match action with
  | .add => d.upsert field fun _ => data
  | .delete => d.erase field

theorem commits_storageUpdate (field data : String) (action : StorageUpdateAction) :
    Commits Wallets.data (fun d _ d' => d' = written field data action d)
      (storageUpdate ext field data action) := by
  refine Commits.after (keeps_request _) (keeps_request _).reads fun _ => ⟨?_, ?_⟩
  · intro s e s' hs
    cases hs
  · intro s u s' hs _
    cases hs
    cases action with
    | add => rfl
    | delete => rfl

theorem get_written_add (d : ObjectMap String String) (field data : String) :
    (written field data .add d).get = Function.update d.get field (some data) := by
  funext k
  rw [written, ObjectMap.get_upsert, Function.update_apply]

theorem get_written_delete (d : ObjectMap String String) (field data : String) :
    (written field data .delete d).get = Function.update d.get field none := by
  funext k
  rw [written, ObjectMap.get_erase, Function.update_apply]

theorem free_of_not_found {d : ObjectMap String String} (h : ¬found d name) : Free d.get name := by
  unfold Free
  cases hget : d.get name with
  | none => exact Or.inl rfl
  | some secret =>
    by_cases hempty : secret = ""
    · exact Or.inr (congrArg some hempty)
    · exact absurd (Stellar.found_iff.mpr (Or.inl ⟨secret, hget, hempty⟩)) h

theorem commits_save (name mnemonic : String) :
    Commits Wallets.data
      (fun d _ d' => Free d.get name ∧ d'.get = Function.update d.get name (some mnemonic))
      (save ext name mnemonic) := by
  unfold save
  refine Commits.after (keeps_get _) (reads_get _) fun s => ?_
  by_cases hfound : found s.data name
  · simp only [if_pos hfound]
    exact commits_throw _ _ _
  · simp only [if_neg hfound]
    refine (commits_storageUpdate name mnemonic .add).mono fun d u d' hd' hs => ?_
    rw [hd', get_written_add, ← hs]
    exact ⟨free_of_not_found hfound, rfl⟩

theorem commits_init (o : TfchainWalletInitModel) :
    Commits Wallets.data (fun d address d' => o.secret ≠ "" ∧ Free d.get o.name ∧
      (∃ n, ext.connect n o.secret = .ok address) ∧
      d'.get = Function.update d.get o.name (some o.secret)) (init ext o) := by
  unfold init
  refine Commits.after (keeps_validateInput _) (reads_validateInput _) fun _ => ?_
  refine Commits.after (keeps_request _) (reads_request _) fun address => ?_
  refine (commits_save o.name o.secret).map fun d _ d' hsaved haddress hvalid => ?_
  have hsecret : o.secret ≠ "" := by
    simp only [TfchainWalletInitModel.valid, Bool.and_eq_true, decide_eq_true_eq] at hvalid
    exact hvalid.2
  exact ⟨hsecret, hsaved.1, haddress, hsaved.2⟩

theorem commits_update (o : TfchainWalletInitModel) :
    Commits Wallets.data (fun d address d' => o.secret ≠ "" ∧ d.get o.name ≠ none ∧
      (∃ n, ext.connect n o.secret = .ok address) ∧
      d'.get = Function.update d.get o.name (some o.secret)) (update ext o) := by
  unfold update
  refine Commits.after (keeps_validateInput _) (reads_validateInput _) fun _ => ?_
  refine Commits.after keeps_exist reads_exist fun b => ?_
  by_cases hb : b = true
  · rw [if_neg (not_not_intro hb)]
    refine Commits.after (keeps_request _) (reads_request _) fun address => ?_
    refine ((commits_storageUpdate o.name o.secret .add).rethrow updateError).map
      fun d _ d' hwritten haddress hexist hvalid => ?_
    have hsecret : o.secret ≠ "" := by
      simp only [TfchainWalletInitModel.valid, Bool.and_eq_true, decide_eq_true_eq] at hvalid
      exact hvalid.2
    refine ⟨hsecret, hexist.mp hb, haddress, ?_⟩
    rw [hwritten, get_written_add]
  · rw [if_pos hb]
    exact commits_throw _ _ _

theorem commits_delete (name : String) :
    Commits Wallets.data (fun d text d' => text = "Deleted" ∧ d.get name ≠ none ∧
      d'.get = Function.update d.get name none) (delete ext name) := by
  unfold delete
  refine Commits.after (keeps_validateInput _) (keeps_validateInput _).reads fun _ => ?_
  refine Commits.after keeps_exist reads_exist fun b => ?_
  by_cases hb : b = true
  · rw [if_neg (not_not_intro hb)]
    refine (commits_storageUpdate name "" .delete).map fun d _ d' hwritten hexist _ => ?_
    refine ⟨rfl, hexist.mp hb, ?_⟩
    rw [hwritten, get_written_delete]
  · rw [if_pos hb]
    exact commits_throw _ _ _

theorem commits_create (o : TfchainCreateModel) :
    Commits Wallets.data (fun d mnemonic d' => d.get o.name = none ∧ mnemonic ≠ "" ∧
      (∃ n, ext.createAccount n o.relay = .ok mnemonic) ∧
      d'.get = Function.update d.get o.name (some mnemonic)) (create ext o) := by
  unfold create
  refine Commits.after (keeps_validateInput _) (keeps_validateInput _).reads fun _ => ?_
  refine Commits.after keeps_exist reads_exist fun b => ?_
  by_cases hb : b = true
  · rw [if_pos hb]
    exact commits_throw _ _ _
  · rw [if_neg hb]
    refine Commits.after (keeps_request _) (reads_request _) fun mnemonic => ?_
    refine (commits_init ⟨o.name, mnemonic⟩).map fun d _ d' hinit hnew hexist _ => ?_
    exact ⟨not_not.mp fun hstored => hb (hexist.mpr hstored), hinit.1, hnew, hinit.2.2.2⟩

theorem commits_exec (call : Call) :
    Commits Wallets.data (fun d answer d' => Accepts ext d.get call answer d'.get)
      (call.exec ext) := by
  cases call with
  | init o =>
    refine (commits_init o).map fun d address d' h => ?_
    obtain ⟨hsecret, hfree, ⟨n, haddress⟩, hd'⟩ := h
    rw [hd']
    exact .init hfree hsecret haddress
  | update o =>
    refine (commits_update o).map fun d address d' h => ?_
    obtain ⟨hsecret, hstored, ⟨n, haddress⟩, hd'⟩ := h
    rw [hd']
    exact .update hstored hsecret haddress
  | delete name =>
    refine (commits_delete name).map fun d text d' h => ?_
    obtain ⟨rfl, hstored, hd'⟩ := h
    rw [hd']
    exact .delete hstored
  | create o =>
    refine (commits_create o).map fun d mnemonic d' h => ?_
    obtain ⟨hfree, hsecret, ⟨n, hnew⟩, hd'⟩ := h
    rw [hd']
    exact .create hfree hnew hsecret
  | list =>
    refine (Commits.of_reads keeps_list reads_list).map fun d accounts d' h => ?_
    obtain ⟨⟨hnames, hlisted⟩, rfl⟩ := h
    refine .list ?_ (fun name hstored => ?_) hlisted
    · rw [hnames]
      exact ((ObjectMap.ordered_perm _ d').map Prod.fst).nodup_iff.mpr d'.keys_nodup
    · rw [hnames]
      exact (mem_ordered_iff d').mpr hstored
  | exist name =>
    refine (Commits.of_reads keeps_exist reads_exist).map fun d b d' h => ?_
    obtain ⟨hthere, rfl⟩ := h
    exact .exist hthere

/-- A call that may replace or remove a mnemonic. -/
def Call.Replaces (name : String) : Call → Prop
  | .update o => o.name = name
  | .delete n => n = name
  | _ => False

/-- A change of one account leaves the other ones alone. -/
theorem update_of_free {c : String → Option String} {secret field : String} {value : Option String}
    (hfree : Free c field) (hsecret : secret ≠ "") (hc : c name = some secret) :
    Function.update c field value name = some secret := by
  have hname : name ≠ field := by
    rintro rfl
    rcases hfree with hnone | hempty
    · exact absurd (hc.symm.trans hnone) (Option.some_ne_none secret)
    · exact absurd (Option.some.inj (hc.symm.trans hempty)) hsecret
  rw [Function.update_of_ne hname]
  exact hc

/-- A mnemonic stays unless its own account is updated or deleted. -/
theorem Accepts.kept {call : Call} {answer : Answer} {c c' : String → Option String}
    (h : Accepts ext c call answer c') {secret : String} (hsecret : secret ≠ "")
    (hcall : ¬call.Replaces name) (hc : c name = some secret) : c' name = some secret := by
  cases h with
  | init hfree => exact update_of_free hfree hsecret hc
  | update =>
    rw [Function.update_of_ne fun heq => hcall heq.symm]
    exact hc
  | delete =>
    rw [Function.update_of_ne fun heq => hcall heq.symm]
    exact hc
  | create hfree => exact update_of_free (.inl hfree) hsecret hc
  | list => exact hc
  | exist => exact hc

theorem update_ne_empty {c : String → Option String} (h : ∀ n, c n ≠ some "") (field : String)
    {value : Option String} (hvalue : value ≠ some "") (n : String) :
    Function.update c field value n ≠ some "" := by
  by_cases hn : n = field
  · rw [hn, Function.update_self]
    exact hvalue
  · rw [Function.update_of_ne hn]
    exact h n

theorem Accepts.nonempty {call : Call} {answer : Answer} {c c' : String → Option String}
    (h : Accepts ext c call answer c') (hc : ∀ n, c n ≠ some "") : ∀ n, c' n ≠ some "" := by
  cases h with
  | init _ hsecret => exact update_ne_empty hc _ fun heq => hsecret (Option.some.inj heq)
  | update _ hsecret => exact update_ne_empty hc _ fun heq => hsecret (Option.some.inj heq)
  | delete => exact update_ne_empty hc _ (Option.some_ne_none "").symm
  | create _ _ hsecret => exact update_ne_empty hc _ fun heq => hsecret (Option.some.inj heq)
  | list => exact hc
  | exist => exact hc

/-- A run of calls, whatever the chain and the storage answer: a call that throws changes nothing,
and one that returns makes one change of its own account, or tells what is stored. So a mnemonic is
there until its account is updated or deleted, and none is empty if none was. -/
theorem run_committed (ext : External) (calls : List Call) (s : Wallets) :
    Committed (fun call (d : ObjectMap String String) answer (d' : ObjectMap String String) =>
      Accepts ext d.get call answer d'.get) calls s.data (runAll (Call.exec ext) calls s).1
      (runAll (Call.exec ext) calls s).2.data ∧
    (∀ name secret, secret ≠ "" → s.data.get name = some secret →
      (∀ call ∈ calls, ¬call.Replaces name) →
      (runAll (Call.exec ext) calls s).2.data.get name = some secret) ∧
    ((∀ name, s.data.get name ≠ some "") →
      ∀ name, (runAll (Call.exec ext) calls s).2.data.get name ≠ some "") := by
  have hrun := committed_runAll (fun call => @commits_exec ext call) calls s
  refine ⟨hrun, fun name secret hsecret hget hcalls => ?_, fun hnone => ?_⟩
  · exact hrun.keeps (P := fun d => d.get name = some secret)
      (fun call hcall d _ d' h hd => h.kept hsecret (hcalls call hcall) hd) hget
  · exact hrun.keeps (P := fun d => ∀ name, d.get name ≠ some "")
      (fun call _ d _ d' h hd => h.nonempty hd) hnone

end

end ThreefoldSdk.Modules.TFChain
