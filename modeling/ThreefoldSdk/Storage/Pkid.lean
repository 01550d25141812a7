import ThreefoldSdk.Lib.Interleave
import ThreefoldSdk.Storage.Listing

/-! The backend on PKID (`storage/pkid.ts`): a document for each value, and one that lists the
keys. -/

namespace ThreefoldSdk.Storage

/-- What a document holds: a text, or the list of the keys. -/
inductive Doc where
  | text (t : List Char)
  | keys (ks : List (List Char))
deriving DecidableEq

abbrev Docs := List Char → Option Doc

/-- A call, by the requests that it makes one after the other. -/
inductive Requests where
  | getDoc (name : List Char) (next : Option Doc → Requests)
  | setDoc (name : List Char) (doc : Doc) (next : Requests)
  | done
  /-- A `TypeError`. -/
  | throw

/-- One request. -/
def Requests.step (docs : Docs) : Requests → Docs × Requests
  | getDoc name next => (docs, next (docs name))
  | setDoc name doc next => (Function.update docs name (some doc), next)
  | done => (docs, done)
  | throw => (docs, throw)

namespace PKID

def allKey : List Char := "All".toList

/-- `""` in quotes. -/
def missing : List Char := ['"', '"']

/-- The key without its slashes. -/
def docName (key : List Char) : List Char := key.filter fun c => c ≠ '/'

/-- `value.data`, where there is any. -/
def read : Option Doc → Doc
  | none => .text missing
  | some (.text []) => .text missing
  | some doc => doc

def get (key : List Char) (next : Doc → Requests) : Requests :=
  .getDoc (docName (cropKey key)) fun value => next (read value)

/-- `keys == '""'`; a list is compared by its keys with commas between them. -/
def IsMissing : Doc → Prop
  | .text t => t = missing
  | .keys ks => [','].intercalate ks = missing

instance : DecidablePred IsMissing := fun doc =>
  match doc with
  | .text t => inferInstanceAs (Decidable (t = missing))
  | .keys ks => inferInstanceAs (Decidable ([','].intercalate ks = missing))

def listAll (next : Doc → Requests) : Requests :=
  get allKey fun keys => next (if IsMissing keys then .keys [] else keys)

/-- `keys.includes(key) ? {} : keys.push(key)`; a text has no `push`. -/
def pushed (key : List Char) : Doc → Option Doc
  | .text t => if key <:+: t then some (.text t) else none
  | .keys ks => some (.keys (if key ∈ ks then ks else ks ++ [key]))

/-- `keys.splice(keys.indexOf(key), 1)`, when it is there; a text has no `splice`. -/
def spliced (key : List Char) : Doc → Option Doc
  | .text t => if key <:+: t then none else some (.text t)
  | .keys ks => some (.keys (ks.erase key))

def remove (key : List Char) : Requests :=
  get (cropKey key) fun value =>
    if value = .text [] then .done
    else listAll fun keys =>
      match spliced (cropKey key) keys with
      | none => .throw
      | some allKeys => .setDoc allKey allKeys (.setDoc (docName (cropKey key)) (.text []) .done)

def set (key value : List Char) : Requests :=
  if value = [] then remove (cropKey key)
  else listAll fun keys =>
    match pushed (cropKey key) keys with
    | none => .throw
    | some allKeys => .setDoc allKey allKeys (.setDoc (docName (cropKey key)) (.text value) .done)

/-- A call that changes the documents. -/
inductive Call where
  | set (key value : List Char)
  | remove (key : List Char)
deriving DecidableEq

def Call.requests : Call → Requests
  | set key value => PKID.set key value
  | remove key => PKID.remove key

/-- Two calls, which make their requests in the order of the schedule. -/
def interleaved (docs : Docs) (c : Bool → Call) (schedule : List Bool) :
    Interleave.State Bool Docs Requests :=
  Interleave.run (fun _ => Requests.step) ⟨docs, fun i => (c i).requests⟩ schedule

end PKID

end ThreefoldSdk.Storage
