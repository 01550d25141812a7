import ThreefoldSdk.Lib.ObjectMap
import ThreefoldSdk.Lib.Probe
import ThreefoldSdk.Primitives.Network
import ThreefoldSdk.Storage.Listing

/-! The backend on the chain (`storage/tfkvstore.ts`), which cuts a value into fragments under
derived keys, over the encrypted store (`clients/tf-grid/kvstore.ts`). -/

namespace ThreefoldSdk.Storage
open Primitives Probe

/-- A text by its code units. -/
abbrev Text := List UInt16

/-- The user's entries in the store of the chain. -/
abbrev Store := ObjectMap (List Char) Text

/-- The chain answers the empty text for a missing key. -/
def Store.value (s : Store) (key : List Char) : Text := (s.get key).getD []

/-- An extrinsic of the store. -/
inductive StoreCall where
  | set (key : List Char) (value : Text)
  | delete (key : List Char)
deriving DecidableEq

def StoreCall.apply (s : Store) : StoreCall → Store
  | set key value => s.upsert key fun _ => value
  | delete key => s.erase key

def applyAll (s : Store) (calls : List StoreCall) : Store := calls.foldl StoreCall.apply s

/-- The encryption with the user's secret. -/
structure Secretbox where
  /-- With the nonce that is drawn as the `n`-th. -/
  encrypt : Nat → Text → Except GridError Text
  /-- Nothing, when it throws. -/
  decrypt : Text → Option Text

def SPLIT_SIZE : Nat := 1490

/-- `""` in quotes. -/
def quotes : Text := [34, 34]

/-- The key of the `i`-th fragment. -/
def fragment (key : List Char) (i : Nat) : List Char :=
  if i = 0 then key else key ++ '.' :: (toString i).toList

/-- `splits[k] = value`; a key is assigned once. The property `__proto__` takes no text. -/
def assign (splits : List (List Char × Text)) (k : List Char) (value : Text) :
    List (List Char × Text) :=
  if k = "__proto__".toList then splits else splits ++ [(k, value)]

/-- The loop of `split`, with no more rounds than the value has code units. -/
def splitFrom (key : List Char) : Nat → Nat → List (List Char × Text) → Text →
    List (List Char × Text)
  | 0, i, splits, value => assign splits (fragment key i) value
  | n + 1, i, splits, value =>
    if SPLIT_SIZE < value.length then
      splitFrom key n (i + 1) (assign splits (fragment key i) (value.take SPLIT_SIZE))
        (value.drop SPLIT_SIZE)
    else assign splits (fragment key i) value

/-- The fragments in the order of `Object.keys`: the key comes first, and no other one is an
index. -/
def split (key : List Char) (value : Text) : List (List Char × Text) :=
  splitFrom key value.length 0 [] value

/-- The loop of `set` over the fragments. -/
def setSplits (encrypt : Nat → Text → Except GridError Text) :
    Nat → List (List Char × Text) → Except GridError (List StoreCall)
  | _, [] => .ok []
  | n, (k, value) :: splits => do
    let encryptedValue ← encrypt n value
    return .set k encryptedValue :: (← setSplits encrypt (n + 1) splits)

section
variable (box : Secretbox)

/-- `kvStore.get`. -/
def kvGet (s : Store) (key : List Char) : Except GridError Text :=
  if s.value key = [] then .ok []
  else
    match box.decrypt (s.value key) with
    | some value => .ok value
    | none => .error (.base "GridClientError" s!"Couldn't decrypt key: {String.ofList key}.")

/-- The fragments that the loops over `key.i` read; they stop before the store is used up. -/
def readFragments {β : Type} (s : Store) (key : List Char) (emit : Nat → Text → β) (start : Nat) :
    Except GridError (List β) :=
  probe (fun i => kvGet box s (fragment key i)) emit (s.entries.length + 1) start

def cleanFragments (s : Store) (key : List Char) (start : Nat) : Except GridError (List StoreCall) :=
  readFragments box s key (fun i _ => .delete (fragment key i)) start

namespace TFKVStoreBackend

def get (s : Store) (key : List Char) : Except GridError Text := do
  let value ← kvGet box s (cropKey key)
  if value = [] then return quotes
  else
    let rest ← readFragments box s (cropKey key) (fun _ val => val) 1
    return value ++ rest.flatten

/-- Nothing is returned for a key that is missing. -/
def remove (s : Store) (key : List Char) : Except GridError (Option (List StoreCall)) := do
  let value ← kvGet box s (cropKey key)
  if value = [] then return none
  else
    let calls ← cleanFragments box s (cropKey key) 1
    return some (calls ++ [.delete (cropKey key)])

/-- The nonces are drawn from the `n`-th on. -/
def set (n : Nat) (s : Store) (key : List Char) (value : Text) :
    Except GridError (Option (List StoreCall)) := do
  if value = [] ∨ value = quotes then remove box s (cropKey key)
  else
    let splits := split (cropKey key) value
    let sets ← setSplits box.encrypt n splits
    let calls ← cleanFragments box s (cropKey key) splits.length
    return some (sets ++ calls)

end TFKVStoreBackend

end

end ThreefoldSdk.Storage
