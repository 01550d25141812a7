import ThreefoldSdk.Lib.ObjectMap
import ThreefoldSdk.Lib.UrlQuery
import ThreefoldSdk.Lib.Utf16

/-! The builders of the queries to the grid proxy (`gridproxy_client/src/builders`): the checks of
the values (`utils/assert.ts`), and how the query string is put together. -/

namespace ThreefoldSdk.GridProxy

/-- A text by its code units. -/
abbrev Text := List UInt16

def literal (s : String) : Text := Utf16.encode s.toList

/-- What is thrown. -/
inductive QueryError where
  | error (message : Text)
  | typeError
  | uriError

/-- A number, by its sign and its shortest decimal digits with their exponent. Numbers are exact. -/
inductive Number where
  | nan
  | infinity (negative : Bool)
  | zero
  | finite (negative : Bool) (digits : ℕ) (exponent : ℤ) (shortest : digits % 10 ≠ 0)

namespace Number

def sign (negative : Bool) : String := if negative then "-" else ""

/-- `e+21`, `e-7`. -/
def exponentText (e : ℤ) : String := (if 0 ≤ e then "e+" else "e-") ++ toString e.natAbs

/-- The digits, with the point behind the first `n`. -/
def decimalText (ds : List Char) (n : ℤ) : String :=
  let k : ℤ := ds.length
  if k ≤ n ∧ n ≤ 21 then String.ofList (ds ++ List.replicate (n - k).toNat '0')
  else if 0 < n ∧ n ≤ 21 then String.ofList (ds.take n.toNat ++ '.' :: ds.drop n.toNat)
  else if -6 < n ∧ n ≤ 0 then String.ofList ('0' :: '.' :: List.replicate (-n).toNat '0' ++ ds)
  else if k = 1 then String.ofList ds ++ exponentText (n - 1)
  else String.ofList (ds.take 1 ++ '.' :: ds.drop 1) ++ exponentText (n - 1)

/-- `Number.prototype.toString`. -/
def text : Number → String
  | nan => "NaN"
  | infinity negative => sign negative ++ "Infinity"
  | zero => "0"
  | finite negative digits exponent _ =>
    let ds := (toString digits).toList
    sign negative ++ decimalText ds (ds.length + exponent)

def digitsValue (ds : List Char) : ℕ := ds.foldl (fun n c => 10 * n + (c.toNat - 48)) 0

/-- `parseInt(_, 10)` of a text without blanks in front. -/
def parseInt (t : List Char) : Option ℤ :=
  let negative := t.head? = some '-'
  let ds := (if negative ∨ t.head? = some '+' then t.drop 1 else t).takeWhile Char.isDigit
  if ds = [] then none
  else some (if negative then -(digitsValue ds : ℤ) else digitsValue ds)

/-- `===` with an integer. -/
def equals (x : Number) (n : ℤ) : Bool :=
  match x with
  | nan => false
  | infinity _ => false
  | zero => decide (n = 0)
  | finite negative digits exponent _ =>
    decide (0 ≤ exponent ∧
      n = (if negative then -1 else 1) * (digits * 10 ^ exponent.toNat : ℤ))

/-- `utils.min`. -/
def min (x : Number) (n : ℕ) : Bool :=
  match x with
  | nan => false
  | infinity negative => !negative
  | zero => decide (n = 0)
  | finite true _ _ _ => false
  | finite false digits exponent _ =>
    decide (n * 10 ^ (-exponent).toNat ≤ digits * 10 ^ exponent.toNat)

/-- Takes the zeros off the end, of which there are fewer than the first argument. -/
def scaled : ℕ → ℕ → ℤ → Number
  | 0, _, _ => zero
  | n + 1, digits, exponent =>
    if h : digits % 10 ≠ 0 then finite false digits exponent h
    else scaled n (digits / 10) (exponent + 1)

def ofNat (n : ℕ) : Number := scaled (n + 1) n 0

end Number

inductive QueryValue where
  | undefined
  | null
  | string (s : Text)
  | number (x : Number)
  | boolean (b : Bool)
  | list (vs : List QueryValue)

namespace QueryValue

mutual

/-- `String(value)`. -/
def text : QueryValue → Text
  | undefined => literal "undefined"
  | null => literal "null"
  | string s => s
  | number x => literal x.text
  | boolean b => literal (toString b)
  | list vs => (literal ",").intercalate (texts vs)

/-- The parts of `join`. -/
def texts : List QueryValue → List Text
  | [] => []
  | undefined :: vs => [] :: texts vs
  | null :: vs => [] :: texts vs
  | v :: vs => text v :: texts vs

end

def typeOf : QueryValue → String
  | undefined => "undefined"
  | null => "object"
  | string _ => "string"
  | number _ => "number"
  | boolean _ => "boolean"
  | list _ => "object"

end QueryValue

abbrev Check := QueryValue → Except QueryError Unit

def panic (expect : String) : Check := fun value =>
  .error (.error (literal ("Expected argument of type [" ++ expect ++ "] but got [" ++
    value.typeOf.capitalize ++ "] with value (") ++ value.text ++ literal ")."))

def assertNumber : Check
  | .number _ => .ok ()
  | value => panic "Number" value

/-- `isInt`. -/
def Number.isInt (x : Number) : Bool :=
  match Number.parseInt x.text.toList with
  | some n => x.equals n
  | none => false

def assertInt : Check
  | .number x => if x.isInt then .ok () else panic "Int" (.number x)
  | value => assertNumber value

/-- `assertNatural` and `assertId`: an integer from a lowest one on. -/
def assertMin (lowest : ℕ) (expect : String) : Check := fun value => do
  assertInt value
  match value with
  | .number x => if x.min lowest then .ok () else panic expect value
  | _ => .ok ()

def assertNatural : Check := assertMin 0 "Natural"

def assertId : Check := assertMin 1 "ID"

def assertString : Check
  | .string _ => .ok ()
  | value => panic "String" value

def assertIn (domain : List String) : Check := fun value =>
  match value with
  | .string s => if s ∈ domain.map literal then .ok () else panic (expect domain) value
  | _ => panic (expect domain) value
where
  expect (domain : List String) : String :=
    "domain(" ++ ", ".intercalate (domain.map fun v => "\"" ++ v ++ "\"") ++ ")"

def assertBoolean : Check
  | .boolean _ => .ok ()
  | value => panic "Boolean" value

/-- `assertPattern`, of a text that the pattern was tested on. -/
def assertPattern (pattern : String) (matched : Bool) : Check := fun value =>
  if matched then .ok () else panic pattern value

/-- Letters, digits and underscores. -/
def isWord (name : String) : Bool := name.toList.all fun c => c.isAlphanum || decide (c = '_')

/-- The names of the parameters are words, which need no encoding. -/
structure BuilderOptions (κ : Type) where
  mapper : κ → String
  validator : κ → Check
  mapper_word : ∀ key, isWord (mapper key) = true

structure AbstractBuilder (κ : Type) where
  uri : String
  options : BuilderOptions κ
  queries : ObjectMap κ QueryValue

/-- The values that are left out. -/
def QueryValue.isEmpty : QueryValue → Bool
  | undefined => true
  | null => true
  | string s => decide (s = [])
  | _ => false

namespace AbstractBuilder
variable {κ : Type}

/-- The methods that are defined for the keys. -/
def set [DecidableEq κ] (b : AbstractBuilder κ) (key : κ) (value : QueryValue) :
    AbstractBuilder κ :=
  { b with queries := b.queries.upsert key fun _ => value }

/-- The loop of `build`. -/
def out (b : AbstractBuilder κ) : List (κ × QueryValue) → Except QueryError (List Text)
  | [] => .ok []
  | (key, value) :: es =>
    if value.isEmpty then b.out es
    else do
      b.options.validator key value
      return (literal (b.options.mapper key) ++ literal "=" ++ value.text) :: (← b.out es)

def query (b : AbstractBuilder κ) : Except QueryError Text := do
  let out ← b.out b.queries.entries
  return if 0 < out.length then literal "?" ++ (literal "&").intercalate out else []

/-- What is fetched. -/
def build (b : AbstractBuilder κ) (path : Text) : Except QueryError Text := do
  assertPattern "/^\\//" (path.head? = some 47) (.string path)
  return literal b.uri ++ path ++ (← b.query)

end AbstractBuilder

/-- What is sent of a text. -/
def utf8 (cs : List Char) : UrlQuery.Bytes := cs.flatMap String.utf8EncodeChar

/-! The other encoder, in the grid client's `helpers/utils.ts`. -/

/-- A surrogate without its other half is not encoded. -/
def encodeURIComponent (s : Text) : Except QueryError Text :=
  match Utf16.decode s with
  | none => .error .uriError
  | some cs =>
    .ok ((UrlQuery.percentEncode UrlQuery.uriKept (utf8 cs)).map fun b => UInt16.ofNat b.toNat)

def filteredParams (obj : ObjectMap Text QueryValue) : List (Text × QueryValue) :=
  obj.entries.filter fun e =>
    match e.2 with
    | .undefined => false
    | .string s => decide (s ≠ [])
    | _ => true

def encodedParam (e : Text × QueryValue) : Except QueryError Text := do
  return (← encodeURIComponent e.1) ++ literal "=" ++ (← encodeURIComponent e.2.text)

def convertObjectToQueryString (obj : ObjectMap Text QueryValue) : Except QueryError Text := do
  return (literal "&").intercalate (← (filteredParams obj).mapM encodedParam)

end ThreefoldSdk.GridProxy
