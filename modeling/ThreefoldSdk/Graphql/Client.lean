import ThreefoldSdk.Lib.GraphQL
import ThreefoldSdk.Lib.ObjectMap

/-! The queries of the GraphQL client: the text and the variables of a request, and of several
requests that are merged into one. -/

namespace ThreefoldSdk.Graphql

open GraphQL

inductive Value where
  | undefined
  | null
  | text (s : String)
  | number (n : ℤ)
  | object (json : String)
deriving DecidableEq

/-- An object of fields with its keys in their order: `true`, an object, or a value of another
type. -/
inductive Fields where
  | nil
  | leaf (key : Name) (rest : Fields)
  | node (key : Name) (sub rest : Fields)
  | other (key : Name) (type : String) (rest : Fields)
deriving DecidableEq

/-! The assertions (`utils/index.ts`). -/

def noField : String := "[Object] must contain at least 1 field."

def assertEach : Fields → Except String Unit
  | .nil => .ok ()
  | .leaf _ rest => assertEach rest
  | .node _ sub rest =>
    if sub = .nil then .error noField
    else do
      assertEach sub
      assertEach rest
  | .other key type _ =>
    .error ("Expected \"" ++ String.ofList key ++ "\" of type [true | string] but got [" ++ type ++ "]")

def assertHasField (fields : Fields) : Except String Unit :=
  if fields = .nil then .error noField else assertEach fields

def assertID : Value → Except String Unit
  | .text "" => .error "Expected a valid [ID] but got []."
  | .undefined => .error "Expected a valid [ID] but got [undefined]."
  | .null => .error "Expected a valid [ID] but got [null]."
  | _ => .ok ()

/-! The texts (`clients/abstract_client.ts`). -/

def normalized : Fields → List (List Char)
  | .nil => []
  | .leaf key rest => key :: normalized rest
  | .node key sub rest =>
    (key ++ '\x7b' :: ([','].intercalate (normalized sub) ++ ['\x7d'])) :: normalized rest
  -- no entries are found in it; the assertion comes first
  | .other key _ rest => (key ++ ['\x7b', '\x7d']) :: normalized rest

def normalizeFields (fields : Fields) : List Char := [','].intercalate (normalized fields)

structure RequestOptions where
  name : Option Name
  query : List Char
  parameters : List (List Char)
  vars : ObjectMap Name Value

def assign (o : ObjectMap Name Value) (entries : List (Name × Value)) : ObjectMap Name Value :=
  entries.foldl (fun o e => o.upsert e.1 fun _ => e.2) o

structure ListOptions where
  limit : Value
  offset : Value
  orderBy : Value
  whereInput : Value

structure ConnectionOptions where
  after : Value
  first : Value
  orderBy : Value
  whereInput : Value

def list (name entity : Name) (fields : Fields) (o : ListOptions) : Except String RequestOptions := do
  assertHasField fields
  return {
    name := some name
    query := "\n      ".toList ++ (name ++ ['(']) ++ "\n        limit: $".toList ++
      ("limit".toList ++ name ++ [',']) ++ "\n        offset: $".toList ++
      ("offset".toList ++ name ++ [',']) ++ "\n        orderBy: $".toList ++
      ("orderBy".toList ++ name ++ [',']) ++ "\n        where: $".toList ++
      ("where".toList ++ name ++ [',']) ++ "\n      ) \x7b\n        ".toList ++
      (normalizeFields fields ++ ['\n']) ++ "      \x7d\n    ".toList
    parameters := [
      "$".toList ++ ("limit".toList ++ name ++ [':']) ++ " Int".toList,
      "$".toList ++ ("offset".toList ++ name ++ [':']) ++ " Int".toList,
      "$".toList ++ ("orderBy".toList ++ name ++ [':']) ++
        (" [".toList ++ (entity ++ "OrderByInput".toList ++ ['!']) ++ "]".toList),
      "$".toList ++ ("where".toList ++ name ++ [':']) ++
        (" ".toList ++ (entity ++ "WhereInput".toList))]
    vars := assign ObjectMap.empty [
      ("limit".toList ++ name, o.limit), ("offset".toList ++ name, o.offset),
      ("orderBy".toList ++ name, o.orderBy), ("where".toList ++ name, o.whereInput)] }

def byId (id : Value) (fields : Fields) (name : Name) : Except String RequestOptions := do
  assertID id
  assertHasField fields
  return {
    name := some name
    query := "\n      ".toList ++ (name ++ ['(']) ++ "id: $".toList ++
      ("id".toList ++ name ++ [')']) ++ " \x7b\n        ".toList ++
      (normalizeFields fields ++ ['\n']) ++ "      \x7d\n    ".toList
    parameters := ["$".toList ++ ("id".toList ++ name ++ [':']) ++ " ID!".toList]
    vars := assign ObjectMap.empty [("id".toList ++ name, id)] }

def connection (CONNECTION_ENTITY_QUERIES : Name → Name) (fields : Fields) (o : ConnectionOptions)
    (name : Name) : Except String RequestOptions := do
  assertHasField fields
  let entity := CONNECTION_ENTITY_QUERIES name
  return {
    name := some name
    query := "\n      ".toList ++ (name ++ ['(']) ++ "\n        after: $".toList ++
      ("after".toList ++ name ++ [',']) ++ "\n        first: $".toList ++
      ("first".toList ++ name ++ [',']) ++ "\n        orderBy: $".toList ++
      ("orderBy".toList ++ name ++ [',']) ++ "\n        where: $".toList ++
      ("where".toList ++ name ++ ['\n']) ++ "      ) \x7b\n        ".toList ++
      (normalizeFields fields ++ ['\n']) ++ "      \x7d\n    ".toList
    parameters := [
      "$".toList ++ ("after".toList ++ name ++ [':']) ++ " String".toList,
      "$".toList ++ ("first".toList ++ name ++ [':']) ++ " Int".toList,
      "$".toList ++ ("orderBy".toList ++ name ++ [':']) ++
        (" [".toList ++ (entity ++ "OrderByInput".toList ++ ['!']) ++ "]!".toList),
      "$".toList ++ ("where".toList ++ name ++ [':']) ++
        (" ".toList ++ (entity ++ "WhereInput".toList))]
    vars := assign ObjectMap.empty [
      ("after".toList ++ name, o.after), ("first".toList ++ name, o.first),
      ("orderBy".toList ++ name, o.orderBy), ("where".toList ++ name, o.whereInput)] }

/-! The client (`clients/client.ts`). -/

/-- A query of a property of the client, with the entity of one that lists. -/
inductive Query where
  | list (name entity : Name) (fields : Fields) (options : ListOptions)
  | byId (name : Name) (id : Value) (fields : Fields)
  | connection (name : Name) (fields : Fields) (options : ConnectionOptions)

def Query.name : Query → Name
  | list name _ _ _ => name
  | byId name _ _ => name
  | connection name _ _ => name

def Query.fields : Query → Fields
  | list _ _ fields _ => fields
  | byId _ _ fields => fields
  | connection _ fields _ => fields

section
variable (CONNECTION_ENTITY_QUERIES : Name → Name)

def Query.options : Query → Except String RequestOptions
  | list name entity fields options => Graphql.list name entity fields options
  | byId name id fields => Graphql.byId id fields name
  | connection name fields options =>
    Graphql.connection CONNECTION_ENTITY_QUERIES fields options name

/-- The query that `_request` posts, with the variables. -/
def request (o : RequestOptions) : List Char × ObjectMap Name Value :=
  let p := if o.parameters.length ≠ 0 then
      ['('] ++ ", ".toList.intercalate o.parameters ++ [')']
    else []
  ("\n          query ".toList ++ "TFGridClientQuery".toList ++ p ++ " \x7b\n            ".toList ++
    o.query ++ "\n          \x7d\n        ".toList, o.vars)

def mergeOptions (o : RequestOptions) (next : RequestOptions) : RequestOptions :=
  { o with
    parameters := o.parameters ++ next.parameters
    query := o.query ++ (' ' :: next.query)
    vars := assign o.vars next.vars.entries }

def merge (queries : List Query) : Except String RequestOptions := do
  let options ← queries.mapM (Query.options CONNECTION_ENTITY_QUERIES)
  return options.foldl mergeOptions ⟨none, [], [], ObjectMap.empty⟩

end

end ThreefoldSdk.Graphql
