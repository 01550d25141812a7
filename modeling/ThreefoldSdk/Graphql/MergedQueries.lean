import ThreefoldSdk.Graphql.Client
import ThreefoldSdk.Lib.Forall2
import ThreefoldSdk.Lib.Frame

/-! What the server reads of a request: the operation that the text says, and what this asks for with
the variables that are sent. -/

namespace ThreefoldSdk.Graphql

open GraphQL

/-! What is meant. -/

/-- Fields that the assertion lets through, under names. -/
def Fields.Named : Fields → Prop
  | nil => True
  | leaf key rest => isName key = true ∧ rest.Named
  | node key sub rest => isName key = true ∧ sub ≠ .nil ∧ sub.Named ∧ rest.Named
  | other _ _ _ => False

/-- Every key is a name. -/
def Fields.keysNamed : Fields → Bool
  | nil => true
  | leaf key rest => isName key && rest.keysNamed
  | node key sub rest => isName key && (sub.keysNamed && rest.keysNamed)
  | other key _ rest => isName key && rest.keysNamed

def Fields.selection : Fields → Selection
  | nil => .nil
  | leaf key rest => .field key [] .nil rest.selection
  | node key sub rest => .field key [] sub.selection rest.selection
  | other key _ rest => .field key [] .nil rest.selection

namespace Query

/-- The arguments of a query: the words in front of its name, with the types and the values of their
variables. -/
def arguments (entities : Name → Name) : Query → List (Name × GType × Value)
  | list _ entity _ o => [
      ("limit".toList, .named "Int".toList false, o.limit),
      ("offset".toList, .named "Int".toList false, o.offset),
      ("orderBy".toList, .list (.named (entity ++ "OrderByInput".toList) true) false, o.orderBy),
      ("where".toList, .named (entity ++ "WhereInput".toList) false, o.whereInput)]
  | byId _ id _ => [("id".toList, .named "ID".toList true, id)]
  | connection name _ o => [
      ("after".toList, .named "String".toList false, o.after),
      ("first".toList, .named "Int".toList false, o.first),
      ("orderBy".toList, .list (.named (entities name ++ "OrderByInput".toList) true) true, o.orderBy),
      ("where".toList, .named (entities name ++ "WhereInput".toList) false, o.whereInput)]

section
variable (entities : Name → Name) (q : Query)

/-- The variables that a query declares. -/
def declares : List (Name × GType) := (q.arguments entities).map fun a => (a.1 ++ q.name, a.2.1)

def entries : List (Name × Value) := (q.arguments entities).map fun a => (a.1 ++ q.name, a.2.2)

/-- What a query asks for. -/
def asked : Asked Value where
  name := q.name
  args := q.arguments entities
  selection := q.fields.selection

def field : Field where
  name := q.name
  args := (q.arguments entities).map fun a => (a.1, a.1 ++ q.name)
  sub := q.fields.selection

/-- The names and the keys of a query are names of the language. -/
def WellNamed : Prop :=
  isName q.name = true ∧ q.fields.keysNamed = true ∧
    match q with
    | list _ entity _ _ => isName entity = true
    | byId _ _ _ => True
    | connection name _ _ => isName (entities name) = true

end

end Query

/-! Texts of fields. -/

section
variable {f : Fields} {c : Char} {ts : List Token} {k s : List Char}

theorem named_of_assertEach (h : assertEach f = .ok ()) (hkeys : f.keysNamed = true) : f.Named := by
  induction f with
  | nil => trivial
  | leaf key rest ih =>
    obtain ⟨hkey, hrest⟩ := Bool.and_eq_true_iff.mp hkeys
    exact ⟨hkey, ih h hrest⟩
  | node key sub rest ihsub ihrest =>
    obtain ⟨hkey, hkeys⟩ := Bool.and_eq_true_iff.mp hkeys
    obtain ⟨hsub, hrest⟩ := Bool.and_eq_true_iff.mp hkeys
    unfold assertEach at h
    split_ifs at h with hnil
    cases hassert : assertEach sub with
    | error e =>
      rw [hassert] at h
      cases h
    | ok u =>
      rw [hassert] at h
      exact ⟨hkey, hnil, ihsub hassert hsub, ihrest h hrest⟩
  | other key type rest => cases h

theorem named_of_assertHasField (h : assertHasField f = .ok ()) (hkeys : f.keysNamed = true) :
    f ≠ .nil ∧ f.Named := by
  unfold assertHasField at h
  split_ifs at h with hnil
  exact ⟨hnil, named_of_assertEach h hkeys⟩

theorem intercalate_normalized {rest : Fields} (h : rest ≠ .nil) (s : List Char) :
    [','].intercalate (s :: normalized rest) = s ++ (',' :: normalizeFields rest) := by
  unfold normalizeFields
  have hne : normalized rest ≠ [] := by
    cases rest with
    | nil => exact absurd rfl h
    | leaf key rest => exact List.cons_ne_nil _ _
    | node key sub rest => exact List.cons_ne_nil _ _
    | other key type rest => exact List.cons_ne_nil _ _
  obtain ⟨t, ts, hts⟩ := List.exists_cons_of_ne_nil hne
  rw [hts]
  simp [List.intercalate]

theorem reads_mark (hc : isNameChar c = false) (hmark : mark c = some ts) : Reads [c] ts := by
  constructor
  · show (!isNameChar c) = true
    rw [hc]
    rfl
  · unfold lex lexFrom
    rw [hc, if_neg Bool.false_ne_true, hmark]
    show some ([] ++ ts ++ []) = some ts
    rw [List.append_nil, List.nil_append]

/-- The text of a field that stands in front of others, or at the end. -/
theorem reads_first {rest : Fields} {first : List Token} (hc : isNameChar c = false)
    (hmark : mark c = some ts)
    (hfirst : ∀ d us, isNameChar d = false → mark d = some us → Reads (s ++ [d]) (first ++ us))
    (hrest : rest ≠ .nil → Reads (normalizeFields rest ++ [c]) (rest.selection.tokens ++ ts)) :
    Reads ([','].intercalate (s :: normalized rest) ++ [c]) (first ++ rest.selection.tokens ++ ts) := by
  by_cases hnil : rest = .nil
  · rw [hnil]
    have hone : [','].intercalate (s :: normalized Fields.nil) = s := by
      simp [normalized, List.intercalate]
    rw [hone]
    show Reads (s ++ [c]) (first ++ [] ++ ts)
    rw [List.append_nil]
    exact hfirst c ts hc hmark
  · have hcomma : Reads (s ++ [',']) (first ++ []) := hfirst ',' [] rfl rfl
    have hboth := hcomma.append (hrest hnil)
    rw [intercalate_normalized hnil]
    rw [List.append_nil, ← List.append_assoc first] at hboth
    have htext : s ++ [','] ++ (normalizeFields rest ++ [c]) =
        s ++ (',' :: normalizeFields rest) ++ [c] := by
      rw [List.append_assoc, List.append_assoc]
      rfl
    rw [← htext]
    exact hboth

theorem braced_eq {sub : Selection} (h : sub ≠ .nil) (us : List Token) :
    braced sub us = Token.openBrace :: us ++ [Token.closeBrace] := if_neg h

theorem selection_ne_nil (h : f ≠ .nil) : f.selection ≠ .nil := by
  cases f with
  | nil => exact absurd rfl h
  | leaf key rest => exact Selection.noConfusion
  | node key sub rest => exact Selection.noConfusion
  | other key type rest => exact Selection.noConfusion

/-- The text of the fields says their selection. -/
theorem reads_fields (hf : f ≠ .nil) (hnamed : f.Named) (hc : isNameChar c = false)
    (hmark : mark c = some ts) :
    Reads (normalizeFields f ++ [c]) (f.selection.tokens ++ ts) := by
  induction f generalizing c ts with
  | nil => exact absurd rfl hf
  | leaf key rest ih =>
    obtain ⟨hkey, hrest⟩ := hnamed
    have hfirst : ∀ d us, isNameChar d = false → mark d = some us →
        Reads (key ++ [d]) ([.name key] ++ us) := fun d us hd hus => Reads.name hkey hd hus
    exact reads_first hc hmark hfirst fun hne => ih hne hrest hc hmark
  | node key sub rest ihsub ihrest =>
    obtain ⟨hkey, hsub, hsubNamed, hrest⟩ := hnamed
    have hopen : Reads (key ++ ['\x7b']) [.name key, .openBrace] := Reads.name hkey rfl rfl
    have hclose : Reads (normalizeFields sub ++ ['\x7d']) (sub.selection.tokens ++ [Token.closeBrace]) :=
      ihsub hsub hsubNamed rfl rfl
    have hfirst : ∀ d us, isNameChar d = false → mark d = some us →
        Reads ((key ++ '\x7b' :: (normalizeFields sub ++ ['\x7d'])) ++ [d])
          (.name key :: braced sub.selection sub.selection.tokens ++ us) := by
      intro d us hd hus
      have hall := (hopen.append hclose).append (reads_mark hd hus)
      rw [braced_eq (selection_ne_nil hsub)]
      have htext : key ++ '\x7b' :: (normalizeFields sub ++ ['\x7d']) ++ [d] =
          key ++ ['\x7b'] ++ (normalizeFields sub ++ ['\x7d']) ++ [d] := by
        rw [List.append_assoc key ['\x7b']]
        rfl
      rw [htext]
      exact hall
    exact reads_first hc hmark hfirst fun hne => ihrest hne hrest hc hmark
  | other key type rest => exact absurd hnamed id

end

/-! Requests. -/

/-- A text that says a type, in front of a mark. -/
def ReadsType (s : List Char) (t : GType) : Prop :=
  ∀ c ts, isNameChar c = false → mark c = some ts → Reads (s ++ [c]) (t.tokens ++ ts)

/-- A text that says a definition, in front of a mark. -/
def ReadsDefinition (s : List Char) (d : Name × GType) : Prop :=
  ∀ c ts, isNameChar c = false → mark c = some ts → Reads (s ++ [c]) (definitionTokens [d] ++ ts)

/-- What the options of a request say. -/
structure Says (o : RequestOptions) (fs : List Field) (ds : List (Name × GType)) : Prop where
  query : Reads o.query (fs.flatMap Field.tokens)
  parameters : List.Forall₂ ReadsDefinition o.parameters ds

section
variable {name entity w t : Name} {c : Char} {ts : List Token} {s : List Char}

theorem isName_append {v : Name} (hw : isName w = true) (hv : v.all isNameChar = true) :
    isName (w ++ v) = true := by
  obtain ⟨hall, hhead⟩ := Bool.and_eq_true_iff.mp hw
  cases w with
  | nil => cases hhead
  | cons d w =>
    unfold isName
    rw [List.all_append, hall, hv]
    exact hhead

theorem all_of_isName (h : isName w = true) : w.all isNameChar = true :=
  (Bool.and_eq_true_iff.mp h).1

/-- An argument: its word, and the variable of the word and the query. -/
theorem reads_argument (hs : Reads s [.name w, .colon, .dollar]) (hw : isName w = true)
    (hname : isName name = true) (hc : isNameChar c = false) (hmark : mark c = some []) :
    Reads (s ++ (w ++ name ++ [c])) (argumentTokens [(w, w ++ name)]) :=
  hs.append (Reads.name (isName_append hw (all_of_isName hname)) hc hmark)

theorem reads_closed (s : List Char)
    (h : (s.getLast?.all fun c => !isNameChar c) = true ∧ lex s = some ts) : Reads s ts :=
  ⟨h.1, h.2⟩

theorem reads_parameter {type : GType} (hw : isName w = true) (hname : isName name = true)
    (hs : ReadsType s type) :
    ReadsDefinition ("$".toList ++ (w ++ name ++ [':']) ++ s) (w ++ name, type) := by
  intro c ts hc hmark
  have hdollar : Reads "$".toList [.dollar] := reads_closed _ ⟨rfl, rfl⟩
  have hvariable : Reads (w ++ name ++ [':']) [.name (w ++ name), .colon] :=
    Reads.name (isName_append hw (all_of_isName hname)) rfl rfl
  have hall := (hdollar.append hvariable).append (hs c ts hc hmark)
  unfold definitionTokens
  rw [List.append_assoc, List.flatMap_cons, List.flatMap_nil, List.append_nil]
  exact hall

theorem readsType_named (ht : isName t = true) : ReadsType (" ".toList ++ t) (.named t false) := by
  intro c ts hc hmark
  have hblank : Reads " ".toList [] := reads_closed _ ⟨rfl, rfl⟩
  rw [List.append_assoc]
  exact hblank.append (Reads.name ht hc hmark)

theorem readsType_required : ReadsType " ID!".toList (.named "ID".toList true) := by
  intro c ts hc hmark
  have hid : Reads " ID!".toList [.name "ID".toList, .bang] := reads_closed _ ⟨rfl, rfl⟩
  exact hid.append (reads_mark hc hmark)

/-- A list of orders, behind which the bracket is closed. -/
theorem readsType_ordering {b : Bool} (hentity : isName entity = true)
    (hs : Reads s (.closeBracket :: requiredTokens b)) :
    ReadsType (" [".toList ++ (entity ++ "OrderByInput".toList ++ ['!']) ++ s)
      (.list (.named (entity ++ "OrderByInput".toList) true) b) := by
  intro c ts hc hmark
  have hopen : Reads " [".toList [.openBracket] := reads_closed _ ⟨rfl, rfl⟩
  have hname : Reads (entity ++ "OrderByInput".toList ++ ['!'])
      [.name (entity ++ "OrderByInput".toList), .bang] :=
    Reads.name (isName_append hentity rfl) rfl rfl
  exact ((hopen.append hname).append hs).append (reads_mark hc hmark)

end

section
variable {entities : Name → Name} {name entity : Name} {fields : Fields} {r : RequestOptions}

/-- The selection in its braces, as each of the texts ends. -/
theorem reads_end (hf : fields ≠ .nil) (hnamed : fields.Named) :
    Reads ((normalizeFields fields ++ ['\n']) ++ "      \x7d\n    ".toList)
      (fields.selection.tokens ++ [Token.closeBrace]) := by
  have hfields : Reads (normalizeFields fields ++ ['\n']) (fields.selection.tokens ++ []) :=
    reads_fields hf hnamed rfl rfl
  have hclose : Reads "      \x7d\n    ".toList [.closeBrace] := reads_closed _ ⟨rfl, rfl⟩
  rw [List.append_nil] at hfields
  exact hfields.append hclose

/-- The arguments that the queries of many entities have in common. -/
theorem reads_orderBy (hname : isName name = true) :
    Reads ("\n        orderBy: $".toList ++ ("orderBy".toList ++ name ++ [',']))
      (argumentTokens [("orderBy".toList, "orderBy".toList ++ name)]) :=
  reads_argument (reads_closed _ ⟨rfl, rfl⟩) rfl hname rfl rfl

theorem reads_where {c : Char} (hname : isName name = true) (hc : isNameChar c = false)
    (hmark : mark c = some []) :
    Reads ("\n        where: $".toList ++ ("where".toList ++ name ++ [c]))
      (argumentTokens [("where".toList, "where".toList ++ name)]) :=
  reads_argument (reads_closed _ ⟨rfl, rfl⟩) rfl hname hc hmark

/-- Their parameters. -/
theorem reads_lastParameters {s : List Char} {b : Bool} (hname : isName name = true)
    (hentity : isName entity = true) (hs : Reads s (.closeBracket :: requiredTokens b)) :
    List.Forall₂ ReadsDefinition
      ["$".toList ++ ("orderBy".toList ++ name ++ [':']) ++
          (" [".toList ++ (entity ++ "OrderByInput".toList ++ ['!']) ++ s),
        "$".toList ++ ("where".toList ++ name ++ [':']) ++
          (" ".toList ++ (entity ++ "WhereInput".toList))]
      [("orderBy".toList ++ name, .list (.named (entity ++ "OrderByInput".toList) true) b),
        ("where".toList ++ name, .named (entity ++ "WhereInput".toList) false)] := by
  have horderBy := reads_parameter (w := "orderBy".toList) rfl hname (readsType_ordering hentity hs)
  have hwhere := reads_parameter (w := "where".toList) rfl hname
    (readsType_named (isName_append (v := "WhereInput".toList) hentity rfl))
  exact List.Forall₂.cons horderBy (List.Forall₂.cons hwhere List.Forall₂.nil)

theorem says_list {options : ListOptions} (h : list name entity fields options = .ok r)
    (hq : (Query.list name entity fields options).WellNamed entities) :
    Says r [(Query.list name entity fields options).field entities]
        ((Query.list name entity fields options).declares entities) ∧
      r.vars = assign ObjectMap.empty ((Query.list name entity fields options).entries entities) := by
  obtain ⟨hname, hkeys, hentity⟩ := hq
  unfold list at h
  cases hassert : assertHasField fields with
  | error e =>
    rw [hassert] at h
    cases h
  | ok u =>
    rw [hassert] at h
    obtain ⟨hf, hnamed⟩ := named_of_assertHasField hassert hkeys
    have hr := Except.ok.inj h
    subst hr
    have hbegin : Reads "\n      ".toList [] := reads_closed _ ⟨rfl, rfl⟩
    have hopen : Reads (name ++ ['(']) [.name name, .openParen] := Reads.name hname rfl rfl
    have hlimit := reads_argument (c := ',') (reads_closed "\n        limit: $".toList ⟨rfl, rfl⟩)
      (w := "limit".toList) rfl hname rfl rfl
    have hoffset := reads_argument (c := ',') (reads_closed "\n        offset: $".toList ⟨rfl, rfl⟩)
      (w := "offset".toList) rfl hname rfl rfl
    have hbody : Reads "\n      ) \x7b\n        ".toList [.closeParen, .openBrace] :=
      reads_closed _ ⟨rfl, rfl⟩
    have harguments := ((((hbegin.append hopen).append hlimit).append hoffset).append
      (reads_orderBy hname)).append (reads_where hname (c := ',') rfl rfl)
    have hquery := (harguments.append hbody).append (reads_end hf hnamed)
    refine ⟨⟨?_, ?_⟩, rfl⟩
    · have htokens := braced_eq (selection_ne_nil hf) fields.selection.tokens
      simp only [List.append_assoc] at hquery ⊢
      simpa [Query.field, Query.arguments, Query.fields, Query.name, Field.tokens, optionalTokens,
        argumentTokens, htokens] using hquery
    · apply List.Forall₂.cons (reads_parameter (w := "limit".toList) rfl hname
        (readsType_named (t := "Int".toList) rfl))
      apply List.Forall₂.cons (reads_parameter (w := "offset".toList) rfl hname
        (readsType_named (t := "Int".toList) rfl))
      exact reads_lastParameters hname hentity (b := false) (reads_closed _ ⟨rfl, rfl⟩)

theorem says_byId {id : Value} (h : byId id fields name = .ok r)
    (hq : (Query.byId name id fields).WellNamed entities) :
    Says r [(Query.byId name id fields).field entities]
        ((Query.byId name id fields).declares entities) ∧
      r.vars = assign ObjectMap.empty ((Query.byId name id fields).entries entities) := by
  obtain ⟨hname, hkeys, -⟩ := hq
  unfold byId at h
  cases hid : assertID id with
  | error e =>
    rw [hid] at h
    cases h
  | ok u =>
    rw [hid] at h
    cases hassert : assertHasField fields with
    | error e =>
      rw [hassert] at h
      cases h
    | ok u =>
      rw [hassert] at h
      obtain ⟨hf, hnamed⟩ := named_of_assertHasField hassert hkeys
      have hr := Except.ok.inj h
      subst hr
      have hbegin : Reads "\n      ".toList [] := reads_closed _ ⟨rfl, rfl⟩
      have hopen : Reads (name ++ ['(']) [.name name, .openParen] := Reads.name hname rfl rfl
      have hargument : Reads "id: $".toList [.name "id".toList, .colon, .dollar] :=
        reads_closed _ ⟨rfl, rfl⟩
      have hvariable : Reads ("id".toList ++ name ++ [')']) [.name ("id".toList ++ name), .closeParen] :=
        Reads.name (isName_append rfl (all_of_isName hname)) rfl rfl
      have hbody : Reads " \x7b\n        ".toList [.openBrace] := reads_closed _ ⟨rfl, rfl⟩
      have hquery := ((((hbegin.append hopen).append hargument).append hvariable).append
        hbody).append (reads_end hf hnamed)
      refine ⟨⟨?_, ?_⟩, rfl⟩
      · have htokens := braced_eq (selection_ne_nil hf) fields.selection.tokens
        simp only [List.append_assoc] at hquery ⊢
        simpa [Query.field, Query.arguments, Query.fields, Query.name, Field.tokens, optionalTokens,
          argumentTokens, htokens] using hquery
      · exact List.Forall₂.cons (reads_parameter (w := "id".toList) rfl hname readsType_required)
          List.Forall₂.nil

theorem says_connection {options : ConnectionOptions}
    (h : connection entities fields options name = .ok r)
    (hq : (Query.connection name fields options).WellNamed entities) :
    Says r [(Query.connection name fields options).field entities]
        ((Query.connection name fields options).declares entities) ∧
      r.vars = assign ObjectMap.empty ((Query.connection name fields options).entries entities) := by
  obtain ⟨hname, hkeys, hentity⟩ := hq
  unfold connection at h
  cases hassert : assertHasField fields with
  | error e =>
    rw [hassert] at h
    cases h
  | ok u =>
    rw [hassert] at h
    obtain ⟨hf, hnamed⟩ := named_of_assertHasField hassert hkeys
    have hr := Except.ok.inj h
    subst hr
    have hbegin : Reads "\n      ".toList [] := reads_closed _ ⟨rfl, rfl⟩
    have hopen : Reads (name ++ ['(']) [.name name, .openParen] := Reads.name hname rfl rfl
    have hafter := reads_argument (c := ',') (reads_closed "\n        after: $".toList ⟨rfl, rfl⟩)
      (w := "after".toList) rfl hname rfl rfl
    have hfirst := reads_argument (c := ',') (reads_closed "\n        first: $".toList ⟨rfl, rfl⟩)
      (w := "first".toList) rfl hname rfl rfl
    have hbody : Reads "      ) \x7b\n        ".toList [.closeParen, .openBrace] :=
      reads_closed _ ⟨rfl, rfl⟩
    have harguments := ((((hbegin.append hopen).append hafter).append hfirst).append
      (reads_orderBy hname)).append (reads_where hname (c := '\n') rfl rfl)
    have hquery := (harguments.append hbody).append (reads_end hf hnamed)
    refine ⟨⟨?_, ?_⟩, rfl⟩
    · have htokens := braced_eq (selection_ne_nil hf) fields.selection.tokens
      simp only [List.append_assoc] at hquery ⊢
      simpa [Query.field, Query.arguments, Query.fields, Query.name, Field.tokens, optionalTokens,
        argumentTokens, htokens] using hquery
    · apply List.Forall₂.cons (reads_parameter (w := "after".toList) rfl hname
        (readsType_named (t := "String".toList) rfl))
      apply List.Forall₂.cons (reads_parameter (w := "first".toList) rfl hname
        (readsType_named (t := "Int".toList) rfl))
      exact reads_lastParameters hname hentity (b := true) (reads_closed _ ⟨rfl, rfl⟩)

/-- The options of every query say its field and its variables, and give these their values. -/
theorem says_options {q : Query} (h : q.options entities = .ok r) (hq : q.WellNamed entities) :
    Says r [q.field entities] (q.declares entities) ∧
      r.vars = assign ObjectMap.empty (q.entries entities) := by
  cases q with
  | list name entity fields options => exact says_list h hq
  | byId name id fields => exact says_byId h hq
  | connection name fields options => exact says_connection h hq

end

/-! The document. -/

section
variable {o o' : RequestOptions} {fs fs' : List Field} {ds ds' : List (Name × GType)}

theorem Says.merge (h : Says o fs ds) (h' : Says o' fs' ds') :
    Says (mergeOptions o o') (fs ++ fs') (ds ++ ds') where
  query := by
    have hblank : Reads [' '] [] := reads_mark rfl rfl
    have hall := (h.query.append hblank).append h'.query
    rw [List.append_nil, List.append_assoc, ← List.flatMap_append] at hall
    exact hall
  parameters := List.rel_append h.parameters h'.parameters

/-- The parameters between their parentheses, with blanks and commas between them. -/
theorem reads_parameters {ps : List (List Char)} (h : List.Forall₂ ReadsDefinition ps ds)
    (hne : ps ≠ []) :
    Reads (", ".toList.intercalate ps ++ [')']) (definitionTokens ds ++ [Token.closeParen]) := by
  induction h with
  | nil => exact absurd rfl hne
  | @cons p d ps ds hp hps ih =>
    cases ps with
    | nil =>
      cases hps
      have hlast := hp ')' [.closeParen] rfl rfl
      simpa [List.intercalate] using hlast
    | cons p' ps =>
      have hfirst : Reads (p ++ [',']) (definitionTokens [d] ++ []) := hp ',' [] rfl rfl
      have hblank : Reads [' '] [] := reads_mark rfl rfl
      have hall := (hfirst.append hblank).append (ih (List.cons_ne_nil _ _))
      have htokens : definitionTokens (d :: ds) ++ [Token.closeParen] =
          definitionTokens [d] ++ [] ++ [] ++ (definitionTokens ds ++ [Token.closeParen]) := by
        simp [definitionTokens]
      have htext : ", ".toList.intercalate (p :: p' :: ps) ++ [')'] =
          p ++ [','] ++ [' '] ++ (", ".toList.intercalate (p' :: ps) ++ [')']) := by
        simp [List.intercalate]
      rw [htokens, htext]
      exact hall

/-- The document is read as the operation of the fields and the variables. -/
theorem read_request (h : Says o fs ds) (hfs : fs ≠ []) (hds : ds ≠ []) :
    (lex (request o).1).bind readOperation =
      some ⟨"TFGridClientQuery".toList, ds, Selection.ofFields fs⟩ := by
  have hps : o.parameters ≠ [] := by
    intro hnil
    have hlength := h.parameters.length_eq
    rw [hnil] at hlength
    exact hds (List.eq_nil_of_length_eq_zero hlength.symm)
  have hp : o.parameters.length ≠ 0 := fun hzero => hps (List.eq_nil_of_length_eq_zero hzero)
  have hsel : Selection.ofFields fs ≠ .nil := by
    cases fs with
    | nil => exact absurd rfl hfs
    | cons f fs => exact Selection.noConfusion
  have hquery : Reads "\n          query ".toList [.name "query".toList] :=
    reads_closed _ ⟨rfl, rfl⟩
  have hname : Reads ("TFGridClientQuery".toList ++ ['(']) [.name "TFGridClientQuery".toList, .openParen] :=
    Reads.name rfl rfl rfl
  have hbody : Reads " \x7b\n            ".toList [.openBrace] := reads_closed _ ⟨rfl, rfl⟩
  have hclose : Reads "\n          \x7d\n        ".toList [.closeBrace] :=
    reads_closed _ ⟨rfl, rfl⟩
  have hall := ((((hquery.append hname).append (reads_parameters h.parameters hps)).append
    hbody).append h.query).append hclose
  have hlex : lex (request o).1 =
      some (Operation.tokens ⟨"TFGridClientQuery".toList, ds, Selection.ofFields fs⟩) := by
    have htokens : Operation.tokens ⟨"TFGridClientQuery".toList, ds, Selection.ofFields fs⟩ =
        [Token.name "query".toList] ++ [Token.name "TFGridClientQuery".toList, Token.openParen] ++
          (definitionTokens ds ++ [Token.closeParen]) ++ [Token.openBrace] ++ fs.flatMap Field.tokens ++
          [Token.closeBrace] := by
      unfold Operation.tokens
      rw [Selection.tokens_ofFields]
      simp
    rw [htokens, ← hall.lexes]
    unfold request
    rw [if_pos hp]
    simp only [List.append_assoc]
  rw [hlex, Option.bind_some, readOperation_tokens _ hsel]

end

/-! Variables. -/

/-- The words in front of the names of variables. -/
def words : List Name := ["limit".toList, "offset".toList, "orderBy".toList, "where".toList,
  "id".toList, "after".toList, "first".toList]

section
variable {entities : Name → Name} {q q' : Query} {queries : List Query} {w w' n n' : Name}

theorem mem_words {a : Name × GType × Value} (h : a ∈ q.arguments entities) : a.1 ∈ words := by
  have hsub : (q.arguments entities).map Prod.fst ⊆ words := by
    cases q with
    | list name entity fields o =>
      show ["limit".toList, "offset".toList, "orderBy".toList, "where".toList] ⊆ words
      simp [words]
    | byId name id fields =>
      show ["id".toList] ⊆ words
      simp [words]
    | connection name fields o =>
      show ["after".toList, "first".toList, "orderBy".toList, "where".toList] ⊆ words
      simp [words]
  exact hsub (List.mem_map_of_mem h)

theorem nodup_words : ((q.arguments entities).map Prod.fst).Nodup := by
  cases q with
  | list name entity fields o =>
    show ["limit".toList, "offset".toList, "orderBy".toList, "where".toList].Nodup
    simp
  | byId name id fields =>
    show ["id".toList].Nodup
    simp
  | connection name fields o =>
    show ["after".toList, "first".toList, "orderBy".toList, "where".toList].Nodup
    simp

/-- No word begins another one, so that the name of a variable tells its word and its query. -/
theorem word_injective (hw : w ∈ words) (hw' : w' ∈ words) (h : w ++ n = w' ++ n') :
    w = w' ∧ n = n' := by
  have hbegin : ∀ w ∈ words, ∀ w' ∈ words, w <+: w' → w = w' := by decide +kernel
  have hprefix : w <+: w' ++ n' := ⟨n, h⟩
  have heq : w = w' := by
    rcases List.prefix_or_prefix_of_prefix hprefix (List.prefix_append w' n') with hp | hp
    · exact hbegin w hw w' hw' hp
    · exact (hbegin w' hw' w hw hp).symm
  subst heq
  exact ⟨rfl, List.append_cancel_left h⟩

def variableNames (entities : Name → Name) (q : Query) : List Name :=
  (q.arguments entities).map fun a => a.1 ++ q.name

theorem mem_variableNames {v : Name} (h : v ∈ variableNames entities q) :
    ∃ w ∈ words, v = w ++ q.name := by
  obtain ⟨a, ha, hv⟩ := List.mem_map.mp h
  exact ⟨a.1, mem_words ha, hv.symm⟩

/-- The variables of queries with different names are all different. -/
theorem nodup_variableNames (hnames : (queries.map Query.name).Nodup) :
    (queries.flatMap (variableNames entities)).Nodup := by
  apply List.nodup_flatMap.mpr
  constructor
  · intro q _
    unfold variableNames
    rw [← Function.comp_def (· ++ q.name) Prod.fst, ← List.map_map]
    exact nodup_words.map fun w w' h => List.append_cancel_right h
  · have hpairs : queries.Pairwise fun q q' => q.name ≠ q'.name := List.pairwise_map.mp hnames
    refine hpairs.imp fun {q q'} hne => ?_
    intro v hv hv'
    obtain ⟨w, hw, rfl⟩ := mem_variableNames hv
    obtain ⟨w', hw', heq⟩ := mem_variableNames hv'
    exact hne (word_injective hw hw' heq).2

theorem entries_assign {o : ObjectMap Name Value} {es : List (Name × Value)}
    (h : ((o.entries ++ es).map Prod.fst).Nodup) : (assign o es).entries = o.entries ++ es := by
  induction es generalizing o with
  | nil => exact (List.append_nil _).symm
  | cons e es ih =>
    have habsent : e.1 ∉ o.entries.map Prod.fst := by
      intro hmem
      rw [List.map_append, List.map_cons, List.nodup_append] at h
      exact h.2.2 e.1 hmem e.1 List.mem_cons_self rfl
    have hone : (o.upsert e.1 fun _ => e.2).entries = o.entries ++ [e] := by
      unfold ObjectMap.upsert
      rw [dif_neg habsent]
    have hrest : (((o.upsert e.1 fun _ => e.2).entries ++ es).map Prod.fst).Nodup := by
      rw [hone, List.append_assoc]
      exact h
    show (assign (o.upsert e.1 fun _ => e.2) es).entries = _
    rw [ih hrest, hone, List.append_assoc]
    rfl

end

/-! Merged requests. -/

section
variable {entities : Name → Name} {q : Query} {queries : List Query} {o r : RequestOptions}

/-- What the server is asked for. -/
def asks (posted : List Char × ObjectMap Name Value) : Option (List (Asked Value)) :=
  ((lex posted.1).bind readOperation).bind fun operation =>
    operation.ask fun v => (posted.2.get v).getD .undefined

theorem request_asks (hsaid : Says o (queries.map (Query.field entities))
      (queries.flatMap (Query.declares entities)))
    (hvars : o.vars = assign ObjectMap.empty (queries.flatMap (Query.entries entities)))
    (hne : queries ≠ []) (hnames : (queries.map Query.name).Nodup) :
    asks (request o) = some (queries.map (Query.asked entities)) := by
  have hkeys : (queries.flatMap (Query.entries entities)).map Prod.fst =
      queries.flatMap (variableNames entities) := by
    rw [List.map_flatMap]
    refine List.flatMap_congr fun q _ => ?_
    exact List.map_map
  have hdeclared : (queries.flatMap (Query.declares entities)).map Prod.fst =
      queries.flatMap (variableNames entities) := by
    rw [List.map_flatMap]
    refine List.flatMap_congr fun q _ => ?_
    exact List.map_map
  have hnodup : (queries.flatMap (variableNames entities)).Nodup := nodup_variableNames hnames
  have hentries : o.vars.entries = queries.flatMap (Query.entries entities) := by
    rw [hvars]
    apply entries_assign
    show ((queries.flatMap (Query.entries entities)).map Prod.fst).Nodup
    rw [hkeys]
    exact hnodup
  have hds : queries.flatMap (Query.declares entities) ≠ [] := by
    obtain ⟨q, qs, rfl⟩ := List.exists_cons_of_ne_nil hne
    cases q <;> exact List.cons_ne_nil _ _
  have hread := read_request hsaid (fun hnil => hne (List.map_eq_nil_iff.mp hnil)) hds
  have hargs : ∀ f ∈ queries.map (Query.asked entities), ∀ a ∈ f.args,
      (a.1 ++ f.name, a.2.1) ∈ queries.flatMap (Query.declares entities) ∧
        (o.vars.get (a.1 ++ f.name)).getD .undefined = a.2.2 := by
    intro f hf a ha
    obtain ⟨q, hq, rfl⟩ := List.mem_map.mp hf
    constructor
    · exact List.mem_flatMap.mpr ⟨q, hq, List.mem_map.mpr ⟨a, ha, rfl⟩⟩
    · have hget : o.vars.get (a.1 ++ q.name) = some a.2.2 := by
        apply ObjectMap.get_eq_some_iff.mpr
        rw [hentries]
        exact List.mem_flatMap.mpr ⟨q, hq, List.mem_map.mpr ⟨a, ha, rfl⟩⟩
      show (o.vars.get (a.1 ++ q.name)).getD .undefined = a.2.2
      rw [hget, Option.getD_some]
  have hfields : queries.map (Query.field entities) =
      (queries.map (Query.asked entities)).map fun f =>
        ⟨f.name, f.args.map fun a => (a.1, a.1 ++ f.name), f.selection⟩ := by
    rw [List.map_map]
    rfl
  unfold asks
  rw [hread, Option.bind_some]
  unfold Operation.ask
  rw [if_pos (hdeclared ▸ hnodup)]
  dsimp only
  rw [hfields]
  exact askFields_eq (hdeclared ▸ hnodup) hargs

theorem says_merged {os : List RequestOptions} {fs : List Field} {ds : List (Name × GType)}
    {es : List (Name × Value)}
    (hos : List.Forall₂ (fun (q : Query) r => q.options entities = .ok r) queries os)
    (hnamed : ∀ q ∈ queries, q.WellNamed entities) (hsaid : Says o fs ds)
    (hvars : o.vars = assign ObjectMap.empty es) :
    Says (os.foldl mergeOptions o) (fs ++ queries.map (Query.field entities))
        (ds ++ queries.flatMap (Query.declares entities)) ∧
      (os.foldl mergeOptions o).vars =
        assign ObjectMap.empty (es ++ queries.flatMap (Query.entries entities)) := by
  induction hos generalizing o fs ds es with
  | nil =>
    rw [List.map_nil, List.flatMap_nil, List.flatMap_nil, List.append_nil, List.append_nil,
      List.append_nil]
    exact ⟨hsaid, hvars⟩
  | @cons q r qs os hr hos ih =>
    obtain ⟨hq, hqs⟩ := List.forall_mem_cons.mp hnamed
    obtain ⟨hsaidR, hvarsR⟩ := says_options hr hq
    have hkeys : ((q.entries entities).map Prod.fst).Nodup := by
      have hone : ([q].flatMap (variableNames entities)).Nodup :=
        nodup_variableNames (List.nodup_singleton _)
      rw [List.flatMap_cons, List.flatMap_nil, List.append_nil] at hone
      have hmap : (q.entries entities).map Prod.fst = variableNames entities q := List.map_map
      rw [hmap]
      exact hone
    have hentries : r.vars.entries = q.entries entities := by
      rw [hvarsR]
      exact entries_assign hkeys
    have hnext : (mergeOptions o r).vars = assign ObjectMap.empty (es ++ q.entries entities) := by
      show assign o.vars r.vars.entries = _
      rw [hvars, hentries]
      exact List.foldl_append.symm
    have hrest := ih hqs (hsaid.merge hsaidR) hnext
    rw [List.map_cons, List.flatMap_cons, List.flatMap_cons]
    rw [List.append_assoc, List.append_assoc, List.append_assoc] at hrest
    exact hrest

/-- The request of one query asks for it, and the request of merged queries asks for all of them, each
with its own fields and the values that were given for it. -/
theorem merge_asks (hne : queries ≠ []) (hnames : (queries.map Query.name).Nodup)
    (hnamed : ∀ q ∈ queries, q.WellNamed entities) (h : merge entities queries = .ok o) :
    (∀ q ∈ queries, ∃ r, q.options entities = .ok r ∧
        asks (request r) = some [q.asked entities]) ∧
      asks (request o) = some (queries.map (Query.asked entities)) := by
  unfold merge at h
  cases hoptions : queries.mapM (Query.options entities) with
  | error e =>
    rw [hoptions] at h
    cases h
  | ok os =>
    rw [hoptions] at h
    have ho := Except.ok.inj h
    subst ho
    have hos := Frame.mapM_eq_ok.mp hoptions
    constructor
    · intro q hq
      obtain ⟨r, -, hr⟩ := Forall2.exists_right hos hq
      obtain ⟨hsaid, hvars⟩ := says_options hr (hnamed q hq)
      have hone : asks (request r) = some ([q].map (Query.asked entities)) := by
        refine request_asks ?_ ?_ (List.cons_ne_nil _ _) (List.nodup_singleton q.name)
        · rw [List.flatMap_cons, List.flatMap_nil, List.append_nil]
          exact hsaid
        · rw [List.flatMap_cons, List.flatMap_nil, List.append_nil]
          exact hvars
      exact ⟨r, hr, hone⟩
    · have hstart : Says ⟨none, [], [], ObjectMap.empty⟩ [] [] := ⟨Reads.nil, List.Forall₂.nil⟩
      have hempty : ObjectMap.empty = assign ObjectMap.empty [] := rfl
      obtain ⟨hsaid, hvars⟩ := says_merged hos hnamed hstart hempty
      exact request_asks hsaid hvars hne hnames

def sampleQueries : List Query := [
  .list "farms".toList "Farm".toList
    (.leaf "name".toList (.node "publicIPs".toList (.leaf "ip".toList .nil) .nil))
    ⟨.number 5, .undefined, .undefined, .object "twinID_eq"⟩,
  .byId "nodeById".toList (.text "7") (.leaf "twinID".toList .nil)]

theorem sample_merged : ∃ o, merge id sampleQueries = .ok o ∧
    asks (request o) = some (sampleQueries.map (Query.asked id)) := by
  have hnamed : ∀ q ∈ sampleQueries, q.WellNamed id := by
    intro q hq
    rcases List.mem_pair.mp hq with rfl | rfl
    · exact ⟨rfl, rfl, rfl⟩
    · exact ⟨rfl, rfl, trivial⟩
  exact ⟨_, rfl, (merge_asks (List.cons_ne_nil _ _) (by simp [Query.name]) hnamed rfl).2⟩

end

end ThreefoldSdk.Graphql
