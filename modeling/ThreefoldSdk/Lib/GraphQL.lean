import Mathlib

/-! GraphQL documents: the words and marks of a text, the operation that these say, and what it asks
for once its variables have values. -/

namespace GraphQL

abbrev Name := List Char

inductive Token where
  | name (n : Name)
  | openBrace
  | closeBrace
  | openParen
  | closeParen
  | openBracket
  | closeBracket
  | colon
  | dollar
  | bang
deriving DecidableEq

/-! Texts. -/

def isNameChar (c : Char) : Bool := c.isAlphanum || c == '_'

def isName (w : Name) : Bool := w.all isNameChar && w.head?.any fun c => !c.isDigit

/-- The token of a character that is in no name; blanks, line ends and commas are none. -/
def mark (c : Char) : Option (List Token) :=
  if c == ' ' || c == '\n' || c == '\r' || c == '\t' || c == ',' then some []
  else if c == '\x7b' then some [.openBrace]
  else if c == '\x7d' then some [.closeBrace]
  else if c == '(' then some [.openParen]
  else if c == ')' then some [.closeParen]
  else if c == '[' then some [.openBracket]
  else if c == ']' then some [.closeBracket]
  else if c == ':' then some [.colon]
  else if c == '$' then some [.dollar]
  else if c == '!' then some [.bang]
  else none

def word (w : Name) : Option (List Token) :=
  if w = [] then some [] else if isName w then some [.name w] else none

/-- The tokens of a text behind the beginning of a word. -/
def lexFrom : Name → List Char → Option (List Token)
  | w, [] => word w
  | w, c :: s =>
    if isNameChar c then lexFrom (w ++ [c]) s
    else (word w).bind fun t => (mark c).bind fun p => (lexFrom [] s).map fun ts => t ++ p ++ ts

def lex (s : List Char) : Option (List Token) := lexFrom [] s

/-- A text that says its tokens wherever it stands: no word goes on behind it. -/
structure Reads (s : List Char) (ts : List Token) : Prop where
  apart : s.getLast?.all fun c => !isNameChar c
  lexes : lex s = some ts

section
variable {s s' : List Char} {ts ts' : List Token} {w : Name} {c : Char}

theorem Reads.nil : Reads [] [] := ⟨rfl, rfl⟩

theorem lexFrom_append (w : Name) (h : isNameChar c = false) (s s' : List Char) :
    lexFrom w (s ++ [c] ++ s') =
      (lexFrom w (s ++ [c])).bind fun ts => (lex s').map fun ts' => ts ++ ts' := by
  induction s generalizing w with
  | nil =>
    show lexFrom w (c :: s') = (lexFrom w [c]).bind _
    unfold lexFrom
    rw [h, if_neg Bool.false_ne_true, if_neg Bool.false_ne_true]
    cases word w with
    | none => rfl
    | some t =>
      cases mark c with
      | none => rfl
      | some p =>
        show (lexFrom [] s').map _ = (lex s').map _
        refine congrArg (Option.map · (lexFrom [] s')) (funext fun ts => ?_)
        show t ++ p ++ ts = t ++ p ++ [] ++ ts
        rw [List.append_nil]
  | cons d s ih =>
    show lexFrom w (d :: (s ++ [c] ++ s')) = (lexFrom w (d :: (s ++ [c]))).bind _
    rw [lexFrom, lexFrom]
    split
    · exact ih (w ++ [d])
    · rw [ih []]
      cases word w with
      | none => rfl
      | some t =>
        cases mark d with
        | none => rfl
        | some p =>
          show Option.map _ (Option.bind _ _) = Option.bind (Option.map _ _) _
          cases lexFrom [] (s ++ [c]) with
          | none => rfl
          | some ts =>
            show Option.map _ (Option.map _ (lex s')) = Option.map _ (lex s')
            rw [Option.map_map]
            refine congrArg (Option.map · (lex s')) (funext fun ts' => ?_)
            exact (List.append_assoc _ _ _).symm

/-- Texts that stand apart say what each of them says. -/
theorem Reads.append (h : Reads s ts) (h' : Reads s' ts') : Reads (s ++ s') (ts ++ ts') := by
  rcases List.eq_nil_or_concat s with rfl | ⟨r, c, rfl⟩
  · have hts : [] = ts := Option.some.inj h.lexes
    rw [← hts]
    exact h'
  · have hc : isNameChar c = false := by
      have hlast := h.apart
      rw [List.concat_eq_append, List.getLast?_concat] at hlast
      exact Bool.not_eq_true' _ |>.mp hlast
    rw [List.concat_eq_append] at h ⊢
    constructor
    · cases hs' : s' with
      | nil =>
        rw [List.append_nil]
        exact h.apart
      | cons d s'' =>
        have hlast := h'.apart
        rw [hs'] at hlast
        rw [List.getLast?_append_of_ne_nil _ (List.cons_ne_nil d s'')]
        exact hlast
    · unfold lex
      rw [lexFrom_append [] hc r s']
      show (lex (r ++ [c])).bind _ = _
      rw [h.lexes, h'.lexes]
      rfl

theorem lexFrom_word (w v : Name) (h : v.all isNameChar = true) (s : List Char) :
    lexFrom w (v ++ s) = lexFrom (w ++ v) s := by
  induction v generalizing w with
  | nil => rw [List.nil_append, List.append_nil]
  | cons d v ih =>
    rw [List.all_cons, Bool.and_eq_true] at h
    rw [List.cons_append, lexFrom, if_pos h.1, ih _ h.2, List.append_assoc]
    rfl

/-- A name in front of a mark. -/
theorem Reads.name (h : isName w = true) (hc : isNameChar c = false) (hmark : mark c = some ts) :
    Reads (w ++ [c]) (.name w :: ts) := by
  have hall := (Bool.and_eq_true_iff.mp h).1
  have hne : w ≠ [] := by
    intro hnil
    rw [hnil] at h
    cases h
  constructor
  · rw [List.getLast?_concat]
    show (!isNameChar c) = true
    rw [hc]
    rfl
  · have hword : word w = some [.name w] := by
      unfold word
      rw [if_neg hne, if_pos h]
    unfold lex
    rw [lexFrom_word [] w hall, List.nil_append, lexFrom, hc, if_neg Bool.false_ne_true, hword, hmark]
    show some ([.name w] ++ ts ++ []) = some (.name w :: ts)
    rw [List.append_nil]
    rfl

end

/-! Operations. -/

/-- A type, and whether it is required. -/
inductive GType where
  | named (n : Name) (required : Bool)
  | list (t : GType) (required : Bool)
deriving DecidableEq

/-- The fields of a selection: a name, the variables of its arguments, and the selection under it. -/
inductive Selection where
  | nil
  | field (name : Name) (args : List (Name × Name)) (sub rest : Selection)
deriving DecidableEq

def required : List Token → Bool × List Token
  | .bang :: rest => (true, rest)
  | rest => (false, rest)

def readType : ℕ → List Token → Option (GType × List Token)
  | _ + 1, .name k :: rest =>
    let r := required rest
    some (.named k r.1, r.2)
  | n + 1, .openBracket :: rest =>
    (readType n rest).bind fun t =>
      match t.2 with
      | .closeBracket :: rest =>
        let r := required rest
        some (.list t.1 r.1, r.2)
      | _ => none
  | _, _ => none

/-- Definitions of variables, up to the parenthesis that ends them. -/
def readDefinitions : ℕ → List Token → Option (List (Name × GType) × List Token)
  | _ + 1, .closeParen :: rest => some ([], rest)
  | n + 1, .dollar :: .name v :: .colon :: rest =>
    (readType n rest).bind fun t =>
      (readDefinitions n t.2).map fun ds => ((v, t.1) :: ds.1, ds.2)
  | _, _ => none

/-- Arguments, up to the parenthesis that ends them. -/
def readArguments : List Token → Option (List (Name × Name) × List Token)
  | .closeParen :: rest => some ([], rest)
  | .name a :: .colon :: .dollar :: .name v :: rest =>
    (readArguments rest).map fun as => ((a, v) :: as.1, as.2)
  | _ => none

def readOptional : List Token → Option (List (Name × Name) × List Token)
  | .openParen :: rest => (readArguments rest).filter fun as => as.1 ≠ []
  | rest => some ([], rest)

/-- The fields of a selection, up to the brace that ends it; no selection is empty. -/
def readFields : ℕ → List Token → Option (Selection × List Token)
  | _ + 1, .closeBrace :: rest => some (.nil, rest)
  | n + 1, .name k :: rest =>
    (readOptional rest).bind fun as =>
      match as.2 with
      | .openBrace :: rest =>
        ((readFields n rest).filter fun sub => sub.1 ≠ .nil).bind fun sub =>
          (readFields n sub.2).map fun more => (.field k as.1 sub.1 more.1, more.2)
      | rest => (readFields n rest).map fun more => (.field k as.1 .nil more.1, more.2)
  | _, _ => none

structure Operation where
  name : Name
  definitions : List (Name × GType)
  selection : Selection
deriving DecidableEq

def readOperation (ts : List Token) : Option Operation :=
  match ts with
  | .name q :: .name op :: .openParen :: rest =>
    if q = "query".toList then
      (readDefinitions rest.length rest).bind fun ds =>
        match ds.2 with
        | .openBrace :: rest =>
          ((readFields rest.length rest).filter fun sel => sel.1 ≠ .nil ∧ sel.2 = []).map fun sel =>
            ⟨op, ds.1, sel.1⟩
        | _ => none
    else none
  | .name q :: .name op :: .openBrace :: rest =>
    if q = "query".toList then
      ((readFields rest.length rest).filter fun sel => sel.1 ≠ .nil ∧ sel.2 = []).map fun sel =>
        ⟨op, [], sel.1⟩
    else none
  | _ => none

/-! The tokens of an operation. -/

def requiredTokens (required : Bool) : List Token := if required then [.bang] else []

def GType.tokens : GType → List Token
  | named n required => .name n :: requiredTokens required
  | list t required => .openBracket :: t.tokens ++ .closeBracket :: requiredTokens required

def definitionTokens (ds : List (Name × GType)) : List Token :=
  ds.flatMap fun d => .dollar :: .name d.1 :: .colon :: d.2.tokens

def argumentTokens (args : List (Name × Name)) : List Token :=
  args.flatMap fun a => [.name a.1, .colon, .dollar, .name a.2]

/-- Arguments in their parentheses, where there are any. -/
def optionalTokens (args : List (Name × Name)) : List Token :=
  if args = [] then [] else .openParen :: argumentTokens args ++ [Token.closeParen]

/-- A selection in its braces, where it is one. -/
def braced (sub : Selection) (ts : List Token) : List Token :=
  if sub = .nil then [] else .openBrace :: ts ++ [Token.closeBrace]

def Selection.tokens : Selection → List Token
  | nil => []
  | field k args sub rest => .name k :: optionalTokens args ++ braced sub sub.tokens ++ rest.tokens

section
variable {n : ℕ} {rest : List Token}

theorem head_ne {t u : Token} (h : t ≠ u) (ts : List Token) : (t :: ts).head? ≠ some u :=
  fun heq => h (Option.some.inj heq)

theorem required_tokens (required : Bool) (h : rest.head? ≠ some .bang) :
    GraphQL.required (requiredTokens required ++ rest) = (required, rest) := by
  cases required with
  | true => rfl
  | false =>
    show GraphQL.required rest = (false, rest)
    unfold GraphQL.required
    split
    · exact absurd rfl h
    · rfl

theorem readType_tokens (t : GType) (hn : t.tokens.length ≤ n) (h : rest.head? ≠ some .bang) :
    readType n (t.tokens ++ rest) = some (t, rest) := by
  induction t generalizing n rest with
  | named k required =>
    obtain ⟨m, rfl⟩ : ∃ m, n = m + 1 := Nat.exists_eq_succ_of_ne_zero (by
      intro hzero
      rw [hzero] at hn
      cases hn)
    show some (GType.named k (GraphQL.required (requiredTokens required ++ rest)).1,
      (GraphQL.required (requiredTokens required ++ rest)).2) = _
    rw [required_tokens required h]
  | list t required ih =>
    have hlength : (GType.list t required).tokens.length =
        t.tokens.length + (requiredTokens required).length + 2 := by
      rw [GType.tokens, List.cons_append, List.length_cons, List.length_append, List.length_cons]
      omega
    rw [hlength] at hn
    obtain ⟨m, rfl⟩ : ∃ m, n = m + 1 := Nat.exists_eq_succ_of_ne_zero (by omega)
    have hsplit : (GType.list t required).tokens ++ rest =
        .openBracket :: (t.tokens ++ .closeBracket :: (requiredTokens required ++ rest)) := by
      rw [GType.tokens, List.cons_append, List.cons_append, List.append_assoc, List.cons_append]
    rw [hsplit, readType, ih (by omega) (head_ne (by decide) _)]
    show some (GType.list t (GraphQL.required (requiredTokens required ++ rest)).1,
      (GraphQL.required (requiredTokens required ++ rest)).2) = _
    rw [required_tokens required h]

theorem readDefinitions_tokens (ds : List (Name × GType)) (hn : (definitionTokens ds).length < n) :
    readDefinitions n (definitionTokens ds ++ .closeParen :: rest) = some (ds, rest) := by
  induction ds generalizing n with
  | nil =>
    obtain ⟨m, rfl⟩ : ∃ m, n = m + 1 := Nat.exists_eq_succ_of_ne_zero (by omega)
    rfl
  | cons d ds ih =>
    have hlength : (definitionTokens (d :: ds)).length =
        d.2.tokens.length + (definitionTokens ds).length + 3 := by
      unfold definitionTokens
      rw [List.flatMap_cons, List.length_append, List.length_cons, List.length_cons,
        List.length_cons]
      omega
    rw [hlength] at hn
    obtain ⟨m, rfl⟩ : ∃ m, n = m + 1 := Nat.exists_eq_succ_of_ne_zero (by omega)
    have hsplit : definitionTokens (d :: ds) ++ .closeParen :: rest =
        .dollar :: .name d.1 :: .colon ::
          (d.2.tokens ++ (definitionTokens ds ++ .closeParen :: rest)) := by
      unfold definitionTokens
      rw [List.flatMap_cons, List.append_assoc]
      rfl
    have hhead : (definitionTokens ds ++ .closeParen :: rest).head? ≠ some .bang := by
      cases ds with
      | nil => exact head_ne (by decide) _
      | cons d ds => exact head_ne (by decide) _
    rw [hsplit, readDefinitions, readType_tokens d.2 (by omega) hhead]
    show Option.map _ (readDefinitions m (definitionTokens ds ++ _)) = _
    rw [ih (by omega)]
    rfl

theorem readArguments_tokens (args : List (Name × Name)) :
    readArguments (argumentTokens args ++ .closeParen :: rest) = some (args, rest) := by
  induction args with
  | nil => rfl
  | cons a args ih =>
    have hsplit : argumentTokens (a :: args) ++ .closeParen :: rest =
        .name a.1 :: .colon :: .dollar :: .name a.2 ::
          (argumentTokens args ++ .closeParen :: rest) := rfl
    rw [hsplit, readArguments, ih]
    rfl

theorem readOptional_tokens (args : List (Name × Name)) (h : rest.head? ≠ some .openParen) :
    readOptional (optionalTokens args ++ rest) = some (args, rest) := by
  unfold optionalTokens
  by_cases hargs : args = []
  · rw [if_pos hargs, List.nil_append, hargs]
    unfold readOptional
    split
    · exact absurd rfl h
    · rfl
  · rw [if_neg hargs, List.append_assoc]
    show (readArguments (argumentTokens args ++ .closeParen :: rest)).filter _ = _
    rw [readArguments_tokens, Option.filter_some, if_pos (decide_eq_true hargs)]

/-- Behind a field stands a name or the end of the selection. -/
theorem head_tokens (sel : Selection) :
    (sel.tokens ++ .closeBrace :: rest).head? ≠ some .openParen ∧
      (sel.tokens ++ .closeBrace :: rest).head? ≠ some .openBrace := by
  cases sel with
  | nil => exact ⟨head_ne (by decide) _, head_ne (by decide) _⟩
  | field k args sub more => exact ⟨head_ne Token.noConfusion _, head_ne Token.noConfusion _⟩

theorem readFields_tokens (sel : Selection) (hn : sel.tokens.length < n) :
    readFields n (sel.tokens ++ .closeBrace :: rest) = some (sel, rest) := by
  induction sel generalizing n rest with
  | nil =>
    obtain ⟨m, rfl⟩ : ∃ m, n = m + 1 := Nat.exists_eq_succ_of_ne_zero (by omega)
    rfl
  | field k args sub more ihsub ihmore =>
    have hlength : (Selection.field k args sub more).tokens.length = (optionalTokens args).length +
        (braced sub sub.tokens).length + more.tokens.length + 1 := by
      rw [Selection.tokens, List.length_append, List.length_append, List.length_cons]
      omega
    rw [hlength] at hn
    obtain ⟨m, rfl⟩ : ∃ m, n = m + 1 := Nat.exists_eq_succ_of_ne_zero (by omega)
    have hsplit : (Selection.field k args sub more).tokens ++ .closeBrace :: rest =
        .name k :: (optionalTokens args ++
          (braced sub sub.tokens ++ (more.tokens ++ .closeBrace :: rest))) := by
      rw [Selection.tokens, List.append_assoc, List.append_assoc, List.cons_append]
    obtain ⟨hparen, hbrace⟩ : (more.tokens ++ .closeBrace :: rest).head? ≠ some .openParen ∧
        (more.tokens ++ .closeBrace :: rest).head? ≠ some .openBrace := head_tokens more
    have hmore : readFields m (more.tokens ++ .closeBrace :: rest) = some (more, rest) :=
      ihmore (by omega)
    rw [hsplit, readFields]
    by_cases hsub : sub = .nil
    · have hnone : braced sub sub.tokens = [] := if_pos hsub
      rw [hnone, List.nil_append, readOptional_tokens args hparen, Option.bind_some]
      dsimp only
      split
      · rename_i heq
        rw [heq] at hbrace
        exact absurd rfl hbrace
      · rw [hmore, hsub]
        rfl
    · have hopen : (braced sub sub.tokens ++ (more.tokens ++ .closeBrace :: rest)) =
          .openBrace :: (sub.tokens ++ .closeBrace :: (more.tokens ++ .closeBrace :: rest)) := by
        unfold braced
        rw [if_neg hsub, List.append_assoc]
        rfl
      have hlonger : (braced sub sub.tokens).length = sub.tokens.length + 2 := by
        unfold braced
        rw [if_neg hsub, List.length_append, List.length_cons]
        rfl
      rw [hopen, readOptional_tokens args (head_ne (by decide) _), Option.bind_some]
      dsimp only
      rw [ihsub (n := m) (by omega), Option.filter_some, if_pos (decide_eq_true hsub), Option.bind_some,
        hmore]
      rfl

end

/-! Operations that are built of fields. -/

structure Field where
  name : Name
  args : List (Name × Name)
  sub : Selection

def Field.tokens (f : Field) : List Token :=
  .name f.name :: optionalTokens f.args ++ braced f.sub f.sub.tokens

def Selection.ofFields : List Field → Selection
  | [] => nil
  | f :: fs => field f.name f.args f.sub (ofFields fs)

theorem Selection.tokens_ofFields (fs : List Field) :
    (Selection.ofFields fs).tokens = fs.flatMap Field.tokens := by
  induction fs with
  | nil => rfl
  | cons f fs ih =>
    rw [ofFields, tokens, ih, List.flatMap_cons]
    rfl

def Operation.tokens (o : Operation) : List Token :=
  .name "query".toList :: .name o.name :: (.openParen :: (definitionTokens o.definitions ++
    .closeParen :: .openBrace :: (o.selection.tokens ++ [Token.closeBrace])))

/-- An operation is read from its tokens. -/
theorem readOperation_tokens (o : Operation) (h : o.selection ≠ .nil) :
    readOperation o.tokens = some o := by
  unfold Operation.tokens readOperation
  dsimp only
  rw [if_pos rfl, readDefinitions_tokens o.definitions (by
    rw [List.length_append, List.length_cons]
    omega), Option.bind_some]
  dsimp only
  rw [readFields_tokens o.selection (by
    rw [List.length_append, List.length_cons]
    omega), Option.filter_some, if_pos (decide_eq_true ⟨h, rfl⟩)]
  rfl

/-- A field with the types and the values of its arguments, and the selection under it. -/
structure Asked (V : Type) where
  name : Name
  args : List (Name × GType × V)
  selection : Selection

section
variable {V : Type}

/-- The arguments with what is declared of their variables and with the values of these; nothing,
where a variable is not declared. -/
def values (declared : List (Name × GType)) (env : Name → V) :
    List (Name × Name) → Option (List (Name × GType × V))
  | [] => some []
  | (a, v) :: args =>
    (declared.lookup v).bind fun t =>
      (values declared env args).map fun rest => (a, t, env v) :: rest

def askFields (declared : List (Name × GType)) (env : Name → V) : Selection → Option (List (Asked V))
  | .nil => some []
  | .field k args sub rest =>
    (values declared env args).bind fun vs =>
      (askFields declared env rest).map fun more => ⟨k, vs, sub⟩ :: more

/-- What an operation asks for. No variable is declared twice. -/
def Operation.ask (o : Operation) (env : Name → V) : Option (List (Asked V)) :=
  if (o.definitions.map Prod.fst).Nodup then askFields o.definitions env o.selection else none

theorem lookup_of_mem {declared : List (Name × GType)} {v : Name} {t : GType}
    (hnodup : (declared.map Prod.fst).Nodup) (h : (v, t) ∈ declared) :
    declared.lookup v = some t := by
  obtain ⟨before, after, rfl⟩ := List.append_of_mem h
  refine List.lookup_eq_some_iff.mpr ⟨before, after, rfl, fun d hd => bne_iff_ne.mpr ?_⟩
  rw [List.map_append, List.map_cons, List.nodup_append] at hnodup
  exact fun heq => hnodup.2.2 d.1 (List.mem_map_of_mem hd) v List.mem_cons_self heq.symm

theorem values_eq {declared : List (Name × GType)} {env : Name → V} {w : Name}
    {args : List (Name × GType × V)} (hnodup : (declared.map Prod.fst).Nodup)
    (h : ∀ a ∈ args, (a.1 ++ w, a.2.1) ∈ declared ∧ env (a.1 ++ w) = a.2.2) :
    values declared env (args.map fun a => (a.1, a.1 ++ w)) = some args := by
  induction args with
  | nil => rfl
  | cons a args ih =>
    obtain ⟨ha, hargs⟩ := List.forall_mem_cons.mp h
    rw [List.map_cons, values, lookup_of_mem hnodup ha.1, Option.bind_some, ih hargs, ha.2]
    rfl

/-- Fields whose variables are declared and have values are asked for with these; the variables of a
field are the words of its arguments, each with one name behind it. -/
theorem askFields_eq {declared : List (Name × GType)} {env : Name → V} {as : List (Asked V)}
    (hnodup : (declared.map Prod.fst).Nodup)
    (h : ∀ f ∈ as, ∀ a ∈ f.args, (a.1 ++ f.name, a.2.1) ∈ declared ∧ env (a.1 ++ f.name) = a.2.2) :
    askFields declared env (Selection.ofFields (as.map fun f =>
      ⟨f.name, f.args.map fun a => (a.1, a.1 ++ f.name), f.selection⟩)) = some as := by
  induction as with
  | nil => rfl
  | cons f as ih =>
    obtain ⟨hf, has⟩ := List.forall_mem_cons.mp h
    rw [List.map_cons, Selection.ofFields, askFields, values_eq hnodup hf, Option.bind_some, ih has]
    rfl

end

end GraphQL
