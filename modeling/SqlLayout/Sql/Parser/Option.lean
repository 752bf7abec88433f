import SqlLayout.Sql.Parser.Query

/-!
Settings and options of definitions. A definition has no layout, so its parts are read for what they
take and not kept.
-/

namespace SqlLayout.Sql.Parser

/-- The words that make a definition harmless when its subject is there already. -/
def ifNotExists : Parser Bool :=
  words? ["IF", "NOT", "EXISTS"]

/-- The words that make a removal or a change harmless when its subject is not there. -/
def ifExists : Parser Bool :=
  words? ["IF", "EXISTS"]

/-- What happens to the things that depend on a subject that goes away. -/
def dependents : Parser Unit :=
  discard (oneOf? ["CASCADE", "RESTRICT"])

/-- The cluster that a statement is meant for. -/
def onCluster : Parser Unit :=
  discard (afterWords ["ON", "CLUSTER"] ident)

/-- Expressions in parentheses. -/
def exprsInParens (g : Grammar) : Parser Unit :=
  discard (parens g.exprs)

/-! ### Settings -/

/-- A setting: a name and its value. -/
def setting (g : Grammar) : Parser Unit := do
  discard ident
  symbol "="
  discard g.anyExpr

/-- Settings in parentheses, possibly none, after a keyword. Tells whether there was one. -/
def settingsAfter (g : Grammar) (k : String) : Parser Bool := do
  if ← word? k then return !(← parens (commaSeparatedUntil ")" (setting g))).isEmpty
  else return false

/-- One or more settings in parentheses after the keywords. Tells whether there was one. -/
def someSettingsAfter (g : Grammar) (ks : List String) : Parser Bool := do
  return (← afterWords ks (parens (commaSeparated (setting g)))).isSome

/-! ### Options with a key and a value -/

/-- The value of an option; `nested` reads options in parentheses. -/
def optionValue (nested : Parser Unit) : Parser Unit := do
  match (← peek).token with
  | .quoted .plain _ | .number _ _ | .word _ | .delimited _ => discard next
  | .symbol "(" =>
    match ← attempt (parens (commaSeparatedUntil ")" value)) with
    | some _ => return
    | none =>
      symbol "("
      nested
  | _ => expected "expected option value"

/-- Options up to a closing parenthesis, the end of the statement or one of the words that end them.
All of these but the words are taken. `fuel` bounds the nesting of options. -/
def options (inParens : Bool) (ends : List String) : Nat → Parser Unit
  | 0 => expected "another option, EOF, SemiColon, Comma or ')'"
  | fuel + 1 => repeatFrom () fun _ => do
    if ← nextIsOneOf ends then return .inr ()
    let t ← next
    match t.token with
    | .symbol ")" => if inParens then return .inr () else expected " another option or EOF"
    | .symbol ";" | .eof => return .inr ()
    | .symbol "," => return .inl ()
    | .word _ | .delimited _ =>
      symbol "="
      optionValue (options true [] fuel)
      return .inl ()
    | _ => expected "another option, EOF, SemiColon, Comma or ')'"

/-- Options that no parentheses enclose, up to one of the words that end them. -/
def bareOptions (ends : List String) : Parser Unit := do
  options false ends ((← remaining) + 1)

/-- Options in parentheses. -/
def optionsInParens : Parser Unit := do
  symbol "("
  options true [] ((← remaining) + 1)

end SqlLayout.Sql.Parser
