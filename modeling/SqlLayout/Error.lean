/-!
What can go wrong. Each cause is a constructor, and `Error.message` gives the text that a user sees.
-/

namespace SqlLayout

/-- Why an operation fails. -/
inductive Error
  /-- The script cannot be read; the text tells where. -/
  | parse (text : String)
  /-- A keyword of the given kind that has no layout. -/
  | unknownKeyword (kind value : String)
  /-- A statement or a clause that has no layout. -/
  | unsupported (what : String)
  /-- Style options that cannot be read. -/
  | config (text : String)
  /-- A source file that cannot be searched for SQL. -/
  | source (text : String)
  /-- A file that cannot be read. -/
  | io (text : String)
  deriving DecidableEq, Repr, Inhabited

/-- The text of an error. -/
def Error.message : Error → String
  | .parse t => "sql parser error: " ++ t
  | .unknownKeyword kind value => "Unknown " ++ kind ++ ": '" ++ value ++ "'"
  | .unsupported what => "Unsupported " ++ what
  | .config t => "Configuration error: " ++ t
  | .source t => "Rust source error: " ++ t
  | .io t => "IO error: " ++ t

/-- The result of an operation that can fail. -/
abbrev Outcome := Except Error

/-- From a computation that gives a result, its first step and the rest. -/
theorem bind_eq_ok {ε α β : Type} {x : Except ε α} {f : α → Except ε β} {b : β}
    (h : (x >>= f) = .ok b) : ∃ a, x = .ok a ∧ f a = .ok b := by
  cases x with
  | error e => cases h
  | ok a => exact ⟨a, rfl, h⟩

end SqlLayout
