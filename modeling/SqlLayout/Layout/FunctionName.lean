import SqlLayout.Style

/-!
The names that the layout knows: functions whose names are written in one case, and the values of the
session that are written without parentheses.
-/

namespace SqlLayout.Layout

/-- The functions whose names are written in the case that the style asks for. -/
def knownFunctions : List String :=
  ["now", "count", "min", "max", "sum", "avg", "gen_random_uuid", "current_setting", "set_config",
    "array_agg", "json_agg", "jsonb_agg", "json_build_object", "jsonb_build_object",
    "array_length", "cardinality", "date", "date_trunc", "string_agg", "lower", "upper", "length",
    "to_char", "to_timestamp", "unnest", "row_number", "rank", "dense_rank", "greatest", "least",
    "nullif", "concat", "abs", "round"]

/-- The name in the case that the style asks for, if it is a known one in any case. -/
def knownName? (c : NameCase) (name : String) : Option String :=
  (knownFunctions.find? (Text.eqIgnoreCase · name)).map fun n =>
    match c with
    | .lower => n
    | .upper => Text.asciiUpper n

/-- The name in the case that the style asks for if it is a known one, and as it is if not. -/
def casedName (c : NameCase) (name : String) : String :=
  (knownName? c name).getD name

/-- The values of the session and the points in time that are written without parentheses. -/
def sessionKeywords : List String :=
  ["CURRENT_TIMESTAMP", "CURRENT_DATE", "CURRENT_TIME", "LOCALTIME", "LOCALTIMESTAMP",
    "CURRENT_USER", "SESSION_USER", "USER", "CURRENT_ROLE", "CURRENT_CATALOG", "CURRENT_SCHEMA"]

/-- Whether a word is one of `sessionKeywords` in any case. -/
def isSessionKeyword (word : String) : Bool :=
  sessionKeywords.any (Text.eqIgnoreCase · word)

end SqlLayout.Layout
