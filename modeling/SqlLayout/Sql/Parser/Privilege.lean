import SqlLayout.Sql.Parser.Option

/-!
Rights: the statements that give, take and deny them. Each gives the start of its text.
-/

namespace SqlLayout.Sql.Parser

open Text (commas joinWith)

/-! ### Rights -/

/-- The rights of several words that are looked for before the others. -/
def longRights : List (List String) :=
  [["IMPORTED", "PRIVILEGES"], ["ADD", "SEARCH", "OPTIMIZATION"], ["ATTACH", "LISTING"],
    ["ATTACH", "POLICY"], ["BIND", "SERVICE", "ENDPOINT"], ["EVOLVE", "SCHEMA"], ["IMPORT", "SHARE"],
    ["MANAGE", "VERSIONS"], ["MANAGE", "RELEASES"], ["OVERRIDE", "SHARE", "RESTRICTIONS"],
    ["PURCHASE", "DATA", "EXCHANGE", "LISTING"], ["RESOLVE", "ALL"], ["READ", "SESSION"]]

/-- The rights of one word with nothing after it. -/
def plainRights : List String :=
  ["APPLYBUDGET", "AUDIT", "CONNECT", "DELETE", "FAILOVER", "OPERATE", "READ", "REPLICATE", "TEMPORARY",
    "TRIGGER", "TRUNCATE", "USAGE", "OWNERSHIP", "DROP"]

/-- The rights that may be given on single columns. -/
def columnRights : List String :=
  ["INSERT", "REFERENCES", "SELECT", "UPDATE"]

/-- What may be applied. -/
def applicable : List (List String) :=
  [["AGGREGATION", "POLICY"], ["AUTHENTICATION", "POLICY"], ["JOIN", "POLICY"], ["MASKING", "POLICY"],
    ["PACKAGES", "POLICY"], ["PASSWORD", "POLICY"], ["PROJECTION", "POLICY"],
    ["ROW", "ACCESS", "POLICY"], ["SESSION", "POLICY"], ["TAG"]]

/-- What may be created. -/
def grantedCreations : List (List String) :=
  [["APPLICATION", "PACKAGE"], ["COMPUTE", "POOL"], ["DATA", "EXCHANGE", "LISTING"],
    ["EXTERNAL", "VOLUME"], ["FAILOVER", "GROUP"], ["NETWORK", "POLICY"], ["ORGANIZATION", "LISTING"],
    ["REPLICATION", "GROUP"], ["ACCOUNT"], ["APPLICATION"], ["DATABASE"], ["INTEGRATION"], ["ROLE"],
    ["SCHEMA"], ["SHARE"], ["USER"], ["WAREHOUSE"]]

/-- What may be run. -/
def runnable : List (List String) :=
  [["DATA", "METRIC", "FUNCTION"], ["MANAGED", "ALERT"], ["MANAGED", "TASK"], ["ALERT"], ["TASK"]]

/-- What may be managed. -/
def manageable : List (List String) :=
  [["ACCOUNT", "SUPPORT", "CASES"], ["EVENT", "SHARING"], ["GRANTS"],
    ["LISTING", "AUTO", "FULFILLMENT"], ["ORGANIZATION", "SUPPORT", "CASES"],
    ["USER", "SUPPORT", "CASES"], ["WAREHOUSES"]]

/-- What may be modified. -/
def modifiable : List (List String) :=
  [["LOG", "LEVEL"], ["TRACE", "LEVEL"], ["SESSION", "LOG", "LEVEL"], ["SESSION", "TRACE", "LEVEL"]]

/-- What may be watched. -/
def watchable : List (List String) :=
  [["EXECUTION"], ["SECURITY"], ["USAGE"]]

/-- The words that some rights go on with, and what a fault says when these words are due. -/
def rightTails : List (String × List (List String) × Option String) :=
  [("APPLY", applicable, some "GRANT APPLY type"), ("CREATE", grantedCreations, none),
    ("EXEC", runnable, none), ("EXECUTE", runnable, none),
    ("MANAGE", manageable, some "GRANT MANAGE type"), ("MODIFY", modifiable, none),
    ("MONITOR", watchable, none)]

/-- One right, as text. -/
def right : Parser String := do
  if let some ks ← oneOfRuns? longRights then return joinWith " " ks
  if ← words? ["DATABASE", "ROLE"] then return "DATABASE ROLE " ++ (← objectName).print
  if ← word? "ROLE" then return "ROLE " ++ (← objectName).print
  if let some k ← oneOf? plainRights then return k
  if let some k ← oneOf? columnRights then
    let columns ← columnList true
    return k ++ (if columns.isEmpty then "" else " (" ++ commas (columns.map Ident.print) ++ ")")
  let k ← oneOfAs "a privilege keyword" (rightTails.map (·.1))
  match rightTails.lookup k with
  | none => return k
  | some (tails, due) =>
    match ← oneOfRuns? tails, due with
    | some ks, _ => return joinWith " " (k :: ks)
    | none, some what => expected what
    | none, none => return k

/-- The rights that a statement is about, as text. -/
def rights : Parser String := do
  if ← word? "ALL" then
    return if ← word? "PRIVILEGES" then "ALL PRIVILEGES" else "ALL"
  else return commas (← commaSeparated right)

/-! ### Objects and receivers -/

/-- The words before the names of several things at once. -/
def objectGroups : List (List String) :=
  [["ALL", "TABLES", "IN", "SCHEMA"], ["ALL", "EXTERNAL", "TABLES", "IN", "SCHEMA"],
    ["ALL", "VIEWS", "IN", "SCHEMA"], ["ALL", "MATERIALIZED", "VIEWS", "IN", "SCHEMA"],
    ["ALL", "FUNCTIONS", "IN", "SCHEMA"], ["FUTURE", "SCHEMAS", "IN", "DATABASE"],
    ["FUTURE", "TABLES", "IN", "SCHEMA"], ["FUTURE", "EXTERNAL", "TABLES", "IN", "SCHEMA"],
    ["FUTURE", "VIEWS", "IN", "SCHEMA"], ["FUTURE", "MATERIALIZED", "VIEWS", "IN", "SCHEMA"],
    ["ALL", "SEQUENCES", "IN", "SCHEMA"], ["FUTURE", "SEQUENCES", "IN", "SCHEMA"],
    ["RESOURCE", "MONITOR"], ["COMPUTE", "POOL"], ["FAILOVER", "GROUP"], ["REPLICATION", "GROUP"],
    ["EXTERNAL", "VOLUME"]]

/-- A name whose parts may be stars. -/
def nameOrStars : Parser Unit :=
  discard (manyWith (symbol? ".") do unless ← symbol? "*" do discard ident)

/-- The things that the rights are for; tells whether they are named. -/
def objects (g : Grammar) : Parser Bool := do
  unless ← word? "ON" do return false
  if (← oneOfRuns? objectGroups).isSome then discard objectNames
  else
    let kind ← oneOf? ["SEQUENCE", "DATABASE", "SCHEMA", "TABLE", "VIEW", "WAREHOUSE", "INTEGRATION",
      "USER", "CONNECTION", "PROCEDURE", "FUNCTION"]
    discard (commaSeparated nameOrStars)
    if kind == some "PROCEDURE" || kind == some "FUNCTION" then
      if ← symbol? "(" then
        discard (commaSeparatedUntil ")" (dataType g))
        symbol ")"
  return true

/-- Those who get or lose the rights. A kind that is named once holds also for those after it, and the
public has no name. -/
def receivers : Parser Unit :=
  repeatFrom false fun isPublic => do
    let isPublic ← match ← oneOfRuns? [["ROLE"], ["USER"], ["SHARE"], ["GROUP"], ["PUBLIC"],
        ["DATABASE", "ROLE"], ["APPLICATION", "ROLE"], ["APPLICATION"]] with
      | some ks => pure (ks == ["PUBLIC"])
      | none => pure isPublic
    unless isPublic do
      discard objectName
      if ← symbol? ":" then discard ident
    if ← symbol? "," then return .inl isPublic else return .inr ()

/-! ### Statements -/

/-- Giving rights, after the word `GRANT`. -/
def grant (g : Grammar) : Parser String := do
  let text ← rights
  discard (objects g)
  word "TO"
  receivers
  discard (words? ["WITH", "GRANT", "OPTION"])
  discard (oneOfRuns? [["COPY", "CURRENT", "GRANTS"], ["REVOKE", "CURRENT", "GRANTS"]])
  discard (afterWord "AS" ident)
  discard (afterWords ["GRANTED", "BY"] ident)
  return "GRANT " ++ text

/-- Taking rights, after the word `REVOKE`. -/
def revoke (g : Grammar) : Parser String := do
  let text ← rights
  discard (objects g)
  word "FROM"
  receivers
  discard (afterWords ["GRANTED", "BY"] ident)
  dependents
  return "REVOKE " ++ text

/-- Denying rights, after the word `DENY`. -/
def deny (g : Grammar) : Parser String := do
  let text ← rights
  unless ← objects g do failHere "DENY statements must specify an object"
  word "TO"
  receivers
  dependents
  discard (afterWord "AS" ident)
  return "DENY " ++ text

end SqlLayout.Sql.Parser
