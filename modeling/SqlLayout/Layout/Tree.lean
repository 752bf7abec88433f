/-!
The tree of a statement that can be laid out. Names, operators, types and phrases without a layout of
their own are texts; keywords that the layout writes are constructors.
-/

namespace SqlLayout.Layout

/-- A constant. -/
inductive Const
  | number (digits : String)
  | string (text : String)
  | boolean (b : Bool)
  | null
  deriving DecidableEq, Repr, Inhabited

/-- A plain operator, or a comparison with the elements of an array. -/
inductive Quantifier
  | none
  | any
  | all
  deriving DecidableEq, Repr, Inhabited

/-- The connectives of truth values. -/
inductive Connective
  | and
  | or
  | not
  deriving DecidableEq, Repr, Inhabited

/-- The tests for null. -/
inductive NullTest
  | isNull
  | isNotNull
  deriving DecidableEq, Repr, Inhabited

/-- The tests for a truth value. -/
inductive TruthTest
  | isTrue
  | isNotTrue
  | isFalse
  | isNotFalse
  | isUnknown
  | isNotUnknown
  deriving DecidableEq, Repr, Inhabited

/-- The ways in which a query stands in an expression. -/
inductive LinkKind
  | existence
  | all
  | any
  | array
  | scalar
  | membership
  deriving DecidableEq, Repr, Inhabited

/-- The direction of a sort. -/
inductive Direction
  | default
  | ascending
  | descending
  deriving DecidableEq, Repr, Inhabited

/-- The place of nulls in a sort. -/
inductive Nulls
  | first
  | last
  deriving DecidableEq, Repr, Inhabited

/-- The operators between queries. -/
inductive SetOperator
  | union
  | intersect
  | except
  deriving DecidableEq, Repr, Inhabited

/-- The ways to join two tables. -/
inductive JoinKind
  | plain
  | inner
  | left
  | leftOuter
  | right
  | rightOuter
  | full
  | cross
  deriving DecidableEq, Repr, Inhabited

/-- The strength of a row lock. -/
inductive LockStrength
  | update
  | share
  deriving DecidableEq, Repr, Inhabited

/-- What a row lock does when a row is locked already. -/
inductive Waiting
  | noWait
  | skipLocked
  deriving DecidableEq, Repr, Inhabited

/-- A row-locking clause. -/
structure Locking where
  strength : LockStrength
  of : Option String
  waiting : Option Waiting
  deriving DecidableEq, Repr, Inhabited

/-- A table by its name. -/
structure TableName where
  schema : Option String
  name : String
  aliasName : Option String
  deriving DecidableEq, Repr, Inhabited

mutual

/-- An expression. -/
inductive Expr
  | column (fields : List String) (wildcard : Bool)
  | keyword (word : String)
  | const (value : Const)
  | param (number : Nat)
  | call (call : Call)
  | operation (quantifier : Quantifier) (op : String) (left right : Expr) (escape : Option Expr)
  | logic (connective : Connective) (args : List Expr)
  | nullTest (arg : Expr) (test : NullTest)
  | truthTest (arg : Expr) (test : TruthTest)
  | cast (arg : Expr) (typeName : String) (arrayBounds : Nat)
  | caseOf (arg : Option Expr) (whens : List When) (default : Option Expr)
  | coalesce (args : List Expr)
  | link (kind : LinkKind) (test : Option Expr) (op : Option String) (negated : Bool)
      (query : Query)
  | inList (arg : Expr) (list : List Expr) (negated : Bool)
  | between (arg low high : Expr) (negated : Bool)
  | array (elements : List Expr)
  | unary (op : String) (arg : Expr)
  | nested (inner : Expr)
  | verbatim (text : String)

/-- One branch of a `CASE`. -/
structure When where
  condition : Expr
  result : Expr

/-- A function call. -/
structure Call where
  name : List String
  args : List Arg
  distinct : Bool
  star : Bool
  orderBy : List SortItem
  withinGroup : List SortItem
  filter : Option Expr
  window : Option Window

/-- An argument of a call. -/
inductive Arg
  | positional (value : Expr)
  | named (name sign : String) (value : Expr)

/-- A window. -/
structure Window where
  partitionBy : List Expr
  orderBy : List SortItem
  frame : Option String

/-- One item of a sort list. -/
structure SortItem where
  expr : Expr
  direction : Direction
  nulls : Option Nulls

/-- A query with the clauses around its body. -/
structure Query where
  withClause : Option With
  body : Body
  orderBy : List SortItem
  limit : Option Expr
  offset : Option Expr
  locking : List Locking

/-- The named queries before a query. -/
structure With where
  isRecursive : Bool
  ctes : List Cte

/-- A named query. -/
structure Cte where
  name : String
  materialized : Option String
  query : Query

/-- The body of a query. -/
inductive Body
  | select (select : Select)
  | setOp (op : SetOperator) (all : Bool) (left right : Body)
  | values (rows : List (List Expr))
  | query (query : Query)

/-- A select. -/
structure Select where
  distinct : Option Distinct
  targets : List Target
  source : List FromItem
  condition : Option Expr
  groupBy : List Expr
  having : Option Expr

/-- The treatment of equal rows. -/
inductive Distinct
  | rows
  | on (exprs : List Expr)

/-- One item of a projection. -/
structure Target where
  value : Expr
  name : Option String

/-- One item of a `FROM` clause. -/
inductive FromItem
  | table (table : TableName)
  | function (isLateral : Bool) (call : Call) (aliasName : Option String)
  | subquery (isLateral : Bool) (query : Query) (aliasName : Option String)
  | join (kind : JoinKind) (natural : Bool) (left right : FromItem) (condition : JoinCondition)
  | verbatim (text : String)

/-- The condition of a join. -/
inductive JoinCondition
  | on (condition : Expr)
  | byColumns (columns : List String)
  | none

end

/-- An assignment; its target is kept as text. -/
structure Assignment where
  target : String
  value : Expr

/-- The rows of an `INSERT`. -/
inductive InsertSource
  | values (rows : List (List Expr))
  | query (query : Query)
  | defaultValues

/-- The rows for which a conflict is looked for. -/
inductive ConflictTarget
  | columns (names : List String)
  | onConstraint (name : String)

/-- What an `INSERT` does on a conflict. -/
inductive ConflictAction
  | nothing
  | update (assignments : List Assignment) (condition : Option Expr)

/-- The clause of an `INSERT` for rows that are there already. -/
structure OnConflict where
  target : Option ConflictTarget
  action : ConflictAction

/-- An `INSERT`. -/
structure Insert where
  table : String
  aliasName : Option String
  columns : List String
  source : InsertSource
  onConflict : Option OnConflict
  returning : List Target

/-- An `UPDATE`. -/
structure Update where
  table : TableName
  assignments : List Assignment
  condition : Option Expr
  returning : List Target

/-- A `DELETE`. -/
structure Delete where
  table : TableName
  condition : Option Expr
  returning : List Target

/-- A statement. -/
inductive Statement
  | select (query : Query)
  | insert (insert : Insert)
  | update (update : Update)
  | delete (delete : Delete)

end SqlLayout.Layout
