import SqlLayout.Sql.Token

/-!
The tree of an SQL script as it is read. Phrases that have a layout of their own are nodes; every
other phrase is kept as its one-line text. The tree tells apart what the layout tells apart and
what decides whether a statement can be laid out at all.
-/

namespace SqlLayout.Sql

/-- A name with the quote it was written in, if any. -/
structure Ident where
  text : String
  quote : Option Char
  deriving DecidableEq, Repr, Inhabited

/-- A name of several parts, such as a schema's table. -/
abbrev ObjectName := List Ident

/-- A constant. Constants without a layout of their own are kept as their text. -/
inductive Value
  | number (digits : String) (long : Bool)
  | string (text : String)
  | boolean (b : Bool)
  | null
  | placeholder (text : String)
  | other (text : String)
  deriving DecidableEq, Repr, Inhabited

/-- A type. A built-in one is kept as its text, which holds its sizes. -/
inductive DataType
  | builtin (text : String)
  | custom (name : ObjectName) (modifiers : List String)
  | array (element : DataType) (size : Option Nat)
  deriving Repr, Inhabited

/-- An operator between two operands. -/
inductive BinaryOp
  | and
  | or
  | other (text : String)
  deriving DecidableEq, Repr, Inhabited

/-- The signs before an operand that have a layout of their own. -/
inductive UnaryOp
  | not
  | plus
  | minus
  deriving DecidableEq, Repr, Inhabited

/-- What an `IS` test asks for. -/
inductive Truth
  | null
  | true
  | false
  | unknown
  deriving DecidableEq, Repr, Inhabited

/-- The pattern operators. -/
inductive Matching
  | like
  | ilike
  | similarTo
  deriving DecidableEq, Repr, Inhabited

/-- The quantifiers of a comparison with a set; `some` is another spelling of `any`. -/
inductive Quantifier
  | any
  | some
  | all
  deriving DecidableEq, Repr, Inhabited

/-- The direction of a sort and the place of nulls in it. -/
structure SortOptions where
  ascending : Option Bool
  nullsFirst : Option Bool
  deriving DecidableEq, Repr, Inhabited

/-- The name that a table phrase gets, with its columns as texts; `explicit` tells that `AS` was
written. -/
structure TableAlias where
  explicit : Bool
  name : Ident
  columns : List String
  deriving DecidableEq, Repr, Inhabited

/-- The operators between two queries. -/
inductive SetOperator
  | union
  | intersect
  | except
  | minus
  deriving DecidableEq, Repr, Inhabited

/-- How an operator between queries treats rows that occur twice. -/
inductive SetQuantifier
  | none
  | all
  | distinct
  | byName
  | allByName
  | distinctByName
  deriving DecidableEq, Repr, Inhabited

/-- The ways to join two tables. -/
inductive JoinKind
  | plain
  | inner
  | left
  | leftOuter
  | right
  | rightOuter
  | full
  | cross
  | semi
  | leftSemi
  | rightSemi
  | anti
  | leftAnti
  | rightAnti
  | crossApply
  | outerApply
  | asOf
  | straight
  deriving DecidableEq, Repr, Inhabited

/-- What a row lock does when a row is locked already. -/
inductive Waiting
  | noWait
  | skipLocked
  deriving DecidableEq, Repr, Inhabited

/-- A row-locking clause. -/
structure Lock where
  share : Bool
  of : Option ObjectName
  waiting : Option Waiting
  deriving DecidableEq, Repr, Inhabited

mutual

/-- An expression. Arguments of a call are expressions too: a name with a value only stands there. -/
inductive Expr
  | ident (name : Ident)
  | path (names : List Ident)
  | star
  | pathStar (names : ObjectName)
  | value (v : Value)
  | binary (left : Expr) (op : BinaryOp) (right : Expr)
  | unary (op : UnaryOp) (arg : Expr)
  | nested (inner : Expr)
  | is (arg : Expr) (negated : Bool) (truth : Truth)
  | inList (arg : Expr) (negated : Bool) (list : List Expr)
  | inQuery (arg : Expr) (negated : Bool) (query : Query)
  | between (arg : Expr) (negated : Bool) (low high : Expr)
  | quantified (left : Expr) (op : String) (quantifier : Quantifier) (right : Expr)
  | cast (doubleColon : Bool) (arg : Expr) (type : DataType)
  | caseOf (operand : Option Expr) (whens : List When) (otherwise : Option Expr)
  | existsIn (negated : Bool) (query : Query)
  | subquery (query : Query)
  | pattern (matching : Matching) (arg : Expr) (negated : Bool) (form : Expr)
      (escape : Option Value)
  | distinctFrom (left : Expr) (negated : Bool) (right : Expr)
  | array (elements : List Expr)
  | bareCall (name : ObjectName)
  | queryCall (name : ObjectName) (query : Query)
  | call (name : ObjectName) (odbc : Bool) (duplicates : Option String) (args : List Expr)
      (before : List String) (orderBy : List SortItem) (clauses : List String)
      (withinGroup : List SortItem) (filter : Option Expr) (nullTreatment : Option String) (window : Window)
  | namedArg (text : String)
  | access (text : String)
  | phrase (text : String)

/-- One branch of a `CASE`. -/
structure When where
  condition : Expr
  result : Expr

/-- One item of a sort list. -/
structure SortItem where
  expr : Expr
  options : SortOptions

/-- The window of a call. One that starts from a named window is kept as its text. -/
inductive Window
  | none
  | named (text : String)
  | spec (partitionBy : List Expr) (orderBy : List SortItem) (frame : Option String)

/-- A query with the clauses around its body. The unit of the offset starts with a blank or is
empty; the clauses that have no layout are kept as texts. -/
structure Query where
  isRecursive : Bool
  ctes : List Cte
  body : Body
  orderBy : List SortItem
  limit : Option Expr
  offset : Option Expr
  offsetUnit : String
  fetch : Option String
  locks : List Lock
  forClause : Option String

/-- One named query of a `WITH` clause. -/
structure Cte where
  aliasName : TableAlias
  materialized : Option Bool
  query : Query
  source : Option Ident

/-- The body of a query. Bodies without a layout are kept as their text. -/
inductive Body
  | select (select : Select)
  | query (query : Query)
  | setOp (left : Body) (op : SetOperator) (quantifier : SetQuantifier) (right : Body)
  | values (explicitRow singular : Bool) (rows : List (List Expr))
  | other (text : String)

/-- A `SELECT`. The clauses that have no layout are kept as texts. -/
structure Select where
  distinct : Distinct
  top : Option String
  targets : List Target
  into : Option String
  tables : List Table
  lateralViews : List String
  condition : Option Expr
  groupBy : List Expr
  groupAll : Bool
  groupModifiers : List String
  clusterBy : List String
  distributeBy : List String
  sortBy : List String
  having : Option Expr
  windows : List String
  qualify : Option String
  windowsFirst : Bool

/-- The treatment of equal rows. -/
inductive Distinct
  | none
  | rows
  | on (exprs : List Expr)

/-- One item of a projection. -/
structure Target where
  value : Expr
  aliasName : Option Ident

/-- A table phrase. Phrases without a layout are kept as their text. -/
inductive Factor
  | table (name : ObjectName) (aliasName : Option TableAlias)
  | function (isLateral : Bool) (name : ObjectName) (args : List Expr) (aliasName : Option TableAlias)
  | derived (isLateral : Bool) (query : Query) (aliasName : Option TableAlias)
  | phrase (text : String)

/-- A table phrase with the joins after it, the last of which is the outermost. -/
inductive Table
  | factor (factor : Factor)
  | joined (left : Table) (isGlobal : Bool) (kind : JoinKind) (right : Factor)
      (matching : Option String) (constraint : Constraint)

/-- The condition of a join. -/
inductive Constraint
  | on (condition : Expr)
  | byColumns (columns : List ObjectName)
  | natural
  | none

end

/-- An assignment; its target is kept as text. -/
structure Assignment where
  target : String
  value : Expr

/-- What an `INSERT` does on a conflict. -/
inductive ConflictAction
  | nothing
  | update (assignments : List Assignment) (condition : Option Expr)

/-- The rows for which a conflict is looked for. -/
inductive ConflictTarget
  | columns (names : List Ident)
  | onConstraint (name : ObjectName)

/-- The clause of an `INSERT` for rows that are there already. -/
inductive OnInsert
  | duplicateKey (assignments : List Assignment)
  | conflict (target : Option ConflictTarget) (action : ConflictAction)

/-- An `INSERT`. `lead` is the text before the table's name; the clauses outside PostgreSQL are kept
as texts. -/
structure Insert where
  lead : String
  foreign : Bool
  table : String
  aliasName : Option Ident
  columns : List String
  partition : Option String
  source : Option Query
  on : Option OnInsert
  returning : Option (List Target)

/-- An `UPDATE`. -/
structure Update where
  or : Option String
  table : Table
  assignments : List Assignment
  fromFirst : Bool
  tables : Option (List Table)
  condition : Option Expr
  returning : Option (List Target)
  limit : Option Expr

/-- A `DELETE`. -/
structure Delete where
  names : List ObjectName
  tables : List Table
  others : Option (List Table)
  condition : Option Expr
  returning : Option (List Target)
  orderBy : List SortItem
  limit : Option Expr

/-- A statement. One that is neither a query nor a change of rows is known by its leading words. -/
inductive Statement
  | query (query : Query)
  | insert (insert : Insert)
  | update (update : Update)
  | delete (delete : Delete)
  | command (label : String)

end SqlLayout.Sql
