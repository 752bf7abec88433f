import SqlLayout.Proofs.Reading.Statements
import SqlLayout.Proofs.Signs
import SqlLayout.Proofs.Soundness

/-!
Trees that are read back from the text that is laid out for them. The text has no parentheses but those
of the tree and those around a chain inside another one, so an operand must bind at least as tightly as
the operators beside it. The layout writes known functions in the case that the style asks for, and no
other part of such a tree is changed.
-/

namespace SqlLayout.Layout

open Sql (Token)
open Sql.Lexer (isWord keyOf writtenSigns)
open Sql.Parser (isBare nonStarters isTableWord isAlias)

/-! ### Names and constants -/

/-- Whether a word is read as the name that an expression starts with. -/
def isFirstName (w : String) : Bool :=
  isWord w.toList && isBare w && !nonStarters.contains (keyOf (.word w)) && !isSessionKeyword w &&
    !Text.eqIgnoreCase w "from"

/-- Whether a word is read as the name of a function in every case that the layout may write it in. -/
def isFunctionName (w : String) : Bool :=
  [w, casedName .lower w, casedName .upper w].all fun v =>
    isFirstName v && !Text.eqIgnoreCase v "coalesce"

/-- Whether a word is read as a name after a point. -/
def isNextName (w : String) : Bool :=
  isWord w.toList && isBare w

/-- Whether words are read as a path of names. -/
def isNamePath (d : Nat) : List String → Bool
  | [] => false
  | [w] => isFirstName w
  | w :: ws =>
    isFirstName w && (!Text.eqIgnoreCase w "excluded" || w == "EXCLUDED") && ws.all isNextName &&
      decide (ws.length ≤ d)

/-- Whether a text is read as a number: digits, and digits after a point. -/
def isNumeral (t : String) : Bool :=
  !(t.toList.takeWhile Char.isDigit).isEmpty &&
    match t.toList.dropWhile Char.isDigit with
    | [] => true
    | '.' :: fraction => !fraction.isEmpty && fraction.all Char.isDigit
    | _ => false

/-- Whether a constant is read back. -/
def Const.isReadable : Const → Bool
  | .number digits => isNumeral digits
  | _ => true

/-- Whether a text is the name of a type of one word. -/
def isTypeName (t : String) : Bool :=
  isWord t.toList &&
    match Sql.Parser.typeText? (keyOf (.word t)) with
    | some text => Text.lower text == t
    | none => Sql.Parser.Token.opensNoType (.word t)

/-! ### Strengths -/

/-- The operators that are words. -/
def wordOperators : List String :=
  ["LIKE", "NOT LIKE", "ILIKE", "NOT ILIKE", "IS DISTINCT FROM", "IS NOT DISTINCT FROM"]

/-- The operators between operands that are read back. -/
def infixOperators : List String :=
  wordOperators ++ writtenSigns.map (·.2.2)

/-- How tightly an operator binds its operands. -/
def infixStrength (op : String) : Nat :=
  if ["LIKE", "NOT LIKE", "ILIKE", "NOT ILIKE"].contains op then Sql.Strength.pattern
  else if ["IS DISTINCT FROM", "IS NOT DISTINCT FROM"].contains op then Sql.Strength.is
  else Sql.Parser.symbolStrength op

/-- How tightly an operator binds what follows it. A distinction takes all that follows. -/
def infixReach (op : String) : Nat :=
  if ["IS DISTINCT FROM", "IS NOT DISTINCT FROM"].contains op then 0 else infixStrength op

/-- How tightly a connective binds its operands. -/
def chainStrength : Connective → Nat
  | .and => Sql.Strength.and
  | .or => Sql.Strength.or
  | .not => Sql.Strength.not

mutual

/-- The operators that may stand before an expression bind less tightly than this. -/
def Expr.left (isOperand : Bool) : Expr → Nat
  | .operation _ op l _ _ => min (infixStrength op) (l.left false)
  | .logic .not _ => Sql.Strength.period
  | .logic c args => if isOperand then Sql.Strength.period else min (chainStrength c) (firstLeft args)
  | .nullTest e _ => min Sql.Strength.is (e.left false)
  | .truthTest e _ => min Sql.Strength.is (e.left false)
  | .cast e _ _ => min Sql.Strength.cast (e.left false)
  | .link _ test _ _ _ => testLeft test
  | .inList e _ _ => min Sql.Strength.pattern (e.left false)
  | .between e _ _ _ => min Sql.Strength.pattern (e.left false)
  | _ => Sql.Strength.period

def firstLeft : List Expr → Nat
  | [] => Sql.Strength.period
  | e :: _ => e.left true

def testLeft : Option Expr → Nat
  | none => Sql.Strength.period
  | some e => min Sql.Strength.pattern (e.left false)

end

mutual

/-- The operators that may stand after an expression bind at most as tightly as this. -/
def Expr.right (isOperand : Bool) : Expr → Nat
  | .operation _ op _ r _ => min (infixReach op) (r.right false)
  | .logic .not args => min Sql.Strength.not (lastRight args)
  | .logic c args => if isOperand then Sql.Strength.period else min (chainStrength c) (lastRight args)
  | .between _ _ high _ => min Sql.Strength.pattern (high.right false)
  | .unary _ e => min Sql.Strength.product (e.right false)
  | _ => Sql.Strength.period

def lastRight : List Expr → Nat
  | [] => Sql.Strength.period
  | [e] => e.right true
  | _ :: r => lastRight r

end

/-! ### Readable trees -/

/-- Whether an expression stays one operand of a chain. -/
def Expr.isOperandOf (c : Connective) (e : Expr) : Bool :=
  !e.isNested && !e.isLogic c

/-- Whether an alias of a table is read back. -/
def aliasIsReadable (name : Option String) : Bool :=
  name.all fun w => isWord w.toList && isAlias w

def TableName.isReadable (t : TableName) : Bool :=
  (match t.schema with
    | some schema => isWord schema.toList && isTableWord schema && isWord t.name.toList
    | none => isWord t.name.toList && isTableWord t.name) && aliasIsReadable t.aliasName

def Locking.isReadable (l : Locking) : Bool :=
  l.of.all fun w => isWord w.toList

/-- Whether a lock may follow a body: a projection would take its first word for a name. -/
def Body.mayLock : Body → Bool
  | .select x => !x.source.isEmpty
  | .setOp _ _ _ r => r.mayLock
  | _ => true

/-- Whether an item of a projection is read back, of which the expression `isReadable` or is a star. -/
def targetIsReadable (isReadable : Bool) : Expr → Option String → Bool
  | .column [] true, name => name.isNone
  | .column [w] true, name => isFirstName w && name.isNone
  | .column _ true, _ => false
  | _, name => isReadable && name.all fun w => isWord w.toList

/-- How tightly a body holds together: an intersection more tightly than the other operators. -/
def Body.rank : Body → Nat
  | .setOp .intersect _ _ _ => 1
  | .setOp _ _ _ _ => 0
  | _ => 2

/-- Whether the text of a query starts with a word. -/
def Body.opensWithSelect : Body → Bool
  | .select _ => true
  | .setOp _ _ l _ => l.opensWithSelect
  | _ => false

def Query.opensWithWord (q : Query) : Bool :=
  q.withClause.isSome || q.body.opensWithSelect

mutual

/-- Whether an expression is read back when `d` more levels of phrases may stand in each other. -/
def Expr.isReadable (d : Nat) (isOperand : Bool) : Expr → Bool
  | .column fields star => !star && isNamePath d fields
  | .keyword w => sessionKeywords.contains w
  | .const c => c.isReadable
  | .param n => decide (n < UInt32.size)
  | .call c => decide (0 < d) && c.isReadable (d - 1)
  | .operation q op l r escape =>
    decide (0 < d) && q == .none && escape.isNone && infixOperators.contains op &&
      l.isReadable d false && decide (infixStrength op ≤ l.right false) &&
      r.isReadable (d - 1) false && decide (infixStrength op < r.left false)
  | .logic .not args => decide (0 < d) && negationIsReadable (d - 1) args
  | .logic c args =>
    if isOperand then decide (0 < d) && chainIsReadable (d - 1) c args else chainIsReadable d c args
  | .nullTest e _ => e.isReadable d false && decide (Sql.Strength.is ≤ e.right false)
  | .truthTest e _ => e.isReadable d false && decide (Sql.Strength.is ≤ e.right false)
  | .cast e typeName bounds =>
    e.isReadable d false && decide (Sql.Strength.cast ≤ e.right false) && isTypeName typeName &&
      bounds == 0
  | .caseOf arg whens default =>
    decide (0 < d) && optionIsReadable (d - 1) arg && !whens.isEmpty && whensAreReadable (d - 1) whens &&
      optionIsReadable (d - 1) default
  | .coalesce args => decide (0 < d) && exprsAreReadable (d - 1) args
  | .link .existence none none _ q => decide (2 ≤ d) && q.isReadable (d - 2)
  | .link .scalar none none false q => decide (2 ≤ d) && q.isReadable (d - 2) && q.opensWithWord
  | .link .membership test none _ q => decide (2 ≤ d) && testIsReadable d test && q.isReadable (d - 2)
  | .inList e list _ =>
    decide (0 < d) && e.isReadable d false && decide (Sql.Strength.pattern ≤ e.right false) &&
      exprsAreReadable (d - 1) list && decide (list.head?.any (·.lead false != "("))
  | .between e low high _ =>
    decide (0 < d) && e.isReadable d false && decide (Sql.Strength.pattern ≤ e.right false) &&
      low.isReadable (d - 1) false && decide (Sql.Strength.pattern < low.left false) &&
      decide (Sql.Strength.and ≤ low.right false) && high.isReadable (d - 1) false &&
      decide (Sql.Strength.pattern < high.left false)
  | .unary op e =>
    decide (0 < d) && (op == "+" || op == "-") && e.isReadable (d - 1) false &&
      decide (Sql.Strength.product < e.left false)
  | .nested e => decide (0 < d) && e.isReadable (d - 1) false
  | _ => false

/-- The operand of a negation. A negated test of existence is one phrase. -/
def negationIsReadable (d : Nat) : List Expr → Bool
  | [e] =>
    e.isReadable d true && decide (Sql.Strength.not < e.left true) && !e.isNested &&
      e.lead true != "EXISTS("
  | _ => false

/-- A chain of at least two conditions. -/
def chainIsReadable (d : Nat) (c : Connective) : List Expr → Bool
  | e :: r =>
    decide (0 < d) && !r.isEmpty && e.isReadable d true && e.isOperandOf c &&
      decide (chainStrength c ≤ e.right true) && restIsReadable (d - 1) c r
  | [] => false

/-- The conditions of a chain after the first. -/
def restIsReadable (d : Nat) (c : Connective) : List Expr → Bool
  | [] => true
  | e :: r =>
    e.isReadable d true && e.isOperandOf c && decide (chainStrength c < e.left true) &&
      (r.isEmpty || decide (chainStrength c ≤ e.right true)) && restIsReadable d c r

def exprsAreReadable (d : Nat) : List Expr → Bool
  | [] => true
  | e :: r => e.isReadable d false && exprsAreReadable d r

def optionIsReadable (d : Nat) : Option Expr → Bool
  | none => true
  | some e => e.isReadable d false

/-- A condition, whose parentheses would go away. -/
def conditionIsReadable (d : Nat) : Option Expr → Bool
  | none => true
  | some e => e.isReadable d false && !e.isNested

def testIsReadable (d : Nat) : Option Expr → Bool
  | none => false
  | some e => e.isReadable d false && decide (Sql.Strength.pattern ≤ e.right false)

def whensAreReadable (d : Nat) : List When → Bool
  | [] => true
  | ⟨c, r⟩ :: ws => c.isReadable d false && r.isReadable d false && whensAreReadable d ws

def Call.isReadable (d : Nat) : Call → Bool
  | ⟨name, args, distinct, star, orderBy, withinGroup, filter, window⟩ =>
    (match name with
      | [w] => isFunctionName w
      | _ => false) &&
      (if star then args.isEmpty else !args.isEmpty || (!distinct && orderBy.isEmpty)) &&
      argsAreReadable d args && sortIsReadable d orderBy && sortIsReadable d withinGroup &&
      conditionIsReadable d filter && windowIsReadable d window

def argsAreReadable (d : Nat) : List Arg → Bool
  | [] => true
  | .positional e :: r => e.isReadable d false && argsAreReadable d r
  | .named _ _ _ :: _ => false

def windowIsReadable (d : Nat) : Option Window → Bool
  | none => true
  | some ⟨partitionBy, orderBy, frame⟩ =>
    exprsAreReadable d partitionBy && sortIsReadable d orderBy && frame.isNone

def sortIsReadable (d : Nat) : List SortItem → Bool
  | [] => true
  | ⟨e, _, _⟩ :: r => e.isReadable d false && sortIsReadable d r

/-- Whether a query is read back. -/
def Query.isReadable (d : Nat) : Query → Bool
  | ⟨withClause, body, orderBy, limit, offset, locking⟩ =>
    withIsReadable d withClause && body.isReadable d && sortIsReadable d orderBy &&
      optionIsReadable d limit && optionIsReadable d offset && locking.all Locking.isReadable &&
      (locking.isEmpty || body.mayLock || !orderBy.isEmpty || limit.isSome || offset.isSome)

def withIsReadable (d : Nat) : Option With → Bool
  | none => true
  | some ⟨_, ctes⟩ => !ctes.isEmpty && ctesAreReadable d ctes

def ctesAreReadable (d : Nat) : List Cte → Bool
  | [] => true
  | ⟨name, materialized, q⟩ :: r =>
    isWord name.toList && keyOf (.word name) != "RECURSIVE" &&
      materialized.all ["MATERIALIZED", "NOT MATERIALIZED"].contains && decide (0 < d) &&
      q.isReadable (d - 1) && ctesAreReadable d r

def Body.isReadable (d : Nat) : Body → Bool
  | .select x => x.isReadable d
  | .setOp .intersect _ l r =>
    l.isReadable d && r.isReadable d && decide (1 ≤ l.rank) && decide (1 < r.rank)
  | .setOp _ _ l r => l.isReadable d && r.isReadable d && decide (0 < r.rank)
  | .values rows => !rows.isEmpty && rowsAreReadable d rows
  | .query q => decide (0 < d) && q.isReadable (d - 1)

def rowsAreReadable (d : Nat) : List (List Expr) → Bool
  | [] => true
  | es :: r => !es.isEmpty && exprsAreReadable d es && rowsAreReadable d r

def Select.isReadable (d : Nat) : Select → Bool
  | ⟨distinct, targets, source, condition, groupBy, having⟩ =>
    distinctIsReadable d distinct && !targets.isEmpty && targetsAreReadable d targets &&
      fromIsReadable d source && conditionIsReadable d condition && groupsAreReadable d groupBy &&
      conditionIsReadable d having

def distinctIsReadable (d : Nat) : Option Distinct → Bool
  | none => true
  | some .rows => true
  | some (.on es) => !es.isEmpty && exprsAreReadable d es

def targetsAreReadable (d : Nat) : List Target → Bool
  | [] => true
  | ⟨e, name⟩ :: r => targetIsReadable (e.isReadable d false) e name && targetsAreReadable d r

/-- Items of a grouping. One in parentheses would be a list. -/
def groupsAreReadable (d : Nat) : List Expr → Bool
  | [] => true
  | e :: r => e.isReadable d false && e.lead false != "(" && groupsAreReadable d r

def fromIsReadable (d : Nat) : List FromItem → Bool
  | [] => true
  | f :: r => f.isReadable d && fromIsReadable d r

def FromItem.isReadable (d : Nat) : FromItem → Bool
  | .table t => t.isReadable
  | .subquery _ q name => decide (0 < d) && q.isReadable (d - 1) && aliasIsReadable name
  | .join kind natural l r condition =>
    l.isReadable d && r.isReadable d && !r.isJoin &&
      (if kind = .cross then !natural && condition.isReadable d true else condition.isReadable d natural)
  | _ => false

def JoinCondition.isReadable (d : Nat) (natural : Bool) : JoinCondition → Bool
  | .on e => !natural && e.isReadable d false && !e.isNested
  | .byColumns cs => !natural && !cs.isEmpty && cs.all fun c => isWord c.toList
  | .none => true

end

/-- Whether a statement is read back from its text. -/
def Statement.isReadable : Statement → Bool
  | .select q => q.isReadable 47
  | _ => false

/-! ### Readings -/

/-- What a chain of conditions is. -/
def Reading.conditions (c : Connective) (args : List Expr) : Reading where
  whole := .ok (.logic c args)
  bare := .ok (.logic c args)
  operands c' := .ok (if c' = c then args else [.logic c args])

/-- What an expression is read as. -/
def Expr.reading : Expr → Reading
  | .nested e => e.reading.nested
  | .logic .not args => .same (.ok (.logic .not args))
  | .logic c args => .conditions c args
  | e => .same (.ok e)

/-- A chain of conditions. -/
def Expr.isChain : Expr → Bool
  | .logic .not _ => false
  | .logic _ _ => true
  | _ => false

/-- What an expression is read as where it is laid out; a chain stands in parentheses when it
`isOperand`. -/
def Expr.readingIn (isOperand : Bool) (e : Expr) : Reading :=
  if e.isChain && isOperand then e.reading.nested else e.reading

theorem reading_whole (e : Expr) : e.reading.whole = .ok e := by
  fun_induction Expr.reading e with
  | case1 e ih =>
    rw [Reading.nested, ih]
    rfl
  | _ => rfl

theorem reading_bare {e : Expr} (h : e.isNested = false) : e.reading.bare = .ok e := by
  fun_cases Expr.reading e with
  | case1 e => cases h
  | _ => rfl

theorem readingIn_bare {e : Expr} {isOperand : Bool} (h : e.isNested = false) :
    (e.readingIn isOperand).bare = .ok e := by
  unfold Expr.readingIn
  split
  · exact reading_bare h
  · exact reading_bare h

theorem readingIn_operands {e : Expr} {c : Connective} (h : e.isOperandOf c = true) :
    (e.readingIn true).operands c = .ok [e] := by
  simp only [Expr.isOperandOf, Bool.and_eq_true, Bool.not_eq_true'] at h
  have hoperands : e.reading.operands c = .ok [e] := by
    fun_cases Expr.reading e with
    | case1 e => cases h.1
    | case3 c' args =>
      have hne : c ≠ c' := by
        rintro rfl
        exact absurd h.2 (by simp [Expr.isLogic])
      simp [Reading.conditions, hne]
    | _ => rfl
  unfold Expr.readingIn
  split
  · exact hoperands
  · exact hoperands

theorem chain_conditions {l r : Reading} {c : Connective} {as bs : List Expr}
    (hl : l.operands c = .ok as) (hr : r.operands c = .ok bs) :
    Reading.chain c l r = Reading.conditions c (as ++ bs) := by
  simp only [Reading.chain, Reading.conditions, hl, hr]
  congr
  funext c'
  by_cases h : c' = c
  · simp only [h, if_true]
    rfl
  · simp only [h, if_false]
    rfl

end SqlLayout.Layout
