import SqlLayout.Proofs.HostRenewal

/-!
Reading a source with new literals. Every parser of the grammar is blind to the texts of literals.
-/

namespace SqlLayout.Host

/-- A parser that does the same whatever the texts of literals are. -/
abbrev Blind {α : Type} [Renews α] (m : Renewal) (p : Parser α) : Prop :=
  Mirrors m p p

/-- A grammar whose parsers are blind to the texts of literals. -/
class Grammar.Blind (m : Renewal) (g : Grammar) : Prop where
  type : ∀ allowPlus, Host.Blind m (g.type allowPlus)
  bound : Host.Blind m g.bound
  expr : ∀ allowStruct, Host.Blind m (g.expr allowStruct)
  unary : ∀ allowStruct, Host.Blind m (g.unary allowStruct)
  early : Host.Blind m g.early
  climb : ∀ allowStruct least left,
    Mirrors m (g.climb allowStruct least left) (g.climb allowStruct least (renew m left))
  pattern : Host.Blind m g.pattern
  statements : Host.Blind m g.statements
  item : Host.Blind m g.item
  fields : Host.Blind m g.fields
  useTree : ∀ mayBeRooted, Host.Blind m (g.useTree mayBeRooted)

attribute [instance] Grammar.Blind.type Grammar.Blind.bound Grammar.Blind.expr Grammar.Blind.unary
  Grammar.Blind.early Grammar.Blind.climb Grammar.Blind.pattern Grammar.Blind.statements
  Grammar.Blind.item Grammar.Blind.fields Grammar.Blind.useTree

namespace Parser

-- a parser of many branches has one proof for all of them
set_option synthInstance.maxSize 1000000
set_option synthInstance.maxHeartbeats 400000

section

variable {m : Renewal} (g : Grammar) [g.Blind m]

instance : Blind m plainPath := by unfold plainPath; infer_instance
instance : Mirrors m literal literal :=
  mirrors_trees fun ts => by
    have hother (ts : List Tree) : Mirrors m (do
        if Ahead.literal.holds ts then
          drop (if (Ahead.mark "-").holds ts then 2 else 1)
          return .other
        else failHere "expected literal" : Parser ExprShape) (do
        if Ahead.literal.holds (renewTrees m ts) then
          drop (if (Ahead.mark "-").holds (renewTrees m ts) then 2 else 1)
          return .other
        else failHere "expected literal") := by
      rw [holds_renew, holds_renew]
      infer_instance
    match ts with
    | [] => exact hother []
    | .group d inner :: r => exact hother (.group d inner :: r)
    | .word text :: r => exact hother (.word text :: r)
    | .mark c joined :: r => exact hother (.mark c joined :: r)
    | .literal text start stop :: r =>
      refine mirrors_bind inferInstance fun _ => ?_
      rw [Renewal.isText_literal]
      split
      · rename_i htext
        rw [Renewal.textOf_literal htext]
        exact inferInstanceAs (Mirrors m (pure _) (pure (renew m (ExprShape.text _ start stop))))
      · infer_instance

instance : Blind m (attributeBody g) := by
  unfold attributeBody
  have hvalue : Blind m (do
      let (_, rest) ← lookPast (attempt literal)
      if (← ahead .literal) && rest.isEmpty then
        let _ ← literal
      else if (← ahead (.mark "#")) && (← ahead2 (.group .bracket)) then
        failHere "unexpected attribute inside of attribute"
      else
        let _ ← g.expr true) :=
    mirrors_bind inferInstance fun (_, rest) => by
      dsimp only [renew]
      rw [isEmpty_renewTrees]
      infer_instance
  have hrest : Blind m (do
      match ← trees with
      | .group _ _ :: _ => drop 1
      | _ =>
        if ← take? (.mark "=") then
          let (_, rest) ← lookPast (attempt literal)
          if (← ahead .literal) && rest.isEmpty then
            let _ ← literal
          else if (← ahead (.mark "#")) && (← ahead2 (.group .bracket)) then
            failHere "unexpected attribute inside of attribute"
          else
            let _ ← g.expr true) :=
    mirrors_trees fun ts => by
      rcases ts with _ | ⟨_ | _ | _ | _, _⟩ <;> (dsimp only [renewTrees, Tree.renew]; infer_instance)
  infer_instance

instance : Blind m (outerAttributes g) := by unfold outerAttributes; infer_instance
instance : Blind m (innerAttributes g) := by unfold innerAttributes; infer_instance
instance : Blind m (block g) := by unfold block; infer_instance
instance : Blind m (attributedBlock g) := by unfold attributedBlock; infer_instance
instance : Blind m (constArgument g) := by unfold constArgument; infer_instance
instance : Blind m (genericArgument g) := by unfold genericArgument; infer_instance
instance : Blind m (angleArguments g) := by unfold angleArguments; infer_instance
instance (inExpr : Bool) : Blind m (segment g inExpr) := by unfold segment; infer_instance
instance (inExpr : Bool) (fuel : Nat) (p : PathShape) :
    Blind m (moreSegments g inExpr fuel p) := by
  induction fuel generalizing p <;> (unfold moreSegments; infer_instance)

instance (inExpr : Bool) : Blind m (path g inExpr) := by unfold path; infer_instance
instance (inExpr : Bool) (fuel : Nat) (p : PathShape) :
    Blind m (qualifiedSegments g inExpr fuel p) := by
  induction fuel generalizing p <;> (unfold qualifiedSegments; infer_instance)

instance (inExpr : Bool) : Blind m (qualifiedPath g inExpr) := by
  unfold qualifiedPath
  infer_instance

instance (stop : Parser Bool) [Blind m stop] : Blind m (lifetimeBounds stop) := by
  unfold lifetimeBounds
  infer_instance

instance : Blind m lifetimeParameter := by unfold lifetimeParameter; infer_instance
instance : Blind m (typeParameter g) := by unfold typeParameter; infer_instance
instance : Blind m (constParameter g) := by unfold constParameter; infer_instance
instance : Blind m (boundLifetimes g) := by unfold boundLifetimes; infer_instance
instance : Blind m (boundLifetimes? g) := by unfold boundLifetimes?; infer_instance
instance : Blind m (generics g) := by unfold generics; infer_instance
instance : Blind m conditionsEnd := by unfold conditionsEnd; infer_instance
instance : Blind m (whereClause g) := by unfold whereClause; infer_instance
instance : Blind m (parenthesizedArguments g) := by unfold parenthesizedArguments; infer_instance
instance : Blind m parenthesesAhead := by unfold parenthesesAhead; infer_instance
instance (allowConst : Bool) : Blind m (constMarker allowConst) := by
  unfold constMarker
  infer_instance

instance (allowConst : Bool) : Blind m (traitBound g allowConst) := by
  unfold traitBound
  infer_instance

instance : Blind m captures := by unfold captures; infer_instance
instance (allowCaptures allowConst : Bool) : Blind m (bound g allowCaptures allowConst) := by
  unfold bound
  infer_instance

instance (allowConst : Bool) : Blind m (boundAhead allowConst) := by
  unfold boundAhead
  infer_instance

instance (allowPlus allowCaptures allowConst : Bool) (fuel : Nat) :
    Blind m (bounds g allowPlus allowCaptures allowConst fuel) := by
  induction fuel <;> (unfold bounds; infer_instance)

instance (allowPlus : Bool) : Blind m (objectBounds g allowPlus) := by
  unfold objectBounds
  infer_instance

instance : Blind m (plusBounds g) := by unfold plusBounds; infer_instance
instance (fuel : Nat) (p : PathShape) :
    Blind m (typeArguments g fuel p) := by
  induction fuel generalizing p <;> (unfold typeArguments; infer_instance)

instance (allowPlus hasLifetimes : Bool) : Blind m (pathType g allowPlus hasLifetimes) := by
  unfold pathType
  infer_instance

instance : Blind m (typeContent g) := by unfold typeContent; infer_instance
instance (allowPlus : Bool) : Blind m (parenthesizedType g allowPlus) :=
  mirrors_bind_plain inferInstance fun content => mirrors_bind_plain inferInstance fun more => by
    cases content <;> infer_instance

instance (allowSelf : Bool) : Blind m (functionTypeParameter g allowSelf) := by
  unfold functionTypeParameter
  infer_instance

instance (fuel : Nat) (flag : Bool) :
    Blind m (functionTypeParameters g fuel flag) := by
  induction fuel generalizing flag <;> (unfold functionTypeParameters; infer_instance)

instance : Blind m (functionType g) := by unfold functionType; infer_instance
instance (allowPlus : Bool) : Blind m (type g allowPlus) := by unfold type; infer_instance
instance (text : String) : Blind m (fieldNumber text) := by unfold fieldNumber; infer_instance
instance : Blind m numberAhead :=
  mirrors_trees fun ts => by
    have hnumber (f : String → String × Nat) (text : String) (start : Nat) :
        Mirrors m (pure (if isNumber text then some (f text) else none))
          (pure (if isNumber (m.literal text start) then some (f (m.literal text start)) else none)) := by
      rw [isNumber_renew]
      by_cases htext : isText text
      · rw [(not_number_of_isText htext).1]
        exact inferInstanceAs (Mirrors m (pure none) (pure none))
      · rw [Renewal.literal_of_not_isText (Bool.eq_false_iff.2 htext)]
        infer_instance
    have hnone : Blind m (pure none : Parser (Option (String × Nat))) := inferInstance
    match ts with
    | [] => exact hnone
    | .group _ _ :: _ => exact hnone
    | .word _ :: _ => exact hnone
    | .literal text start _ :: _ => exact hnumber (·, 1) text start
    | .mark c joined :: r =>
      by_cases hc : c = '-'
      · subst hc
        match r with
        | [] => exact hnone
        | .group _ _ :: _ => exact hnone
        | .word _ :: _ => exact hnone
        | .mark _ _ :: _ => exact hnone
        | .literal text start _ :: _ => exact hnumber (fun text => ("-" ++ text, 2)) text start
      · simpa [renewTrees, Tree.renew, hc] using hnone

instance : Blind m member := by
  unfold member
  have hnumber : Blind m (do
      match ← numberAhead with
      | some (text, size) =>
        if isFloat text then failHere "expected identifier or integer"
        else
          drop size
          fieldNumber text
          return false
      | none => failHere "expected identifier or integer") :=
    mirrors_bind_plain inferInstance fun number => by split <;> infer_instance
  infer_instance

instance (allowThree : Bool) : Blind m (rangeLimits allowThree) := by
  unfold rangeLimits
  infer_instance

instance : Blind m (rangeBound g) := by unfold rangeBound; infer_instance
instance : Blind m (rangeRest g) := by unfold rangeRest; infer_instance
instance : Blind m (alternatives g) := by unfold alternatives; infer_instance
instance : Blind m (fieldPattern g) := by unfold fieldPattern; infer_instance
instance : Blind m (structPattern g) := by unfold structPattern; infer_instance
instance : Blind m (pathPattern g) := by unfold pathPattern; infer_instance
instance : Blind m (namePattern g) := by unfold namePattern; infer_instance
instance : Blind m (slicePattern g) := by unfold slicePattern; infer_instance
instance : Blind m (pattern g) := by
  unfold pattern
  refine mirrors_trees fun ts => ?_
  simp only [pass_renew, holds_renew]
  infer_instance

instance : Blind m operator? :=
  mirrors_look (fun ts => operators.find? fun (text, _) => (Ahead.mark text).holds ts) fun ts => by
    simp only [holds_renew]

instance : Blind m assignAhead := by unfold assignAhead; infer_instance
instance : Blind m strengthAhead :=
  mirrors_bind_plain inferInstance fun operator => by split <;> infer_instance

instance (allowStruct : Bool) (strength fuel : Nat) (shape : ExprShape) :
    Mirrors m (operandRest g allowStruct strength fuel shape)
      (operandRest g allowStruct strength fuel (renew m shape)) := by
  induction fuel generalizing shape <;> (unfold operandRest; infer_instance)

instance (allowStruct : Bool) (strength : Nat) : Blind m (operand g allowStruct strength) := by
  unfold operand
  infer_instance

instance (allowStruct : Bool) : Blind m (rangeEndsHere allowStruct) := by
  unfold rangeEndsHere
  infer_instance

instance (allowStruct : Bool) : Blind m (rangeExpr g allowStruct) := by
  unfold rangeExpr
  infer_instance

instance : Blind m checkCast := by unfold checkCast; infer_instance
instance (allowStruct : Bool) (least fuel : Nat) (left : ExprShape) :
    Mirrors m (climbFrom g allowStruct least fuel left)
      (climbFrom g allowStruct least fuel (renew m left)) := by
  induction fuel generalizing left with
  | zero =>
    unfold climbFrom
    infer_instance
  | succ fuel ih =>
    have hother : Blind m (climbFrom g allowStruct least fuel .other) := ih .other
    have hrange : Blind m (climbFrom g allowStruct least fuel .range) := ih .range
    have hnext (strength : Nat) : Blind m (climbFrom g allowStruct least fuel
        (if strength == Strength.compare then .comparison else .other)) := by
      split
      · exact ih .comparison
      · exact ih .other
    have hsame (form : ExprShape) (h : ∀ value start stop, form ≠ .text value start stop) :
        (renew m left == form) = (left == form) := renew_beq h
    unfold climbFrom
    rw [hsame .range (by simp), hsame .comparison (by simp)]
    split
    · infer_instance
    · exact mirrors_bind_plain inferInstance fun operator => by split <;> infer_instance

instance (allowStruct : Bool) (least : Nat) (left : ExprShape) :
    Mirrors m (climb g allowStruct least left) (climb g allowStruct least (renew m left)) := by
  unfold climb
  infer_instance

instance (allowStruct : Bool) : Blind m (expr g allowStruct) := by unfold expr; infer_instance
instance : Blind m (condition g) := by unfold condition; infer_instance
instance : Blind m (ifExpr g) := by unfold ifExpr; infer_instance
instance : Blind m (whileExpr g) := by unfold whileExpr; infer_instance
instance : Blind m (forExpr g) := by unfold forExpr; infer_instance
instance : Blind m (loopExpr g) := by unfold loopExpr; infer_instance
instance : Blind m (labeled g) := by unfold labeled; infer_instance
instance : Blind m closureForAhead :=
  mirrors_bind_plain inferInstance fun _ => mirrors_trees fun ts => by
    rw [pass_renew, genericsFollow_renew]
    infer_instance

instance : Blind m (arguments g) := by unfold arguments; infer_instance
instance : Blind m floatIndex :=
  mirrors_bind_plain inferInstance fun number => by split <;> infer_instance

instance : Blind m (memberAccess g) := by unfold memberAccess; infer_instance
instance (fuel : Nat) (shape : ExprShape) :
    Mirrors m (trailers g fuel shape) (trailers g fuel (renew m shape)) := by
  induction fuel generalizing shape with
  | zero =>
    unfold trailers
    infer_instance
  | succ fuel ih =>
    have hother : Blind m (trailers g fuel .other) := ih .other
    have hrange : (renew m shape == ExprShape.range) = (shape == .range) := renew_beq (by simp)
    unfold trailers
    rw [hrange]
    infer_instance

instance (shape : ExprShape) : Mirrors m (withTrailers g shape) (withTrailers g (renew m shape)) := by
  unfold withTrailers
  infer_instance

instance : Blind m (matchArm g) := by
  unfold matchArm
  have hend : Blind m (do
      let shape ← g.early
      if shape != .block && !(← atEnd) then mark ","
      else
        let _ ← take? (.mark ",")) :=
    mirrors_bind inferInstance fun shape => by
      have hblock : (renew m shape != ExprShape.block) = (shape != .block) := renew_bne (by simp)
      rw [hblock]
      infer_instance
  infer_instance

instance : Blind m (matchExpr g) := by unfold matchExpr; infer_instance
instance : Blind m (blockExpr? g) := by unfold blockExpr?; infer_instance
instance : Blind m (earlyExpr g) := by
  have hrest (shape : ExprShape) : Mirrors m (do
      if shape != .block then g.climb true Strength.least shape
      else if ((← ahead (.mark ".")) && !(← ahead (.mark ".."))) || (← ahead (.mark "?")) then
        let shape ← withTrailers g shape
        g.climb true Strength.least shape
      else return shape) (do
      if renew m shape != .block then g.climb true Strength.least (renew m shape)
      else if ((← ahead (.mark ".")) && !(← ahead (.mark ".."))) || (← ahead (.mark "?")) then
        let shape ← withTrailers g (renew m shape)
        g.climb true Strength.least shape
      else return renew m shape) := by
    have hblock : (renew m shape != ExprShape.block) = (shape != .block) := renew_bne (by simp)
    rw [hblock]
    infer_instance
  unfold earlyExpr
  infer_instance

instance : Blind m (closureParameter g) := by unfold closureParameter; infer_instance
instance (allowStruct : Bool) : Blind m (closure g allowStruct) := by unfold closure; infer_instance
instance : Blind m (structFields g) := by unfold structFields; infer_instance
instance (allowStruct : Bool) : Blind m (pathExpr g allowStruct) := by
  unfold pathExpr
  infer_instance

instance : Blind m (commaExprs g) := by unfold commaExprs; infer_instance
instance : Blind m (tupleExpr g) := by unfold tupleExpr; infer_instance
instance : Blind m (arrayExpr g) := by unfold arrayExpr; infer_instance
instance (text : String) (longer : List String) : Blind m (loneMark text longer) := by
  unfold loneMark
  infer_instance

instance : Blind m exprAhead := by unfold exprAhead; infer_instance
instance : Blind m (optionalExpr g) := by unfold optionalExpr; infer_instance
instance (allowStruct : Bool) : Blind m (breakExpr g allowStruct) := by
  unfold breakExpr
  infer_instance

instance (allowStruct : Bool) : Blind m (letExpr g allowStruct) := by unfold letExpr; infer_instance
instance : Blind m closureAhead := by unfold closureAhead; infer_instance
instance (allowStruct : Bool) : Blind m (atom g allowStruct) := by
  unfold atom
  dsimp only
  infer_instance

instance (allowStruct : Bool) : Blind m (unary g allowStruct) := by
  have hrest (hasAttributes : Bool) (shape : ExprShape) : Mirrors m (do
      if hasAttributes && shape == .range then
        fail "attributes are not allowed on range expressions starting with `..`"
      else return shape) (do
      if hasAttributes && renew m shape == .range then
        fail "attributes are not allowed on range expressions starting with `..`"
      else return renew m shape) := by
    have hrange : (renew m shape == ExprShape.range) = (shape == .range) := renew_beq (by simp)
    rw [hrange]
    infer_instance
  unfold unary
  infer_instance

instance (p : Parser Unit) [Blind m p] : Blind m (endsWithBrace p) :=
  mirrors_trees fun before => mirrors_bind_plain inferInstance fun _ =>
    mirrors_bind_plain inferInstance fun left => by
      dsimp only
      rw [length_renewTrees, renewTrees_eq_map, List.getElem?_map]
      match before[before.length - left - 1]? with
      | none => exact inferInstanceAs (Blind m (pure false))
      | some (.group d _) => cases d <;> exact inferInstanceAs (Mirrors m (pure _) (pure _))
      | some (.word _) => exact inferInstanceAs (Blind m (pure false))
      | some (.mark _ _) => exact inferInstanceAs (Blind m (pure false))
      | some (.literal _ _ _) => exact inferInstanceAs (Blind m (pure false))

instance : Blind m (letStatement g) := by unfold letStatement; infer_instance
instance : Blind m valueItemAhead := by unfold valueItemAhead; infer_instance
instance : Blind m itemAhead := by unfold itemAhead; infer_instance
instance : Blind m macroAhead :=
  mirrors_bind inferInstance fun (path, rest) => by
    dsimp only [renew]
    simp only [Option.isNone_map, holds_renew, pass_renew]
    infer_instance

instance : Blind m (statement g) := by
  have hend : Blind m (do
      let shape ← g.early
      if ← take? (.mark ";") then return false
      else return shape != .block && shape != .invocation .brace) :=
    mirrors_bind inferInstance fun shape => by
      have hsame (form : ExprShape) (h : ∀ value start stop, form ≠ .text value start stop) :
          (renew m shape != form) = (shape != form) := renew_bne h
      rw [hsame .block (by simp), hsame (.invocation .brace) (by simp)]
      infer_instance
  unfold statement
  refine mirrors_get fun s => ?_
  dsimp only [Input.renew]
  infer_instance

instance : Blind m (statements g) := by unfold statements; infer_instance
instance : Blind m visibility :=
  mirrors_bind_plain inferInstance fun isPublic => by
    split
    · refine mirrors_trees fun ts => ?_
      match ts with
      | .group .parenthesis inner :: _ =>
        dsimp only [renewTrees, Tree.renew]
        simp only [holds_renew, length_renewTrees]
        infer_instance
      | .group .bracket _ :: _ => dsimp only [renewTrees, Tree.renew]; infer_instance
      | .group .brace _ :: _ => dsimp only [renewTrees, Tree.renew]; infer_instance
      | .word _ :: _ => dsimp only [renewTrees, Tree.renew]; infer_instance
      | .mark _ _ :: _ => dsimp only [renewTrees, Tree.renew]; infer_instance
      | .literal _ _ _ :: _ => dsimp only [renewTrees, Tree.renew]; infer_instance
      | [] => dsimp only [renewTrees, Tree.renew]; infer_instance
    · infer_instance

instance : Blind m callingConvention := by unfold callingConvention; infer_instance
instance : Blind m (receiver g) := by unfold receiver; infer_instance
instance : Blind m (parameter g) := by unfold parameter; infer_instance
instance (fuel : Nat) (before : List Parameter) :
    Blind m (parameters g fuel before) := by
  induction fuel generalizing before <;> (unfold parameters; infer_instance)

instance (allowSafe : Bool) : Blind m (signature g allowSafe) := by unfold signature; infer_instance
instance : Blind m nameOrTry := by unfold nameOrTry; infer_instance
instance : Blind m nameOrBlank := by unfold nameOrBlank; infer_instance
instance (mayBeNamed : Bool) : Blind m (macroItem mayBeNamed) := by unfold macroItem; infer_instance
instance (stops : List Ahead) (allowConst : Bool) : Blind m (boundsUntil g stops allowConst) := by
  unfold boundsUntil
  infer_instance

instance (before after : Bool) : Blind m (typeAlias g before after) := by
  unfold typeAlias
  infer_instance

instance : Renews ConstItem where
  renew m c := { c with value := renew m c.value }

instance (name : String) (value : Option ExprShape) (isGeneric : Bool) :
    Mirrors m (pure (ConstItem.mk name value isGeneric)) (pure ⟨name, renew m value, isGeneric⟩) where
  mirrors _ := rfl

instance : Blind m (constItem g) := by unfold constItem; infer_instance

/-- The constants found since `before` stay behind the new one. -/
theorem mirrors_record (before : List Constant) (c : Constant) :
    Mirrors m
      (modify fun s => { s with found := before ++ [c] ++ s.found.drop before.length } : Parser Unit)
      (modify fun s =>
        { s with
          found := before.map (Constant.renew m) ++ [c.renew m] ++
            s.found.drop (before.map (Constant.renew m)).length }) where
  mirrors s := by
    change Except.ok _ = Except.ok _
    simp [Input.renew, renew]

instance : Blind m (foundConst g) := by
  unfold foundConst
  refine mirrors_get fun s => mirrors_bind inferInstance fun ⟨name, value, isGeneric⟩ => ?_
  match value with
  | some (.text value start stop) =>
    cases isGeneric
    · exact mirrors_bind (mirrors_record s.found ⟨name, value, start, stop⟩) fun _ =>
        inferInstanceAs (Blind m (pure true))
    · exact inferInstanceAs (Blind m (pure false))
  | some .range | some .comparison | some .block | some (.invocation _) | some .other =>
    exact inferInstanceAs (Blind m (if isGeneric then pure false else pure true))
  | none => exact inferInstanceAs (Blind m (pure false))

instance : Blind m (namedField g) := by unfold namedField; infer_instance
instance : Blind m (namedFields g) := by unfold namedFields; infer_instance
instance : Blind m (unnamedFields g) := by unfold unnamedFields; infer_instance
instance : Blind m (structItem g) := by unfold structItem; infer_instance
instance : Blind m (enumItem g) := by unfold enumItem; infer_instance
instance : Blind m (unionItem g) := by unfold unionItem; infer_instance
instance : Blind m (traitItem g) := by
  unfold traitItem
  refine mirrors_bind_plain inferInstance fun _ => mirrors_bind_plain inferInstance fun isVisible =>
    mirrors_bind_plain inferInstance fun isDefault => mirrors_trees fun ts => ?_
  simp only [functionAhead_renew, holds_renew, pass_renew]
  infer_instance

instance : Blind m (traitRest g) := by unfold traitRest; infer_instance
instance : Blind m (traitOrAlias g) := by unfold traitOrAlias; infer_instance
instance : Blind m (markedTrait g) := by unfold markedTrait; infer_instance
instance : Blind m (implItem g) := by
  unfold implItem
  refine mirrors_bind_plain inferInstance fun _ => mirrors_bind inferInstance fun (isVisible, ts) => ?_
  dsimp only [renew]
  simp only [functionAhead_renew, holds_renew, pass_renew, drop_renewTrees, ite_renewTrees]
  infer_instance

instance : Blind m (implementation g) := by unfold implementation; infer_instance
instance : Blind m (foreignItem g) := by
  unfold foreignItem
  refine mirrors_bind_plain inferInstance fun _ => mirrors_bind inferInstance fun (isVisible, ts) => ?_
  dsimp only [renew]
  simp only [functionAhead_renew, holds_renew, pass_renew]
  infer_instance

instance : Blind m (foreignBlock g) := by unfold foreignBlock; infer_instance
instance (mayBeRooted : Bool) (fuel : Nat) (flag : Bool) :
    Blind m (useTrees g mayBeRooted fuel flag) := by
  induction fuel generalizing flag <;> (unfold useTrees; infer_instance)

instance (mayBeRooted : Bool) : Blind m (useTree g mayBeRooted) := by unfold useTree; infer_instance
instance : Blind m (useItem g) := by unfold useItem; infer_instance
instance : Blind m externCrate := by unfold externCrate; infer_instance
instance : Blind m (staticItem g) := by unfold staticItem; infer_instance
instance : Blind m (items g) := by unfold items; infer_instance
instance : Blind m (moduleItem g) := by unfold moduleItem; infer_instance
instance : Blind m ruleItem := by unfold ruleItem; infer_instance
instance (ts : List Tree) : Mirrors m (externItem g ts) (externItem g (renewTrees m ts)) := by
  unfold externItem
  simp only [holds_renew, drop_renewTrees]
  infer_instance

instance (ts : List Tree) : Mirrors m (unsafeItem g ts) (unsafeItem g (renewTrees m ts)) := by
  unfold unsafeItem
  simp only [holds_renew, pass_renew]
  infer_instance

instance : Blind m (item g) := by
  unfold item
  refine mirrors_bind inferInstance fun (isVisible, ts) => ?_
  dsimp only [renew]
  simp only [functionAhead_renew, holds_renew, pass_renew, drop_renewTrees]
  infer_instance

end

end Parser

open SqlLayout.Host.Parser

variable {m : Renewal}

instance : Grammar.nothing.Blind m where
  type _ := inferInstanceAs (Blind m (fail ""))
  bound := inferInstanceAs (Blind m (fail ""))
  expr _ := inferInstanceAs (Blind m (fail ""))
  unary _ := inferInstanceAs (Blind m (fail ""))
  early := inferInstanceAs (Blind m (fail ""))
  climb _ _ _ := inferInstanceAs (Mirrors m (fail "") (fail ""))
  pattern := inferInstanceAs (Blind m (fail ""))
  statements := inferInstanceAs (Blind m (fail ""))
  item := inferInstanceAs (Blind m (fail ""))
  fields := inferInstanceAs (Blind m (fail ""))
  useTree _ := inferInstanceAs (Blind m (fail ""))

/-- The grammar is blind at every depth. -/
instance (depth : Nat) : (Grammar.atDepth depth).Blind m := by
  induction depth with
  | zero => exact inferInstanceAs (Grammar.nothing.Blind m)
  | succ depth ih =>
    exact
      { type := fun allowPlus => inferInstanceAs (Blind m (Parser.type _ allowPlus))
        bound := inferInstanceAs (Blind m (do let _ ← Parser.bound _ false true))
        expr := fun allowStruct => inferInstanceAs (Blind m (Parser.expr _ allowStruct))
        unary := fun allowStruct => inferInstanceAs (Blind m (Parser.unary _ allowStruct))
        early := inferInstanceAs (Blind m (Parser.earlyExpr _))
        climb := fun allowStruct least left => inferInstanceAs (Mirrors m
          (Parser.climb _ allowStruct least left) (Parser.climb _ allowStruct least (renew m left)))
        pattern := inferInstanceAs (Blind m (Parser.pattern _))
        statements := inferInstanceAs (Blind m (Parser.statements _))
        item := inferInstanceAs (Blind m (Parser.item _))
        fields := inferInstanceAs (Blind m (Parser.namedFields _))
        useTree := fun mayBeRooted => inferInstanceAs (Blind m (Parser.useTree _ mayBeRooted)) }

instance (g : Grammar) [g.Blind m] : Blind m (Parser.file g) := by
  unfold Parser.file
  infer_instance

/-- A source whose tokens are those of another one with new literals has the constants of that one, with
the new texts. -/
theorem constants_renew {source source' : String} {found : List Constant}
    (hfound : constants source = .ok found)
    (htrees : trees? (codeOf source') = (trees? (codeOf source)).map (renewTrees m)) :
    constants source' = .ok (found.map (Constant.renew m)) := by
  unfold constants at hfound ⊢
  rw [htrees]
  cases hold : trees? (codeOf source) with
  | none =>
    rw [hold] at hfound
    cases hfound
  | some ts =>
    have hfile : Blind m (Parser.file (Grammar.atDepth (3 * treesSize ts + 10))) := inferInstance
    have hnew := hfile.mirrors { trees := ts }
    simp only [hold, Option.map_some, treesSize_renew] at hfound ⊢
    simp only [Input.renew, List.map_nil] at hnew
    rw [hnew]
    split at hfound
    · cases hfound
    · rename_i hrun
      rw [hrun]
      simp only [Except.map]
      split at hfound
      · cases hfound
      · cases hfound
        rfl

end SqlLayout.Host
