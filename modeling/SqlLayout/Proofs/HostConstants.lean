import SqlLayout.Proofs.HostAdvancing

/-!
The constants that are found in a source. Every parser of the grammar goes forward, and a constant
ends with an equals sign, attributes, its literal and a mark, so each constant that is found has a closed
literal of its own.
-/

namespace SqlLayout.Host

/-- Trees that end with a group, or none at all. -/
def EndWithGroup (ts : List Tree) : Prop :=
  ∀ t, ts.getLast? = some t → ∃ d inner, t = .group d inner

theorem EndWithGroup.nil : EndWithGroup [] := by
  simp [EndWithGroup]

theorem EndWithGroup.append {a b : List Tree} (ha : EndWithGroup a) (hb : EndWithGroup b) :
    EndWithGroup (a ++ b) := by
  intro t ht
  rw [List.getLast?_append, Option.or_eq_some_iff] at ht
  obtain ht | ⟨-, ht⟩ := ht
  · exact hb t ht
  · exact ha t ht

/-- A parser of expressions that gives a text only if its literal is the last tree that it takes and
groups end what stands in front of it. -/
class EndsWithText (p : Parser ExprShape) : Prop where
  last : ∀ {s s' : Input} {value : String} {start stop : Nat},
    p s = .ok (.text value start stop, s') →
    ∃ before text, isText text ∧ textOf text = value ∧
      s.trees = before ++ .literal text start stop :: s'.trees ∧ EndWithGroup before

/-- A parser of what follows an expression that gives a text only if nothing follows. -/
class KeepsText (left : ExprShape) (p : Parser ExprShape) : Prop where
  kept : ∀ {s s' : Input} {value : String} {start stop : Nat},
    p s = .ok (.text value start stop, s') → left = .text value start stop ∧ s' = s

/-- A grammar whose parsers go forward. -/
class Grammar.Advancing (g : Grammar) : Prop where
  type : ∀ allowPlus, Host.Advancing (g.type allowPlus)
  bound : Host.Advancing g.bound
  expr : ∀ allowStruct, Host.Advancing (g.expr allowStruct)
  unary : ∀ allowStruct, Host.Advancing (g.unary allowStruct)
  early : Host.Advancing g.early
  climb : ∀ allowStruct least left, Host.Advancing (g.climb allowStruct least left)
  pattern : Host.Advancing g.pattern
  statements : Host.Advancing g.statements
  item : Host.Advancing g.item
  fields : Host.Advancing g.fields
  useTree : ∀ mayBeRooted, Host.Advancing (g.useTree mayBeRooted)
  unaryText : ∀ allowStruct, EndsWithText (g.unary allowStruct)
  exprText : ∀ allowStruct, EndsWithText (g.expr allowStruct)
  climbText : ∀ allowStruct least left, KeepsText left (g.climb allowStruct least left)

attribute [instance] Grammar.Advancing.type Grammar.Advancing.bound Grammar.Advancing.expr
  Grammar.Advancing.unary Grammar.Advancing.early Grammar.Advancing.climb Grammar.Advancing.pattern
  Grammar.Advancing.statements Grammar.Advancing.item Grammar.Advancing.fields
  Grammar.Advancing.useTree Grammar.Advancing.unaryText Grammar.Advancing.exprText
  Grammar.Advancing.climbText

namespace Parser

-- a parser of many branches has one proof for all of them
set_option synthInstance.maxSize 1000000
set_option synthInstance.maxHeartbeats 400000

section

variable (g : Grammar) [g.Advancing]

instance : Advancing plainPath := by unfold plainPath; infer_instance

instance : Advancing literal :=
  advancing_bind inferInstance fun ts => by split <;> infer_instance

instance : Advancing (attributeBody g) := by
  unfold attributeBody
  have hrest : Advancing (do
      match ← trees with
      | .group _ _ :: _ => drop 1
      | _ =>
        if ← take? (.mark "=") then
          let (_, rest) ← lookPast (attempt literal)
          if (← ahead .literal) && rest.isEmpty then
            let _ ← literal
          else if (← ahead (.mark "#")) && (← ahead2 (.group .bracket)) then
            failHere "unexpected attribute inside of attribute"
          else
            let _ ← g.expr true) :=
    advancing_bind inferInstance fun ts => by split <;> infer_instance
  infer_instance

instance : Advancing (outerAttributes g) := by unfold outerAttributes; infer_instance
instance : Advancing (innerAttributes g) := by unfold innerAttributes; infer_instance
instance : Advancing (block g) := by unfold block; infer_instance
instance : Advancing (attributedBlock g) := by unfold attributedBlock; infer_instance
instance : Advancing (constArgument g) := by unfold constArgument; infer_instance
instance : Advancing (genericArgument g) := by unfold genericArgument; infer_instance
instance : Advancing (angleArguments g) := by unfold angleArguments; infer_instance
instance (inExpr : Bool) : Advancing (segment g inExpr) := by unfold segment; infer_instance

instance (inExpr : Bool) (fuel : Nat) (p : PathShape) :
    Advancing (moreSegments g inExpr fuel p) := by
  induction fuel generalizing p <;> (unfold moreSegments; infer_instance)

instance (inExpr : Bool) : Advancing (path g inExpr) := by unfold path; infer_instance

instance (inExpr : Bool) (fuel : Nat) (p : PathShape) :
    Advancing (qualifiedSegments g inExpr fuel p) := by
  induction fuel generalizing p <;> (unfold qualifiedSegments; infer_instance)

instance (inExpr : Bool) : Advancing (qualifiedPath g inExpr) := by
  unfold qualifiedPath
  infer_instance

instance (stop : Parser Bool) [Advancing stop] : Advancing (lifetimeBounds stop) := by
  unfold lifetimeBounds
  infer_instance

instance : Advancing lifetimeParameter := by unfold lifetimeParameter; infer_instance
instance : Advancing (typeParameter g) := by unfold typeParameter; infer_instance
instance : Advancing (constParameter g) := by unfold constParameter; infer_instance
instance : Advancing (boundLifetimes g) := by unfold boundLifetimes; infer_instance
instance : Advancing (boundLifetimes? g) := by unfold boundLifetimes?; infer_instance
instance : Advancing (generics g) := by unfold generics; infer_instance
instance : Advancing genericsAhead := by unfold genericsAhead; infer_instance
instance : Advancing conditionsEnd := by unfold conditionsEnd; infer_instance
instance : Advancing (whereClause g) := by unfold whereClause; infer_instance
instance : Advancing (parenthesizedArguments g) := by unfold parenthesizedArguments; infer_instance
instance : Advancing parenthesesAhead := by unfold parenthesesAhead; infer_instance

instance (allowConst : Bool) : Advancing (constMarker allowConst) := by
  unfold constMarker
  infer_instance

instance (allowConst : Bool) : Advancing (traitBound g allowConst) := by
  unfold traitBound
  infer_instance

instance : Advancing captures := by unfold captures; infer_instance

instance (allowCaptures allowConst : Bool) : Advancing (bound g allowCaptures allowConst) := by
  unfold bound
  infer_instance

instance (allowConst : Bool) : Advancing (boundAhead allowConst) := by
  unfold boundAhead
  infer_instance

instance (allowPlus allowCaptures allowConst : Bool) (fuel : Nat) :
    Advancing (bounds g allowPlus allowCaptures allowConst fuel) := by
  induction fuel <;> (unfold bounds; infer_instance)

instance (allowPlus : Bool) : Advancing (objectBounds g allowPlus) := by
  unfold objectBounds
  infer_instance

instance : Advancing (plusBounds g) := by unfold plusBounds; infer_instance

instance (fuel : Nat) (p : PathShape) : Advancing (typeArguments g fuel p) := by
  induction fuel generalizing p <;> (unfold typeArguments; infer_instance)

instance (allowPlus hasLifetimes : Bool) : Advancing (pathType g allowPlus hasLifetimes) := by
  unfold pathType
  infer_instance

instance : Advancing (typeContent g) := by unfold typeContent; infer_instance

instance (allowPlus : Bool) : Advancing (parenthesizedType g allowPlus) := by
  refine advancing_bind inferInstance fun content => advancing_bind inferInstance fun more => ?_
  cases content <;> infer_instance

instance (allowSelf : Bool) : Advancing (functionTypeParameter g allowSelf) := by
  unfold functionTypeParameter
  infer_instance

instance (fuel : Nat) (flag : Bool) : Advancing (functionTypeParameters g fuel flag) := by
  induction fuel generalizing flag <;> (unfold functionTypeParameters; infer_instance)

instance : Advancing (functionType g) := by unfold functionType; infer_instance
instance (allowPlus : Bool) : Advancing (type g allowPlus) := by unfold type; infer_instance
instance (text : String) : Advancing (fieldNumber text) := by unfold fieldNumber; infer_instance

instance : Advancing numberAhead :=
  advancing_bind inferInstance fun ts => by split <;> infer_instance

instance : Advancing member := by
  unfold member
  have hnumber : Advancing (do
      match ← numberAhead with
      | some (text, size) =>
        if isFloat text then failHere "expected identifier or integer"
        else
          drop size
          fieldNumber text
          return false
      | none => failHere "expected identifier or integer") :=
    advancing_bind inferInstance fun number => by split <;> infer_instance
  infer_instance

instance (allowThree : Bool) : Advancing (rangeLimits allowThree) := by
  unfold rangeLimits
  infer_instance

instance : Advancing (rangeBound g) := by unfold rangeBound; infer_instance
instance : Advancing (rangeRest g) := by unfold rangeRest; infer_instance
instance : Advancing (alternatives g) := by unfold alternatives; infer_instance
instance : Advancing (fieldPattern g) := by unfold fieldPattern; infer_instance
instance : Advancing (structPattern g) := by unfold structPattern; infer_instance
instance : Advancing (pathPattern g) := by unfold pathPattern; infer_instance
instance : Advancing (namePattern g) := by unfold namePattern; infer_instance
instance : Advancing (slicePattern g) := by unfold slicePattern; infer_instance
instance : Advancing (pattern g) := by unfold pattern; infer_instance
instance : Advancing operator? := by unfold operator?; infer_instance
instance : Advancing assignAhead := by unfold assignAhead; infer_instance

instance : Advancing strengthAhead :=
  advancing_bind inferInstance fun operator => by split <;> infer_instance

instance (allowStruct : Bool) (strength fuel : Nat) (shape : ExprShape) :
    Advancing (operandRest g allowStruct strength fuel shape) := by
  induction fuel generalizing shape <;> (unfold operandRest; infer_instance)

instance (allowStruct : Bool) (strength : Nat) : Advancing (operand g allowStruct strength) := by
  unfold operand
  infer_instance

instance (allowStruct : Bool) : Advancing (rangeEndsHere allowStruct) := by
  unfold rangeEndsHere
  infer_instance

instance (allowStruct : Bool) : Advancing (rangeExpr g allowStruct) := by
  unfold rangeExpr
  infer_instance

instance : Advancing checkCast := by unfold checkCast; infer_instance

instance (allowStruct : Bool) (least fuel : Nat) (shape : ExprShape) :
    Advancing (climbFrom g allowStruct least fuel shape) := by
  induction fuel generalizing shape with
  | zero =>
    unfold climbFrom
    infer_instance
  | succ fuel ih =>
    unfold climbFrom
    split
    · infer_instance
    · exact advancing_bind inferInstance fun operator => by split <;> infer_instance

instance (allowStruct : Bool) (least : Nat) (left : ExprShape) :
    Advancing (climb g allowStruct least left) := by
  unfold climb
  infer_instance

instance (allowStruct : Bool) : Advancing (expr g allowStruct) := by unfold expr; infer_instance
instance : Advancing (condition g) := by unfold condition; infer_instance
instance : Advancing (ifExpr g) := by unfold ifExpr; infer_instance
instance : Advancing (whileExpr g) := by unfold whileExpr; infer_instance
instance : Advancing (forExpr g) := by unfold forExpr; infer_instance
instance : Advancing (loopExpr g) := by unfold loopExpr; infer_instance
instance : Advancing (labeled g) := by unfold labeled; infer_instance
instance : Advancing closureForAhead := by unfold closureForAhead; infer_instance
instance : Advancing (arguments g) := by unfold arguments; infer_instance

instance : Advancing floatIndex :=
  advancing_bind inferInstance fun number => by split <;> infer_instance

instance : Advancing (memberAccess g) := by unfold memberAccess; infer_instance

instance (fuel : Nat) (shape : ExprShape) : Advancing (trailers g fuel shape) := by
  induction fuel generalizing shape <;> (unfold trailers; infer_instance)

instance (shape : ExprShape) : Advancing (withTrailers g shape) := by
  unfold withTrailers
  infer_instance

instance : Advancing (matchArm g) := by unfold matchArm; infer_instance
instance : Advancing (matchExpr g) := by unfold matchExpr; infer_instance
instance : Advancing (blockExpr? g) := by unfold blockExpr?; infer_instance
instance : Advancing (earlyExpr g) := by unfold earlyExpr; infer_instance
instance : Advancing (closureParameter g) := by unfold closureParameter; infer_instance

instance (allowStruct : Bool) : Advancing (closure g allowStruct) := by
  unfold closure
  infer_instance

instance : Advancing (structFields g) := by unfold structFields; infer_instance

instance (allowStruct : Bool) : Advancing (pathExpr g allowStruct) := by
  unfold pathExpr
  infer_instance

instance : Advancing (commaExprs g) := by unfold commaExprs; infer_instance
instance : Advancing (tupleExpr g) := by unfold tupleExpr; infer_instance
instance : Advancing (arrayExpr g) := by unfold arrayExpr; infer_instance

instance (text : String) (longer : List String) : Advancing (loneMark text longer) := by
  unfold loneMark
  infer_instance

instance : Advancing exprAhead := by unfold exprAhead; infer_instance
instance : Advancing (optionalExpr g) := by unfold optionalExpr; infer_instance

instance (allowStruct : Bool) : Advancing (breakExpr g allowStruct) := by
  unfold breakExpr
  infer_instance

instance (allowStruct : Bool) : Advancing (letExpr g allowStruct) := by
  unfold letExpr
  infer_instance

instance : Advancing closureAhead := by unfold closureAhead; infer_instance

instance (allowStruct : Bool) : Advancing (atom g allowStruct) := by
  unfold atom
  dsimp only
  infer_instance

instance (allowStruct : Bool) : Advancing (unary g allowStruct) := by unfold unary; infer_instance

instance (p : Parser Unit) [Advancing p] : Advancing (endsWithBrace p) := by
  refine advancing_bind inferInstance fun before => advancing_bind inferInstance fun _ =>
    advancing_bind inferInstance fun after => ?_
  dsimp only
  split <;> infer_instance

instance : Advancing (letStatement g) := by unfold letStatement; infer_instance
instance : Advancing valueItemAhead := by unfold valueItemAhead; infer_instance
instance : Advancing itemAhead := by unfold itemAhead; infer_instance
instance : Advancing macroAhead := by unfold macroAhead; infer_instance

/-- An item that does not count forgets what was found since the statement began. -/
instance : Advancing (statement g) where
  advances {s a s'} h := by
    obtain ⟨_, _, hget, h⟩ := bind_ok h
    cases hget
    obtain ⟨_, s₁, h₁, h⟩ := bind_ok h
    obtain ⟨use, s₂, h₂, h⟩ := bind_ok h
    have hfront : Advances s s₂ := (Advancing.advances h₁).trans (Advancing.advances h₂)
    split at h
    · exact hfront.trans (Advancing.advances h)
    · obtain ⟨_, s₃, h₃, h⟩ := bind_ok h
      have hfront := hfront.trans (Advancing.advances h₃)
      split at h
      · exact hfront.trans (Advancing.advances h)
      · obtain ⟨_, s₄, h₄, h⟩ := bind_ok h
        have hfront := hfront.trans (Advancing.advances h₄)
        split at h
        · obtain ⟨counts, s₅, h₅, h⟩ := bind_ok h
          have hitem := hfront.trans (Advancing.advances h₅)
          split at h
          · cases h
            exact hitem
          · cases h
            exact hitem.forget
        · exact hfront.trans (Advancing.advances h)

instance : Advancing (statements g) := by unfold statements; infer_instance

instance : Advancing visibility := by
  refine advancing_bind inferInstance fun isPublic => ?_
  split
  · refine advancing_bind inferInstance fun ts => ?_
    split <;> infer_instance
  · infer_instance

instance : Advancing callingConvention := by unfold callingConvention; infer_instance
instance : Advancing (receiver g) := by unfold receiver; infer_instance
instance : Advancing (parameter g) := by unfold parameter; infer_instance

instance (fuel : Nat) (before : List Parameter) : Advancing (parameters g fuel before) := by
  induction fuel generalizing before <;> (unfold parameters; infer_instance)

instance (allowSafe : Bool) : Advancing (signature g allowSafe) := by
  unfold signature
  infer_instance

instance : Advancing nameOrTry := by unfold nameOrTry; infer_instance
instance : Advancing nameOrBlank := by unfold nameOrBlank; infer_instance

instance (mayBeNamed : Bool) : Advancing (macroItem mayBeNamed) := by
  unfold macroItem
  infer_instance

instance (stops : List Ahead) (allowConst : Bool) : Advancing (boundsUntil g stops allowConst) := by
  unfold boundsUntil
  infer_instance

instance (before after : Bool) : Advancing (typeAlias g before after) := by
  unfold typeAlias
  infer_instance

instance : Advancing (constItem g) := by unfold constItem; infer_instance

/-! ### Texts -/

/-- A parser that takes nothing. -/
class Peeks {α : Type} (p : Parser α) : Prop where
  same : ∀ {s s' : Input} {a : α}, p s = .ok (a, s') → s' = s

instance {α β : Type} (x : Parser α) (f : α → Parser β) [Peeks x] [∀ a, Peeks (f a)] :
    Peeks (x >>= f) where
  same h := by
    obtain ⟨a, s', hx, hf⟩ := bind_ok h
    rw [Peeks.same hf, Peeks.same hx]

instance {α : Type} (a : α) : Peeks (pure a : Parser α) where
  same := by
    rintro s _ _ ⟨⟩
    rfl

instance : Peeks trees where
  same := by
    rintro s _ _ ⟨⟩
    rfl

instance (t : Ahead) : Peeks (ahead t) := by unfold ahead; infer_instance
instance (t : Ahead) : Peeks (ahead2 t) := by unfold ahead2; infer_instance
instance (t : Ahead) : Peeks (ahead3 t) := by unfold ahead3; infer_instance
instance (ts : List Ahead) : Peeks (anyAhead ts) := by unfold anyAhead; infer_instance
instance : Peeks remaining := by unfold remaining; infer_instance
instance : Peeks closureForAhead := by unfold closureForAhead; infer_instance
instance : Peeks closureAhead := by unfold closureAhead; infer_instance
instance : Peeks operator? := by unfold operator?; infer_instance
instance : Peeks assignAhead := by unfold assignAhead; infer_instance

/-- A parser that takes nothing if it gives `false`. -/
class StaysIfFalse (p : Parser Bool) : Prop where
  same : ∀ {s s' : Input}, p s = .ok (false, s') → s' = s

instance : StaysIfFalse (pure false) where
  same := by
    rintro s _ ⟨⟩
    rfl

/-- What is taken before `true` does not matter. -/
class NeverFalse (p : Parser Bool) : Prop where
  never : ∀ {s s' : Input}, p s ≠ .ok (false, s')

instance : NeverFalse (pure true) where
  never h := by cases h

instance {α : Type} (x : Parser α) (f : α → Parser Bool) [∀ a, NeverFalse (f a)] :
    NeverFalse (x >>= f) where
  never h := by
    obtain ⟨a, s', -, hf⟩ := bind_ok h
    exact NeverFalse.never hf

instance (p : Parser Bool) [NeverFalse p] : StaysIfFalse p where
  same h := absurd h NeverFalse.never

instance (c : Prop) [Decidable c] (x y : Parser Bool) [StaysIfFalse x] [StaysIfFalse y] :
    StaysIfFalse (if c then x else y) := by
  split <;> infer_instance

instance {α : Type} (x : Parser α) (f : α → Parser Bool) [Peeks x] [∀ a, StaysIfFalse (f a)] :
    StaysIfFalse (x >>= f) where
  same h := by
    obtain ⟨a, s', hx, hf⟩ := bind_ok h
    rw [StaysIfFalse.same hf, Peeks.same hx]

instance (t : Ahead) : StaysIfFalse (take? t) := by unfold take?; infer_instance

instance (p x y : Parser Bool) [StaysIfFalse p] [NeverFalse x] [StaysIfFalse y] :
    StaysIfFalse (p >>= fun taken => if taken then x else y) where
  same h := by
    obtain ⟨taken, s', hp, h⟩ := bind_ok h
    split at h
    · exact absurd h NeverFalse.never
    · rename_i hfalse
      rw [Bool.not_eq_true] at hfalse
      subst hfalse
      rw [StaysIfFalse.same h, StaysIfFalse.same hp]

instance : StaysIfFalse (blockExpr? g) := by unfold blockExpr?; infer_instance

/-- A parser that gives no text. -/
class NeverText (p : Parser ExprShape) : Prop where
  never : ∀ {s s' : Input} {value : String} {start stop : Nat},
    p s ≠ .ok (.text value start stop, s')

instance {α : Type} (x : Parser α) (f : α → Parser ExprShape) [∀ a, NeverText (f a)] :
    NeverText (x >>= f) where
  never h := by
    obtain ⟨a, s', -, hf⟩ := bind_ok h
    exact NeverText.never hf

instance (c : Prop) [Decidable c] (x y : Parser ExprShape) [NeverText x] [NeverText y] :
    NeverText (if c then x else y) := by
  split <;> infer_instance

instance : NeverText (pure .other) where
  never h := by cases h

instance : NeverText (pure .block) where
  never h := by cases h

instance : NeverText (pure .range) where
  never h := by cases h

instance (d : Delimiter) : NeverText (pure (.invocation d)) where
  never h := by cases h

instance (message : String) : NeverText (fail message) where
  never h := by cases h

instance (message : String) : NeverText (failHere message) where
  never := failHere_ne_ok message _ _

instance (p : Parser ExprShape) [NeverText p] : EndsWithText p where
  last h := absurd h NeverText.never

/-- A parser that takes nothing, or trees that end with a group. -/
class TakesGroups {α : Type} (p : Parser α) : Prop where
  taken : ∀ {s s' : Input} {a : α}, p s = .ok (a, s') →
    ∃ taken, s.trees = taken ++ s'.trees ∧ EndWithGroup taken

instance {α : Type} (p : Parser α) [Peeks p] : TakesGroups p where
  taken h := ⟨[], by rw [Peeks.same h]; rfl, .nil⟩

instance {α β : Type} (x : Parser α) (f : α → Parser β) [TakesGroups x] [∀ a, TakesGroups (f a)] :
    TakesGroups (x >>= f) where
  taken h := by
    obtain ⟨a, s', hx, hf⟩ := bind_ok h
    obtain ⟨front, hfront, hends⟩ := TakesGroups.taken hx
    obtain ⟨rest, hrest, hends'⟩ := TakesGroups.taken hf
    exact ⟨front ++ rest, by rw [hfront, hrest, List.append_assoc], hends.append hends'⟩

instance (step : Parser Bool) (fuel : Nat) [TakesGroups step] : TakesGroups (repeatWhile step fuel) := by
  induction fuel with
  | zero => exact inferInstanceAs (TakesGroups (pure ()))
  | succ fuel ih =>
    have hrest (b : Bool) : TakesGroups (if b then repeatWhile step fuel else pure ()) := by
      split <;> infer_instance
    unfold repeatWhile
    infer_instance

/-- What is taken before a group does not matter. -/
instance {α : Type} (x : Parser α) (d : Delimiter) (p : Parser Unit) [Advancing x] :
    TakesGroups (x >>= fun _ => inside d p) where
  taken h := by
    obtain ⟨a, s₁, hx, hp⟩ := bind_ok h
    obtain ⟨front, -, hfront, -⟩ := Advancing.advances hx
    obtain ⟨inner, -, hgroup, -⟩ := inside_group hp
    refine ⟨front ++ [.group d inner], by rw [hfront, hgroup, List.append_assoc]; rfl, ?_⟩
    intro t ht
    exact ⟨d, inner, by simpa using ht.symm⟩

instance : TakesGroups (outerAttributes g) := by
  have hstep : TakesGroups (do
      if ← take? (.mark "#") then
        inside .bracket (attributeBody g)
        return true
      else return false) := by
    constructor
    intro s s' a h
    obtain ⟨taken, s₁, ht, h⟩ := bind_ok h
    cases taken with
    | false =>
      cases h
      exact ⟨[], by rw [StaysIfFalse.same ht]; rfl, .nil⟩
    | true =>
      obtain ⟨_, s₂, hinside, h⟩ := bind_ok h
      cases h
      have hboth : (take? (.mark "#") >>= fun _ => inside .bracket (attributeBody g)) s = .ok ((), s') := by
        change (take? (.mark "#") s >>= fun r => inside .bracket (attributeBody g) r.2) = _
        rw [ht]
        exact hinside
      exact TakesGroups.taken hboth
  unfold outerAttributes loop
  infer_instance

instance {α : Type} (x : Parser α) (f : α → Parser ExprShape) [TakesGroups x]
    [∀ a, EndsWithText (f a)] : EndsWithText (x >>= f) where
  last h := by
    obtain ⟨a, s', hx, hf⟩ := bind_ok h
    obtain ⟨taken, htrees, hends⟩ := TakesGroups.taken hx
    obtain ⟨before, text, htext, hvalue, hlast, hends'⟩ := EndsWithText.last hf
    exact ⟨taken ++ before, text, htext, hvalue, by rw [htrees, hlast, List.append_assoc],
      hends.append hends'⟩

instance (c : Prop) [Decidable c] (x y : Parser ExprShape) [EndsWithText x] [EndsWithText y] :
    EndsWithText (if c then x else y) := by
  split <;> infer_instance

instance (p : Parser Bool) (x y : Parser ExprShape) [StaysIfFalse p] [NeverText x] [EndsWithText y] :
    EndsWithText (p >>= fun taken => if taken then x else y) where
  last h := by
    obtain ⟨taken, s', hp, h⟩ := bind_ok h
    split at h
    · exact absurd h NeverText.never
    · rename_i hfalse
      rw [Bool.not_eq_true] at hfalse
      subst hfalse
      cases StaysIfFalse.same hp
      exact EndsWithText.last h

instance : EndsWithText literal where
  last {s s' value start stop} h := by
    obtain ⟨ts, s₁, hs, h⟩ := bind_ok h
    cases hs
    have hother : ∀ {ts : List Tree}, (if Ahead.literal.holds ts then do
        drop (if (Ahead.mark "-").holds ts then 2 else 1)
        return .other
        else failHere "expected literal") s ≠ .ok (ExprShape.text value start stop, s') := by
      intro ts h
      split at h
      · cases h
      · exact failHere_ne_ok _ _ _ h
    match htrees : s.trees with
    | [] =>
      rw [htrees] at h
      exact absurd h hother
    | .group _ _ :: _ =>
      rw [htrees] at h
      exact absurd h hother
    | .word _ :: _ =>
      rw [htrees] at h
      exact absurd h hother
    | .mark _ _ :: _ =>
      rw [htrees] at h
      exact absurd h hother
    | .literal text start' stop' :: rest =>
      rw [htrees] at h
      obtain ⟨_, s₂, hd, h⟩ := bind_ok h
      cases hd
      by_cases htext : isText text
      · simp only [htext, if_true] at h
        cases h
        exact ⟨[], text, htext, rfl, by simp [htrees], .nil⟩
      · simp only [htext] at h
        cases h

instance (allowStruct : Bool) : EndsWithText (pathExpr g allowStruct) := by
  unfold pathExpr
  infer_instance

instance (allowStruct : Bool) : EndsWithText (atom g allowStruct) := by
  unfold atom
  dsimp only
  infer_instance

instance (left : ExprShape) (p : Parser ExprShape) [NeverText p] : KeepsText left p where
  kept h := absurd h NeverText.never

instance (left : ExprShape) : KeepsText left (pure left) where
  kept := by
    rintro s _ _ _ _ ⟨⟩
    exact ⟨rfl, rfl⟩

instance {α : Type} (left : ExprShape) (x : Parser α) (f : α → Parser ExprShape) [Peeks x]
    [∀ a, KeepsText left (f a)] : KeepsText left (x >>= f) where
  kept h := by
    obtain ⟨a, s', hx, hf⟩ := bind_ok h
    cases Peeks.same hx
    exact KeepsText.kept hf

instance (left : ExprShape) (x : Parser ExprShape) (f : ExprShape → Parser ExprShape)
    [KeepsText left x] [∀ shape, KeepsText shape (f shape)] : KeepsText left (x >>= f) where
  kept h := by
    obtain ⟨shape, s', hx, hf⟩ := bind_ok h
    have hkeeps : KeepsText shape (f shape) := inferInstance
    obtain ⟨hshape, hsame⟩ := hkeeps.kept hf
    rw [hshape] at hx
    rw [hsame]
    exact KeepsText.kept hx

instance (c : Prop) [Decidable c] (left : ExprShape) (x y : Parser ExprShape) [KeepsText left x]
    [KeepsText left y] : KeepsText left (if c then x else y) := by
  split <;> infer_instance

theorem neverText_of_keepsText {left : ExprShape} {p : Parser ExprShape} (h : KeepsText left p)
    (hleft : ∀ value start stop, left ≠ .text value start stop) : NeverText p where
  never hp := hleft _ _ _ (h.kept hp).1

instance (left : ExprShape) (p : Parser Bool) (x y : Parser ExprShape) [StaysIfFalse p] [NeverText x]
    [KeepsText left y] : KeepsText left (p >>= fun taken => if taken then x else y) where
  kept h := by
    obtain ⟨taken, s', hp, h⟩ := bind_ok h
    split at h
    · exact absurd h NeverText.never
    · rename_i hfalse
      rw [Bool.not_eq_true] at hfalse
      subst hfalse
      cases StaysIfFalse.same hp
      exact KeepsText.kept h

instance (fuel : Nat) (shape : ExprShape) : KeepsText shape (trailers g fuel shape) := by
  induction fuel generalizing shape with
  | zero =>
    unfold trailers
    infer_instance
  | succ fuel ih =>
    -- after a call, a field or an index the expression is no text
    have := neverText_of_keepsText (ih .other) (by simp)
    unfold trailers
    infer_instance

instance (shape : ExprShape) : KeepsText shape (withTrailers g shape) := by
  unfold withTrailers
  infer_instance

instance (allowStruct : Bool) (least fuel : Nat) (left : ExprShape) :
    KeepsText left (climbFrom g allowStruct least fuel left) := by
  induction fuel generalizing left with
  | zero =>
    unfold climbFrom
    infer_instance
  | succ fuel ih =>
    have := neverText_of_keepsText (ih .other) (by simp)
    have := neverText_of_keepsText (ih .range) (by simp)
    have (strength : Nat) := neverText_of_keepsText
      (ih (if strength == Strength.compare then .comparison else .other))
      (by intro _ _ _; split <;> simp)
    unfold climbFrom
    split
    · infer_instance
    · constructor
      intro s s' value start stop h
      obtain ⟨operator, s₁, ho, h⟩ := bind_ok h
      cases Peeks.same ho
      match operator with
      | none => exact KeepsText.kept h
      | some (text, strength) => exact KeepsText.kept h

instance (allowStruct : Bool) (least : Nat) (left : ExprShape) :
    KeepsText left (climb g allowStruct least left) := by
  unfold climb
  infer_instance

instance {x : Parser ExprShape} {f : ExprShape → Parser ExprShape} [EndsWithText x]
    [∀ left, KeepsText left (f left)] : EndsWithText (x >>= f) where
  last h := by
    obtain ⟨left, s', hx, hf⟩ := bind_ok h
    have hkeeps : KeepsText left (f left) := inferInstance
    obtain ⟨hleft, hsame⟩ := hkeeps.kept hf
    rw [hleft] at hx
    rw [hsame]
    exact EndsWithText.last hx

instance (allowStruct : Bool) : EndsWithText (expr g allowStruct) := by unfold expr; infer_instance

instance (allowStruct : Bool) : EndsWithText (unary g allowStruct) := by
  unfold unary
  infer_instance

/-- A mark of one character that is taken. -/
theorem mark_taken {t : Ahead} {c : Char} (hsize : size t = 1)
    (hholds : ∀ ts, t.holds ts = true ↔ ∃ joined rest, ts = .mark c joined :: rest) {s s' : Input}
    (h : take? t s = .ok (true, s')) :
    ∃ joined, s.trees = .mark c joined :: s'.trees ∧ s'.found = s.found := by
  obtain ⟨isNext, s₁, hnext, h⟩ := bind_ok h
  cases hnext
  split at h
  · rename_i hnext
    obtain ⟨_, s₂, hdrop, h⟩ := bind_ok h
    cases hdrop
    cases h
    obtain ⟨joined, rest, htrees⟩ := (hholds s.trees).1 hnext
    exact ⟨joined, by simp [hsize, htrees], rfl⟩
  · cases h

theorem holds_mark_iff {text : String} {c : Char} (htext : text.toList = [c]) (hc : c ≠ '\x27')
    (ts : List Tree) :
    (Ahead.mark text).holds ts = true ↔ ∃ joined rest, ts = .mark c joined :: rest := by
  rw [Ahead.holds, htext]
  match ts with
  | [] => simp [marksAhead]
  | .group _ _ :: _ => simp [marksAhead]
  | .word _ :: _ => simp [marksAhead]
  | .literal _ _ _ :: _ => simp [marksAhead]
  | .mark d joined :: rest => simpa [marksAhead, hc] using eq_comm

/-- The mark that ends a constant. -/
theorem semicolon_taken {s s' : Input} {a : Unit} (h : mark ";" s = .ok (a, s')) :
    ∃ joined, s.trees = .mark ';' joined :: s'.trees ∧ s'.found = s.found := by
  obtain ⟨taken, s₁, ht, h⟩ := bind_ok h
  cases taken with
  | false => cases h
  | true =>
    cases h
    exact mark_taken rfl (holds_mark_iff rfl (by decide)) ht

/-- The mark in front of the value of a constant. -/
theorem equals_taken {s s' : Input} (h : take? (.mark "=") s = .ok (true, s')) :
    ∃ joined, s.trees = .mark '=' joined :: s'.trees ∧ s'.found = s.found :=
  mark_taken rfl (holds_mark_iff rfl (by decide)) h

omit [g.Advancing] in
/-- Where no conditions are read, nothing is taken. -/
theorem whereClause_false {s s' : Input} (h : whereClause g s = .ok (false, s')) : s' = s := by
  obtain ⟨taken, s₁, ht, h⟩ := bind_ok h
  split at h
  · obtain ⟨ts, s₂, hts, h⟩ := bind_ok h
    dsimp only at h
    split at h
    · obtain ⟨_, s₃, h₃, -⟩ := bind_ok h
      exact absurd h₃ (failHere_ne_ok _ _ _)
    · obtain ⟨_, s₃, -, h⟩ := bind_ok h
      cases h
  · rename_i hfalse
    cases h
    rw [Bool.not_eq_true] at hfalse
    subst hfalse
    exact StaysIfFalse.same ht

/-- As `Advances`, with one more closed literal among the trees taken that belongs to no constant. -/
def AdvancesPast (s s' : Input) (span : Span) : Prop :=
  ∃ taken new, s.trees = taken ++ s'.trees ∧ s'.found = s.found ++ new ∧
    (span :: new.map Constant.span).Subperm (closedSpans (treeLexemes taken))

/-- After an equals sign and groups a literal may be a value. -/
theorem exists_opener {before : List Tree} (h : EndWithGroup before) (joined : Bool) :
    ∃ front opener, treeLexemes (.mark '=' joined :: before) = front ++ [opener] ∧ opener.opensValue := by
  cases hlast : before.getLast? with
  | none =>
    rw [List.getLast?_eq_none_iff] at hlast
    subst hlast
    exact ⟨[], .leaf (.mark '=' joined), rfl, rfl⟩
  | some t =>
    obtain ⟨d, inner, rfl⟩ := h t hlast
    obtain ⟨init, rfl⟩ := List.getLast?_eq_some_iff.1 hlast
    refine ⟨treeLexemes (.mark '=' joined :: init) ++ .opening d :: treeLexemes inner, .closing d, ?_, rfl⟩
    simp [treeLexemes, treeLexemes_append, Tree.lexemes]

theorem advances_text {s t u v w : Input} {allowStruct : Bool} {value : String} {start stop : Nat}
    {a : Unit} (h : Advances s t) (hequals : take? (.mark "=") t = .ok (true, u))
    (htext : g.expr allowStruct u = .ok (.text value start stop, v))
    (hmark : mark ";" v = .ok (a, w)) : AdvancesPast s w ⟨value, start, stop⟩ := by
  obtain ⟨front, m, hfront, hm, hspans⟩ := h
  obtain ⟨joined', hequals, hsame⟩ := equals_taken hequals
  obtain ⟨taken, n, htaken, hn, hspans'⟩ := Advancing.advances htext
  obtain ⟨before, text, hquoted, rfl, hlast, hends⟩ := EndsWithText.last htext
  obtain ⟨joined, hsemicolon, hfound⟩ := semicolon_taken hmark
  obtain ⟨lead, opener, hlead, hopens⟩ := exists_opener hends joined'
  have htaken' : taken = before ++ [.literal text start stop] := by
    have : taken ++ v.trees = (before ++ [.literal text start stop]) ++ v.trees := by
      rw [← htaken, hlast, List.append_assoc]
      rfl
    exact List.append_cancel_right this
  subst htaken'
  refine ⟨front ++ (.mark '=' joined' :: before ++ [.literal text start stop, .mark ';' joined]),
    m ++ n, ?_, ?_, ?_⟩
  · rw [hfront, hequals, htaken, hsemicolon]
    simp
  · rw [hfound, hn, hsame, hm, List.append_assoc]
  · have hlexemes (ts : List Tree) : treeLexemes (.mark '=' joined' :: before ++ ts) =
        lead ++ [opener] ++ treeLexemes ts := by
      rw [treeLexemes_append, hlead]
    have hclosed : (⟨textOf text, start, stop⟩ :: n.map Constant.span).Subperm (closedSpans
        (treeLexemes (.mark '=' joined' :: before ++ [.literal text start stop, .mark ';' joined]))) := by
      have hall : closedSpans
          (treeLexemes (.mark '=' joined' :: before ++ [.literal text start stop, .mark ';' joined])) =
          closedSpans (treeLexemes ([.mark '=' joined'] ++ (before ++ [.literal text start stop]))) ++
            [⟨textOf text, start, stop⟩] := by
        have hshort := hlexemes [.literal text start stop]
        rw [List.cons_append] at hshort
        rw [hlexemes, List.singleton_append, hshort]
        simpa [treeLexemes, Tree.lexemes] using
          closedSpans_literal_mark lead start stop ';' joined hopens hquoted
      rw [hall]
      refine (List.perm_append_singleton _ _).symm.subperm.trans ?_
      exact (subperm_closedSpans_append List.nil_subperm hspans').append (List.Subperm.refl _)
    have hall := subperm_closedSpans_append hspans hclosed
    rw [List.map_append]
    exact List.perm_middle.subperm_right.1 hall

/-- What a constant takes: if it has a text and no parameters, the literal of its text is closed and
none of those found in its type. -/
theorem constItem_advances {s s' : Input} {c : ConstItem} (h : constItem g s = .ok (c, s')) :
    Advances s s' ∧ ∀ value start stop, c.value = some (.text value start stop) →
      c.isGeneric = false → AdvancesPast s s' ⟨value, start, stop⟩ := by
  refine ⟨Advancing.advances h, ?_⟩
  intro value start stop hvalue hgeneric
  unfold constItem at h
  obtain ⟨named, s₁, h₁, h⟩ := bind_ok h
  dsimp only at h
  split at h
  · obtain ⟨name, s₂, h₂, h⟩ := bind_ok h
    obtain ⟨hasGenerics, s₃, h₃, h⟩ := bind_ok h
    obtain ⟨_, s₄, h₄, h⟩ := bind_ok h
    obtain ⟨_, s₅, h₅, h⟩ := bind_ok h
    obtain ⟨hasValue, s₆, h₆, h⟩ := bind_ok h
    have hfront : Advances s s₅ := (Advancing.advances h₁).trans <| (Advancing.advances h₂).trans <|
      (Advancing.advances h₃).trans <| (Advancing.advances h₄).trans (Advancing.advances h₅)
    cases hasValue with
    | true =>
      obtain ⟨shape?, s₇, h₇, h⟩ := bind_ok h
      obtain ⟨hasConditions, s₈, h₈, h⟩ := bind_ok h
      obtain ⟨_, s₉, h₉, h⟩ := bind_ok h
      cases h
      obtain ⟨⟨shape, s₇'⟩, hexpr, h₇⟩ := bind_eq_ok h₇
      cases h₇
      cases hvalue
      obtain ⟨-, rfl⟩ := Bool.or_eq_false_iff.1 hgeneric
      cases whereClause_false g h₈
      exact advances_text g hfront h₆ hexpr h₉
    | false =>
      obtain ⟨shape?, s₇, h₇, h⟩ := bind_ok h
      cases h₇
      obtain ⟨hasConditions, s₈, h₈, h⟩ := bind_ok h
      obtain ⟨_, s₉, h₉, h⟩ := bind_ok h
      cases h
      cases hvalue
  · obtain ⟨_, s₂, h₂, -⟩ := bind_ok h
    exact absurd h₂ (expectedOneOf_ne_ok _ _ _)

instance : Advancing (foundConst g) where
  advances {s a s'} h := by
    obtain ⟨_, _, hget, h⟩ := bind_ok h
    cases hget
    obtain ⟨c, s₁, hc, h⟩ := bind_ok h
    obtain ⟨hadvances, htext⟩ := constItem_advances g hc
    split at h
    · cases h
      exact hadvances
    · rename_i hcounts
      obtain ⟨name, value, isGeneric⟩ := c
      have hgeneric : isGeneric = false := by simp_all
      match value with
      | none =>
        cases h
        exact hadvances
      | some .range =>
        cases h
        exact hadvances
      | some .comparison =>
        cases h
        exact hadvances
      | some .block =>
        cases h
        exact hadvances
      | some (.invocation _) =>
        cases h
        exact hadvances
      | some .other =>
        cases h
        exact hadvances
      | some (.text text start stop) =>
        obtain ⟨taken, new, htrees, hfound, hspans⟩ := htext text start stop rfl hgeneric
        cases h
        exact ⟨taken, ⟨name, text, start, stop⟩ :: new, htrees, by simp [hfound], hspans⟩

instance : Advancing (namedField g) := by unfold namedField; infer_instance
instance : Advancing (namedFields g) := by unfold namedFields; infer_instance
instance : Advancing (unnamedFields g) := by unfold unnamedFields; infer_instance
instance : Advancing (structItem g) := by unfold structItem; infer_instance
instance : Advancing (enumItem g) := by unfold enumItem; infer_instance
instance : Advancing (unionItem g) := by unfold unionItem; infer_instance
instance : Advancing (traitItem g) := by unfold traitItem; infer_instance
instance : Advancing (traitRest g) := by unfold traitRest; infer_instance
instance : Advancing (traitOrAlias g) := by unfold traitOrAlias; infer_instance
instance : Advancing (markedTrait g) := by unfold markedTrait; infer_instance
instance : Advancing (implItem g) := by unfold implItem; infer_instance
instance : Advancing (implementation g) := by unfold implementation; infer_instance
instance : Advancing (foreignItem g) := by unfold foreignItem; infer_instance
instance : Advancing (foreignBlock g) := by unfold foreignBlock; infer_instance

instance (mayBeRooted : Bool) (fuel : Nat) (flag : Bool) :
    Advancing (useTrees g mayBeRooted fuel flag) := by
  induction fuel generalizing flag <;> (unfold useTrees; infer_instance)

instance (mayBeRooted : Bool) : Advancing (useTree g mayBeRooted) := by
  unfold useTree
  infer_instance

instance : Advancing (useItem g) := by unfold useItem; infer_instance
instance : Advancing externCrate := by unfold externCrate; infer_instance
instance : Advancing (staticItem g) := by unfold staticItem; infer_instance
instance : Advancing (items g) := by unfold items; infer_instance
instance : Advancing (moduleItem g) := by unfold moduleItem; infer_instance
instance : Advancing ruleItem := by unfold ruleItem; infer_instance

instance (ts : List Tree) : Advancing (externItem g ts) := by
  unfold externItem
  dsimp only
  infer_instance

instance (ts : List Tree) : Advancing (unsafeItem g ts) := by unfold unsafeItem; infer_instance
instance : Advancing (item g) := by unfold item; infer_instance

end

end Parser

open SqlLayout.Host.Parser

instance : Grammar.nothing.Advancing where
  type _ := inferInstanceAs (Advancing (fail ""))
  bound := inferInstanceAs (Advancing (fail ""))
  expr _ := inferInstanceAs (Advancing (fail ""))
  unary _ := inferInstanceAs (Advancing (fail ""))
  early := inferInstanceAs (Advancing (fail ""))
  climb _ _ _ := inferInstanceAs (Advancing (fail ""))
  pattern := inferInstanceAs (Advancing (fail ""))
  statements := inferInstanceAs (Advancing (fail ""))
  item := inferInstanceAs (Advancing (fail ""))
  fields := inferInstanceAs (Advancing (fail ""))
  useTree _ := inferInstanceAs (Advancing (fail ""))
  unaryText _ := inferInstanceAs (EndsWithText (fail ""))
  exprText _ := inferInstanceAs (EndsWithText (fail ""))
  climbText _ _ left := inferInstanceAs (KeepsText left (fail ""))

/-- The grammar goes forward at every depth. -/
instance (depth : Nat) : (Grammar.atDepth depth).Advancing := by
  induction depth with
  | zero => exact inferInstanceAs Grammar.nothing.Advancing
  | succ depth ih =>
    exact
      { type := fun allowPlus => inferInstanceAs (Advancing (Parser.type _ allowPlus))
        bound := inferInstanceAs (Advancing (do let _ ← Parser.bound _ false true))
        expr := fun allowStruct => inferInstanceAs (Advancing (Parser.expr _ allowStruct))
        unary := fun allowStruct => inferInstanceAs (Advancing (Parser.unary _ allowStruct))
        early := inferInstanceAs (Advancing (Parser.earlyExpr _))
        climb := fun allowStruct least left =>
          inferInstanceAs (Advancing (Parser.climb _ allowStruct least left))
        pattern := inferInstanceAs (Advancing (Parser.pattern _))
        statements := inferInstanceAs (Advancing (Parser.statements _))
        item := inferInstanceAs (Advancing (Parser.item _))
        fields := inferInstanceAs (Advancing (Parser.namedFields _))
        useTree := fun mayBeRooted => inferInstanceAs (Advancing (Parser.useTree _ mayBeRooted))
        unaryText := fun allowStruct => inferInstanceAs (EndsWithText (Parser.unary _ allowStruct))
        exprText := fun allowStruct => inferInstanceAs (EndsWithText (Parser.expr _ allowStruct))
        climbText := fun allowStruct least left =>
          inferInstanceAs (KeepsText left (Parser.climb _ allowStruct least left)) }

instance (g : Grammar) [g.Advancing] : Advancing (Parser.file g) := by
  unfold Parser.file
  infer_instance

/-- The literals of the constants that are found are closed literals of the source, each found
once. -/
theorem constants_spans {source : String} {found : List Constant}
    (h : constants source = .ok found) :
    ∃ trees, trees? (codeOf source) = some trees ∧
      (found.map Constant.span).Subperm (closedSpans (treeLexemes trees)) := by
  unfold constants at h
  split at h
  · cases h
  · rename_i trees htrees
    refine ⟨trees, htrees, ?_⟩
    split at h
    · cases h
    · rename_i _ input hfile
      split at h
      · cases h
      · cases h
        obtain ⟨taken, new, ht, hf, hspans⟩ := Advancing.advances hfile
        have hall := subperm_closedSpans_append hspans (List.nil_subperm (l := closedSpans
          (treeLexemes input.trees)))
        rw [List.append_nil, ← ht] at hall
        rwa [hf]

end SqlLayout.Host
