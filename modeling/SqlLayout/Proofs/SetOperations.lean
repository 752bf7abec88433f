import SqlLayout.Layout.OfSql
import SqlLayout.Layout.Render
import SqlLayout.Proofs.ParserResults
import SqlLayout.Sql.Parser.Query

/-!
Operators between queries. A layout has no parentheses for them: it is the flat sequence of operands
and operators. The sequence tells the grouping, as intersections bind more tightly than the other
operators and all of them group to the left.
-/

/-! ### Bodies as they are read -/

namespace SqlLayout.Sql

/-- Intersections bind more tightly than the other operators between queries. -/
def SetOperator.strength : SetOperator → Nat
  | .intersect => 2
  | .union | .except | .minus => 1

namespace Body

def strength : Body → Nat
  | .setOp _ op _ _ => op.strength
  | _ => 3

/-- The right operand of an operator between queries binds more tightly, the left one not less. -/
def IsGrouped : Body → Prop
  | .setOp l op _ r =>
    op.strength ≤ l.strength ∧ op.strength < r.strength ∧ l.IsGrouped ∧ r.IsGrouped
  | _ => True

/-- A grouped body that binds at least as tightly as an operator of the given strength. -/
def Binds (n : Nat) (b : Body) : Prop :=
  b.IsGrouped ∧ n ≤ b.strength

end Body

namespace Parser

open Body (Binds)

/-- Bodies joined by operators of one strength are grouped if each of them binds more tightly. -/
theorem setOperations_gives {operators : List (String × SetOperator)} {part : Parser Body} {n : Nat}
    (hoperators : ∀ o ∈ operators, o.2.strength = n) (hpart : Gives (Binds (n + 1)) part) :
    Gives (Binds n) (setOperations operators part) := by
  have hfirst : ∀ b, Binds (n + 1) b → Binds n b := fun b h => ⟨h.1, Nat.le_of_succ_le h.2⟩
  refine hpart.bind fun first hb => .repeatFrom (hfirst first hb) fun left hleft => ?_
  refine (Gives.any peek).bind fun t _ => ?_
  split
  · rename_i op hop
    obtain ⟨front, back, rfl, -⟩ := List.lookup_eq_some_iff.1 hop
    have hop : op.strength = n := hoperators (t.key, op) (List.mem_append_right _ List.mem_cons_self)
    refine (Gives.any next).bind fun _ _ => (Gives.any setQuantifier).bind fun q _ => ?_
    refine hpart.bind fun right hright => .pure ⟨?_, Nat.le_of_eq hop.symm⟩
    exact ⟨hop ▸ hleft.2, hop ▸ hright.2, hleft.1, hright.1⟩
  · exact .pure hleft

theorem simpleBody_gives (g : Grammar) : Gives (Binds 3) (simpleBody g) := by
  refine (Gives.any (word? "SELECT")).bind fun isSelect _ => ?_
  cases isSelect with
  | true => exact (Gives.any (select g)).bind fun x _ => .pure ⟨trivial, Nat.le_refl 3⟩
  | false =>
    refine (Gives.any (symbol? "(")).bind fun isOpen _ => ?_
    cases isOpen with
    | true =>
      exact (Gives.any g.query).bind fun q _ => (Gives.any (symbol ")")).bind fun _ _ =>
        .pure ⟨trivial, Nat.le_refl 3⟩
    | false =>
      refine (Gives.any (oneOf? ["VALUES", "VALUE", "TABLE"])).bind fun keyword _ => ?_
      split
      · exact (Gives.any tableBody).bind fun text _ => .pure ⟨trivial, Nat.le_refl 3⟩
      · exact (Gives.any (rows g)).bind fun x _ => .pure ⟨trivial, Nat.le_refl 3⟩
      · exact (Gives.any peek).bind fun _ _ => .fail _

/-- The bodies that are read are grouped. -/
theorem body_gives (g : Grammar) : Gives Body.IsGrouped (body g) := by
  have hintersections : Gives (Binds 2) (setOperations [("INTERSECT", .intersect)] (simpleBody g)) :=
    setOperations_gives (by decide) (simpleBody_gives g)
  have hbody : Gives (Binds 1) (body g) := setOperations_gives (by decide) hintersections
  exact hbody.mono fun _ h => h.1

end Parser

end SqlLayout.Sql

/-! ### Sequences of operands and operators -/

namespace SqlLayout.Layout

def SetOperator.strength : SetOperator → Nat
  | .intersect => 2
  | .union | .except => 1

theorem SetOperator.strength_lt (op : SetOperator) : op.strength < 3 := by
  cases op <;> decide

namespace Body

/-- A select, rows of values, or a query in parentheses. -/
def IsOperand : Body → Prop
  | .setOp .. => False
  | _ => True

def strength : Body → Nat
  | .setOp op .. => op.strength
  | _ => 3

/-- The right operand of an operator between queries binds more tightly, the left one not less. -/
def IsGrouped : Body → Prop
  | .setOp op _ l r =>
    op.strength ≤ l.strength ∧ op.strength < r.strength ∧ l.IsGrouped ∧ r.IsGrouped
  | _ => True

/-- An operator in a sequence, with the operand after it. -/
structure Step where
  op : SetOperator
  all : Bool
  operand : Body

/-- The operand that comes first in a layout. -/
def first : Body → Body
  | .setOp _ _ l _ => l.first
  | b => b

/-- The operators in a layout, each with the operand after it. -/
def rest : Body → List Step
  | .setOp op all l r => l.rest ++ ⟨op, all, r.first⟩ :: r.rest
  | _ => []

/-- A body is an operand or a set operation. -/
@[elab_as_elim]
theorem operandInduction {motive : Body → Prop} (operand : ∀ b, b.IsOperand → motive b)
    (setOp : ∀ op all l r, motive l → motive r → motive (.setOp op all l r)) : ∀ b, motive b
  | .setOp op all l r =>
    setOp op all l r (operandInduction operand setOp l) (operandInduction operand setOp r)
  | .select x => operand (.select x) trivial
  | .values rows => operand (.values rows) trivial
  | .query q => operand (.query q) trivial

variable {b : Body}

theorem IsOperand.first_eq (h : b.IsOperand) : b.first = b := by
  cases b with
  | setOp => cases h
  | _ => rfl

theorem IsOperand.rest_eq (h : b.IsOperand) : b.rest = [] := by
  cases b with
  | setOp => cases h
  | _ => rfl

theorem IsOperand.strength_eq (h : b.IsOperand) : b.strength = 3 := by
  cases b with
  | setOp => cases h
  | _ => rfl

theorem IsOperand.isGrouped (h : b.IsOperand) : b.IsGrouped := by
  cases b with
  | setOp => cases h
  | _ => trivial

theorem first_isOperand (b : Body) : b.first.IsOperand := by
  induction b using operandInduction with
  | operand b hb => exact hb.first_eq.symm ▸ hb
  | setOp op all l r ihl ihr => exact ihl

theorem rest_isOperand (b : Body) : ∀ x ∈ b.rest, x.operand.IsOperand := by
  induction b using operandInduction with
  | operand b hb => simp [hb.rest_eq]
  | setOp op all l r ihl ihr =>
    rw [rest, List.forall_mem_append, List.forall_mem_cons]
    exact ⟨ihl, r.first_isOperand, ihr⟩

/-- The operator on a line of its own, and the operand after it. -/
def Step.text (s : Style) (d : Nat) (x : Step) : String :=
  s.newline d ++ x.op.text ++ (if x.all then " ALL" else "") ++ "\n" ++
    Piece.textOf s (x.operand.pieces s d)

/-- A body is laid out as its operands, with the operators between them. -/
theorem textOf_sequence (s : Style) (d : Nat) (b : Body) :
    Piece.textOf s (b.pieces s d) =
      Piece.textOf s (b.first.pieces s d) ++ String.join (b.rest.map (Step.text s d)) := by
  induction b using operandInduction with
  | operand b hb => simp [hb.first_eq, hb.rest_eq]
  | setOp op all l r ihl ihr =>
    simp only [pieces, first, rest, Piece.textOf_append, ihl, ihr, Piece.textOf_newline, List.map_append,
      List.map_cons, String.join_append, String.join_cons, Step.text]
    simp [Piece.text, String.append_assoc]

/-! ### Reading a sequence -/

/-- An operator whose right operand is still being read. -/
structure Pending where
  left : Body
  op : SetOperator
  all : Bool

/-- The operator with its right operand. -/
def Pending.close (b : Body) (p : Pending) : Body :=
  .setOp p.op p.all p.left b

/-- Closes the operators that bind at least as tightly as the next one, which group to the left of it. -/
def reduce (next : Nat) : List Pending → Body → List Pending × Body
  | [], b => ([], b)
  | p :: st, b => if next ≤ p.op.strength then reduce next st (p.close b) else (p :: st, b)

/-- How tightly the next operator binds; the end of a sequence binds least. -/
def nextStrength : List Step → Nat
  | [] => 0
  | x :: _ => x.op.strength

/-- The pending operators with the next one. -/
def push (op : SetOperator) (all : Bool) (st : List Pending) (b : Body) : List Pending :=
  ⟨(reduce op.strength st b).2, op, all⟩ :: (reduce op.strength st b).1

/-- Reads on, after the operators that are pending and the operand that was read last. -/
def readOn (st : List Pending) (b : Body) : List Step → Body
  | [] => (reduce 0 st b).2
  | x :: r => readOn (push x.op x.all st b) x.operand r

/-- Reads a sequence of operands and operators: an operator that binds more tightly takes its operands
first, and of two that bind alike the left one does. -/
def read (operand : Body) (xs : List Step) : Body :=
  readOn [] operand xs

section Reading

variable {st : List Pending} {p : Pending} {n : Nat} {xs : List Step}

theorem reduce_of_lt (h : ∀ p ∈ st.head?, p.op.strength < n) (b : Body) : reduce n st b = (st, b) := by
  cases st with
  | nil => rfl
  | cons p st => exact if_neg (Nat.not_le.2 (h p rfl))

/-- An operator is closed when the next one binds no more tightly. -/
theorem readOn_close (h : nextStrength xs ≤ p.op.strength) (b : Body) :
    readOn (p :: st) b xs = readOn st (p.close b) xs := by
  cases xs with
  | nil =>
    have hreduce : reduce 0 (p :: st) b = reduce 0 st (p.close b) := if_pos h
    rw [readOn, readOn, hreduce]
  | cons x r =>
    have hreduce : reduce x.op.strength (p :: st) b = reduce x.op.strength st (p.close b) := if_pos h
    rw [readOn, readOn, push, push, hreduce]

/-- The sequence of a body is read as the body, if it binds more tightly than what is pending and no
less than what follows. -/
theorem readOn_sequence (b : Body) : ∀ (st : List Pending) (xs : List Step), b.IsGrouped →
    (∀ p ∈ st.head?, p.op.strength < b.strength) → nextStrength xs ≤ b.strength →
    readOn st b.first (b.rest ++ xs) = readOn st b xs := by
  induction b using operandInduction with
  | operand b hb =>
    intro st xs _ _ _
    rw [hb.first_eq, hb.rest_eq, List.nil_append]
  | setOp op all l r ihl ihr =>
    intro st xs hgrouped hst hxs
    obtain ⟨hl, hr, hleft, hright⟩ := hgrouped
    have hstl : ∀ p ∈ st.head?, p.op.strength < l.strength :=
      fun p hp => Nat.lt_of_lt_of_le (hst p hp) hl
    have hpending : ∀ p ∈ (⟨l, op, all⟩ :: st).head?, p.op.strength < r.strength := by
      rintro p ⟨⟩
      exact hr
    have hnext : nextStrength xs ≤ r.strength := Nat.le_trans hxs (Nat.le_of_lt hr)
    have hkept : reduce op.strength st l = (st, l) := reduce_of_lt hst l
    have hpush : push op all st l = ⟨l, op, all⟩ :: st := by rw [push, hkept]
    calc readOn st l.first ((l.rest ++ ⟨op, all, r.first⟩ :: r.rest) ++ xs)
        = readOn st l.first (l.rest ++ ⟨op, all, r.first⟩ :: (r.rest ++ xs)) := by
          rw [List.append_assoc, List.cons_append]
      _ = readOn st l (⟨op, all, r.first⟩ :: (r.rest ++ xs)) := ihl st _ hleft hstl hl
      _ = readOn (⟨l, op, all⟩ :: st) r.first (r.rest ++ xs) := by rw [readOn, hpush]
      _ = readOn (⟨l, op, all⟩ :: st) r xs := ihr _ xs hright hpending hnext
      _ = readOn st (.setOp op all l r) xs := readOn_close hxs r

theorem read_sequence (h : b.IsGrouped) : read b.first b.rest = b := by
  have hread := readOn_sequence b [] [] h (fun _ hp => nomatch hp) (Nat.zero_le _)
  rwa [List.append_nil] at hread

/-- The body in which all pending operators are closed. -/
def closeAll (st : List Pending) (b : Body) : Body :=
  st.foldl Pending.close b

theorem closeAll_reduce (n : Nat) (st : List Pending) :
    ∀ b, closeAll (reduce n st b).1 (reduce n st b).2 = closeAll st b := by
  induction st with
  | nil => exact fun _ => rfl
  | cons p st ih =>
    intro b
    rw [reduce]
    split
    · exact ih (p.close b)
    · rfl

theorem reduce_zero (st : List Pending) : ∀ b, (reduce 0 st b).2 = closeAll st b := by
  induction st with
  | nil => exact fun _ => rfl
  | cons p st ih => exact fun b => ih (p.close b)

/-- An operator that is read stands at the end of the sequence. -/
theorem sequence_closeAll (st : List Pending) : ∀ {b b' : Body} {xs : List Step},
    b'.first = b.first → b'.rest = b.rest ++ xs →
    (closeAll st b').first = (closeAll st b).first ∧
      (closeAll st b').rest = (closeAll st b).rest ++ xs := by
  induction st with
  | nil => exact fun hfirst hrest => ⟨hfirst, hrest⟩
  | cons p st ih =>
    intro b b' xs hfirst hrest
    have hleft : (p.close b').first = (p.close b).first := rfl
    have hright : (p.close b').rest = (p.close b).rest ++ xs := by
      simp [Pending.close, rest, hfirst, hrest]
    exact ih hleft hright

/-- An operand that is read stands at the end of the sequence, after its operator. -/
theorem sequence_push {x : Step} (hx : x.operand.IsOperand) (st : List Pending) (b : Body) :
    (closeAll (push x.op x.all st b) x.operand).first = (closeAll st b).first ∧
      (closeAll (push x.op x.all st b) x.operand).rest = (closeAll st b).rest ++ [x] := by
  have hstep : (setOp x.op x.all (reduce x.op.strength st b).2 x.operand).rest =
      (reduce x.op.strength st b).2.rest ++ [x] := by
    rw [rest, hx.first_eq, hx.rest_eq]
  rw [← closeAll_reduce x.op.strength st b]
  exact sequence_closeAll (reduce x.op.strength st b).1 rfl hstep

/-- What is read has the sequence that was read. -/
theorem sequence_readOn (xs : List Step) : ∀ (st : List Pending) (b : Body),
    (∀ x ∈ xs, x.operand.IsOperand) →
    (readOn st b xs).first = (closeAll st b).first ∧
      (readOn st b xs).rest = (closeAll st b).rest ++ xs := by
  induction xs with
  | nil =>
    intro st b _
    rw [readOn, reduce_zero, List.append_nil]
    exact ⟨rfl, rfl⟩
  | cons x r ih =>
    intro st b hoperands
    obtain ⟨hx, hr⟩ := List.forall_mem_cons.1 hoperands
    obtain ⟨hfirst, hrest⟩ := sequence_push hx st b
    obtain ⟨ihfirst, ihrest⟩ := ih (push x.op x.all st b) x.operand hr
    refine ⟨ihfirst.trans hfirst, ihrest.trans ?_⟩
    rw [hrest, List.append_assoc, List.singleton_append]

/-- What is pending is grouped, and binds less tightly than what is read after it. -/
def Fits : List Pending → Nat → Prop
  | [], _ => True
  | p :: st, n =>
    p.op.strength < n ∧ p.op.strength ≤ p.left.strength ∧ p.left.IsGrouped ∧ Fits st p.op.strength

theorem reduce_fits (st : List Pending) : ∀ {b : Body}, b.IsGrouped → Fits st b.strength →
    n ≤ b.strength → (reduce n st b).2.IsGrouped ∧ n ≤ (reduce n st b).2.strength ∧
      Fits (reduce n st b).1 n := by
  induction st with
  | nil => exact fun hb _ hn => ⟨hb, hn, trivial⟩
  | cons p st ih =>
    rintro b hb ⟨hp, hleft, hgrouped, hst⟩ hn
    rw [reduce]
    split
    · rename_i hle
      exact ih ⟨hleft, hp, hgrouped, hb⟩ hst hle
    · rename_i hlt
      exact ⟨hb, hn, Nat.not_le.1 hlt, hleft, hgrouped, hst⟩

theorem readOn_isGrouped (xs : List Step) : ∀ {st : List Pending} {b : Body},
    b.IsOperand → Fits st 3 → (∀ x ∈ xs, x.operand.IsOperand) → (readOn st b xs).IsGrouped := by
  induction xs with
  | nil =>
    intro st b hb hst _
    exact (reduce_fits st hb.isGrouped (hb.strength_eq ▸ hst) (Nat.zero_le _)).1
  | cons x r ih =>
    intro st b hb hst hoperands
    obtain ⟨hx, hr⟩ := List.forall_mem_cons.1 hoperands
    have hnext : x.op.strength < 3 := x.op.strength_lt
    obtain ⟨hgrouped, hle, hfits⟩ := reduce_fits st hb.isGrouped (hb.strength_eq ▸ hst)
      (hb.strength_eq ▸ Nat.le_of_lt hnext)
    exact ih hx ⟨hnext, hle, hgrouped, hfits⟩ hr

/-- A sequence has one grouping, and that is the one that is read. -/
theorem read_eq_iff {operand : Body} (hoperand : operand.IsOperand)
    (hxs : ∀ x ∈ xs, x.operand.IsOperand) :
    read operand xs = b ↔ b.IsGrouped ∧ b.first = operand ∧ b.rest = xs := by
  constructor
  · rintro rfl
    obtain ⟨hfirst, hrest⟩ := sequence_readOn xs [] operand hxs
    refine ⟨readOn_isGrouped xs hoperand trivial hxs, hfirst.trans hoperand.first_eq, ?_⟩
    exact hrest.trans (by rw [closeAll, List.foldl_nil, hoperand.rest_eq, List.nil_append])
  · rintro ⟨hb, rfl, rfl⟩
    exact read_sequence hb

end Reading

/-! ### From bodies as they are read -/

/-- What the words after an operator say on rows that occur twice; some of them have no layout. -/
def keptDuplicates : List (Sql.SetQuantifier × Bool) :=
  [(.all, true), (.distinct, false), (.none, false)]

/-- A body and its layout have the same operands, operators and grouping. -/
inductive Mirrors : Sql.Body → Body → Prop
  | select {x : Sql.Select} {y : Select} (hpart : refusalOf x = none) (h : Select.ofSql x = .ok y) :
    Mirrors (.select x) (.select y)
  | query {q : Sql.Query} {p : Query} (h : Query.ofSql q = .ok p) : Mirrors (.query q) (.query p)
  | values (explicitRow singular : Bool) {rows : List (List Sql.Expr)} {ys : List (List Expr)}
    (h : rowsOfSql rows = .ok ys) : Mirrors (.values explicitRow singular rows) (.values ys)
  | setOp {op : Sql.SetOperator} {op' : SetOperator} {quantifier : Sql.SetQuantifier} {all : Bool}
    {l r : Sql.Body} {l' r' : Body} (hop : op.print = op'.text)
    (hquantifier : (quantifier, all) ∈ keptDuplicates) (hl : Mirrors l l') (hr : Mirrors r r') :
    Mirrors (.setOp l op quantifier r) (.setOp op' all l' r')

theorem setOperatorOfSql_eq_ok_iff {op : Sql.SetOperator} {op' : SetOperator} :
    SetOperator.ofSql op = .ok op' ↔ op.print = op'.text := by
  cases op <;> cases op' <;>
    simp [SetOperator.ofSql, Sql.SetOperator.print, SetOperator.text, throw, throwThe,
      MonadExceptOf.throw, Pure.pure, Except.pure]

/-- The operators that look alike bind alike. -/
theorem strength_eq_of_print_eq {op : Sql.SetOperator} {op' : SetOperator} (h : op.print = op'.text) :
    op.strength = op'.strength := by
  cases op <;> cases op' <;> first | rfl | simp [Sql.SetOperator.print, SetOperator.text] at h

theorem keepsDuplicates_eq_ok_iff {quantifier : Sql.SetQuantifier} {all : Bool} :
    keepsDuplicates quantifier = .ok all ↔ (quantifier, all) ∈ keptDuplicates := by
  cases quantifier <;> cases all <;>
    simp [keepsDuplicates, keptDuplicates, throw, throwThe, MonadExceptOf.throw, Pure.pure,
      Except.pure]

/-- A body is laid out with the same operands, operators and grouping, or not at all. -/
theorem bodyOfSql_eq_ok_iff : (b : Sql.Body) → {p : Body} → Body.ofSql b = .ok p ↔ Mirrors b p
  | .select x, p => by
    simp only [Body.ofSql]
    constructor
    · intro h
      cases hpart : refusalOf x with
      | some what =>
        rw [hpart] at h
        cases h
      | none =>
        rw [hpart] at h
        obtain ⟨y, hy, h⟩ := bind_eq_ok h
        cases h
        exact .select hpart hy
    · rintro ⟨hpart, h⟩
      simp only [hpart, h]
      rfl
  | .query q, p => by
    simp only [Body.ofSql]
    constructor
    · intro h
      obtain ⟨y, hy, h⟩ := bind_eq_ok h
      cases h
      exact .query hy
    · rintro ⟨⟩
      rename_i h
      rw [h]
      rfl
  | .values explicitRow singular rows, p => by
    simp only [Body.ofSql]
    constructor
    · intro h
      obtain ⟨ys, hys, h⟩ := bind_eq_ok h
      cases h
      exact .values explicitRow singular hys
    · rintro ⟨⟩
      rename_i h
      rw [h]
      rfl
  | .setOp l op quantifier r, p => by
    simp only [Body.ofSql]
    constructor
    · intro h
      obtain ⟨op', hop, h⟩ := bind_eq_ok h
      obtain ⟨all, hall, h⟩ := bind_eq_ok h
      obtain ⟨l', hl, h⟩ := bind_eq_ok h
      obtain ⟨r', hr, h⟩ := bind_eq_ok h
      cases h
      exact .setOp (setOperatorOfSql_eq_ok_iff.1 hop) (keepsDuplicates_eq_ok_iff.1 hall)
        ((bodyOfSql_eq_ok_iff l).1 hl) ((bodyOfSql_eq_ok_iff r).1 hr)
    · intro h
      obtain _ | _ | _ | ⟨hop, hall, hl, hr⟩ := h
      rw [setOperatorOfSql_eq_ok_iff.2 hop, keepsDuplicates_eq_ok_iff.2 hall,
        (bodyOfSql_eq_ok_iff l).2 hl, (bodyOfSql_eq_ok_iff r).2 hr]
      rfl
  | .other text, p => by
    refine ⟨fun h => ?_, fun h => ?_⟩
    · cases h
    · cases h

namespace Mirrors

variable {b : Sql.Body} {p : Body}

theorem strength_eq (h : Mirrors b p) : b.strength = p.strength := by
  cases h with
  | setOp hop => exact strength_eq_of_print_eq hop
  | _ => rfl

/-- The layout of a grouped body is grouped. -/
theorem isGrouped (h : Mirrors b p) : b.IsGrouped → p.IsGrouped := by
  induction h with
  | setOp hop _ hl hr ihl ihr =>
    rintro ⟨hleft, hright, hgroupedl, hgroupedr⟩
    rw [strength_eq_of_print_eq hop, hl.strength_eq] at hleft
    rw [strength_eq_of_print_eq hop, hr.strength_eq] at hright
    exact ⟨hleft, hright, ihl hgroupedl, ihr hgroupedr⟩
  | _ => exact fun _ => trivial

end Mirrors

/-- What is laid out of a body that the parser reads is grouped. -/
theorem isGrouped_of_read {g : Sql.Grammar} {scope : Sql.Scope} {ts left : List Sql.Lexeme}
    {b : Sql.Body} {p : Body} (hread : Sql.Parser.body g scope ts = .ok b left)
    (h : Body.ofSql b = .ok p) : p.IsGrouped :=
  ((bodyOfSql_eq_ok_iff b).1 h).isGrouped (Sql.Parser.body_gives g scope ts b left hread)

/-- Operators between queries keep their grouping in a text without parentheses: the text is the
operands in order with the operators between them, and reading this sequence gives the body back. A
body that is read has the operands, operators and grouping of the layout that is made of it. -/
theorem setOperations_keep_grouping :
    (∀ b : Body, b.IsGrouped →
      b.first.IsOperand ∧ (∀ x ∈ b.rest, x.operand.IsOperand) ∧
      (∀ (s : Style) (d : Nat), Piece.textOf s (b.pieces s d) =
        Piece.textOf s (b.first.pieces s d) ++ String.join (b.rest.map (Step.text s d))) ∧
      read b.first b.rest = b) ∧
    ∀ (b : Sql.Body) (p : Body), Body.ofSql b = .ok p ↔ Mirrors b p :=
  ⟨fun b hb =>
    ⟨b.first_isOperand, b.rest_isOperand, fun s d => textOf_sequence s d b, read_sequence hb⟩,
    fun b _ => bodyOfSql_eq_ok_iff b⟩

/-- `values (1) union all values (2) intersect values (3) except (values (4))`. -/
theorem setOperations_keep_mixed_grouping :
    let rows (n : String) : Body := .values [[.const (.number n)]]
    let q : Query := ⟨none, rows "4", [], none, none, []⟩
    let b : Body :=
      .setOp .except false
        (.setOp .union true (rows "1") (.setOp .intersect false (rows "2") (rows "3"))) (.query q)
    b.IsGrouped ∧
      Piece.textOf {} (b.pieces {} 0) =
        "VALUES (\n  1\n)\nUNION ALL\nVALUES (\n  2\n)\nINTERSECT\nVALUES (\n  3\n)\nEXCEPT\n" ++
          "(\n  VALUES (\n    4\n  )\n)" ∧
      read (rows "1") [⟨.union, true, rows "2"⟩, ⟨.intersect, false, rows "3"⟩, ⟨.except, false, .query q⟩] =
        b ∧
      Body.ofSql (.setOp (.values false false []) .union .distinct (.values false false [])) =
        .ok (.setOp .union false (.values []) (.values [])) := by
  intro rows q b
  have hb : b.IsGrouped := by simp [b, rows, IsGrouped, strength, SetOperator.strength]
  obtain ⟨-, -, htext, hread⟩ := setOperations_keep_grouping.1 b hb
  have hvalues : Mirrors (.values false false []) (.values []) := .values false false rfl
  refine ⟨hb, (htext {} 0).trans (by decide), hread, ?_⟩
  exact (setOperations_keep_grouping.2 _ _).2 (.setOp rfl (by decide) hvalues hvalues)

end Body

end SqlLayout.Layout
