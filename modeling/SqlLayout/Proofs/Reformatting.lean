import SqlLayout.Format

/-!
Formatting a script that was formatted before. The trees that are read from a formatted text are
compared with the trees that were laid out.
-/

namespace SqlLayout

/-- The trees of a script, in their order. -/
def treesOf (sql : String) : Outcome (List Layout.Statement) := do
  let statements ← readScript (Placeholder.normalize sql)
  statements.mapM Layout.Statement.ofSql

theorem format_eq_ok {s : Style} {sql out : String} :
    format s sql = .ok out ↔
      ∃ ts, treesOf sql = .ok ts ∧ out = Placeholder.restore (renderScript s ts) := by
  have hformat : format s sql = (do
      let ts ← treesOf sql
      return Placeholder.restore (renderScript s ts)) := by
    rw [format, treesOf, bind_assoc]
  rw [hformat]
  cases treesOf sql with
  | error e => exact ⟨fun h => (by cases h), fun ⟨_, h, _⟩ => by cases h⟩
  | ok ts => exact ⟨fun h => ⟨ts, rfl, by cases h; rfl⟩, fun ⟨_, h, hout⟩ => by cases h; rw [hout]; rfl⟩

/-- The first target of a script of one plain select. -/
def firstTarget? : List Layout.Statement → Option Layout.Expr
  | [.select ⟨none, .select ⟨_, target :: _, _, _, _, _⟩, _, _, _, _⟩] => some target.value
  | _ => none

/-- Whether an expression is a cast. -/
def Layout.Expr.isCast : Layout.Expr → Bool
  | .cast _ _ _ => true
  | _ => false

/-- From a test that holds of the result of a computation, the result. -/
theorem exists_of_any {α : Type} {x : Outcome α} {p : α → Bool} (h : x.toOption.any p = true) :
    ∃ a, x = .ok a ∧ p a = true := by
  cases x with
  | error e => cases h
  | ok a => exact ⟨a, rfl, h⟩

end SqlLayout
