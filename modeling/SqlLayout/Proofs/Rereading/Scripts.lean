import SqlLayout.Proofs.Rereading.Trees
import SqlLayout.Proofs.Rereading.Surviving
import SqlLayout.Proofs.Reformatting

/-!
Formatting scripts of queries again. The text of readable queries is read as the trees that it was laid
out for, so it is laid out as the same text once more. Where an operand binds less tightly than what
stands beside it, as in a cast that lost the parentheses around its operand, neither holds.
-/

namespace SqlLayout

open Sql (Token)
open Sql.Lexer (Runs)
open Sql.Parser (Queried scriptTokens following)
open Layout (Spelled IsSettled leafTexts IsSign)

/-- What makes a statement come back from its text: it is a query that is read back, and its texts come
back from what becomes of their placeholders. -/
structure Layout.Statement.ComesBack (s : Style) (t : Layout.Statement) : Prop where
  readable : t.isReadable = true
  settled : ∀ w ∈ leafTexts (t.pieces s), IsSettled w

instance (s : Style) (t : Layout.Statement) : Decidable (t.ComesBack s) :=
  decidable_of_iff (t.isReadable = true ∧ ∀ w ∈ leafTexts (t.pieces s), IsSettled w)
    ⟨fun h => ⟨h.1, h.2⟩, fun h => ⟨h.1, h.2⟩⟩

/-- The tokens of a statement and of what stands behind it. -/
theorem runs_statements {s : Style} {ts : List Layout.Statement} {tss : List (List Token)}
    (h : List.Forall₂ (fun t us => Spelled s .fenced .bare (t.pieces s) us) ts tss) :
    Runs (renderScript s ts).toList (scriptTokens tss) := by
  have hend : Runs ['\n'] [] := .space rfl .nil
  have hrest : Runs ((Text.joinWith ";" (ts.map fun t => "\n" ++ t.render s)).toList ++ ['\n'])
      (scriptTokens tss) := by
    induction h with
    | nil => exact hend
    | @cons t us ts tss ht h ih =>
      have hstatement {cs : List Char} {vs : List Token} (hcs : Sql.Lexer.EndsNumeral cs)
          (hvs : Runs cs vs) : Runs ('\n' :: ((t.render s).toList ++ cs)) (us ++ vs) :=
        .space rfl (ht cs vs hcs hvs).1
      cases h with
      | nil =>
        have hall := hstatement (Layout.accepts_cons (by decide) []) hend
        simpa [Text.joinWith, scriptTokens, following] using hall
      | @cons u vs ts tss hu h =>
        have hsemicolon : Runs (';' :: _) (.symbol ";" :: _) := .punctuation (by decide) ih
        have hall := hstatement (Layout.accepts_cons (by decide) _) hsemicolon
        simpa [Text.joinWith, scriptTokens, following] using hall
  rw [renderScript, String.toList_append]
  exact hrest

/-- What is read from a member of a list of results. -/
theorem exists_of_mem_mapM {α β : Type} {f : α → Outcome β} {xs : List α} {ys : List β}
    (h : xs.mapM f = .ok ys) : ∀ y ∈ ys, ∃ x, f x = .ok y := by
  induction xs generalizing ys with
  | nil =>
    cases h
    exact List.forall_mem_nil _
  | cons x xs ih =>
    rw [List.mapM_cons] at h
    obtain ⟨y, hy, h⟩ := bind_eq_ok h
    obtain ⟨zs, hzs, h⟩ := bind_eq_ok h
    cases h
    exact List.forall_mem_cons.2 ⟨⟨x, hy⟩, ih hzs⟩

/-- The trees of a script have no prefix operators but signs. -/
theorem signs_of_treesOf {sql : String} {ts : List Layout.Statement} (h : treesOf sql = .ok ts) :
    ∀ t ∈ ts, t.isReadable = true → ∀ n ∈ t.nodes, n.Prefixed IsSign := by
  intro t ht hreadable n hn
  obtain ⟨xs, -, hxs⟩ := bind_eq_ok h
  obtain ⟨x, hx⟩ := exists_of_mem_mapM hxs t ht
  cases t with
  | select q =>
    have hsound : Layout.AllSound q.nodes := by
      cases x with
      | query x =>
        obtain ⟨q', hq, h⟩ := bind_eq_ok hx
        cases h
        exact Layout.queryOfSql_sound x q hq
      | insert i =>
        obtain ⟨_, _, h⟩ := bind_eq_ok hx
        cases h
      | update u =>
        obtain ⟨_, _, h⟩ := bind_eq_ok hx
        cases h
      | delete d =>
        obtain ⟨_, _, h⟩ := bind_eq_ok hx
        cases h
      | command label => cases hx
    have hnode := hsound n hn
    unfold Layout.Node.Prefixed
    split
    · exact hnode.symm
    · trivial
  | _ => cases hreadable

/-- Statements that are each read back are read back from the script of them. -/
theorem readScript_renderScript {s : Style} {ts : List Layout.Statement}
    (h : ∀ t ∈ ts, t.isReadable = true) :
    ∃ qs : List Sql.Query, readScript (renderScript s ts) = .ok (qs.map .query) ∧
      (qs.map Sql.Statement.query).mapM Layout.Statement.ofSql = .ok (ts.map (·.cased s)) := by
  have heach : ∃ (tss : List (List Token)) (qs : List Sql.Query),
      List.Forall₂ (fun t us => Spelled s .fenced .bare (Layout.Statement.pieces s t) us) ts tss ∧
      List.Forall₂ (Queried 47) tss qs ∧
      (qs.map Sql.Statement.query).mapM Layout.Statement.ofSql = .ok (ts.map (·.cased s)) := by
    induction ts with
    | nil => exact ⟨[], [], .nil, .nil, rfl⟩
    | cons t ts ih =>
      obtain ⟨tss, qs, htss, hqs, hread⟩ := ih fun u hu => h u (List.mem_cons_of_mem t hu)
      have ht := h t List.mem_cons_self
      cases t with
      | select q =>
        obtain ⟨us, x, hus, hx, hread', -⟩ := Layout.query_rereads (s := s) q 47 ht 0
        refine ⟨us :: tss, x :: qs, .cons hus htss, .cons hx hqs, ?_⟩
        rw [List.map_cons, List.mapM_cons, hread, Layout.Statement.ofSql, hread']
        rfl
      | _ => cases ht
  obtain ⟨tss, qs, htss, hqs, hread⟩ := heach
  refine ⟨qs, ?_, hread⟩
  rw [readScript, Sql.parse_queries (runs_statements htss) hqs]
  rfl

/-- The text of trees that come back is read as these trees. -/
theorem treesOf_restore {s : Style} {sql : String} {ts : List Layout.Statement}
    (hts : treesOf sql = .ok ts) (h : ∀ t ∈ ts, t.ComesBack s) :
    treesOf (Placeholder.restore (renderScript s ts)) = .ok (ts.map (·.cased s)) := by
  have hsigns := fun t ht => signs_of_treesOf hts t ht (h t ht).readable
  obtain ⟨qs, hread, hlower⟩ := readScript_renderScript (s := s) fun t ht => (h t ht).readable
  rw [treesOf, normalize_restore_renderScript hsigns fun t ht => (h t ht).settled, hread]
  exact hlower

/-- The trees of a text, as far as they all come back. -/
theorem exists_treesOf (s : Style) (sql : String)
    (h : (treesOf sql).toOption.any (fun ts => ts.all fun t => decide (t.ComesBack s)) = true) :
    ∃ ts, treesOf sql = .ok ts ∧ ∀ t ∈ ts, t.ComesBack s := by
  obtain ⟨ts, hts, hall⟩ := exists_of_any h
  exact ⟨ts, hts, fun t ht => of_decide_eq_true (List.all_eq_true.1 hall t ht)⟩

/-- A select with a call, a sign, a cast, a join and a placeholder. -/
def joinedSelect : String :=
  "select Count(*), -c::int from t join s.u x on a = :p where not (b or c)"

/-- A select with operators of different strengths, a query in a condition and a chain in another one. -/
def nestedSelect : String :=
  "select a + 2 * b from t where d in (select 1) or not e and f order by 1 desc"

end SqlLayout
