import SqlLayout.Proofs.Reading.Bodies

/-!
Scripts of queries. The lexemes of a text end with one that marks its end, and the statements are read
up to it.
-/

namespace SqlLayout.Sql
namespace Parser

variable {d : Nat} {ts us : List Token} {q : Query}

theorem Queried.opens (h : Queried d ts q) (us : List Token) :
    front (ts ++ us) ∈ [.word "WITH", .word "SELECT", .word "VALUES", .symbol "("] := by
  obtain ⟨locks, hwith, hbody, -, -, -, -⟩ := h
  rename_i ts₀ ts₁ ts₂ ts₃ ts₄ isRecursive f ctes b items limit offset
  cases hwith with
  | none =>
    have hopens : OpensBody ts₁ := hbody.opens
    rw [List.nil_append, List.append_assoc]
    exact List.mem_cons_of_mem _ (hopens _)
  | some => exact List.mem_cons_self

theorem Queried.reads_statement (h : Queried 47 ts q) (hus : Follows [")", ";"] [] us) :
    Reads (Grammar.atDepth nestingLimit).statement ts us (.query q) := by
  refine Reads.peek fun l htoken hkey => ?_
  have hstarts : (["SELECT", "WITH", "VALUES", "FROM"].contains l.key || l.token == .symbol "(") =
      true := by
    have hmem := h.opens us
    rw [htoken, hkey, frontKey]
    generalize front (ts ++ us) = t at hmem
    simp only [List.mem_cons, List.not_mem_nil, or_false] at hmem
    obtain rfl | rfl | rfl | rfl := hmem <;> decide
  rw [hstarts]
  exact h.reads hus |>.map

/-- The tokens of statements with a semicolon before each of them. -/
def following (tss : List (List Token)) : List Token :=
  tss.flatMap (.symbol ";" :: ·)

/-- The tokens of statements with semicolons between them. -/
def scriptTokens : List (List Token) → List Token
  | [] => []
  | ts :: tss => ts ++ following tss

/-- One statement after the semicolons before it, or the end of the script. -/
def statementStep : List Statement × Bool → Parser ((List Statement × Bool) ⊕ List Statement)
  | (acc, delimiterDue) => do
    let skipped ← repeatFrom false fun skipped => do
      if ← symbol? ";" then return .inl true else return .inr skipped
    let due := delimiterDue && !skipped
    let t ← peek
    if t.token == .eof || (due && t.key == "END") then return .inr acc.reverse
    else if due then expected "end of statement"
    else
      let s ← (Grammar.atDepth nestingLimit).statement
      return .inl (s :: acc, true)

/-- What stands before a statement is skipped. -/
theorem reads_semicolons (present : Bool) (h : front us ≠ .symbol ";") :
    Reads (repeatFrom false fun skipped => do
      if ← symbol? ";" then return .inl true else return .inr skipped)
      (if present then [.symbol ";"] else []) us present := by
  have hdone (skipped : Bool) : Turns (fun skipped => do
      if ← symbol? ";" then return .inl true else return .inr skipped) skipped [] us skipped :=
    Turns.done (Reads.symbolElse h (Reads.pure _ us))
  cases present with
  | false => exact (hdone false).reads
  | true =>
    exact (Turns.last (Reads.symbolThen (Reads.pure _ us)) (List.cons_ne_nil _ _) (hdone true)).reads

theorem reads_statementStep {acc : List Statement} (due : Bool) (h : Queried 47 ts q)
    (hus : Follows [")", ";"] [] us) :
    Reads (statementStep (acc, due)) ((if due then [.symbol ";"] else []) ++ ts) us
      (.inl (.query q :: acc, true)) := by
  have hfront := h.opens us
  have hne : front (ts ++ us) ≠ .symbol ";" := by
    intro heq
    rw [heq] at hfront
    exact absurd hfront (by decide)
  refine Reads.bind (reads_semicolons due hne) (Reads.peek fun l htoken _ => ?_)
  have heof : (l.token == .eof) = false := by
    rw [htoken, beq_eq_false_iff_ne]
    intro heq
    rw [heq] at hfront
    exact absurd hfront (by decide)
  simp only [heof, Bool.and_not_self, Bool.false_and, Bool.or_false, Bool.false_eq_true, if_false]
  exact (h.reads_statement hus).map

theorem follows_following (tss : List (List Token)) :
    Follows [")", ";"] [] (following tss ++ [.eof]) := by
  cases tss with
  | nil => exact trivial
  | cons ts tss => exact (by decide : ";" ∈ [")", ";"])

theorem turns_statements {tss : List (List Token)} {qs : List Query}
    (h : List.Forall₂ (Queried 47) tss qs) (acc : List Statement) :
    Turns statementStep (acc, true) (following tss) [.eof] (acc.reverse ++ qs.map .query) := by
  induction h generalizing acc with
  | nil =>
    refine Turns.done (Reads.skip (reads_semicolons false (by decide)) (Reads.peek fun l htoken _ => ?_))
    have heof : (l.token == .eof) = true := beq_iff_eq.2 htoken
    simp only [heof, Bool.true_or, if_true, List.map_nil, List.append_nil]
    exact Reads.pure _ _
  | @cons ts q tss qs hts h ih =>
    have hnext := ih (.query q :: acc)
    rw [List.reverse_cons, List.append_assoc] at hnext
    exact Turns.turn _ (reads_statementStep true hts (follows_following tss)) (List.cons_ne_nil _ _)
      hnext

theorem reads_statements {tss : List (List Token)} {qs : List Query}
    (h : List.Forall₂ (Queried 47) tss qs) :
    Reads statements (scriptTokens tss) [.eof] (qs.map .query) := by
  have hturns : Turns statementStep ([], false) (scriptTokens tss) [.eof] (qs.map .query) := by
    cases h with
    | nil =>
      refine Turns.done (Reads.skip (reads_semicolons false (by decide)) ?_)
      refine Reads.peek fun l htoken _ => ?_
      have heof : (l.token == .eof) = true := beq_iff_eq.2 htoken
      simp only [heof, Bool.true_or, if_true]
      exact Reads.pure _ _
    | @cons ts q tss qs hts h =>
      refine Turns.turn ts (reads_statementStep false hts (follows_following tss)) ?_
        (turns_statements h [.query q])
      rintro rfl
      have hfront := hts.opens []
      exact absurd hfront (by decide)
  exact hturns.reads

end Parser

/-- A text whose tokens are those of queries with semicolons between them is read as these queries. -/
theorem parse_queries {text : String} {tss : List (List Token)} {qs : List Query}
    (htokens : Lexer.Runs text.toList (Parser.scriptTokens tss))
    (h : List.Forall₂ (Parser.Queried 47) tss qs) : parse text = .ok (qs.map .query) := by
  obtain ⟨ls, last, hrun, hls, hlast⟩ := htokens (text.toList.length + 1) ⟨⟨1, 1⟩, none, false⟩
    (Nat.lt_succ_self _)
  have hread := Parser.reads_statements h ls [last] hls (.cons hlast .nil)
  have htokens : tokens text = .ok (ls ++ [last]) := hrun
  unfold parse
  rw [htokens]
  simp only [bind, Except.bind, hread]
  rfl

end SqlLayout.Sql
