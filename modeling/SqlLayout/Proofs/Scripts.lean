import SqlLayout.Format
import SqlLayout.Proofs.Markers

/-!
Scripts of several statements. No marker of a placeholder reaches over the semicolon between two
statements, so that two scripts with a semicolon between them are formatted one after the other.
-/

namespace SqlLayout

/-! ### Texts with a character between them -/

namespace Text

/-- A character that does not occur in `old` keeps what stands before it and after it apart. -/
theorem replaceFrom_append_cons {old new s : List Char} {c d : Char} (hold : old = d :: s) (hc : c ∉ old)
    (a b : List Char) :
    replaceFrom old new 0 (a ++ c :: b) = replaceFrom old new 0 a ++ c :: replaceFrom old new 0 b := by
  have hparted : Parted old a (c :: b) := parted_of_head fun x hx hmem => by
    obtain rfl : c = x := Option.some.inj hx
    exact hc (List.mem_of_mem_tail hmem)
  have hne : c ≠ d := by
    rintro rfl
    exact hc (hold ▸ List.mem_cons_self)
  rw [replaceFrom_append a hparted 0 (Nat.zero_le _), Placeholder.replaceFrom_cons_ne hold hne]

theorem replaceAll_semicolon {old new : String} {d : Char} {s : List Char} (hold : old.toList = d :: s)
    (hc : ';' ∉ old.toList) (a b : String) :
    replaceAll old new (a ++ ";" ++ b) = replaceAll old new a ++ ";" ++ replaceAll old new b := by
  have hchars : (a ++ ";" ++ b).toList = a.toList ++ ';' :: b.toList := by simp
  rw [← String.toList_inj, replaceAll, hchars, replaceFrom_append_cons hold hc]
  simp [replaceAll]

/-- Two lists of texts, neither of them empty. -/
theorem joinWith_append (sep : String) {xs ys : List String} (hxs : xs ≠ []) (hys : ys ≠ []) :
    joinWith sep (xs ++ ys) = joinWith sep xs ++ sep ++ joinWith sep ys := by
  induction xs with
  | nil => exact absurd rfl hxs
  | cons x r ih =>
    cases r with
    | nil =>
      obtain ⟨y, t, rfl⟩ := List.exists_cons_of_ne_nil hys
      rfl
    | cons z r =>
      have hrest := ih (List.cons_ne_nil z r)
      simp only [List.cons_append, joinWith] at hrest ⊢
      rw [hrest]
      simp only [String.append_assoc]

end Text

namespace Placeholder

theorem normalize_semicolon (a b : String) :
    normalize (a ++ ";" ++ b) = normalize a ++ ";" ++ normalize b := by
  unfold normalize
  rw [Text.replaceAll_semicolon rfl (by decide), Text.replaceAll_semicolon rfl (by decide),
    Text.replaceAll_semicolon rfl (by decide)]

theorem restore_semicolon (a b : String) : restore (a ++ ";" ++ b) = restore a ++ ";" ++ restore b :=
  Text.replaceAll_semicolon rfl (by decide) a b

/-- The line break at the end of a text stays. -/
theorem restore_lineBreak (a : String) : restore (a ++ "\n") = restore a ++ "\n" := by
  have hdivided : restored (a.toList ++ '\n' :: []) = restored a.toList ++ '\n' :: restored [] :=
    Text.replaceFrom_append_cons rfl (by decide) a.toList []
  rw [← String.toList_inj, restore_toList, String.toList_append, String.toList_append, restore_toList]
  exact hdivided

end Placeholder

/-! ### Results in turn -/

section

variable {ε α β : Type} {f : α → Except ε β} {xs ys : List α}

/-- Where each member has a result, the list has one. -/
theorem exists_mapM_eq_ok (h : ∀ x ∈ xs, ∃ y, f x = .ok y) :
    ∃ zs, xs.mapM f = .ok zs ∧ zs.length = xs.length := by
  induction xs with
  | nil => exact ⟨[], rfl, rfl⟩
  | cons x r ih =>
    obtain ⟨y, hy⟩ := h x List.mem_cons_self
    obtain ⟨zs, hzs, hlength⟩ := ih fun z hz => h z (List.mem_cons_of_mem x hz)
    refine ⟨y :: zs, ?_, congrArg Nat.succ hlength⟩
    rw [List.mapM_cons, hy, hzs]
    rfl

/-- The first member without a result ends the whole. -/
theorem mapM_eq_error {x : α} {e : ε} (h : ∀ y ∈ xs, ∃ z, f y = .ok z) (hx : f x = .error e)
    (ys : List α) : (xs ++ x :: ys).mapM f = .error e := by
  obtain ⟨zs, hzs, -⟩ := exists_mapM_eq_ok h
  rw [List.mapM_append, hzs, List.mapM_cons, hx]
  rfl

end

/-! ### Scripts of deletions -/

/-- The deletion of all rows of a table. -/
def deletionFrom (table : Sql.ObjectName) : Sql.Statement :=
  .delete ⟨[], [.factor (.table table none)], none, none, none, [], none⟩

/-- The table that all rows are deleted from. -/
def deletedTable? : Sql.Statement → Option Sql.ObjectName
  | .delete ⟨[], [.factor (.table table none)], none, none, none, [], none⟩ => some table
  | _ => none

theorem eq_deletionFrom {x : Sql.Statement} {table : Sql.ObjectName} (h : deletedTable? x = some table) :
    x = deletionFrom table := by
  unfold deletedTable? at h
  split at h
  · cases h
    rfl
  · cases h

theorem eq_map_deletionFrom {xs : List Sql.Statement} {tables : List Sql.ObjectName}
    (h : xs.map deletedTable? = tables.map some) : xs = tables.map deletionFrom := by
  induction tables generalizing xs with
  | nil => simpa using h
  | cons table r ih =>
    obtain ⟨x, ys, rfl, hx, hys⟩ := List.map_eq_cons_iff.1 h
    rw [eq_deletionFrom hx, ih hys, List.map_cons]

theorem parse_deletions {text : String} (tables : List Sql.ObjectName)
    (h : (Sql.parse text).toOption.map (List.map deletedTable?) = some (tables.map some)) :
    Sql.parse text = .ok (tables.map deletionFrom) := by
  cases hread : Sql.parse text with
  | error e =>
    rw [hread] at h
    cases h
  | ok xs =>
    rw [hread] at h
    exact congrArg Except.ok (eq_map_deletionFrom (Option.some.inj h))

/-! ### Scripts one after the other -/

/-- The statements of a script without the line break at its end. -/
def renderStatements (s : Style) (ts : List Layout.Statement) : String :=
  Text.joinWith ";" (ts.map fun t => "\n" ++ t.render s)

theorem renderStatements_append (s : Style) {ts us : List Layout.Statement} (hts : ts ≠ [])
    (hus : us ≠ []) :
    renderStatements s (ts ++ us) = renderStatements s ts ++ ";" ++ renderStatements s us := by
  unfold renderStatements
  rw [List.map_append, Text.joinWith_append ";" (by simpa using hts) (by simpa using hus)]

/-- What becomes of a script whose statements are read and turned into trees. -/
theorem format_of_mapM {sql : String} {xs : List Sql.Statement} (s : Style)
    (hread : Sql.parse (Placeholder.normalize sql) = .ok xs) :
    format s sql = (xs.mapM Layout.Statement.ofSql).map fun ts =>
      Placeholder.restore (renderStatements s ts) ++ "\n" := by
  have hscript : readScript (Placeholder.normalize sql) = .ok xs := by
    rw [readScript, hread]
    rfl
  rw [format, hscript]
  cases hts : xs.mapM Layout.Statement.ofSql with
  | error e =>
    simp only [bind, Except.bind, hts]
    rfl
  | ok ts =>
    simp only [bind, Except.bind, hts]
    exact congrArg Except.ok (Placeholder.restore_lineBreak (renderStatements s ts))

/-- Where two scripts, put together with a semicolon, are read as the statements of the first and then
those of the second, they are formatted one after the other: the line break at the end of the first
gives way to the semicolon. The first statement that cannot be laid out ends the whole with its
error. -/
theorem format_in_turn (s : Style) {a b : String} {xs ys : List Sql.Statement} (hxs : xs ≠ [])
    (hys : ys ≠ []) (ha : Sql.parse (Placeholder.normalize a) = .ok xs)
    (hb : Sql.parse (Placeholder.normalize b) = .ok ys)
    (hab : Sql.parse (Placeholder.normalize a ++ ";" ++ Placeholder.normalize b) = .ok (xs ++ ys)) :
    ((∀ x ∈ xs ++ ys, ∃ t, Layout.Statement.ofSql x = .ok t) →
      ∃ front last, format s a = .ok (front ++ "\n") ∧ format s b = .ok last ∧
        format s (a ++ ";" ++ b) = .ok (front ++ ";" ++ last)) ∧
    ∀ before x after e, xs ++ ys = before ++ x :: after →
      (∀ y ∈ before, ∃ t, Layout.Statement.ofSql y = .ok t) → Layout.Statement.ofSql x = .error e →
        format s (a ++ ";" ++ b) = .error e := by
  rw [← Placeholder.normalize_semicolon] at hab
  have hwhole := format_of_mapM s hab
  constructor
  · intro h
    obtain ⟨hleft, hright⟩ := List.forall_mem_append.1 h
    obtain ⟨ts, hts, htsLength⟩ := exists_mapM_eq_ok hleft
    obtain ⟨us, hus, husLength⟩ := exists_mapM_eq_ok hright
    have htsNe : ts ≠ [] := List.ne_nil_of_length_pos (htsLength ▸ List.length_pos_of_ne_nil hxs)
    have husNe : us ≠ [] := List.ne_nil_of_length_pos (husLength ▸ List.length_pos_of_ne_nil hys)
    have hboth : (xs ++ ys).mapM Layout.Statement.ofSql = .ok (ts ++ us) := by
      rw [List.mapM_append, hts, hus]
      rfl
    refine ⟨Placeholder.restore (renderStatements s ts),
      Placeholder.restore (renderStatements s us) ++ "\n", ?_, ?_, ?_⟩
    · rw [format_of_mapM s ha, hts]
      rfl
    · rw [format_of_mapM s hb, hus]
      rfl
    · rw [hwhole, hboth, Except.map, renderStatements_append s htsNe husNe,
        Placeholder.restore_semicolon, String.append_assoc]
  · intro before x after e hsplit hbefore hx
    rw [hwhole, hsplit, mapM_eq_error hbefore hx after]
    rfl

/-- The parameter at the end of the first script becomes a name and comes back. -/
theorem format_in_turn_deletions :
    ∃ front last, format {} "delete from :t" = .ok (front ++ "\n") ∧
      format {} "delete from u" = .ok last ∧
      format {} "delete from :t;delete from u" = .ok (front ++ ";" ++ last) ∧
      front ++ ";" ++ last = "\nDELETE FROM :t;\nDELETE FROM u\n" := by
  have hfirst : Sql.parse (Placeholder.normalize "delete from :t") =
      .ok [deletionFrom [⟨"ttpre_t", none⟩]] :=
    parse_deletions [[⟨"ttpre_t", none⟩]] (by decide +kernel)
  have hsecond : Sql.parse (Placeholder.normalize "delete from u") =
      .ok [deletionFrom [⟨"u", none⟩]] :=
    parse_deletions [[⟨"u", none⟩]] (by decide +kernel)
  have hboth : Sql.parse (Placeholder.normalize "delete from :t" ++ ";" ++
      Placeholder.normalize "delete from u") =
      .ok ([deletionFrom [⟨"ttpre_t", none⟩]] ++ [deletionFrom [⟨"u", none⟩]]) :=
    parse_deletions [[⟨"ttpre_t", none⟩], [⟨"u", none⟩]] (by decide +kernel)
  have hlaid : ∀ x ∈ [deletionFrom [⟨"ttpre_t", none⟩]] ++ [deletionFrom [⟨"u", none⟩]],
      ∃ t, Layout.Statement.ofSql x = .ok t := by
    simp only [List.cons_append, List.nil_append, List.forall_mem_cons]
    exact ⟨⟨_, rfl⟩, ⟨_, rfl⟩, List.forall_mem_nil _⟩
  have hformat : format {} "delete from :t;delete from u" = .ok "\nDELETE FROM :t;\nDELETE FROM u\n" := by
    decide +kernel
  obtain ⟨front, last, hfront, hlast, hwhole⟩ :=
    (format_in_turn {} (by simp) (by simp) hfirst hsecond hboth).1 hlaid
  refine ⟨front, last, hfront, hlast, hwhole, ?_⟩
  have hsame := hwhole.symm.trans hformat
  exact Except.ok.inj hsame

end SqlLayout
