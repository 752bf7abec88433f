import SqlLayout.Command.Run
import SqlLayout.Proofs.NewLiterals
import SqlLayout.Proofs.Places

/-!
`check` and `fix` on the same workspace. The one reads every file from the workspace that it was given,
the other from one in which the files before it are written already; where no two paths lead to the
same file, that makes no difference.
-/

namespace SqlLayout.Command

variable {style : Style} {w w' : Workspace} {path : String} {files : List String}

/-- The paths do not lead to the same place. -/
def Apart (w : Workspace) (p q : String) : Prop :=
  ∀ place, w.resolve p = .ok place → w.resolve q ≠ .ok place

instance (w : Workspace) (p q : String) : Decidable (Apart w p q) :=
  match hp : w.resolve p with
  | .error _ => isTrue fun place h => by rw [hp] at h; cases h
  | .ok place =>
    decidable_of_iff (w.resolve q ≠ .ok place) <| by
      rw [Apart, hp]
      exact ⟨fun h place' hplace => by injection hplace with heq; exact heq ▸ h, fun h => h place rfl⟩

/-! ### One file -/

/-- A file that is revised is read where its path leads. -/
theorem reviseFile_eq_some {r : Host.Revision} (h : reviseFile style w path = .ok (some r)) :
    isGenerated path = false ∧ ∃ place source, w.resolve path = .ok place ∧
      w.look place = some (some source.toUTF8) ∧ Host.layOut style source = .ok r := by
  unfold reviseFile at h
  split at h
  · cases h
  · rename_i hgenerated
    refine ⟨by simpa using hgenerated, ?_⟩
    cases htext : w.text path with
    | error e => rw [htext] at h; cases h
    | ok source =>
      obtain ⟨place, hplace, hlook⟩ := Workspace.look_of_text htext
      refine ⟨place, source, hplace, hlook, ?_⟩
      rw [htext] at h
      cases hlayout : Host.layOut style source with
      | error e => simp only [bind, Except.bind, hlayout] at h; cases h
      | ok r' => simp only [bind, Except.bind, hlayout] at h; cases h; rfl

theorem reviseFile_congr (hshape : w.SameShape w')
    (hlook : ∀ place, w.resolve path = .ok place → w'.look place = w.look place) :
    reviseFile style w' path = reviseFile style w path := by
  rw [reviseFile, reviseFile, hshape.text hlook]

/-! ### The loops -/

theorem check_cons :
    check style w (path :: files) = (reviseFile style w path).bind fun revision =>
      (check style w files).map ((reportOn path revision).toList ++ ·) := by
  rw [check, List.filterMapM_cons, check]
  generalize (List.filterMapM _ files : Outcome (List FileReport)) = reports
  cases reviseFile style w path with
  | error e => rfl
  | ok revision =>
    simp only [bind, Except.bind, pure, Except.pure]
    cases reportOn path revision <;> cases reports <;> rfl

/-- What `fix` does with the first file: it fails, it leaves the file, or it writes another text. -/
theorem fix_cons (style : Style) (w : Workspace) (path : String) (files : List String) :
    (∃ e, reviseFile style w path = .error e ∧
      fix style w (path :: files) = { workspace := w, error := some e }) ∨
    (∃ revision, reviseFile style w path = .ok revision ∧ reportOn path revision = none ∧
      fix style w (path :: files) = fix style w files) ∨
    ∃ r report place source, reviseFile style w path = .ok (some r) ∧
      reportOn path (some r) = some report ∧ report.path = path ∧ isGenerated path = false ∧
      w.resolve path = .ok place ∧ w.look place = some (some source.toUTF8) ∧ r.source ≠ source ∧
      fix style w (path :: files) =
        { fix style (w.write path r.source) files with
          fixed := report :: (fix style (w.write path r.source) files).fixed } := by
  rw [fix]
  cases hrevise : reviseFile style w path with
  | error e => exact .inl ⟨e, rfl, rfl⟩
  | ok revision =>
    refine .inr ?_
    cases hreport : reportOn path revision with
    | none => exact .inl ⟨revision, rfl, hreport, by cases revision <;> simp [hreport]⟩
    | some report =>
      cases revision with
      | none => cases hreport
      | some r =>
        obtain ⟨hgenerated, place, source, hplace, hlook, hlayout⟩ := reviseFile_eq_some hrevise
        have hcases := hreport
        rw [reportOn] at hcases
        split at hcases
        · rename_i hchanged
          cases hcases
          exact .inr ⟨r, _, place, source, rfl, hreport, rfl, hgenerated, hplace, hlook,
            Host.layOut_source_ne hlayout hchanged, by simp [hreport]⟩
        · cases hcases

/-- `fix` leaves the shape of the workspace. -/
theorem sameShape_fix (style : Style) (w : Workspace) (files : List String) :
    w.SameShape (fix style w files).workspace := by
  induction files generalizing w with
  | nil => exact .refl w
  | cons path files ih =>
    obtain ⟨e, -, hfix⟩ | ⟨revision, -, -, hfix⟩ |
      ⟨r, report, place, source, -, -, -, -, hplace, hlook, -, hfix⟩ := fix_cons style w path files
    · exact hfix ▸ .refl w
    · exact hfix ▸ ih w
    · exact hfix ▸ (Workspace.sameShape_write hplace hlook r.source).trans (ih _)

/-- `fix` leaves every place to which no path leads whose source it may write. -/
theorem look_fix {place : List String}
    (h : ∀ path ∈ files, isGenerated path = false → w.resolve path ≠ .ok place) :
    (fix style w files).workspace.look place = w.look place := by
  induction files generalizing w with
  | nil => rfl
  | cons path files ih =>
    have hrest := fun p hp => h p (List.mem_cons_of_mem path hp)
    obtain ⟨e, -, hfix⟩ | ⟨revision, -, -, hfix⟩ |
      ⟨r, report, there, source, -, -, -, hgenerated, hthere, hlook, -, hfix⟩ := fix_cons style w path files
    · rw [hfix]
    · rw [hfix, ih hrest]
    · have hshape := Workspace.sameShape_write hthere hlook r.source
      have hne : place ≠ there := fun heq => h path List.mem_cons_self hgenerated (heq ▸ hthere)
      rw [hfix]
      refine (ih fun p hp => ?_).trans ?_
      · rw [hshape.resolve]
        exact hrest p hp
      · rw [Workspace.look_write hthere hlook, if_neg hne]

/-- Where no two paths lead to the same place, `fix` changes the files that it reports and no other
place: a file that is written later is not the one that was written. -/
theorem look_fix_ne_iff (style : Style) (hapart : files.Pairwise (Apart w)) (place : List String) :
    (fix style w files).workspace.look place ≠ w.look place ↔
      ∃ report ∈ (fix style w files).fixed, w.resolve report.path = .ok place := by
  induction files generalizing w with
  | nil => simp [fix]
  | cons path files ih =>
    obtain ⟨hfirst, hrest⟩ := List.pairwise_cons.1 hapart
    obtain ⟨e, -, hfix⟩ | ⟨revision, -, -, hfix⟩ |
      ⟨r, report, there, source, -, -, hreport, -, hthere, hlook, hsource, hfix⟩ := fix_cons style w path files
    · simp [hfix]
    · rw [hfix]
      exact ih hrest
    · have hshape := Workspace.sameShape_write hthere hlook r.source
      have hwrite := Workspace.look_write hthere hlook r.source
      have hapart' : files.Pairwise (Apart (w.write path r.source)) :=
        hrest.imp fun h => by rwa [Apart, hshape.resolve, hshape.resolve]
      have hfixed := ih hapart'
      simp only [hshape.resolve] at hfixed
      rw [hfix]
      simp only [List.mem_cons, exists_eq_or_imp, hreport, hthere]
      by_cases heq : place = there
      · subst heq
        refine iff_of_true ?_ (.inl rfl)
        rw [look_fix fun p hp _ => hshape.resolve p ▸ hfirst p hp place hthere, hwrite, if_pos rfl, hlook]
        intro hsame
        injection hsame with hsame
        injection hsame with hsame
        exact hsource (String.toByteArray_inj.1 hsame)
      · have hnot : (Except.ok there : Except FileFault (List String)) ≠ .ok place := by
          rintro ⟨⟩
          exact heq rfl
        rw [hwrite, if_neg heq] at hfixed
        rw [hfixed]
        simp [hnot]

theorem resolve_of_mem_fixed {report : FileReport} (h : report ∈ (fix style w files).fixed) :
    ∃ place, w.resolve report.path = .ok place := by
  induction files generalizing w with
  | nil => cases h
  | cons path files ih =>
    obtain ⟨e, -, hfix⟩ | ⟨revision, -, -, hfix⟩ |
      ⟨r, first, place, source, -, -, hfirst, -, hplace, hlook, -, hfix⟩ := fix_cons style w path files
    · rw [hfix] at h
      cases h
    · rw [hfix] at h
      exact ih h
    · rw [hfix] at h
      obtain rfl | h := List.mem_cons.1 h
      · exact ⟨place, hfirst ▸ hplace⟩
      · rw [← (Workspace.sameShape_write hplace hlook r.source).resolve]
        exact ih h

/-- The reports of `fix`, or the error that ended it. -/
def Repair.outcome (r : Repair) : Outcome (List FileReport) :=
  match r.error with
  | some e => .error e
  | none => .ok r.fixed

/-- By induction on the files: those that are left have not been written so far, so they are read as at
the start. -/
theorem outcome_fix (hshape : w.SameShape w') (hapart : files.Pairwise (Apart w))
    (hlook : ∀ path ∈ files, ∀ place, w.resolve path = .ok place → w'.look place = w.look place) :
    (fix style w' files).outcome = check style w files := by
  induction files generalizing w' with
  | nil => rfl
  | cons path files ih =>
    obtain ⟨hfirst, hrest⟩ := List.pairwise_cons.1 hapart
    have hlook' := fun p hp => hlook p (List.mem_cons_of_mem path hp)
    have hrevise : reviseFile style w' path = reviseFile style w path :=
      reviseFile_congr hshape (hlook path List.mem_cons_self)
    rw [check_cons, ← hrevise]
    obtain ⟨e, he, hfix⟩ | ⟨revision, hrevision, hreport, hfix⟩ |
      ⟨r, report, place, source, hrevision, hreport, -, -, hplace, hseen, -, hfix⟩ :=
        fix_cons style w' path files
    · rw [hfix, he]
      rfl
    · rw [hfix, hrevision, ih hshape hrest hlook', Except.bind, hreport]
      cases check style w files <;> rfl
    · have hwritten := Workspace.sameShape_write hplace hseen r.source
      have hplace' : w.resolve path = .ok place := hshape.resolve path ▸ hplace
      have hothers : ∀ p ∈ files, ∀ q, w.resolve p = .ok q →
          (w'.write path r.source).look q = w.look q := by
        intro p hp q hq
        rw [Workspace.look_write hplace hseen, if_neg, hlook' p hp q hq]
        rintro rfl
        exact hfirst p hp q hplace' hq
      rw [hfix, hrevision, Except.bind, hreport, ← ih (hshape.trans hwritten) hrest hothers]
      unfold Repair.outcome
      cases (fix style (w'.write path r.source) files).error <;> rfl

theorem outcome_eq_error {r : Repair} {e : Error} : r.outcome = .error e ↔ r.error = some e := by
  rw [Repair.outcome]
  cases r.error <;> simp

theorem outcome_eq_ok {r : Repair} {reports : List FileReport} :
    r.outcome = .ok reports ↔ r.error = none ∧ r.fixed = reports := by
  rw [Repair.outcome]
  cases r.error <;> simp

/-! ### The commands -/

/-- What `check` and `fix` have to do with each other that start in the same workspace with the same
paths. -/
structure Agreement (style : Style) (verbose json : Bool) (w : Workspace) (paths : List String) :
    Prop where
  /-- The one fails where the other fails, with the same error. -/
  error (e : Error) :
    check style w (expand w paths) = .error e ↔ (fix style w (expand w paths)).error = some e
  /-- Both then fail as commands and say so in the same words. -/
  complaint (e : Error) : check style w (expand w paths) = .error e →
    runCheck style json w paths = .failed "" (.error e) ∧
    (runFix style verbose w paths).2.exit = 1 ∧
    (runFix style verbose w paths).2.complaint = (runCheck style json w paths).complaint
  /-- The files of the reports are those that `fix` writes, in this order, and it prints how many
  constants each report has. They are the files that change. -/
  reports (rs : List FileReport) : check style w (expand w paths) = .ok rs →
    runCheck style json w paths =
      { exit := if rs.isEmpty then 0 else 1, output := reportText json rs } ∧
    (runFix style verbose w paths).2 =
      { exit := 0
        output := String.join (rs.map FileReport.fixedLine) ++
          if verbose then "Done: " ++ toString rs.length ++ " files rewritten\n" else ""
        written := rs.map (·.path) } ∧
    ∀ place, (runFix style verbose w paths).1.look place ≠ w.look place ↔
      ∃ r ∈ rs, w.resolve r.path = .ok place
  /-- `check` is content where `fix` comes to its end and changes nothing. -/
  exit : (runCheck style json w paths).exit = 0 ↔
    (runFix style verbose w paths).2.exit = 0 ∧
      ∀ place, (runFix style verbose w paths).1.look place = w.look place
  /-- `fix` leaves every source that a program has written, and every place that is not among the
  files. -/
  frame (place : List String) :
    place.getLast?.any (·.endsWith "_gen.rs") ∨ (∀ path ∈ expand w paths, w.resolve path ≠ .ok place) →
    (runFix style verbose w paths).1.look place = w.look place
  /-- `check` leaves the whole workspace. -/
  unchanged (options : Options) (input : ByteArray) :
    (run w input (.run options (.check paths json))).1 = w

theorem runFix_of_error (verbose : Bool) {e : Error} {paths : List String}
    (h : (fix style w (expand w paths)).error = some e) :
    ∃ answer, runFix style verbose w paths = ((fix style w (expand w paths)).workspace, answer) ∧
      answer.exit = 1 ∧ answer.complaint = (Answer.failed "" (.error e)).complaint := by
  rw [runFix, h]
  exact ⟨_, rfl, rfl, rfl⟩

theorem runFix_of_ok {rs : List FileReport} {verbose : Bool} {paths : List String}
    (h : (fix style w (expand w paths)).error = none)
    (hfixed : (fix style w (expand w paths)).fixed = rs) :
    runFix style verbose w paths =
      ((fix style w (expand w paths)).workspace,
        { exit := 0
          output := String.join (rs.map FileReport.fixedLine) ++
            if verbose then "Done: " ++ toString rs.length ++ " files rewritten\n" else ""
          written := rs.map (·.path) }) := by
  rw [runFix, h, hfixed]

theorem runFix_workspace (style : Style) (verbose : Bool) (w : Workspace) (paths : List String) :
    (runFix style verbose w paths).1 = (fix style w (expand w paths)).workspace := by
  cases h : (fix style w (expand w paths)).error with
  | none => rw [runFix_of_ok h rfl]
  | some e =>
    obtain ⟨answer, hanswer, -⟩ := runFix_of_error verbose h
    rw [hanswer]

theorem runFix_exit_eq_zero {verbose : Bool} {paths : List String} :
    (runFix style verbose w paths).2.exit = 0 ↔ (fix style w (expand w paths)).error = none := by
  cases h : (fix style w (expand w paths)).error with
  | none => rw [runFix_of_ok h rfl]; simp
  | some e =>
    obtain ⟨answer, hanswer, hexit, -⟩ := runFix_of_error verbose h
    rw [hanswer, hexit]
    simp

theorem runCheck_of_error {e : Error} {json : Bool} {paths : List String}
    (h : check style w (expand w paths) = .error e) :
    runCheck style json w paths = .failed "" (.error e) := by
  rw [runCheck, h]

theorem runCheck_of_ok {rs : List FileReport} {json : Bool} {paths : List String}
    (h : check style w (expand w paths) = .ok rs) :
    runCheck style json w paths =
      { exit := if rs.isEmpty then 0 else 1, output := reportText json rs } := by
  rw [runCheck, h]

/-- `fix` leaves the files whose names say that a program has written them. -/
theorem look_fix_of_generated {place : List String}
    (h : place.getLast?.any (·.endsWith "_gen.rs")) :
    (fix style w files).workspace.look place = w.look place := by
  by_cases hfile : ∃ bytes, w.look place = some (some bytes)
  · obtain ⟨bytes, hfile⟩ := hfile
    apply look_fix
    intro path _ hgenerated hplace
    rw [Workspace.isGenerated_eq hplace hfile, h] at hgenerated
    cases hgenerated
  -- What is no file is not written.
  · have hshape := (sameShape_fix style w files).look place
    generalize (fix style w files).workspace.look place = seen' at hshape ⊢
    generalize w.look place = seen at hshape hfile ⊢
    match seen, seen', hshape with
    | none, none, _ => rfl
    | some none, some none, _ => rfl
    | some (some bytes), _, _ => exact absurd ⟨bytes, rfl⟩ hfile

/-- Where no file changes, none was reported: the path of a report leads to a place. -/
theorem fixed_eq_nil_iff (hapart : files.Pairwise (Apart w)) :
    (fix style w files).fixed = [] ↔
      ∀ place, (fix style w files).workspace.look place = w.look place := by
  have hchanged := look_fix_ne_iff style hapart
  constructor
  · intro hnil place
    by_contra hne
    obtain ⟨report, hreport, -⟩ := (hchanged place).1 hne
    rw [hnil] at hreport
    cases hreport
  · intro hsame
    rw [List.eq_nil_iff_forall_not_mem]
    intro report hreport
    obtain ⟨place, hplace⟩ := resolve_of_mem_fixed hreport
    exact (hchanged place).2 ⟨report, hreport, hplace⟩ (hsame place)

/-- `check` and `fix` agree on files that are pairwise apart. -/
theorem check_agrees_fix (style : Style) (verbose json : Bool) (w : Workspace) (paths : List String)
    (hapart : (expand w paths).Pairwise (Apart w)) : Agreement style verbose json w paths := by
  have houtcome : (fix style w (expand w paths)).outcome = check style w (expand w paths) :=
    outcome_fix (.refl w) hapart fun _ _ _ _ => rfl
  constructor
  case error =>
    intro e
    rw [← houtcome, outcome_eq_error]
  case complaint =>
    intro e he
    obtain ⟨answer, hanswer, hexit, hcomplaint⟩ :=
      runFix_of_error verbose (outcome_eq_error.1 (houtcome.trans he))
    rw [runCheck_of_error he, hanswer]
    exact ⟨rfl, hexit, hcomplaint⟩
  case reports =>
    intro rs hrs
    obtain ⟨hnone, hfixed⟩ := outcome_eq_ok.1 (houtcome.trans hrs)
    rw [runCheck_of_ok hrs, runFix_of_ok hnone hfixed, ← hfixed]
    exact ⟨rfl, rfl, look_fix_ne_iff style hapart⟩
  case exit =>
    rw [runFix_exit_eq_zero, runFix_workspace, ← fixed_eq_nil_iff hapart]
    cases hchecked : check style w (expand w paths) with
    | error e =>
      rw [runCheck_of_error hchecked, outcome_eq_error.1 (houtcome.trans hchecked)]
      simp [Answer.failed]
    | ok rs =>
      obtain ⟨hnone, hfixed⟩ := outcome_eq_ok.1 (houtcome.trans hchecked)
      rw [runCheck_of_ok hchecked, hnone, hfixed]
      simp
  case frame =>
    rw [runFix_workspace]
    rintro place (hgenerated | hplace)
    · exact look_fix_of_generated hgenerated
    · exact look_fix fun path hpath _ => hplace path hpath
  case unchanged =>
    intro options input
    rw [run]
    cases styleFor w options <;> rfl

/-- A workspace of files in one directory. -/
def flat (files : List (String × String)) : Workspace where
  root := .directory (files.map fun (name, text) => ⟨name, .file text.toUTF8⟩)
  directory := []

/-- A source that is written and one that is passed over. -/
theorem check_agrees_fix_flat :
    let w := flat [("a.rs", "const A: &str = \"select 1\";"), ("b_gen.rs", "const B: &str = \"select 2\";")]
    (expand w ["a.rs", "b_gen.rs"]).Pairwise (Apart w) ∧
    check {} w (expand w ["a.rs", "b_gen.rs"]) = .ok [⟨"a.rs", [⟨"A", 1⟩]⟩] ∧
    Agreement {} true false w ["a.rs", "b_gen.rs"] := by
  refine ⟨?_, ?_, check_agrees_fix {} true false _ _ ?_⟩ <;> decide +kernel

/-- A source that cannot be read makes both commands fail: nothing changes, and `check` is not
content. -/
theorem check_fails_without_change :
    let w := flat [("a.rs", "fn main( \x7b")]
    (expand w ["a.rs"]).Pairwise (Apart w) ∧
    ¬ ((runCheck {} false w ["a.rs"]).exit = 0 ↔
      ∀ place, (runFix {} false w ["a.rs"]).1.look place = w.look place) := by
  intro w
  have hapart : (expand w ["a.rs"]).Pairwise (Apart w) := by decide +kernel
  have hexit : (runCheck {} false w ["a.rs"]).exit = 1 := by decide +kernel
  have hfixed : (fix {} w (expand w ["a.rs"])).fixed = [] := by decide +kernel
  refine ⟨hapart, fun h => ?_⟩
  rw [runFix_workspace, ← fixed_eq_nil_iff hapart, hexit] at h
  exact absurd (h.2 hfixed) (by decide)

end SqlLayout.Command
