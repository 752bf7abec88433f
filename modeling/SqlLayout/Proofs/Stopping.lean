import SqlLayout.Proofs.Agreement

/-!
`fix` up to the first file that fails. Every file before it is left as its own revision says, as a whole,
and everything else keeps its bytes. What a path stands for does not change while files are written, so
it makes no difference that paths are expanded one after the other.
-/

namespace SqlLayout

/-! ### What paths stand for -/

theorem sourcesIn_cons (e : FileEntry) (es : List FileEntry) :
    sourcesIn (e :: es) = sourcesIn [e] ++ sourcesIn es := by
  obtain ⟨name, node⟩ := e
  cases node <;> simp [sourcesIn]

namespace FileTree

/-- Both are files, or both are directories with the same sources. -/
structure ListsAlike (t t' : FileTree) : Prop where
  isFile : t'.isFile = t.isFile
  sources : sourcesIn t'.entries = sourcesIn t.entries

theorem ListsAlike.refl (t : FileTree) : t.ListsAlike t :=
  ⟨rfl, rfl⟩

theorem ListsAlike.entry {t t' : FileTree} (h : t.ListsAlike t') (name : String) :
    sourcesIn [⟨name, t'⟩] = sourcesIn [⟨name, t⟩] := by
  cases t with
  | file b =>
    cases t' with
    | file b' => simp [sourcesIn]
    | directory es' => cases h.isFile
  | directory es =>
    cases t' with
    | file b' => cases h.isFile
    | directory es' =>
      have hsources : sourcesIn es' = sourcesIn es := h.sources
      simp [sourcesIn, hsources]

theorem sourcesIn_putEntry {name : String} {node old : FileTree} {es : List FileEntry}
    (hold : (es.find? (·.name == name)).map (·.node) = some old) (h : old.ListsAlike node) :
    sourcesIn (putEntry name node es) = sourcesIn es := by
  induction es with
  | nil => cases hold
  | cons e es ih =>
    rw [putEntry]
    cases he : e.name == name with
    | true =>
      simp only [List.find?_cons, he] at hold
      obtain ⟨first, t⟩ := e
      cases hold
      cases beq_iff_eq.1 he
      rw [if_pos rfl, sourcesIn_cons _ es, h.entry, ← sourcesIn_cons]
    | false =>
      simp only [List.find?_cons, he] at hold
      rw [if_neg Bool.false_ne_true, sourcesIn_cons e (putEntry name node es), ih hold, ← sourcesIn_cons]

/-- By induction on the names: a directory on the way keeps its names and their order. -/
theorem put_listsAlike {t : FileTree} {place : List String} {old : ByteArray}
    (h : t.look place = some (some old)) (new : ByteArray) : t.ListsAlike (t.put place (.file new)) := by
  induction place generalizing t with
  | nil =>
    cases t with
    | directory es => cases h
    | file b => exact ⟨rfl, rfl⟩
  | cons name names ih =>
    rw [look_cons] at h
    obtain ⟨s, hs, hnames⟩ := Option.bind_eq_some_iff.1 h
    cases t with
    | file b => cases hs
    | directory es =>
      refine ⟨rfl, ?_⟩
      rw [put, hs]
      exact sourcesIn_putEntry hs (ih hnames)

theorem get?_put_listsAlike {t : FileTree} {place : List String} {old : ByteArray}
    (h : t.look place = some (some old)) (new : ByteArray) (other : List String) :
    Option.Rel ListsAlike (t.get? other) ((t.put place (.file new)).get? other) := by
  induction place generalizing t other with
  | nil =>
    cases t with
    | directory es => cases h
    | file b =>
      cases other with
      | nil => exact .some ⟨rfl, rfl⟩
      | cons name names => exact .none
  | cons name names ih =>
    cases other with
    | nil => exact .some (put_listsAlike h new)
    | cons first others =>
      rw [look_cons] at h
      obtain ⟨s, hs, hnames⟩ := Option.bind_eq_some_iff.1 h
      rw [get?, get?, child?_put]
      by_cases hname : name = first
      · subst hname
        rw [if_pos rfl, hs]
        exact ih hnames others
      · rw [if_neg hname]
        cases (t.child? first).bind (get? others) with
        | none => exact .none
        | some u => exact .some (.refl u)

end FileTree

namespace Workspace

theorem sources_congr {w w' : Workspace} {path : String} (hresolve : w'.resolve path = w.resolve path)
    (h : ∀ place, Option.Rel FileTree.ListsAlike (w.root.get? place) (w'.root.get? place)) :
    w'.sources path = w.sources path := by
  rw [sources, sources, node, node, hresolve]
  cases w.resolve path with
  | error e => rfl
  | ok place =>
    have hplace := h place
    simp only [bind, Except.bind]
    generalize w.root.get? place = seen at hplace
    generalize w'.root.get? place = seen' at hplace
    cases hplace with
    | none => rfl
    | @some t t' halike =>
      cases t with
      | file b =>
        cases t' with
        | file b' => rfl
        | directory es' => cases halike.isFile
      | directory es =>
        cases t' with
        | file b' => cases halike.isFile
        | directory es' =>
          have hsources : sourcesIn es' = sourcesIn es := halike.sources
          simp only [pure, Except.pure, FileTree.sources, FileTree.entries, hsources]

theorem sources_write {w : Workspace} {path : String} {place : List String} {old : ByteArray}
    (hplace : w.resolve path = .ok place) (hold : w.look place = some (some old)) (text other : String) :
    (w.write path text).sources other = w.sources other := by
  refine sources_congr ((sameShape_write hplace hold text).resolve other) fun q => ?_
  rw [write, hplace]
  exact FileTree.get?_put_listsAlike hold text.toUTF8 q

end Workspace

namespace Command

variable {style : Style} {w : Workspace} {path : String} {before after files paths : List String}

theorem sources_fix (style : Style) (w : Workspace) (files : List String) (other : String) :
    (fix style w files).workspace.sources other = w.sources other := by
  induction files generalizing w with
  | nil => rfl
  | cons path files ih =>
    obtain ⟨e, -, hfix⟩ | ⟨revision, -, -, hfix⟩ |
      ⟨r, report, place, source, -, -, -, -, hplace, hlook, -, hfix⟩ := fix_cons style w path files
    · rw [hfix]
    · rw [hfix, ih]
    · rw [hfix, ih, Workspace.sources_write hplace hlook]

/-- What two runs, one after the other, leave together: the second begins only if the first comes to
its end. -/
def Repair.andThen (first : Repair) (next : Workspace → Repair) : Repair :=
  match first.error with
  | some _ => first
  | none =>
    { next first.workspace with fixed := first.fixed ++ (next first.workspace).fixed }

theorem fix_append (style : Style) (w : Workspace) (files more : List String) :
    fix style w (files ++ more) = (fix style w files).andThen (fix style · more) := by
  induction files generalizing w with
  | nil => rfl
  | cons path files ih =>
    rw [List.cons_append, fix, fix]
    cases reviseFile style w path with
    | error e => rfl
    | ok revision =>
      cases revision with
      | none => exact ih w
      | some r =>
        cases hreport : reportOn path (some r) with
        | none =>
          simp only [hreport]
          exact ih w
        | some report =>
          simp only [hreport, ih]
          unfold Repair.andThen
          cases herror : (fix style (w.write path r.source) files).error with
          | none => rfl
          | some e => simp only [herror]

/-- As `fix` on all files that the paths stand for, but each path is expanded when its turn comes. -/
def fixInTurn (style : Style) : Workspace → List String → Repair
  | w, [] => { workspace := w }
  | w, path :: paths => (fix style w (w.sources path)).andThen (fixInTurn style · paths)

theorem expand_fix (style : Style) (w : Workspace) (files paths : List String) :
    expand (fix style w files).workspace paths = expand w paths := by
  rw [expand, expand]
  congr 1
  funext path
  exact sources_fix style w files path

theorem fixInTurn_eq (style : Style) (w : Workspace) (paths : List String) :
    fixInTurn style w paths = fix style w (expand w paths) := by
  induction paths generalizing w with
  | nil => rfl
  | cons path paths ih =>
    have hexpand : expand w (path :: paths) = w.sources path ++ expand w paths := rfl
    rw [fixInTurn, hexpand, fix_append, Repair.andThen, Repair.andThen, ih, expand_fix]

/-! ### Up to the first failure -/

/-- The revision of a file, if the file is written: some constant has a new literal. -/
def written? : Outcome (Option Host.Revision) → Option Host.Revision
  | .ok (some r) => if r.isChanged then some r else none
  | _ => none

/-- What a file holds afterwards: the whole new text, or its old bytes. -/
def leftBy (old : Option (Option ByteArray)) (revision : Outcome (Option Host.Revision)) :
    Option (Option ByteArray) :=
  match written? revision with
  | some r => some (some r.source.toUTF8)
  | none => old

theorem reportOn_isSome (path : String) (revision : Option Host.Revision) :
    (reportOn path revision).isSome = (written? (.ok revision)).isSome := by
  cases revision with
  | none => rfl
  | some r =>
    dsimp only [reportOn, written?]
    split <;> rfl

/-- The step for one file: it is left as its revision says, and the run goes on from there. -/
theorem look_fix_cons (hrest : ∀ p ∈ files, Apart w path p) {place : List String}
    (hplace : w.resolve path = .ok place) :
    (fix style w (path :: files)).workspace.look place = leftBy (w.look place) (reviseFile style w path) := by
  obtain ⟨e, he, hfix⟩ | ⟨revision, hrevision, hreport, hfix⟩ |
    ⟨r, report, there, source, hrevision, hreport, -, -, hthere, hlook, -, hfix⟩ := fix_cons style w path files
  · rw [hfix, he]
    rfl
  · have hwritten := reportOn_isSome path revision
    rw [hreport, Option.isSome_none, eq_comm, Option.isSome_eq_false_iff, Option.isNone_iff_eq_none] at hwritten
    rw [hfix, look_fix fun p hp _ => hrest p hp place hplace, hrevision, leftBy, hwritten]
  · rw [hplace] at hthere
    cases hthere
    have hwritten : written? (.ok (some r)) = some r := by
      have hsome := reportOn_isSome path (some r)
      rw [hreport, written?] at hsome
      rw [written?]
      split at hsome
      · rename_i hchanged
        rw [if_pos hchanged]
      · cases hsome
    have hshape := Workspace.sameShape_write hplace hlook r.source
    rw [hfix, hrevision, leftBy, hwritten, look_fix, Workspace.look_write hplace hlook, if_pos rfl]
    intro p hp _
    rw [hshape.resolve]
    exact hrest p hp place hplace

/-- By induction on the files: one that comes later has not been written so far, and one that was
written is not written again. -/
theorem look_fix_of_mem {w' : Workspace} (hshape : w.SameShape w') (hapart : files.Pairwise (Apart w))
    (hok : ∀ p ∈ files, ∃ revision, reviseFile style w p = .ok revision)
    (hlook : ∀ p ∈ files, ∀ place, w.resolve p = .ok place → w'.look place = w.look place)
    (hpath : path ∈ files) {place : List String} (hplace : w.resolve path = .ok place) :
    (fix style w' files).workspace.look place = leftBy (w.look place) (reviseFile style w path) := by
  induction files generalizing w' with
  | nil => cases hpath
  | cons first files ih =>
    obtain ⟨hfirst, hrest⟩ := List.pairwise_cons.1 hapart
    have hrevise (p : String) (hp : p ∈ first :: files) : reviseFile style w' p = reviseFile style w p :=
      reviseFile_congr hshape (hlook p hp)
    obtain rfl | hmem := List.mem_cons.1 hpath
    · have hapart' (p : String) (hp : p ∈ files) : Apart w' path p := by
        rw [Apart, hshape.resolve, hshape.resolve]
        exact hfirst p hp
      rw [look_fix_cons hapart' ((hshape.resolve path).trans hplace), hrevise path List.mem_cons_self,
        hlook path List.mem_cons_self place hplace]
    · have hok' (p : String) (hp : p ∈ files) := hok p (List.mem_cons_of_mem first hp)
      have hlook' (p : String) (hp : p ∈ files) := hlook p (List.mem_cons_of_mem first hp)
      obtain ⟨e, he, -⟩ | ⟨revision, -, -, hfix⟩ |
        ⟨r, report, there, source, -, -, -, -, hthere, hseen, -, hfix⟩ := fix_cons style w' first files
      · obtain ⟨revision, hrevision⟩ := hok first List.mem_cons_self
        rw [hrevise first List.mem_cons_self, hrevision] at he
        cases he
      · rw [hfix]
        exact ih hshape hrest hok' hlook' hmem
      · rw [hfix]
        refine ih (hshape.trans (Workspace.sameShape_write hthere hseen r.source)) hrest hok' ?_ hmem
        intro p hp q hq
        rw [Workspace.look_write hthere hseen, if_neg, hlook' p hp q hq]
        rintro rfl
        exact hfirst p hp q (hshape.resolve first ▸ hthere) hq

theorem check_eq_ok (h : ∀ p ∈ files, ∃ revision, reviseFile style w p = .ok revision) :
    ∃ reports, check style w files = .ok reports ∧
      reports.map (·.path) = files.filter fun p => (written? (reviseFile style w p)).isSome := by
  induction files with
  | nil => exact ⟨[], rfl, rfl⟩
  | cons path files ih =>
    obtain ⟨revision, hrevision⟩ := h path List.mem_cons_self
    obtain ⟨reports, hreports, hpaths⟩ := ih fun p hp => h p (List.mem_cons_of_mem path hp)
    refine ⟨(reportOn path revision).toList ++ reports, ?_, ?_⟩
    · rw [check_cons, hrevision, hreports]
      rfl
    · rw [List.map_append, hpaths, List.filter_cons, hrevision, ← reportOn_isSome path]
      cases hreport : reportOn path revision with
      | none => rfl
      | some report =>
        obtain ⟨r, rfl⟩ : ∃ r, revision = some r := by
          cases revision with
          | none => cases hreport
          | some r => exact ⟨r, rfl⟩
        rw [reportOn] at hreport
        split at hreport
        · cases hreport
          rfl
        · cases hreport

/-- A run that meets a failure leaves what the run on the files before leaves. -/
theorem fix_of_failure (hapart : (before ++ path :: after).Pairwise (Apart w))
    (hbefore : ∀ p ∈ before, ∃ revision, reviseFile style w p = .ok revision) {e : Error}
    (he : reviseFile style w path = .error e) :
    fix style w (before ++ path :: after) = { fix style w before with error := some e } := by
  obtain ⟨hbeforeApart, -, hacross⟩ := List.pairwise_append.1 hapart
  obtain ⟨reports, hreports, -⟩ := check_eq_ok hbefore
  have houtcome : (fix style w before).outcome = .ok reports :=
    (outcome_fix (.refl w) hbeforeApart fun _ _ _ _ => rfl).trans hreports
  obtain ⟨hnone, -⟩ := outcome_eq_ok.1 houtcome
  have hrevise : reviseFile style (fix style w before).workspace path = .error e := by
    rw [reviseFile_congr (sameShape_fix style w before), he]
    intro place hplace
    refine look_fix fun p hp _ hpq => ?_
    exact hacross p hp path List.mem_cons_self place hpq hplace
  rw [fix_append, Repair.andThen, hnone]
  simp only [fix, hrevise, List.append_nil]

/-- How `fix` ends at the first file that fails. -/
structure StopsAt (style : Style) (verbose : Bool) (w : Workspace) (paths before : List String)
    (path : String) (after : List String) (e : Error) : Prop where
  /-- The command fails with the error of the file; it has told of the files before it that are
  written. -/
  answer : (runFix style verbose w paths).2.exit = 1 ∧
    (runFix style verbose w paths).2.complaint = (Answer.failed "" (.error e)).complaint ∧
    (runFix style verbose w paths).2.written =
      before.filter fun p => (written? (reviseFile style w p)).isSome
  /-- A file before it holds the new text of its revision if it has one, and else its old bytes. -/
  done : ∀ p ∈ before, ∀ place, w.resolve p = .ok place →
    (runFix style verbose w paths).1.look place = leftBy (w.look place) (reviseFile style w p)
  /-- The file itself and those after it hold their old bytes. -/
  rest : ∀ p ∈ path :: after, ∀ place, w.resolve p = .ok place →
    (runFix style verbose w paths).1.look place = w.look place
  /-- So does every file that is not among those before it. -/
  frame : ∀ place, (∀ p ∈ before, w.resolve p ≠ .ok place) →
    (runFix style verbose w paths).1.look place = w.look place
  /-- After any number of files, every place holds its old bytes or the whole new text of a file before
  the failure. -/
  whole : ∀ n place,
    (fix style w ((expand w paths).take n)).workspace.look place = w.look place ∨
    ∃ p ∈ before, ∃ r, reviseFile style w p = .ok (some r) ∧ w.resolve p = .ok place ∧
      (fix style w ((expand w paths).take n)).workspace.look place = some (some r.source.toUTF8)
  /-- Nothing of this depends on when the paths are expanded. -/
  inTurn : fixInTurn style w paths = fix style w (expand w paths)

theorem eq_of_written? {revision : Outcome (Option Host.Revision)} {r : Host.Revision}
    (h : written? revision = some r) : revision = .ok (some r) := by
  unfold written? at h
  split at h
  · split at h
    · cases h
      rfl
    · cases h
  · cases h

/-- A run without failures leaves whole files. -/
theorem look_fix_whole (hapart : files.Pairwise (Apart w))
    (hok : ∀ p ∈ files, ∃ revision, reviseFile style w p = .ok revision) (place : List String) :
    (fix style w files).workspace.look place = w.look place ∨
    ∃ p ∈ files, ∃ r, reviseFile style w p = .ok (some r) ∧ w.resolve p = .ok place ∧
      (fix style w files).workspace.look place = some (some r.source.toUTF8) := by
  by_cases hplace : ∃ p ∈ files, w.resolve p = .ok place
  · obtain ⟨p, hp, hplace⟩ := hplace
    have hlook := look_fix_of_mem (.refl w) hapart hok (fun _ _ _ _ => rfl) hp hplace
    rw [leftBy] at hlook
    cases hwritten : written? (reviseFile style w p) with
    | none =>
      rw [hwritten] at hlook
      exact .inl hlook
    | some r =>
      rw [hwritten] at hlook
      exact .inr ⟨p, hp, r, eq_of_written? hwritten, hplace, hlook⟩
  · refine .inl (look_fix fun p hp _ h => hplace ⟨p, hp, h⟩)

/-- `fix` stops at the first file that fails, and leaves whole files. -/
theorem fix_stops_at_failure (style : Style) (verbose : Bool) (w : Workspace)
    (paths before : List String) (path : String) (after : List String) (e : Error)
    (hpaths : expand w paths = before ++ path :: after)
    (hapart : (expand w paths).Pairwise (Apart w))
    (hbefore : ∀ p ∈ before, ∃ revision, reviseFile style w p = .ok revision)
    (he : reviseFile style w path = .error e) :
    StopsAt style verbose w paths before path after e := by
  rw [hpaths] at hapart
  have hfix : fix style w (expand w paths) = { fix style w before with error := some e } := by
    rw [hpaths]
    exact fix_of_failure hapart hbefore he
  obtain ⟨hbeforeApart, -, hacross⟩ := List.pairwise_append.1 hapart
  obtain ⟨reports, hreports, hwritten⟩ := check_eq_ok hbefore
  have houtcome : (fix style w before).outcome = .ok reports :=
    (outcome_fix (.refl w) hbeforeApart fun _ _ _ _ => rfl).trans hreports
  obtain ⟨-, hfixed⟩ := outcome_eq_ok.1 houtcome
  have hrun : runFix style verbose w paths =
      ((fix style w before).workspace,
        { Answer.failed (String.join (reports.map FileReport.fixedLine)) (.error e) with
          written := reports.map (·.path) }) := by
    rw [runFix, hfix, hfixed]
  constructor
  case answer =>
    rw [hrun]
    exact ⟨rfl, rfl, hwritten⟩
  case done =>
    intro p hp place hplace
    rw [hrun]
    exact look_fix_of_mem (.refl w) hbeforeApart hbefore (fun _ _ _ _ => rfl) hp hplace
  case rest =>
    intro p hp place hplace
    rw [hrun]
    exact look_fix fun q hq _ h => hacross q hq p hp place h hplace
  case frame =>
    intro place h
    rw [hrun]
    exact look_fix fun q hq _ => h q hq
  case whole =>
    intro n place
    rw [hpaths]
    obtain hle | hlt := le_or_gt n before.length
    · rw [List.take_append_of_le_length hle]
      have hsub {p : String} (hp : p ∈ before.take n) : p ∈ before := List.mem_of_mem_take hp
      obtain h | ⟨p, hp, h⟩ := look_fix_whole (hbeforeApart.sublist (List.take_sublist n before))
        (fun p hp => hbefore p (hsub hp)) place
      · exact .inl h
      · exact .inr ⟨p, hsub hp, h⟩
    -- The failure is among the files, and what comes after it does not matter.
    · obtain ⟨m, hm⟩ := Nat.exists_eq_add_of_lt hlt
      have htake : (before ++ path :: after).take n = before ++ path :: after.take m := by
        rw [hm, List.take_append, List.take_of_length_le (by omega)]
        congr 1
        rw [show before.length + m + 1 - before.length = m + 1 by omega, List.take_succ_cons]
      have hapart' : (before ++ path :: after.take m).Pairwise (Apart w) := by
        rw [← htake]
        exact hapart.sublist (List.take_sublist _ _)
      rw [htake, fix_of_failure hapart' hbefore he]
      exact look_fix_whole hbeforeApart hbefore place
  case inTurn => exact fixInTurn_eq style w paths

/-- The second file fails at its second constant, so its first one is not written either. -/
theorem fix_stops_at_failure_flat :
    let w := flat [("a.rs", "const A: &str = \"select 1\";"),
      ("b.rs", "const B: &str = \"select 2\"; const C: &str = \"select (\";"),
      ("c.rs", "const D: &str = \"select 3\";")]
    expand w ["a.rs", "b.rs", "c.rs"] = ["a.rs", "b.rs", "c.rs"] ∧
    StopsAt {} false w ["a.rs", "b.rs", "c.rs"] ["a.rs"] "b.rs" ["c.rs"]
      (.parse "Expected: an expression, found: EOF") := by
  intro w
  have hexpand : expand w ["a.rs", "b.rs", "c.rs"] = ["a.rs", "b.rs", "c.rs"] := by decide +kernel
  have hapart : (expand w ["a.rs", "b.rs", "c.rs"]).Pairwise (Apart w) := by decide +kernel
  have hfirst : reviseFile {} w "a.rs" =
      .ok (some ⟨"const A: &str = r#\"\nSELECT\n  1\n\"#;", [⟨"A", 1⟩]⟩) := by decide +kernel
  have hsecond : reviseFile {} w "b.rs" = .error (.parse "Expected: an expression, found: EOF") := by
    decide +kernel
  exact ⟨hexpand, fix_stops_at_failure {} false w _ ["a.rs"] "b.rs" ["c.rs"] _ hexpand hapart
    (by simpa using ⟨_, hfirst⟩) hsecond⟩

end Command

end SqlLayout
