import SqlLayout.Files.Source
import SqlLayout.Style.Discover

/-!
The places of a workspace: what is seen there, where paths lead, and what a written text changes. A
text that is written where a file stands changes the bytes of that file and nothing else, so every path
leads where it led before.
-/

namespace SqlLayout

/-- A path without names is made of slashes. -/
theorem Path.startsWith_of_names {path : String} (h : names path = []) (hne : path ≠ "") :
    path.startsWith "/" = true := by
  rw [String.startsWith_string_iff]
  cases hpath : path.toList with
  | nil => exact absurd (String.toList_eq_nil_iff.1 hpath) hne
  | cons c cs =>
    by_cases hc : c = '/'
    · subst hc
      exact ⟨cs, rfl⟩
    · -- The first name has the first character.
      obtain ⟨first, more, hsplit⟩ := List.exists_cons_of_ne_nil (List.splitOn_ne_nil '/' cs)
      have hnames : String.ofList (c :: first) ∈ names path := by
        rw [List.splitOn] at hsplit
        simp [names, hpath, List.splitOn, List.splitOnP_cons_eq_if_modifyHead, hc, hsplit]
      rw [h] at hnames
      cases hnames

namespace FileTree

/-- The bytes of a file; a directory has none. -/
def bytes? : FileTree → Option ByteArray
  | .file bytes => some bytes
  | .directory _ => none

/-- What is seen at the end of a list of names: nothing, a directory, or a file with its bytes. -/
def look (t : FileTree) (names : List String) : Option (Option ByteArray) :=
  (t.get? names).map bytes?

@[simp]
theorem look_nil (t : FileTree) : t.look [] = some t.bytes? :=
  rfl

theorem look_cons (t : FileTree) (name : String) (names : List String) :
    t.look (name :: names) = (t.child? name).bind (look · names) := by
  cases h : t.child? name <;> simp [look, get?, h]

theorem get?_append (t : FileTree) (names more : List String) :
    t.get? (names ++ more) = (t.get? names).bind (get? more) := by
  induction names generalizing t with
  | nil => rfl
  | cons name names ih =>
    rw [List.cons_append, get?, get?]
    cases t.child? name with
    | none => rfl
    | some s => exact ih s

theorem find?_putEntry (name other : String) (node : FileTree) (es : List FileEntry) :
    ((putEntry name node es).find? (·.name == other)).map (·.node) =
      if name = other then some node else (es.find? (·.name == other)).map (·.node) := by
  induction es with
  | nil => by_cases h : name = other <;> simp [putEntry, h]
  | cons e es ih =>
    rw [putEntry]
    by_cases he : e.name = name
    · rw [if_pos (beq_iff_eq.2 he)]
      by_cases h : name = other <;> simp [he, h]
    · rw [if_neg (by simpa using he)]
      by_cases ho : e.name = other
      · have hne : name ≠ other := fun h => he (ho.trans h.symm)
        simp [ho, hne]
      · rw [List.find?_cons_of_neg (by simpa using ho), ih, List.find?_cons_of_neg (by simpa using ho)]

theorem child?_put (t : FileTree) (name other : String) (names : List String) (node : FileTree) :
    (t.put (name :: names) node).child? other =
      if name = other then some (((t.child? name).getD default).put names node)
      else t.child? other :=
  find?_putEntry name other _ t.entries

/-- By induction on the names: at every step what stands beside the way is left alone. -/
theorem look_put {t : FileTree} {place : List String} {old : ByteArray}
    (h : t.look place = some (some old)) (new : ByteArray) (other : List String) :
    (t.put place (.file new)).look other = if other = place then some (some new) else t.look other := by
  induction place generalizing t other with
  | nil =>
    cases t with
    | directory es => simp [bytes?] at h
    | file b =>
      cases other with
      | nil => rfl
      | cons name names => rw [if_neg (List.cons_ne_nil _ _), look_cons, look_cons]; rfl
  | cons name names ih =>
    rw [look_cons] at h
    obtain ⟨s, hs, h⟩ := Option.bind_eq_some_iff.1 h
    cases other with
    | nil =>
      rw [if_neg (List.cons_ne_nil _ _).symm]
      cases t with
      | directory es => rfl
      | file b => cases hs
    | cons other others =>
      rw [look_cons, look_cons, child?_put]
      by_cases hname : name = other
      · subst hname
        rw [if_pos rfl, hs]
        simpa using ih h others
      · rw [if_neg hname, if_neg fun heq => hname (List.cons.inj heq).1.symm]

end FileTree

namespace Workspace

/-- What is seen at a place. -/
def look (w : Workspace) (place : List String) : Option (Option ByteArray) :=
  w.root.look place

/-! ### Paths in workspaces of the same shape -/

/-- The workspaces have the same directories, and files in the same places. -/
structure SameShape (w w' : Workspace) : Prop where
  directory : w'.directory = w.directory
  look : ∀ place, (w'.look place).map Option.isSome = (w.look place).map Option.isSome

theorem SameShape.refl (w : Workspace) : w.SameShape w :=
  ⟨rfl, fun _ => rfl⟩

theorem SameShape.trans {w w' w'' : Workspace} (h : w.SameShape w') (h' : w'.SameShape w'') :
    w.SameShape w'' :=
  ⟨h'.directory.trans h.directory, fun place => (h'.look place).trans (h.look place)⟩

/-- Where a name leads from a directory. -/
def enter (here : List String) (name : String) : List String :=
  if name == "." then here else if name == ".." then here.dropLast else here ++ [name]

/-- A name is followed from a place where a directory is seen. -/
theorem follow_cons (root : FileTree) (here : List String) (name : String) (names : List String) :
    follow root here (name :: names) =
      match root.look here with
      | none => .error .notFound
      | some (some _) => .error .notADirectory
      | some none => follow root (enter here name) names := by
  rw [follow, FileTree.look, enter]
  cases root.get? here with
  | none => rfl
  | some t =>
    cases t with
    | file b => rfl
    | directory es =>
      by_cases hdot : name == "."
      · simp [hdot, FileTree.bytes?]
      · by_cases hup : name == ".." <;> simp [hdot, hup, FileTree.bytes?]

theorem follow_congr {root root' : FileTree}
    (h : ∀ place, (root'.look place).map Option.isSome = (root.look place).map Option.isSome)
    (here names : List String) : follow root' here names = follow root here names := by
  induction names generalizing here with
  | nil => rfl
  | cons name names ih =>
    rw [follow_cons, follow_cons]
    have hhere := h here
    generalize root.look here = seen at hhere
    generalize root'.look here = seen' at hhere
    match seen, seen', hhere with
    | none, none, _ => rfl
    | some none, some none, _ => exact ih _
    | some (some _), some (some _), _ => rfl

/-- Whether a file is seen. -/
theorem any_isFile (root : FileTree) (place : List String) :
    (root.get? place).any FileTree.isFile = ((root.look place).map Option.isSome == some true) := by
  rw [FileTree.look]
  cases root.get? place with
  | none => rfl
  | some t => cases t <;> rfl

theorem SameShape.resolve {w w' : Workspace} (h : w.SameShape w') (path : String) :
    w'.resolve path = w.resolve path := by
  simp only [Workspace.resolve, any_isFile, follow_congr h.look, h.directory]
  simp only [show ∀ place, w'.root.look place = w'.look place from fun _ => rfl, h.look]
  rfl

/-! ### Reading -/

/-- The text of what is seen at a place. -/
def textOfSeen : Option (Option ByteArray) → Except FileFault String
  | some (some bytes) => decodeText bytes
  | some none => .error .isADirectory
  | none => .error .notFound

/-- A file is read by what is seen where its path leads. -/
theorem read_eq (w : Workspace) (path : String) :
    w.read path = (w.resolve path).bind fun place => textOfSeen (w.look place) := by
  rw [read, node]
  cases w.resolve path with
  | error e => rfl
  | ok place =>
    simp only [look, FileTree.look, Except.bind, bind]
    cases w.root.get? place with
    | none => rfl
    | some t => cases t <;> rfl

theorem SameShape.text {w w' : Workspace} (h : w.SameShape w') {path : String}
    (hlook : ∀ place, w.resolve path = .ok place → w'.look place = w.look place) :
    w'.text path = w.text path := by
  rw [Workspace.text, Workspace.text, read_eq, read_eq, h.resolve]
  cases hplace : w.resolve path with
  | error e => rfl
  | ok place =>
    rw [Except.bind, Except.bind, hlook place hplace]

theorem toUTF8_of_decodeText {bytes : ByteArray} {text : String} (h : decodeText bytes = .ok text) :
    text.toUTF8 = bytes := by
  unfold decodeText String.fromUTF8? at h
  split at h
  · rename_i hvalid
    split at hvalid
    · cases hvalid
      cases h
      rfl
    · cases hvalid
  · cases h

/-- A path whose text is read leads to a file with that text. -/
theorem look_of_text {w : Workspace} {path text : String} (h : w.text path = .ok text) :
    ∃ place, w.resolve path = .ok place ∧ w.look place = some (some text.toUTF8) := by
  rw [Workspace.text, read_eq] at h
  cases hplace : w.resolve path with
  | error e => rw [hplace] at h; cases h
  | ok place =>
    refine ⟨place, rfl, ?_⟩
    rw [hplace, Except.bind] at h
    generalize w.look place = seen at h
    match seen with
    | none => cases h
    | some none => cases h
    | some (some bytes) =>
      rw [textOfSeen] at h
      cases hdecode : decodeText bytes with
      | error e => rw [hdecode] at h; cases h
      | ok s =>
        rw [hdecode] at h
        cases h
        rw [toUTF8_of_decodeText hdecode]

/-! ### The names of files -/

theorem resolve_eq_ok {w : Workspace} {path : String} {place : List String}
    (h : w.resolve path = .ok place) :
    path ≠ "" ∧
      follow w.root (if path.startsWith "/" then [] else w.directory) (Path.names path) = .ok place := by
  unfold resolve at h
  split at h
  · cases h
  · rename_i hne
    refine ⟨by simpa using hne, ?_⟩
    dsimp only at h
    generalize follow w.root (if path.startsWith "/" then [] else w.directory) (Path.names path) = led at h
    cases led with
    | error e => cases h
    | ok there =>
      change (if _ then _ else Except.ok there) = _ at h
      split at h
      · cases h
      · exact h

theorem follow_append (root : FileTree) (here names more : List String) :
    follow root here (names ++ more) = (follow root here names).bind (follow root · more) := by
  induction names generalizing here with
  | nil => rfl
  | cons name names ih =>
    rw [List.cons_append, follow_cons, follow_cons]
    match root.look here with
    | none => rfl
    | some (some _) => rfl
    | some none => exact ih _

/-- Above a directory there is a directory. -/
theorem look_dropLast {root : FileTree} {here : List String} (h : root.look here = some none) :
    root.look here.dropLast = some none := by
  obtain rfl | ⟨above, name, rfl⟩ := List.eq_nil_or_concat here
  · exact h
  · rw [List.concat_eq_append, FileTree.look, FileTree.get?_append] at h
    rw [List.concat_eq_append, List.dropLast_concat, FileTree.look]
    cases habove : root.get? above with
    | none => simp [habove] at h
    | some t =>
      cases t with
      | directory es => rfl
      | file b => simp [habove, FileTree.get?, FileTree.child?, FileTree.entries] at h

/-- A path that leads to a file ends in the name of the file. -/
theorem fileName?_eq {w : Workspace} {path : String} {place : List String} {bytes : ByteArray}
    (h : w.resolve path = .ok place) (hfile : w.look place = some (some bytes)) :
    Path.fileName? path = place.getLast? := by
  obtain ⟨hne, hfollow⟩ := resolve_eq_ok h
  obtain hnil | ⟨names, name, hnames⟩ := List.eq_nil_or_concat (Path.names path)
  -- A path without names is the root.
  · rw [Path.startsWith_of_names hnil hne, if_pos rfl, hnil, follow] at hfollow
    cases hfollow
    simp [Path.fileName?, hnil]
  · rw [List.concat_eq_append] at hnames
    rw [hnames, follow_append] at hfollow
    cases hhere : follow w.root (if path.startsWith "/" then [] else w.directory) names with
    | error e => rw [hhere] at hfollow; cases hfollow
    | ok here =>
      rw [hhere, Except.bind, follow_cons] at hfollow
      split at hfollow
      · cases hfollow
      · cases hfollow
      · rename_i hlook
        rw [follow] at hfollow
        have hplace : enter here name = place := by injection hfollow
        subst hplace
        unfold enter at hfile ⊢
        split at hfile
        · exact absurd (hfile.symm.trans hlook) (by simp)
        · rename_i hdot
          split at hfile
          · exact absurd (hfile.symm.trans (look_dropLast hlook)) (by simp)
          · rename_i hup
            have hdot' : name ≠ "." := by simpa using hdot
            have hup' : name ≠ ".." := by simpa using hup
            simp [Path.fileName?, hnames, hdot', hup']

/-- A source that a program has written is known by the name of its file. -/
theorem isGenerated_eq {w : Workspace} {path : String} {place : List String} {bytes : ByteArray}
    (h : w.resolve path = .ok place) (hfile : w.look place = some (some bytes)) :
    isGenerated path = place.getLast?.any (·.endsWith "_gen.rs") := by
  rw [isGenerated, fileName?_eq h hfile]

/-! ### Writing -/

theorem look_write {w : Workspace} {path : String} {place : List String} {old : ByteArray}
    (hplace : w.resolve path = .ok place) (hold : w.look place = some (some old)) (text : String)
    (other : List String) :
    (w.write path text).look other = if other = place then some (some text.toUTF8) else w.look other := by
  rw [write, hplace]
  exact FileTree.look_put hold text.toUTF8 other

theorem sameShape_write {w : Workspace} {path : String} {place : List String} {old : ByteArray}
    (hplace : w.resolve path = .ok place) (hold : w.look place = some (some old)) (text : String) :
    w.SameShape (w.write path text) where
  directory := by
    rw [write, hplace]
  look other := by
    rw [look_write hplace hold]
    split
    · rename_i h
      rw [h, hold]
      rfl
    · rfl

end Workspace

end SqlLayout
