import Mathlib.Data.List.Lex
import Mathlib.Data.List.Sort
import Mathlib.Data.String.Basic
import SqlLayout.Proofs.Places

/-!
The sources at a path. They are the files below it with the right ending, but none in a directory that is
passed over, each once and in the order of paths. The order in which directories hold their entries makes
no difference.
-/

namespace SqlLayout

/-! ### Paths -/

namespace Path

/-- What an entry of a directory can be called. -/
structure IsName (name : String) : Prop where
  ne_empty : name ≠ ""
  no_slash : '/' ∉ name.toList
  ne_here : name ≠ "."
  ne_up : name ≠ ".."

instance (name : String) : Decidable (IsName name) :=
  decidable_of_iff (name ≠ "" ∧ '/' ∉ name.toList ∧ name ≠ "." ∧ name ≠ "..")
    ⟨fun ⟨a, b, c, d⟩ => ⟨a, b, c, d⟩, fun ⟨a, b, c, d⟩ => ⟨a, b, c, d⟩⟩

theorem endsWith_iff (s tail : String) : s.endsWith tail = true ↔ tail.toList <:+ s.toList := by
  rw [String.endsWith_eq_endsWith_toSlice, String.Slice.endsWith_string_iff, String.copy_toSlice]

/-- A name has an ending if it is that ending behind a point and something in front of the point. -/
theorem hasExtension_iff (ending name : String) :
    hasExtension ending name = true ↔ ∃ stem, stem ≠ "" ∧ name = stem ++ "." ++ ending := by
  rw [hasExtension]
  simp only [Bool.and_eq_true, endsWith_iff, bne_iff_ne]
  constructor
  · rintro ⟨⟨stem, hstem⟩, hne⟩
    have hname : name = String.ofList stem ++ "." ++ ending := by
      apply String.toList_inj.1
      rw [← hstem]
      simp
    refine ⟨String.ofList stem, fun hempty => hne ?_, hname⟩
    rw [hname, hempty, String.empty_append]
  · rintro ⟨stem, hne, rfl⟩
    refine ⟨⟨stem.toList, by simp⟩, fun heq => hne ?_⟩
    rw [String.append_assoc] at heq
    have hlength := congrArg (fun s => s.toList.length) heq
    simp only [String.toList_append, List.length_append] at hlength
    apply String.toList_eq_nil_iff.1
    apply List.eq_nil_of_length_eq_zero
    omega

theorem names_slash (front back : List Char) :
    names (String.ofList (front ++ '/' :: back)) =
      names (String.ofList front) ++ names (String.ofList back) := by
  simp only [names, List.splitOn, String.toList_ofList]
  rw [List.splitOnP_append_cons (p := (· == '/')) front back (beq_self_eq_true '/'), List.map_append,
    List.filter_append]

theorem names_name {name : String} (h : IsName name) : names name = [name] := by
  have hsplit : name.toList.splitOn '/' = [name.toList] := by
    apply List.splitOnP_eq_singleton
    intro c hc
    have hne : c ≠ '/' := fun heq => h.no_slash (heq ▸ hc)
    simpa using hne
  rw [names, hsplit]
  simp [h.ne_empty]

/-- A path goes on with the name that is joined to it. -/
theorem names_join {name : String} (h : IsName name) (directory : String) :
    names (join directory name) = names directory ++ [name] := by
  rw [← names_name h, join]
  split
  · rename_i hend
    rw [Bool.or_eq_true, beq_iff_eq, endsWith_iff] at hend
    obtain rfl | ⟨front, hfront⟩ := hend
    · rw [String.empty_append]
      rfl
    · have hdirectory : directory = String.ofList (front ++ '/' :: []) := by
        rw [← String.ofList_toList (s := directory), ← hfront]
        rfl
      have hjoin : directory ++ name = String.ofList (front ++ '/' :: name.toList) := by
        rw [hdirectory]
        apply String.toList_inj.1
        simp
      rw [hjoin, names_slash, hdirectory, names_slash, String.ofList_toList]
      simp [names]
  · have hjoin : directory ++ "/" ++ name = String.ofList (directory.toList ++ '/' :: name.toList) := by
      apply String.toList_inj.1
      simp
    rw [hjoin, names_slash, String.ofList_toList, String.ofList_toList]

theorem join_eq (directory name : String) : ∃ slash, join directory name = directory ++ slash ++ name := by
  rw [join]
  split
  · exact ⟨"", by rw [String.append_empty]⟩
  · exact ⟨"/", rfl⟩

theorem startsWith_join {directory : String} (hne : directory ≠ "") (name : String) :
    (join directory name).startsWith "/" = directory.startsWith "/" := by
  obtain ⟨slash, hjoin⟩ := join_eq directory name
  obtain ⟨c, r, hcons⟩ := List.exists_cons_of_ne_nil (mt String.toList_eq_nil_iff.1 hne)
  have hslash : "/".toList = ['/'] := rfl
  rw [hjoin, Bool.eq_iff_iff, String.startsWith_string_iff, String.startsWith_string_iff]
  simp [hcons, hslash, List.cons_prefix_cons]

theorem endsWith_join {name : String} (h : IsName name) (directory : String) :
    (join directory name).endsWith "/" = false := by
  obtain ⟨slash, hjoin⟩ := join_eq directory name
  have hne : name.toList ≠ [] := mt String.toList_eq_nil_iff.1 h.ne_empty
  rw [← Bool.not_eq_true, endsWith_iff, hjoin, String.toList_append]
  rintro ⟨front, hfront⟩
  have hlast := congrArg List.getLast? hfront
  rw [List.getLast?_append_of_ne_nil _ hne, List.getLast?_append_of_ne_nil _ (by decide)] at hlast
  exact h.no_slash (List.mem_of_getLast? hlast.symm)

theorem names_foldl_join {rest : List String} (h : ∀ name ∈ rest, IsName name) (path : String) :
    names (rest.foldl join path) = names path ++ rest := by
  induction rest generalizing path with
  | nil => rw [List.foldl_nil, List.append_nil]
  | cons name rest ih =>
    rw [List.foldl_cons, ih fun d hd => h d (List.mem_cons_of_mem name hd),
      names_join (h name List.mem_cons_self), List.append_assoc, List.singleton_append]

/-- The order of paths is the lexical one on their names. -/
theorem le_iff (a b : List String) : le a b = true ↔ ¬ b < a := by
  induction a generalizing b with
  | nil => simp [le]
  | cons x r ih =>
    cases b with
    | nil => simp [le]
    | cons y s =>
      rw [le, List.cons_lt_cons_iff, not_or]
      by_cases h : x = y
      · simp [h, ih]
      · have hne : ¬ y = x := fun heq => h heq.symm
        simp [h, hne, lt_iff_le_and_ne]

theorem pairwise_lt_mergeSort {l : List (List String)} (h : l.Nodup) :
    (l.mergeSort le).Pairwise (· < ·) := by
  have hle : (l.mergeSort le).Pairwise fun a b => le a b = true := by
    apply List.pairwise_mergeSort
    · intro a b c hab hbc
      rw [le_iff, not_lt] at hab hbc ⊢
      exact hab.trans hbc
    · intro a b
      rw [Bool.or_eq_true, le_iff, le_iff, not_lt, not_lt]
      exact le_total a b
  have hnodup : (l.mergeSort le).Nodup := (List.mergeSort_perm l le).nodup_iff.2 h
  exact (hle.and hnodup).imp fun ⟨hle, hne⟩ => lt_of_le_of_ne (not_lt.1 ((le_iff _ _).1 hle)) hne

end Path

/-! ### Trees -/

namespace FileTree

/-- Every directory of the tree holds names, and each name once. -/
inductive WellNamed : FileTree → Prop
  | file (bytes : ByteArray) : WellNamed (.file bytes)
  | directory {es : List FileEntry} : (∀ name ∈ es.map (·.name), Path.IsName name) →
      (es.map (·.name)).Nodup → (∀ e ∈ es, WellNamed e.node) → WellNamed (.directory es)

/-- The same tree with the entries of its directories in another order. -/
inductive Reordered : FileTree → FileTree → Prop
  | refl (t : FileTree) : Reordered t t
  | entries {es es' : List FileEntry} : es.Perm es' → Reordered (.directory es) (.directory es')
  | inside {t t' : FileTree} (front : List FileEntry) (name : String) (back : List FileEntry) :
      Reordered t t' →
      Reordered (.directory (front ++ ⟨name, t⟩ :: back)) (.directory (front ++ ⟨name, t'⟩ :: back))
  | trans {t t' t'' : FileTree} : Reordered t t' → Reordered t' t'' → Reordered t t''

/-- The names lead to a file whose extension is `rs`, by way of no directory that is passed over. -/
def HasSource (t : FileTree) (names : List String) : Prop :=
  ∃ above stem bytes, names = above ++ [stem ++ ".rs"] ∧ stem ≠ "" ∧
    t.get? names = some (.file bytes) ∧
    ∀ d ∈ above, d ∉ ["target", ".git", "node_modules", "vendor"]

variable {t t' : FileTree} {es es' : List FileEntry} {name : String} {names rest : List String}

/-- A name leads to the node of its entry. -/
theorem child?_eq_some_iff (h : (es.map (·.name)).Nodup) :
    (directory es).child? name = some t ↔ ⟨name, t⟩ ∈ es := by
  rw [child?, entries]
  induction es with
  | nil => simp
  | cons e es ih =>
    obtain ⟨first, node⟩ := e
    rw [List.map_cons, List.nodup_cons] at h
    rw [List.mem_cons]
    by_cases hname : first = name
    · subst hname
      have hrest : ⟨first, t⟩ ∉ es := fun hmem => h.1 (List.mem_map_of_mem (f := (·.name)) hmem)
      simp [hrest, eq_comm]
    · have hne : ¬ name = first := fun heq => hname heq.symm
      rw [List.find?_cons_of_neg (by simpa using hname), ih h.2]
      simp [hne]

theorem WellNamed.child (h : t.WellNamed) {s : FileTree} (hs : t.child? name = some s) :
    Path.IsName name ∧ s.WellNamed := by
  cases h with
  | file bytes => cases hs
  | directory hnames hnodup hnodes =>
    have hmem := (child?_eq_some_iff hnodup).1 hs
    exact ⟨hnames _ (List.mem_map_of_mem hmem), hnodes _ hmem⟩

theorem WellNamed.get (h : t.WellNamed) {s : FileTree} (hs : t.get? names = some s) :
    (∀ name ∈ names, Path.IsName name) ∧ s.WellNamed := by
  induction names generalizing t with
  | nil =>
    cases hs
    exact ⟨fun name hname => absurd hname List.not_mem_nil, h⟩
  | cons name names ih =>
    obtain ⟨u, hu, hs⟩ := Option.bind_eq_some_iff.1 hs
    obtain ⟨hname, hu⟩ := h.child hu
    obtain ⟨hnames, hs⟩ := ih hu hs
    exact ⟨List.forall_mem_cons.2 ⟨hname, hnames⟩, hs⟩

/-! ### What is listed -/

/-- What a list of sources says of one entry. -/
def ListsBelow (name : String) (rest : List String) : FileTree → Prop
  | .file _ => isSourceName name = true ∧ rest = []
  | .directory inner => name ∉ excludedDirectories ∧ rest ∈ sourcesIn inner

theorem nil_not_mem_sourcesIn (es : List FileEntry) : [] ∉ sourcesIn es := by
  induction es using sourcesIn.induct with
  | case1 => simp [sourcesIn]
  | case2 name bytes es ih => simp [sourcesIn, ih]
  | case3 name inner es _ ih => simp [sourcesIn, ih]

theorem exists_entry_cons {p : FileTree → Prop} {first : String} :
    (∃ node, ⟨name, node⟩ ∈ ⟨first, t⟩ :: es ∧ p node) ↔
      name = first ∧ p t ∨ ∃ node, ⟨name, node⟩ ∈ es ∧ p node := by
  simp [or_and_right, exists_or, and_assoc]

/-- A source is listed where the entry with its first name lists it. -/
theorem cons_mem_sourcesIn :
    name :: rest ∈ sourcesIn es ↔ ∃ node, ⟨name, node⟩ ∈ es ∧ ListsBelow name rest node := by
  induction es using sourcesIn.induct with
  | case1 => simp [sourcesIn]
  | case2 first bytes es ih =>
    rw [sourcesIn, List.mem_append, ih, exists_entry_cons]
    refine or_congr_left ?_
    rw [ListsBelow]
    by_cases hsource : isSourceName first
    · by_cases hname : name = first <;> simp [hsource, hname]
    · by_cases hname : name = first <;> simp [hsource, hname]
  | case3 first inner es _ ih =>
    rw [sourcesIn, List.mem_append, ih, exists_entry_cons]
    refine or_congr_left ?_
    rw [ListsBelow]
    by_cases hexcluded : first ∈ excludedDirectories
    · by_cases hname : name = first <;> simp [hexcluded, hname]
    · by_cases hname : name = first
      · simp [hexcluded, hname]
      · have hne : ¬ first = name := fun heq => hname heq.symm
        simp [hexcluded, hname, hne]

theorem isSourceName_iff (name : String) :
    isSourceName name = true ↔ ∃ stem, stem ≠ "" ∧ name = stem ++ ".rs" := by
  rw [isSourceName, Path.hasExtension_iff]
  simp only [String.append_assoc]
  rfl

/-- The entry with its first name has a source, too. -/
theorem hasSource_cons :
    t.HasSource (name :: rest) ↔ ∃ node, t.child? name = some node ∧
      match node with
      | .file _ => isSourceName name = true ∧ rest = []
      | .directory inner => name ∉ excludedDirectories ∧ (directory inner).HasSource rest := by
  constructor
  · rintro ⟨above, stem, bytes, hnames, hstem, hget, hexcluded⟩
    obtain ⟨node, hchild, hnode⟩ := Option.bind_eq_some_iff.1 hget
    refine ⟨node, hchild, ?_⟩
    cases above with
    | nil =>
      obtain ⟨rfl, rfl⟩ := List.cons.inj hnames
      obtain rfl : node = .file bytes := Option.some.inj hnode
      exact ⟨(isSourceName_iff _).2 ⟨stem, hstem, rfl⟩, rfl⟩
    | cons d above =>
      obtain ⟨rfl, hrest⟩ := List.cons.inj hnames
      obtain ⟨hname, habove⟩ := List.forall_mem_cons.1 hexcluded
      cases node with
      | file b =>
        have hne : rest ≠ [] := by simp [hrest]
        obtain ⟨next, more, rfl⟩ := List.exists_cons_of_ne_nil hne
        cases hnode
      | directory inner => exact ⟨hname, above, stem, bytes, hrest, hstem, hnode, habove⟩
  · rintro ⟨node, hchild, hnode⟩
    have hget (bytes : ByteArray) (h : node.get? rest = some (.file bytes)) :
        t.get? (name :: rest) = some (.file bytes) := by
      rw [get?, hchild]
      exact h
    cases node with
    | file bytes =>
      obtain ⟨hname, rfl⟩ := hnode
      obtain ⟨stem, hstem, rfl⟩ := (isSourceName_iff name).1 hname
      exact ⟨[], stem, bytes, rfl, hstem, hget bytes rfl, by simp⟩
    | directory inner =>
      obtain ⟨hname, above, stem, bytes, rfl, hstem, hinner, habove⟩ := hnode
      exact ⟨name :: above, stem, bytes, rfl, hstem, hget bytes hinner,
        List.forall_mem_cons.2 ⟨hname, habove⟩⟩

theorem mem_sourcesIn_iff (h : (directory es).WellNamed) :
    names ∈ sourcesIn es ↔ (directory es).HasSource names := by
  induction names generalizing es with
  | nil =>
    refine iff_of_false (nil_not_mem_sourcesIn es) ?_
    rintro ⟨above, stem, bytes, hnames, -⟩
    simp at hnames
  | cons name rest ih =>
    obtain _ | ⟨hnames, hnodup, hnodes⟩ := h
    rw [cons_mem_sourcesIn, hasSource_cons]
    refine exists_congr fun node => ?_
    rw [child?_eq_some_iff hnodup]
    refine and_congr_right fun hmem => ?_
    cases node with
    | file bytes => rfl
    | directory inner => rw [ListsBelow, ih (hnodes _ hmem)]

theorem mem_sources_iff (h : t.WellNamed) : names ∈ t.sources ↔ t.HasSource names := by
  rw [sources, List.mem_mergeSort]
  cases t with
  | directory es => exact mem_sourcesIn_iff h
  | file bytes =>
    refine iff_of_false (by simp [entries, sourcesIn]) ?_
    rintro ⟨above, stem, _, rfl, -, hget, -⟩
    cases above <;> cases hget

theorem WellNamed.tail {e : FileEntry} (h : (FileTree.directory (e :: es)).WellNamed) :
    (FileTree.directory es).WellNamed := by
  obtain _ | ⟨hnames, hnodup, hnodes⟩ := h
  exact .directory (List.forall_mem_cons.1 hnames).2 (List.nodup_cons.1 hnodup).2
    (List.forall_mem_cons.1 hnodes).2

/-- No source in the other entries starts with the name of the first one. -/
theorem WellNamed.not_listed {e : FileEntry} (h : (FileTree.directory (e :: es)).WellNamed)
    (rest : List String) : e.name :: rest ∉ sourcesIn es := by
  obtain _ | ⟨-, hnodup, -⟩ := h
  rw [cons_mem_sourcesIn]
  rintro ⟨node, hmem, -⟩
  exact (List.nodup_cons.1 hnodup).1 (List.mem_map_of_mem (f := (·.name)) hmem)

theorem nodup_sourcesIn (h : (directory es).WellNamed) : (sourcesIn es).Nodup := by
  induction es using sourcesIn.induct with
  | case1 => simp [sourcesIn]
  | case2 name bytes es ih =>
    have hother : [name] ∉ sourcesIn es := h.not_listed []
    rw [sourcesIn]
    split
    · exact List.nodup_cons.2 ⟨hother, ih h.tail⟩
    · exact ih h.tail
  | case3 name inner es ih ih' =>
    have hinner : (directory inner).WellNamed := by
      obtain _ | ⟨-, -, hnodes⟩ := h
      exact hnodes _ List.mem_cons_self
    rw [sourcesIn]
    split
    · exact ih' h.tail
    · refine List.nodup_append.2 ⟨(ih hinner).map (List.cons_injective), ih' h.tail, ?_⟩
      rintro a ha b hb rfl
      obtain ⟨rest, -, rfl⟩ := List.mem_map.1 ha
      exact h.not_listed rest hb

theorem pairwise_sources (h : t.WellNamed) : t.sources.Pairwise (· < ·) := by
  cases t with
  | directory es => exact Path.pairwise_lt_mergeSort (nodup_sourcesIn h)
  | file bytes => exact Path.pairwise_lt_mergeSort (by simp [entries, sourcesIn])

/-! ### Other orders of entries -/

theorem get?_eq_file_iff {bytes : ByteArray} :
    t.get? names = some (.file bytes) ↔ t.look names = some (some bytes) := by
  rw [look]
  cases t.get? names with
  | none => simp
  | some s => cases s <;> simp [bytes?]

/-- Trees in which the same is seen have the same sources. -/
theorem sources_eq_of_look (h : t.WellNamed) (h' : t'.WellNamed)
    (hlook : ∀ names, t'.look names = t.look names) : t'.sources = t.sources := by
  apply (pairwise_sources h').eq_of_mem_iff (pairwise_sources h)
  intro names
  rw [mem_sources_iff h', mem_sources_iff h]
  simp only [HasSource, get?_eq_file_iff, hlook]

theorem look_append (t : FileTree) (names more : List String) :
    t.look (names ++ more) = (t.get? names).bind (look · more) := by
  rw [look, get?_append]
  cases t.get? names <;> rfl

/-- In another order the same is seen. -/
theorem Reordered.same (h : t.Reordered t') (ht : t.WellNamed) :
    t'.WellNamed ∧ ∀ names, t'.look names = t.look names := by
  induction h with
  | refl t => exact ⟨ht, fun _ => rfl⟩
  | @entries es es' hperm =>
    obtain _ | ⟨hnames, hnodup, hnodes⟩ := ht
    have hmap := hperm.map (·.name)
    have hnodup' := hmap.nodup_iff.1 hnodup
    refine ⟨.directory (fun name h => hnames name (hmap.mem_iff.2 h)) hnodup'
      (fun e he => hnodes e (hperm.mem_iff.2 he)), ?_⟩
    rintro (_ | ⟨name, names⟩)
    · rfl
    · have hchild : (directory es').child? name = (directory es).child? name := by
        apply Option.ext
        intro s
        rw [child?_eq_some_iff hnodup, child?_eq_some_iff hnodup', hperm.mem_iff]
      rw [look_cons, look_cons, hchild]
  | @inside t t' front name back _ ih =>
    obtain _ | ⟨hnames, hnodup, hnodes⟩ := ht
    have hmap : (front ++ ⟨name, t'⟩ :: back).map (·.name) = (front ++ ⟨name, t⟩ :: back).map (·.name) := by
      simp
    obtain ⟨hfront, hback⟩ := List.forall_mem_append.1 hnodes
    obtain ⟨ht, hback⟩ := List.forall_mem_cons.1 hback
    obtain ⟨ht', hlook⟩ := ih ht
    refine ⟨.directory (hmap ▸ hnames) (hmap ▸ hnodup)
      (List.forall_mem_append.2 ⟨hfront, List.forall_mem_cons.2 ⟨ht', hback⟩⟩), ?_⟩
    rintro (_ | ⟨other, names⟩)
    · rfl
    · simp only [look_cons, child?, FileTree.entries, List.find?_append]
      cases front.find? (·.name == other) with
      | some e => rfl
      | none =>
        by_cases hname : name = other
        · simp [hname, hlook]
        · simp [hname]
  | trans _ _ ih ih' =>
    obtain ⟨ht, hlook⟩ := ih ht
    obtain ⟨ht, hlook'⟩ := ih' ht
    exact ⟨ht, fun names => (hlook' names).trans (hlook names)⟩

end FileTree

/-! ### Workspaces -/

namespace Workspace

variable {w : Workspace} {path name : String} {t s : FileTree} {names : List String}

theorem node_eq_ok_iff :
    w.node path = .ok t ↔ ∃ place, w.resolve path = .ok place ∧ w.root.get? place = some t := by
  rw [node]
  cases w.resolve path with
  | error e => simp [bind, Except.bind]
  | ok place =>
    simp only [bind, Except.bind, Except.ok.injEq, exists_eq_left']
    cases w.root.get? place <;> simp [pure, Except.pure, throw, throwThe, MonadExceptOf.throw]

/-- What a directory holds under a name stands at the path with the name joined to it. -/
theorem node_join (h : w.node path = .ok t) (hname : Path.IsName name) (hchild : t.child? name = some s) :
    w.node (Path.join path name) = .ok s := by
  obtain ⟨place, hplace, hget⟩ := node_eq_ok_iff.1 h
  obtain ⟨hne, hfollow⟩ := resolve_eq_ok hplace
  have hjoin : Path.join path name ≠ "" := by
    intro hempty
    have hnames := Path.names_join hname path
    rw [hempty] at hnames
    simp [Path.names] at hnames
  have hlook : w.root.look place = some none := by
    rw [FileTree.look, hget]
    cases t with
    | file bytes => cases hchild
    | directory es => rfl
  have hstep : follow w.root place [name] = .ok (place ++ [name]) := by
    rw [follow_cons, hlook, enter]
    simp [hname.ne_here, hname.ne_up, follow]
  refine node_eq_ok_iff.2 ⟨place ++ [name], ?_, ?_⟩
  · rw [resolve]
    simp only [beq_iff_eq, if_neg hjoin, Path.startsWith_join hne, Path.names_join hname, follow_append,
      hfollow, Except.bind, hstep, Path.endsWith_join hname, Bool.false_and]
    rfl
  · rw [FileTree.get?_append, hget]
    simp [FileTree.get?, hchild]

theorem node_foldl_join (ht : t.WellNamed) (h : w.node path = .ok t) (hget : t.get? names = some s) :
    w.node (names.foldl Path.join path) = .ok s := by
  induction names generalizing path t with
  | nil =>
    cases hget
    exact h
  | cons name names ih =>
    obtain ⟨u, hu, hget⟩ := Option.bind_eq_some_iff.1 hget
    obtain ⟨hname, hwell⟩ := ht.child hu
    exact ih hwell (node_join h hname hu) hget

theorem wellNamed_of_node (hw : w.root.WellNamed) (h : w.node path = .ok t) : t.WellNamed := by
  obtain ⟨place, -, hget⟩ := node_eq_ok_iff.1 h
  exact (hw.get hget).2

theorem sources_of_directory {es : List FileEntry} (h : w.node path = .ok (.directory es)) :
    w.sources path = (FileTree.directory es).sources.map fun names => names.foldl Path.join path := by
  rw [sources, h]

/-- The names of a source go on from those of the path at which it is looked for. -/
theorem names_of_hasSource (ht : t.WellNamed) (h : t.HasSource names) (path : String) :
    Path.names (names.foldl Path.join path) = Path.names path ++ names := by
  obtain ⟨_, _, _, _, _, hget, _⟩ := h
  exact Path.names_foldl_join (ht.get hget).1 path

/-- Where the same is seen at every place, paths stand for the same sources. -/
theorem sources_eq_of_look {w' : Workspace} (hw : w.root.WellNamed) (hw' : w'.root.WellNamed)
    (hdirectory : w'.directory = w.directory) (hlook : ∀ place, w'.look place = w.look place)
    (path : String) : w'.sources path = w.sources path := by
  have hshape : w.SameShape w' :=
    ⟨hdirectory, fun place => congrArg (Option.map Option.isSome) (hlook place)⟩
  rw [sources, sources, node, node, hshape.resolve]
  cases w.resolve path with
  | error e => rfl
  | ok place =>
    have hbelow (names : List String) : (w'.root.get? place).bind (FileTree.look · names) =
        (w.root.get? place).bind (FileTree.look · names) := by
      rw [← FileTree.look_append, ← FileTree.look_append]
      exact hlook (place ++ names)
    simp only [bind, Except.bind]
    cases hget : w.root.get? place with
    | none =>
      cases hget' : w'.root.get? place with
      | none => rfl
      | some t' => exact absurd (hbelow []) (by simp [hget, hget'])
    | some t =>
      cases hget' : w'.root.get? place with
      | none => exact absurd (hbelow []) (by simp [hget, hget'])
      | some t' =>
        have hsame (names : List String) : t'.look names = t.look names := by
          simpa [hget, hget'] using hbelow names
        have hsources := FileTree.sources_eq_of_look (hw.get hget).2 (hw'.get hget').2 hsame
        have hhere := hsame []
        cases t with
        | file bytes =>
          cases t' with
          | file bytes' => rfl
          | directory es' => cases hhere
        | directory es =>
          cases t' with
          | file bytes' => cases hhere
          | directory es' => simp only [pure, Except.pure, hsources]

/-- A path that leads to a file stands for itself. One that leads to a directory stands for the files below
it whose extension is `rs`, but for none in a directory that is passed over, in the order of paths and
each once; the directory itself can have any name. In which order directories hold their entries makes no
difference. -/
theorem sources_increasing (w : Workspace) (hw : w.root.WellNamed) (path : String) :
    (∀ bytes, w.node path = .ok (.file bytes) → w.sources path = [path]) ∧
    (∀ es, w.node path = .ok (.directory es) →
      (w.sources path).Pairwise (fun a b => Path.names a < Path.names b) ∧
      (∀ file, file ∈ w.sources path ↔
        ∃ names, (FileTree.directory es).HasSource names ∧ file = names.foldl Path.join path) ∧
      ∀ file ∈ w.sources path, ∃ bytes, w.node file = .ok (.file bytes)) ∧
    ∀ root', w.root.Reordered root' →
      ({ w with root := root' } : Workspace).sources path = w.sources path := by
  refine ⟨fun bytes h => ?_, fun es h => ?_, fun root' h => ?_⟩
  · rw [sources, h]
  · have ht : (FileTree.directory es).WellNamed := wellNamed_of_node hw h
    have hmem (file : String) : file ∈ w.sources path ↔
        ∃ names, (FileTree.directory es).HasSource names ∧ file = names.foldl Path.join path := by
      rw [sources_of_directory h, List.mem_map]
      refine exists_congr fun names => ?_
      rw [FileTree.mem_sources_iff ht, eq_comm]
    refine ⟨?_, hmem, fun file hfile => ?_⟩
    · rw [sources_of_directory h, List.pairwise_map]
      refine (FileTree.pairwise_sources ht).imp_of_mem fun {a b} ha hb hlt => ?_
      rw [names_of_hasSource ht ((FileTree.mem_sources_iff ht).1 ha),
        names_of_hasSource ht ((FileTree.mem_sources_iff ht).1 hb)]
      exact List.append_left_lt hlt
    · obtain ⟨names, ⟨_, _, bytes, _, _, hget, _⟩, rfl⟩ := (hmem file).1 hfile
      exact ⟨bytes, node_foldl_join ht h hget⟩
  · obtain ⟨hw', hlook⟩ := h.same hw
    exact @sources_eq_of_look w { w with root := root' } hw hw' rfl hlook path

/-- A path to a directory that would be passed over below another one, and in it a directory with the name
of a source. -/
theorem sources_increasing_vendor :
    let inner : List FileEntry := [⟨"b.rs", .file .empty⟩,
      ⟨"target", .directory [⟨"c.rs", .file .empty⟩]⟩,
      ⟨"a.rs", .directory [⟨"d.rs", .file .empty⟩, ⟨".rs", .file .empty⟩]⟩]
    let w : Workspace := ⟨.directory [⟨"vendor", .directory inner⟩], [], none⟩
    let files := ["/vendor/a.rs/d.rs", "/vendor/b.rs"]
    w.root.WellNamed ∧ w.node "/vendor" = .ok (.directory inner) ∧ w.sources "/vendor" = files ∧
      files.Pairwise (fun a b => Path.names a < Path.names b) ∧
      ∀ file, file ∈ files ↔
        ∃ names, (FileTree.directory inner).HasSource names ∧ file = names.foldl Path.join "/vendor" := by
  intro inner w files
  have hfile (bytes : ByteArray) : (FileTree.file bytes).WellNamed := .file bytes
  have htarget : (FileTree.directory [⟨"c.rs", .file .empty⟩]).WellNamed :=
    .directory (by decide +kernel) (by decide +kernel) (by simp [hfile])
  have hnested : (FileTree.directory [⟨"d.rs", .file .empty⟩, ⟨".rs", .file .empty⟩]).WellNamed :=
    .directory (by decide +kernel) (by decide +kernel) (by simp [hfile])
  have hinner : (FileTree.directory inner).WellNamed :=
    .directory (by decide +kernel) (by decide +kernel) (by simp [inner, hfile, htarget, hnested])
  have hw : w.root.WellNamed :=
    .directory (by decide +kernel) (by decide +kernel) (by simp [hinner])
  have hnode : w.node "/vendor" = .ok (.directory inner) :=
    node_eq_ok_iff.2 ⟨["vendor"], by decide +kernel, rfl⟩
  have hlisted : sourcesIn inner = [["b.rs"], ["a.rs", "d.rs"]] := by
    have hb : isSourceName "b.rs" = true := by decide +kernel
    have hd : isSourceName "d.rs" = true := by decide +kernel
    have hrs : isSourceName ".rs" = false := by decide +kernel
    simp [inner, sourcesIn, excludedDirectories, hb, hd, hrs]
  have hsorted : [["b.rs"], ["a.rs", "d.rs"]].mergeSort Path.le = [["a.rs", "d.rs"], ["b.rs"]] := by
    have hle : Path.le ["b.rs"] ["a.rs", "d.rs"] = false := by decide +kernel
    simp [List.mergeSort, List.MergeSort.Internal.splitInTwo, hle]
  have hsources : w.sources "/vendor" = files := by
    rw [sources_of_directory hnode, FileTree.sources, FileTree.entries, hlisted, hsorted]
    decide +kernel
  obtain ⟨-, hdirectory, -⟩ := sources_increasing w hw "/vendor"
  obtain ⟨hlt, hmem, -⟩ := hdirectory inner hnode
  rw [hsources] at hlt hmem
  exact ⟨hw, hnode, hsources, hlt, hmem⟩

end Workspace

end SqlLayout
