import SqlLayout.Proofs.LineColumns
import SqlLayout.Proofs.Revision

/-!
Edits made from the last one to the first. Literals that stand one after the other are replaced as if
all at once: what is not yet edited keeps its place, so each edit finds the bytes that it was made for.
-/

namespace SqlLayout.Host

/-! ### Revisions of found constants -/

/-- A constant with SQL as it is found: by the lines and columns of its literal. -/
structure Found where
  name : String
  value : String
  start : Place
  stop : Place

/-- The new literal of a constant and what it replaces; none if the text is in its layout already. The
ends of the old literal are looked up by `offset`. -/
def Found.edit (style : Style) (offset : Place → Outcome Nat) (f : Found) :
    Outcome (Option (Edit × Change)) := do
  let formatted ← format style (Text.trim f.value)
  if formatted == f.value then return none
  else
    let start ← offset f.start
    let stop ← offset f.stop
    return some (⟨start, stop, rawLiteral formatted⟩, ⟨f.name, f.start.line⟩)

/-- The source with the found constants in their layout. -/
def revise (style : Style) (source : String) (found : List Found) : Outcome Revision := do
  let edits ← found.filterMapM (Found.edit style (offsetOf source.toList))
  return {
    source := String.ofList (applyEdits (edits.map (·.1)) source.toList)
    changes := edits.map (·.2) }

/-- The constant as it is found in a text. -/
def Constant.found (text : List Char) (c : Constant) : Found where
  name := c.name
  value := c.value
  start := placeOf text c.start
  stop := placeOf text c.stop

theorem editOf_eq_edit (style : Style) (source : String) (c : Constant) :
    editOf style source c =
      if looksLikeSql c.value then (c.found (codeOf source)).edit style (offsetOf source.toList)
      else .ok none := by
  rw [editOf]
  cases looksLikeSql c.value <;> rfl

theorem filterMapM_filter_map {ε α β γ : Type} (p : α → Bool) (g : α → β)
    (f : β → Except ε (Option γ)) (l : List α) :
    l.filterMapM (fun a => if p a then f (g a) else .ok none) = ((l.filter p).map g).filterMapM f := by
  induction l with
  | nil => rfl
  | cons a l ih =>
    rw [List.filterMapM_cons, ih]
    cases hp : p a with
    | false => rw [List.filter_cons_of_neg (by simp [hp])]; rfl
    | true => rw [List.filter_cons_of_pos hp, List.map_cons, List.filterMapM_cons]; rfl

/-- A source is laid out by revising the constants with SQL that are found in its code. -/
theorem layOut_eq_revise (style : Style) (source : String) :
    layOut style source = (constants source).mapError .source >>= fun cs =>
      revise style source ((cs.filter (looksLikeSql ·.value)).map (Constant.found (codeOf source))) := by
  simp only [layOut, revise, funext (editOf_eq_edit style source), filterMapM_filter_map]

/-! ### Edits by bytes -/

/-- The text with other bytes from `start` to `stop`; none if no character starts at one of the two, or
if they are not in their order. -/
def replaceBytes? (text : String) (start stop : Nat) (new : String) : Option String :=
  if h : String.Pos.Raw.IsValid text ⟨start⟩ ∧ String.Pos.Raw.IsValid text ⟨stop⟩ ∧ start ≤ stop then
    some ((text.sliceTo ⟨⟨start⟩, h.1⟩).copy ++ new ++ (text.sliceFrom ⟨⟨stop⟩, h.2.1⟩).copy)
  else none

/-- The text after edits by bytes, the last one first; none if one of them cannot be made. -/
def applyInBytes? (edits : List Edit) (text : String) : Option String :=
  edits.foldr (fun e t? => t?.bind (replaceBytes? · e.start e.stop e.replacement)) (some text)

/-- As `revise`, but by bytes. -/
def reviseInBytes (style : Style) (source : String) (found : List Found) :
    Outcome (Option Revision) := do
  let edits ← found.filterMapM (Found.edit style (byteOf source))
  return (applyInBytes? (edits.map (·.1)) source).map fun text =>
    { source := text, changes := edits.map (·.2) }

/-- The number of bytes of the first characters. -/
def bytesBefore (text : List Char) (i : Nat) : Nat :=
  (String.ofList (text.take i)).utf8ByteSize

/-- The bytes of a part are replaced where the part stands. -/
theorem replaceBytes?_part (front part back new : String) :
    replaceBytes? (front ++ part ++ back) front.utf8ByteSize (front ++ part).utf8ByteSize new =
      some (front ++ new ++ back) := by
  have hstart : String.Pos.Raw.IsValid (front ++ part ++ back) ⟨front.utf8ByteSize⟩ :=
    String.Pos.Raw.isValid_iff_exists_append.2 ⟨front, part ++ back, String.append_assoc, rfl⟩
  have hstop : String.Pos.Raw.IsValid (front ++ part ++ back) ⟨(front ++ part).utf8ByteSize⟩ :=
    String.Pos.Raw.isValid_iff_exists_append.2 ⟨front ++ part, back, rfl, rfl⟩
  have hle : front.utf8ByteSize ≤ (front ++ part).utf8ByteSize := by
    rw [String.utf8ByteSize_append]
    exact Nat.le_add_right _ _
  have hfront : ((front ++ part ++ back).sliceTo ⟨_, hstart⟩).copy = front :=
    (String.Pos.splits ⟨_, hstart⟩).eq_left ⟨String.append_assoc, rfl⟩
  have hback : ((front ++ part ++ back).sliceFrom ⟨_, hstop⟩).copy = back :=
    (String.Pos.splits ⟨_, hstop⟩).eq_right ⟨rfl, rfl⟩
  rw [replaceBytes?, dif_pos ⟨hstart, hstop, hle⟩, hfront, hback]

/-! ### Literals one after the other -/

/-- A found constant and the characters at which its literal starts and stops. -/
structure Literal where
  found : Found
  start : Nat
  stop : Nat

/-- The constant's literal in a text. -/
def Constant.literal (text : List Char) (c : Constant) : Literal where
  found := c.found text
  start := c.start
  stop := c.stop

/-- Both ends of each literal are looked up with the numbers that `number` gives to their characters. -/
def Located (offset : Place → Outcome Nat) (number : Nat → Nat) (cs : List Literal) : Prop :=
  ∀ c ∈ cs, offset c.found.start = .ok (number c.start) ∧ offset c.found.stop = .ok (number c.stop)

/-- The lines and columns lead to literals that stand in the text one after the other, each with a
character at least. -/
structure InOrder (text : List Char) (cs : List Literal) : Prop where
  located : Located (offsetOf text) id cs
  proper : ∀ c ∈ cs, c.start < c.stop
  ordered : cs.Pairwise fun c d => c.stop ≤ d.start

/-- The new texts of the constants, one for each. -/
def newTexts (style : Style) (cs : List Literal) : Outcome (List String) :=
  cs.mapM fun c => format style (Text.trim c.found.value)

/-- The characters of a text from one number up to another. -/
def between (text : List Char) (i j : Nat) : List Char :=
  (text.drop i).take (j - i)

/-- The text from a character on, each gap as it is, and each literal as it is or with another one in
its place, if there is another text for the constant. -/
def rebuilt (text : List Char) : Nat → List (Literal × String) → List Char
  | i, [] => text.drop i
  | i, (c, new) :: l =>
    between text i c.start ++
      (if new = c.found.value then between text c.start c.stop else (rawLiteral new).toList) ++
      rebuilt text c.stop l

/-- The constants that have another text. -/
def changesFor (l : List (Literal × String)) : List Change :=
  (l.filter fun c => c.2 != c.1.found.value).map fun c => ⟨c.1.found.name, c.1.found.start.line⟩

/-- The source with the gaps as they are, and the constants that have another text. -/
def rebuild (source : String) (l : List (Literal × String)) : Revision where
  source := String.ofList (rebuilt source.toList 0 l)
  changes := changesFor l

/-- The edits for constants with other texts, with the numbers that `number` gives to the characters. -/
def editsFor (number : Nat → Nat) (l : List (Literal × String)) : List (Edit × Change) :=
  (l.filter fun c => c.2 != c.1.found.value).map fun c =>
    (⟨number c.1.start, number c.1.stop, rawLiteral c.2⟩, ⟨c.1.found.name, c.1.found.start.line⟩)

variable {text : List Char} {style : Style} {source : String} {c : Literal} {cs : List Literal}
  {new : String} {number : Nat → Nat} {offset : Place → Outcome Nat}

theorem take_append_between {i j : Nat} (h : i ≤ j) : text.take i ++ between text i j = text.take j := by
  rw [between, ← List.take_add, Nat.add_sub_of_le h]

theorem Located.tail (h : Located offset number (c :: cs)) : Located offset number cs :=
  fun d hd => h d (List.mem_cons_of_mem c hd)

theorem InOrder.tail (h : InOrder text (c :: cs)) : InOrder text cs where
  located := h.located.tail
  proper d hd := h.proper d (List.mem_cons_of_mem c hd)
  ordered := (List.pairwise_cons.1 h.ordered).2

theorem InOrder.inside (h : InOrder text cs) (hc : c ∈ cs) : c.stop ≤ text.length :=
  le_length_of_offsetOf (h.located c hc).2

theorem InOrder.located_bytes (h : InOrder source.toList cs) :
    Located (byteOf source) (bytesBefore source.toList) cs := by
  intro c hc
  obtain ⟨hstart, hstop⟩ := h.located c hc
  exact ⟨by rw [byteOf, hstart]; rfl, by rw [byteOf, hstop]; rfl⟩

theorem editsFor_cons_same (h : new = c.found.value) (l : List (Literal × String)) :
    editsFor number ((c, new) :: l) = editsFor number l := by
  simp [editsFor, h]

theorem editsFor_cons_ne (h : new ≠ c.found.value) (l : List (Literal × String)) :
    editsFor number ((c, new) :: l) =
      (⟨number c.start, number c.stop, rawLiteral new⟩, ⟨c.found.name, c.found.start.line⟩) ::
        editsFor number l := by
  simp [editsFor, h]

theorem changes_editsFor (number : Nat → Nat) (l : List (Literal × String)) :
    (editsFor number l).map (·.2) = changesFor l := by
  rw [editsFor, List.map_map]
  rfl

/-- What is found for one constant. -/
theorem edit_found (hoffset : Located offset number (c :: cs))
    (hnew : format style (Text.trim c.found.value) = .ok new) :
    c.found.edit style offset = .ok (editsFor number [(c, new)]).head? := by
  obtain ⟨hstart, hstop⟩ := hoffset c List.mem_cons_self
  simp only [Found.edit, hnew, hstart, hstop, bind, Except.bind, pure, Except.pure]
  by_cases h : new = c.found.value
  · simp [h, editsFor]
  · simp [h, editsFor]

/-- The edits that are found are those for the constants with other texts. -/
theorem filterMapM_edit {texts : List String} (hoffset : Located offset number cs)
    (htexts : newTexts style cs = .ok texts) :
    (cs.map (·.found)).filterMapM (Found.edit style offset) = .ok (editsFor number (cs.zip texts)) := by
  induction cs generalizing texts with
  | nil => rfl
  | cons c cs ih =>
    rw [newTexts, List.mapM_cons] at htexts
    obtain ⟨new, hnew, htexts⟩ := bind_eq_ok htexts
    obtain ⟨rest, hrest, htexts⟩ := bind_eq_ok htexts
    cases htexts
    rw [List.map_cons, List.filterMapM_cons, edit_found hoffset hnew, ih hoffset.tail hrest,
      List.zip_cons_cons]
    by_cases h : new = c.found.value
    · rw [editsFor_cons_same h, editsFor_cons_same h]
      rfl
    · rw [editsFor_cons_ne h, editsFor_cons_ne h]
      rfl

/-- The first constant that cannot be formatted ends the search for edits. -/
theorem filterMapM_edit_error {e : Error} (hoffset : Located offset number cs)
    (herror : newTexts style cs = .error e) :
    (cs.map (·.found)).filterMapM (Found.edit style offset) = .error e := by
  induction cs with
  | nil => cases herror
  | cons c cs ih =>
    rw [newTexts, List.mapM_cons, ← newTexts] at herror
    rw [List.map_cons, List.filterMapM_cons]
    cases hnew : format style (Text.trim c.found.value) with
    | error first =>
      rw [hnew] at herror
      cases herror
      rw [Found.edit, hnew]
      rfl
    | ok new =>
      have hrest : newTexts style cs = .error e := by
        rw [hnew] at herror
        cases hcs : newTexts style cs with
        | error _ => rw [hcs] at herror; exact herror
        | ok _ => rw [hcs] at herror; cases herror
      rw [edit_found hoffset hnew, ih hoffset.tail hrest]
      cases (editsFor number [(c, new)]).head? <;> rfl

/-! ### From the last one to the first -/

/-- One step: what stands before the edit stays, so it finds the characters that it was made for. -/
theorem apply_take (text rest : List Char) {i j : Nat} (hij : i ≤ j) (hj : j ≤ text.length)
    (new : String) :
    (Edit.mk i j new).apply (text.take j ++ rest) = text.take i ++ new.toList ++ rest := by
  have hlength : (text.take j).length = j := List.length_take_of_le hj
  have hfront : (text.take j ++ rest).take i = text.take i := by
    rw [List.take_append_of_le_length (by omega), List.take_take, Nat.min_eq_left hij]
  have hback : (text.take j ++ rest).drop j = rest := List.drop_left' hlength
  rw [Edit.apply, hfront, hback]

/-- One step by bytes. -/
theorem replaceBytes?_take (text rest : List Char) {i j : Nat} (hij : i ≤ j) (new : String) :
    replaceBytes? (String.ofList (text.take j ++ rest)) (bytesBefore text i) (bytesBefore text j) new =
      some (String.ofList (text.take i ++ new.toList ++ rest)) := by
  have hpart : String.ofList (text.take j) =
      String.ofList (text.take i) ++ String.ofList (between text i j) := by
    rw [← String.ofList_append, take_append_between hij]
  rw [bytesBefore, bytesBefore, String.ofList_append, hpart, replaceBytes?_part, String.ofList_append,
    String.ofList_append, String.ofList_toList]

/-- The text up to a character and what is rebuilt from there on, before and after the first constant. -/
theorem take_append_rebuilt {i : Nat} (hi : i ≤ c.start) (hc : c.start ≤ c.stop) (new : String)
    (l : List (Literal × String)) :
    text.take i ++ rebuilt text i ((c, new) :: l) =
      if new = c.found.value then text.take c.stop ++ rebuilt text c.stop l
      else text.take c.start ++ (rawLiteral new).toList ++ rebuilt text c.stop l := by
  rw [rebuilt, ← List.append_assoc, ← List.append_assoc, take_append_between hi]
  by_cases h : new = c.found.value
  · rw [if_pos h, if_pos h, take_append_between hc]
  · rw [if_neg h, if_neg h]

/-- The whole run, by induction on the constants, the first of which is edited last: all edits behind a
character leave the text up to it as it was. -/
theorem applyEdits_inOrder (h : InOrder text cs) (texts : List String) {i : Nat}
    (hi : ∀ c ∈ cs, i ≤ c.start) :
    applyEdits ((editsFor id (cs.zip texts)).map (·.1)) text =
      text.take i ++ rebuilt text i (cs.zip texts) := by
  induction cs generalizing texts i with
  | nil => exact (List.take_append_drop i text).symm
  | cons c cs ih =>
    cases texts with
    | nil => exact (List.take_append_drop i text).symm
    | cons new texts =>
      have hc : c.start ≤ c.stop := Nat.le_of_lt (h.proper c List.mem_cons_self)
      have hrest := ih h.tail texts (List.pairwise_cons.1 h.ordered).1
      rw [List.zip_cons_cons, take_append_rebuilt (hi c List.mem_cons_self) hc]
      by_cases hnew : new = c.found.value
      · rw [editsFor_cons_same hnew, if_pos hnew, hrest]
      · rw [editsFor_cons_ne hnew, if_neg hnew, List.map_cons, applyEdits, List.foldr_cons, ← applyEdits,
          hrest]
        exact apply_take text _ hc (h.inside List.mem_cons_self) _

/-- The whole run by bytes: every edit can be made. -/
theorem applyInBytes?_inOrder (h : InOrder text cs) (texts : List String) {i : Nat}
    (hi : ∀ c ∈ cs, i ≤ c.start) :
    applyInBytes? ((editsFor (bytesBefore text) (cs.zip texts)).map (·.1)) (String.ofList text) =
      some (String.ofList (text.take i ++ rebuilt text i (cs.zip texts))) := by
  induction cs generalizing texts i with
  | nil => rw [List.zip_nil_left, rebuilt, List.take_append_drop]; rfl
  | cons c cs ih =>
    cases texts with
    | nil => rw [List.zip_nil_right, rebuilt, List.take_append_drop]; rfl
    | cons new texts =>
      have hc : c.start ≤ c.stop := Nat.le_of_lt (h.proper c List.mem_cons_self)
      have hrest := ih h.tail texts (List.pairwise_cons.1 h.ordered).1
      rw [List.zip_cons_cons, take_append_rebuilt (hi c List.mem_cons_self) hc]
      by_cases hnew : new = c.found.value
      · rw [editsFor_cons_same hnew, if_pos hnew, hrest]
      · rw [editsFor_cons_ne hnew, if_neg hnew, List.map_cons, applyInBytes?, List.foldr_cons,
          ← applyInBytes?, hrest]
        exact replaceBytes?_take text _ hc _

theorem revise_eq_rebuild {texts : List String} (h : InOrder source.toList cs)
    (htexts : newTexts style cs = .ok texts) :
    revise style source (cs.map (·.found)) = .ok (rebuild source (cs.zip texts)) := by
  have hrun := applyEdits_inOrder h texts (i := 0) fun _ _ => Nat.zero_le _
  rw [List.take_zero, List.nil_append] at hrun
  rw [revise, filterMapM_edit h.located htexts]
  simp only [bind, Except.bind, pure, Except.pure, changes_editsFor, hrun, rebuild]

theorem reviseInBytes_eq_rebuild {texts : List String} (h : InOrder source.toList cs)
    (htexts : newTexts style cs = .ok texts) :
    reviseInBytes style source (cs.map (·.found)) = .ok (some (rebuild source (cs.zip texts))) := by
  have hrun := applyInBytes?_inOrder h texts (i := 0) fun _ _ => Nat.zero_le _
  rw [List.take_zero, List.nil_append, String.ofList_toList] at hrun
  rw [reviseInBytes, filterMapM_edit h.located_bytes htexts]
  simp only [bind, Except.bind, pure, Except.pure, changes_editsFor, hrun, Option.map_some, rebuild]

/-- Constants that are found one after the other in a source are revised all at once. Each gap stays, and
so does each literal whose text is in its layout; the others are replaced. By bytes it is the same: each
edit is made where characters start and within the text. The first constant that cannot be formatted ends
the revision. -/
theorem revise_inOrder (style : Style) {source : String} {cs : List Literal}
    (h : InOrder source.toList cs) :
    (∀ e, newTexts style cs = .error e →
      revise style source (cs.map (·.found)) = .error e ∧
        reviseInBytes style source (cs.map (·.found)) = .error e) ∧
    ∀ texts, newTexts style cs = .ok texts →
      revise style source (cs.map (·.found)) = .ok (rebuild source (cs.zip texts)) ∧
        reviseInBytes style source (cs.map (·.found)) = .ok (some (rebuild source (cs.zip texts))) := by
  refine ⟨fun e he => ?_, fun texts htexts =>
    ⟨revise_eq_rebuild h htexts, reviseInBytes_eq_rebuild h htexts⟩⟩
  rw [revise, reviseInBytes, filterMapM_edit_error h.located he, filterMapM_edit_error h.located_bytes he]
  exact ⟨rfl, rfl⟩

/-- The literals are longer and shorter than before, behind a letter of two bytes, with one between them
that stays. -/
theorem revise_inOrder_three :
    let source := "const É: &str = \"select 1\";\nconst B: &str = \"\nSELECT\n  2\n\";\n" ++
      "const C: &str = \"delete      from      ö\";\n"
    let cs : List Literal := [⟨⟨"É", "select 1", ⟨1, 16⟩, ⟨1, 26⟩⟩, 16, 26⟩,
      ⟨⟨"B", "\nSELECT\n  2\n", ⟨2, 16⟩, ⟨5, 1⟩⟩, 44, 58⟩,
      ⟨⟨"C", "delete      from      ö", ⟨6, 16⟩, ⟨6, 41⟩⟩, 76, 101⟩]
    let r : Revision := ⟨"const É: &str = r#\"\nSELECT\n  1\n\"#;\nconst B: &str = \"\nSELECT\n  2\n\";\n" ++
      "const C: &str = r#\"\nDELETE FROM ö\n\"#;\n", [⟨"É", 1⟩, ⟨"C", 6⟩]⟩
    InOrder source.toList cs ∧
      newTexts {} cs = .ok ["\nSELECT\n  1\n", "\nSELECT\n  2\n", "\nDELETE FROM ö\n"] ∧
      revise {} source (cs.map (·.found)) = .ok r ∧
      reviseInBytes {} source (cs.map (·.found)) = .ok (some r) := by
  intro source cs r
  have h : InOrder source.toList cs :=
    ⟨by simp only [Located]; decide +kernel, by decide +kernel, by decide +kernel⟩
  have hformat : newTexts {} cs = .ok ["\nSELECT\n  1\n", "\nSELECT\n  2\n", "\nDELETE FROM ö\n"] := by
    decide +kernel
  obtain ⟨hchars, hbytes⟩ := (revise_inOrder {} h).2 _ hformat
  have hr : rebuild source (cs.zip ["\nSELECT\n  1\n", "\nSELECT\n  2\n", "\nDELETE FROM ö\n"]) = r := by
    decide +kernel
  rw [hr] at hchars hbytes
  exact ⟨h, hformat, hchars, hbytes⟩

/-! ### The constants of a source -/

theorem offsetOf_placeOf_self {i : Nat} (hi : i ≤ text.length) :
    offsetOf text (placeOf text i) = .ok i := by
  have hsplit := offsetOf_placeAfter (text.take i) (text.drop i)
  rwa [List.take_append_drop, List.length_take_of_le hi, ← placeOf_eq] at hsplit

/-- The literals of the constants with SQL, in the order of the constants. -/
def sqlLiterals (source : String) (found : List Constant) : List Literal :=
  (found.filter (looksLikeSql ·.value)).map (Constant.literal source.toList)

/-- The constants of a source that is code from its first character on, if they are found in their order. -/
theorem inOrder_sqlLiterals {found : List Constant} (hfound : constants source = .ok found)
    (hcode : codeOf source = source.toList) (hsorted : found.Pairwise fun c d => c.start ≤ d.start) :
    InOrder source.toList (sqlLiterals source found) := by
  obtain ⟨hinside, hapart⟩ := constants_inCode hfound
  have hproper (c : Constant) (hc : c ∈ found) : c.start < c.stop := (hinside c hc).standsIn.start_lt
  have hstop (c : Constant) (hc : c ∈ found) : c.stop < source.toList.length :=
    hcode ▸ (hinside c hc).stop_lt
  refine ⟨?_, ?_, ?_⟩
  · rw [Located, sqlLiterals, List.forall_mem_map]
    intro c hc
    have hproper := hproper c (List.mem_of_mem_filter hc)
    have hstop := hstop c (List.mem_of_mem_filter hc)
    exact ⟨offsetOf_placeOf_self (by omega), offsetOf_placeOf_self (by omega)⟩
  · rw [sqlLiterals, List.forall_mem_map]
    exact fun c hc => hproper c (List.mem_of_mem_filter hc)
  · rw [sqlLiterals, List.pairwise_map]
    refine ((hsorted.and (List.pairwise_map.1 hapart)).imp_of_mem fun {c d} _ hd hcd => ?_).filter _
    obtain ⟨hle, hbefore | hbehind⟩ := hcd
    · exact Nat.le_of_lt hbefore
    · exact absurd (Nat.lt_of_lt_of_le (Nat.lt_trans (hproper d hd) hbehind) hle) (Nat.lt_irrefl _)

/-- Such a source is laid out with its gaps as they are and each constant with SQL in its layout. -/
theorem layOut_eq_rebuild {found : List Constant} {texts : List String}
    (hfound : constants source = .ok found) (hcode : codeOf source = source.toList)
    (hsorted : found.Pairwise fun c d => c.start ≤ d.start)
    (htexts : newTexts style (sqlLiterals source found) = .ok texts) :
    layOut style source = .ok (rebuild source ((sqlLiterals source found).zip texts)) := by
  have hrevise := revise_eq_rebuild (inOrder_sqlLiterals hfound hcode hsorted) htexts
  rw [sqlLiterals, List.map_map] at hrevise
  rw [layOut_eq_revise, hfound, hcode]
  exact hrevise

end SqlLayout.Host
