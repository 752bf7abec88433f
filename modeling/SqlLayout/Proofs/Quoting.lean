import Mathlib.Data.List.Chain
import SqlLayout.Proofs.Emission
import SqlLayout.Proofs.Restoring

/-!
Strings and comments in laid-out text. Read by the rule for single-quoted strings, the text of a
statement has the strings of its tree and no others, and no comment starts outside them.
-/

namespace SqlLayout.Text

/-- What the rule for single-quoted strings makes of a text. -/
structure Scan where
  /-- The characters outside strings. A string leaves its two quotes. -/
  code : List Char
  /-- The values of the strings. -/
  strings : List String
  /-- Whether every string ends. -/
  closed : Bool
  deriving DecidableEq

/-- Two scans, one after the other. -/
def Scan.append (x y : Scan) : Scan :=
  ⟨x.code ++ y.code, x.strings ++ y.strings, x.closed && y.closed⟩

/-- Scans a text that starts outside a string, or inside one of which a part was read already. Inside a
string two quotes stand for one. -/
def scan : Option (List Char) → List Char → Scan
  | none, [] => ⟨[], [], true⟩
  | some _, [] => ⟨[], [], false⟩
  | none, '\'' :: r => .append ⟨['\''], [], true⟩ (scan (some []) r)
  | none, c :: r => .append ⟨[c], [], true⟩ (scan none r)
  | some value, '\'' :: '\'' :: r => scan (some (value ++ ['\''])) r
  | some value, '\'' :: r => .append ⟨['\''], [String.ofList value], true⟩ (scan none r)
  | some value, c :: r => scan (some (value ++ [c])) r

/-- The scan of a whole text. -/
def scanned (text : String) : Scan :=
  scan none text.toList

@[simp] theorem Scan.append_assoc (x y z : Scan) :
    (x.append y).append z = x.append (y.append z) := by
  simp [Scan.append, Bool.and_assoc]

/-- A text whose strings all end is scanned apart from what follows it, unless a quote stands after a
quote. -/
theorem scan_append (state : Option (List Char)) (cs ds : List Char) (hclosed : (scan state cs).closed)
    (hquotes : '\'' ∈ cs → ds.head? ≠ some '\'') :
    scan state (cs ++ ds) = (scan state cs).append (scan none ds) := by
  fun_induction scan state cs with
  | case1 => rfl
  | case2 => cases hclosed
  | case3 r ih =>
    have hnext := ih (by simpa [Scan.append] using hclosed) fun _ => hquotes List.mem_cons_self
    rw [List.cons_append, scan, hnext, Scan.append_assoc]
  | case4 c r hc ih =>
    have hnext := ih (by simpa [Scan.append] using hclosed) fun h => hquotes (List.mem_cons_of_mem c h)
    rw [List.cons_append, scan, hnext, Scan.append_assoc]
    exact hc
  | case5 value r ih =>
    have hnext := ih hclosed fun _ => hquotes List.mem_cons_self
    rw [List.cons_append, List.cons_append, scan, hnext]
  | case6 value r hr ih =>
    have hnext := ih (by simpa [Scan.append] using hclosed) fun _ => hquotes List.mem_cons_self
    have hquote : ∀ q, r ++ ds ≠ '\'' :: q := by
      intro q heq
      cases r with
      | nil => exact hquotes List.mem_cons_self (by rw [← List.nil_append ds, heq]; rfl)
      | cons c r =>
        rw [List.cons_append, List.cons.injEq] at heq
        exact hr r (by rw [heq.1])
    rw [List.cons_append, scan, hnext, Scan.append_assoc]
    exact hquote
  | case7 value c r _ hc ih =>
    have hnext := ih hclosed fun h => hquotes (List.mem_cons_of_mem c h)
    rw [List.cons_append, scan, hnext]
    · exact fun _ hquote _ => hc hquote
    · exact hc

/-- A text without quotes has no strings. -/
theorem scan_plain {cs : List Char} (h : '\'' ∉ cs) : scan none cs = ⟨cs, [], true⟩ := by
  induction cs with
  | nil => rfl
  | cons c r ih =>
    rw [List.mem_cons, not_or] at h
    rw [scan, ih h.2]
    · rfl
    · exact fun hc => h.1 hc.symm

/-- The characters of a string, with its quotes doubled. -/
def doubled (value : List Char) : List Char :=
  value.flatMap fun c => if c = '\'' then ['\'', '\''] else [c]

/-- Inside a string its doubled characters are read back, up to the quote that ends it. -/
theorem scan_doubled (start value : List Char) :
    scan (some start) (doubled value ++ ['\'']) = ⟨['\''], [String.ofList (start ++ value)], true⟩ := by
  induction value generalizing start with
  | nil => simp [doubled, scan, Scan.append]
  | cons c r ih =>
    by_cases hc : c = '\''
    · subst hc
      have hnext := ih (start ++ ['\''])
      simpa [doubled, scan] using hnext
    · have hnext := ih (start ++ [c])
      simpa [doubled, scan, hc] using hnext

/-- Whether a comment starts somewhere: two hyphens, or a slash and a star. -/
def HasComment (cs : List Char) : Prop :=
  "--".toList <:+: cs ∨ "/*".toList <:+: cs

instance : DecidablePred HasComment :=
  fun _ => inferInstanceAs (Decidable (_ ∨ _))

/-- Two neighbours that do not start a comment. -/
def Apart (x y : Char) : Prop :=
  ¬ (x = '-' ∧ y = '-') ∧ ¬ (x = '/' ∧ y = '*')

theorem not_hasComment_iff (cs : List Char) : ¬ HasComment cs ↔ cs.IsChain Apart := by
  rw [List.isChain_iff_forall_rel_of_append_cons_cons]
  constructor
  · rintro h x y before after rfl
    constructor
    · rintro ⟨rfl, rfl⟩
      exact h (.inl ⟨before, after, by simp⟩)
    · rintro ⟨rfl, rfl⟩
      exact h (.inr ⟨before, after, by simp⟩)
  · rintro h (⟨before, after, heq⟩ | ⟨before, after, heq⟩)
    · have hcs : cs = before ++ '-' :: '-' :: after := by simp [← heq]
      exact (h hcs).1 ⟨rfl, rfl⟩
    · have hcs : cs = before ++ '/' :: '*' :: after := by simp [← heq]
      exact (h hcs).2 ⟨rfl, rfl⟩

/-- A text that starts neither a string nor a comment. -/
def IsQuiet (cs : List Char) : Prop :=
  '\'' ∉ cs ∧ ¬ HasComment cs

instance : DecidablePred IsQuiet :=
  fun _ => inferInstanceAs (Decidable (_ ∧ _))

theorem isQuiet_iff (cs : List Char) : IsQuiet cs ↔ '\'' ∉ cs ∧ cs.IsChain Apart := by
  rw [IsQuiet, not_hasComment_iff]

/-- The characters with which strings and comments start. -/
def openers : List Char :=
  ['\'', '-', '/']

/-- The characters that go on a string or the start of a comment. -/
def closers : List Char :=
  ['\'', '-', '*']

theorem apart_of_not_mem {x y : Char} (h : x ∉ openers ∨ y ∉ closers) : Apart x y := by
  constructor
  · rintro ⟨rfl, rfl⟩
    exact h.elim (· (by decide)) (· (by decide))
  · rintro ⟨rfl, rfl⟩
    exact h.elim (· (by decide)) (· (by decide))

theorem isQuiet_of_not_mem {cs : List Char} (h : ∀ c ∈ cs, c ∉ openers) : IsQuiet cs := by
  rw [isQuiet_iff]
  refine ⟨fun hquote => h _ hquote (by decide), ?_⟩
  induction cs with
  | nil => exact .nil
  | cons c r ih =>
    have hrest := ih fun x hx => h x (List.mem_cons_of_mem c hx)
    exact hrest.cons fun y _ => apart_of_not_mem (.inl (h c List.mem_cons_self))

/-- Upper case makes no character with which strings and comments start or go on. -/
theorem eq_singleton_of_mem_upperLetter {c x : Char} (hx : x ∈ openers ++ closers)
    (h : x ∈ upperLetter c) : c = x ∧ upperLetter c = [x] := by
  have hmarks : ∀ x ∈ openers ++ closers, ¬ (128 ≤ x.toNat ∨ (65 ≤ x.toNat ∧ x.toNat ≤ 90)) ∧ x ≠ '\x00' ∧
      upperLetter x = [x] := by
    decide
  obtain ⟨hcapital, hzero, hself⟩ := hmarks x hx
  have hc : c = x := eq_of_mem_upperLetter hcapital hzero h
  exact ⟨hc, hc ▸ hself⟩

theorem upperLetter_ne_nil (c : Char) : upperLetter c ≠ [] := by
  have hspellings : ∀ e ∈ upperSpellings, e.2 ≠ [] := by decide
  unfold upperLetter
  split
  · exact List.cons_ne_nil _ _
  · split
    · rename_i ns hfind
      simpa using hspellings _ (List.mem_of_find?_eq_some hfind)
    · exact List.cons_ne_nil _ _

theorem isChain_upperLetter (c : Char) : (upperLetter c).IsChain Apart := by
  by_cases h : ∀ x ∈ upperLetter c, x ∉ openers
  · exact ((isQuiet_iff _).1 (isQuiet_of_not_mem h)).2
  · push Not at h
    obtain ⟨x, hx, hmark⟩ := h
    rw [(eq_singleton_of_mem_upperLetter (List.mem_append_left _ hmark) hx).2]
    exact .singleton x

/-- Neighbours in the upper case of a text that start a comment come from neighbours in the text. -/
theorem isChain_upper {cs : List Char} (h : cs.IsChain Apart) :
    (cs.flatMap upperLetter).IsChain Apart := by
  induction cs with
  | nil => exact .nil
  | cons c r ih =>
    rw [List.flatMap_cons, List.isChain_append]
    refine ⟨isChain_upperLetter c, ih h.tail, fun x hx y hy => ?_⟩
    by_cases hmarks : x ∈ openers ∧ y ∈ closers
    · have hc := (eq_singleton_of_mem_upperLetter (List.mem_append_left _ hmarks.1)
        (List.mem_of_mem_getLast? hx)).1
      cases r with
      | nil => cases hy
      | cons d r =>
        rw [List.flatMap_cons, List.head?_append_of_ne_nil _ (upperLetter_ne_nil d)] at hy
        have hd := (eq_singleton_of_mem_upperLetter (List.mem_append_right _ hmarks.2)
          (List.mem_of_mem_head? hy)).1
        exact hc ▸ hd ▸ (List.isChain_cons_cons.1 h).1
    · exact apart_of_not_mem (not_and_or.1 hmarks)

theorem isQuiet_upper {s : String} (h : IsQuiet s.toList) : IsQuiet (upper s).toList := by
  rw [upper_toList]
  rw [isQuiet_iff] at h ⊢
  refine ⟨fun hmem => ?_, isChain_upper h.2⟩
  obtain ⟨c, hc, hquote⟩ := List.mem_flatMap.1 hmem
  exact h.1 ((eq_singleton_of_mem_upperLetter (by decide) hquote).1 ▸ hc)

end SqlLayout.Text

namespace SqlLayout.Layout

open Text (Scan scan scanned IsQuiet Apart)

/-- Whether a text of the tree, unless it is a string constant, starts neither a string nor a comment. -/
def Leaf.IsQuiet : Leaf → Prop
  | .text t | .operator t | .function t | .keyword t | .const (.number t) => Text.IsQuiet t.toList
  | .const _ | .param _ => True

instance : DecidablePred Leaf.IsQuiet
  | .text t | .operator t | .function t | .keyword t | .const (.number t) =>
    inferInstanceAs (Decidable (Text.IsQuiet t.toList))
  | .const (.string _) | .const (.boolean _) | .const .null | .param _ => .isTrue trivial

/-- The value of a string constant. -/
def Leaf.string? : Leaf → Option String
  | .const (.string t) => some t
  | _ => none

/-- How a string constant is written. -/
def quoted (t : String) : List Char :=
  '\'' :: (Text.doubled t.toList ++ ['\''])

theorem scan_quoted (t : String) : scan none (quoted t) = ⟨['\'', '\''], [t], true⟩ := by
  rw [quoted, scan, Text.scan_doubled]
  simp [Scan.append]

theorem isQuiet_operatorText {op : String} (h : Text.IsQuiet op.toList) :
    Text.IsQuiet (operatorText op).toList := by
  unfold operatorText
  split
  · exact Text.isQuiet_of_not_mem (by decide)
  · exact h

theorem isQuiet_casedName (c : NameCase) {name : String} (h : Text.IsQuiet name.toList) :
    Text.IsQuiet (casedName c name).toList := by
  have hknown : ∀ n ∈ knownFunctions, ∀ x ∈ n.toList, x ∉ Text.openers ∧
      x.toUpper ∉ Text.openers := by
    decide
  unfold casedName knownName?
  cases hfind : knownFunctions.find? (Text.eqIgnoreCase · name) with
  | none => exact h
  | some n =>
    have hn := hknown n (List.mem_of_find?_eq_some hfind)
    cases c with
    | lower => exact Text.isQuiet_of_not_mem fun x hx => (hn x hx).1
    | upper =>
      refine Text.isQuiet_of_not_mem ?_
      simpa [Text.asciiUpper] using fun x hx => (hn x hx).2

theorem isQuiet_param (n : Nat) : Text.IsQuiet ("$" ++ toString n).toList := by
  have hrepr : toString n = String.ofList (Nat.toDigits 10 n) := Nat.repr_eq_ofList_toDigits
  have hmarks : ∀ c ∈ Text.openers, c ≠ '$' ∧ c.isDigit = false := by decide
  refine Text.isQuiet_of_not_mem fun c hc hmem => ?_
  obtain ⟨hdollar, hdigit⟩ := hmarks c hmem
  have hcases : c = '$' ∨ c ∈ Nat.toDigits 10 n := by simpa [hrepr] using hc
  refine hcases.elim hdollar fun hc => ?_
  rw [Nat.isDigit_of_mem_toDigits (by decide) (by decide) hc] at hdigit
  cases hdigit

/-- A text of the tree is written as a string constant, or without quotes and comments. -/
theorem Leaf.written_cases (s : Style) (l : Leaf) (h : l.IsQuiet) :
    (∃ t, l.string? = some t ∧ (l.written s).toList = quoted t) ∨
      (l.string? = none ∧ Text.IsQuiet (l.written s).toList) := by
  have hwords : ∀ w ∈ ["true", "false", "NULL"], ∀ c ∈ w.toList, c ∉ Text.openers := by decide
  match l with
  | .const (.string t) =>
    left
    refine ⟨t, rfl, ?_⟩
    simp [Leaf.written, Const.text, Text.replaceAll, Text.replaceFrom_singleton, quoted, Text.doubled]
  | .const (.number _) => exact .inr ⟨rfl, h⟩
  | .const (.boolean true) => exact .inr ⟨rfl, Text.isQuiet_of_not_mem (hwords "true" (by decide))⟩
  | .const (.boolean false) => exact .inr ⟨rfl, Text.isQuiet_of_not_mem (hwords "false" (by decide))⟩
  | .const .null => exact .inr ⟨rfl, Text.isQuiet_of_not_mem (hwords "NULL" (by decide))⟩
  | .text _ => exact .inr ⟨rfl, h⟩
  | .operator _ => exact .inr ⟨rfl, isQuiet_operatorText h⟩
  | .function _ => exact .inr ⟨rfl, isQuiet_casedName _ h⟩
  | .keyword _ => exact .inr ⟨rfl, Text.isQuiet_upper h⟩
  | .param n => exact .inr ⟨rfl, isQuiet_param n⟩

/-! ### Scanning a laid-out text -/

/-- Whether a text may follow at a place: after a text of the tree it must neither go on a string nor
complete the start of a comment. -/
def Edge.Separates : Edge → List Char → Prop
  | .bare, cs => ∀ c ∈ cs.head?, c ∉ Text.closers
  | .fenced, _ => True

/-- What a scan finds in the text of pieces with the given texts of the tree. -/
structure Scans (a : Edge) (ls : List Leaf) (cs : List Char) : Prop where
  closed : (scan none cs).closed
  strings : (scan none cs).strings = ls.filterMap Leaf.string?
  chain : (scan none cs).code.IsChain Apart
  separates : a.Separates cs

variable {s : Style} {a b : Edge} {ls ls' : List Leaf} {cs ds : List Char} {ps : List Piece}

theorem head?_code (cs : List Char) : (scan none cs).code.head? = cs.head? := by
  cases cs with
  | nil => rfl
  | cons c r =>
    by_cases hc : c = '\''
    · subst hc
      rfl
    · rw [scan]
      · rfl
      · exact hc

namespace Scans

theorem nil (a : Edge) : Scans a [] [] := by
  refine ⟨rfl, rfl, .nil, ?_⟩
  cases a with
  | bare => simp [Edge.Separates]
  | fenced => trivial

/-- Text without quotes before a text. -/
theorem quiet (h : Scans a ls ds) (hquiet : IsQuiet cs)
    (hjoint : ∀ x ∈ cs.getLast?, ∀ y ∈ ds.head?, Apart x y) (hseparates : b.Separates (cs ++ ds)) :
    Scans b ls (cs ++ ds) := by
  rw [Text.isQuiet_iff] at hquiet
  have hplain := Text.scan_plain hquiet.1
  have hscan : scan none (cs ++ ds) = Scan.append ⟨cs, [], true⟩ (scan none ds) := by
    rw [Text.scan_append none cs ds (by rw [hplain]) fun hquote => absurd hquote hquiet.1, hplain]
  refine ⟨?_, ?_, ?_, hseparates⟩
  · simp [hscan, Scan.append, h.closed]
  · simp [hscan, Scan.append, h.strings]
  · rw [hscan, Scan.append, List.isChain_append, head?_code]
    exact ⟨hquiet.2, h.chain, hjoint⟩

/-- A text before one that may follow a text of the tree. -/
theorem append (h : Scans a ls cs) (h' : Scans .bare ls' ds) : Scans .fenced (ls ++ ls') (cs ++ ds) := by
  have hhead : ∀ y ∈ ds.head?, y ∉ Text.closers := h'.separates
  have hscan : scan none (cs ++ ds) = (scan none cs).append (scan none ds) := by
    refine Text.scan_append none cs ds h.closed fun _ hquote => ?_
    exact hhead _ hquote (by decide)
  refine ⟨?_, ?_, ?_, trivial⟩
  · simp [hscan, Scan.append, h.closed, h'.closed]
  · simp [hscan, Scan.append, h.strings, h'.strings]
  · rw [hscan, Scan.append, List.isChain_append, head?_code]
    refine ⟨h.chain, h'.chain, fun x _ y hy => ?_⟩
    exact Text.apart_of_not_mem (.inr (hhead y hy))

/-- A text of the tree before something that may follow it. -/
theorem leaf {l : Leaf} (hl : l.IsQuiet) (h : Scans .bare ls cs) :
    Scans .fenced (l :: ls) ((l.written s).toList ++ cs) := by
  have halone : Scans .fenced [l] (l.written s).toList := by
    obtain ⟨t, hstring, hwritten⟩ | ⟨hstring, hquiet⟩ := l.written_cases s hl
    · rw [hwritten]
      refine ⟨by rw [scan_quoted], ?_, ?_, trivial⟩
      · simp [scan_quoted, hstring]
      · rw [scan_quoted]
        exact .cons_cons ⟨by decide, by decide⟩ (.singleton _)
    · have hplain := Text.scan_plain hquiet.1
      refine ⟨by rw [hplain], ?_, ?_, trivial⟩
      · simp [hplain, hstring]
      · rw [hplain]
        exact ((Text.isQuiet_iff _).1 hquiet).2
  exact halone.append h

end Scans

theorem joints_quiet : ∀ m ∈ joints, m.toList ≠ [] ∧ (∀ c ∈ m.toList, c ∉ Text.openers) ∧
    ∀ c ∈ m.toList.head?, c ∉ Text.closers := by
  have h : joints.all fun m => m.toList != [] && m.toList.all (fun c => !Text.openers.contains c) &&
      m.toList.head?.all (fun c => !Text.closers.contains c) := by
    decide +kernel
  simpa [and_assoc, Option.all_eq_true] using h

/-- Text that the layout writes before a text. -/
theorem Scans.fixed (h : Scans .fenced ls ds) (hne : cs ≠ []) (hcs : ∀ c ∈ cs, c ∉ Text.openers)
    (hhead : a = .bare → ∀ c ∈ cs.head?, c ∉ Text.closers) : Scans a ls (cs ++ ds) := by
  refine h.quiet (Text.isQuiet_of_not_mem hcs) (fun x hx y _ => ?_) ?_
  · exact Text.apart_of_not_mem (.inl (hcs x (List.mem_of_mem_getLast? hx)))
  · cases a with
    | bare =>
      rw [Edge.Separates, List.head?_append_of_ne_nil _ hne]
      exact hhead rfl
    | fenced => trivial

theorem Scans.indented (h : Scans a ls ds) (hcs : ∀ c ∈ cs, c ∈ [' ', '\t', '\n']) :
    Scans a ls (cs ++ ds) := by
  have hblank : ∀ c ∈ [' ', '\t', '\n'], c ∉ Text.openers ∧ c ∉ Text.closers := by decide
  cases cs with
  | nil => exact h
  | cons c r =>
    refine h.quiet (Text.isQuiet_of_not_mem fun x hx => (hblank x (hcs x hx)).1) (fun x hx y _ => ?_) ?_
    · exact Text.apart_of_not_mem (.inl (hblank x (hcs x (List.mem_of_mem_getLast? hx))).1)
    · cases a with
      | bare => simpa [Edge.Separates] using (hblank c (hcs c List.mem_cons_self)).2
      | fenced => trivial

/-- A sign before an operand that starts with none. -/
theorem Scans.sign {l : Leaf} {op : String} (hop : IsSign op) (hl : l.IsQuiet) (hwritten : l.written s = op)
    (hsign : isSigned cs = false) (h : Scans .fenced ls cs) (h' : Scans .bare ls' ds) :
    Scans .fenced (l :: (ls ++ ls')) (op.toList ++ (cs ++ ds)) := by
  have hstring : l.string? = none := by
    obtain ⟨t, -, hquoted⟩ | ⟨hstring, -⟩ := l.written_cases s hl
    · rw [hwritten] at hquoted
      rcases hop with rfl | rfl <;> cases hquoted
    · exact hstring
  have hhead : ∀ y ∈ (cs ++ ds).head?, y ≠ '-' := by
    rintro y hy rfl
    cases cs with
    | nil => exact h'.separates _ hy (by decide)
    | cons c r =>
      cases hy
      cases hsign
  have hsingle : IsQuiet op.toList ∧ ∀ x ∈ op.toList.getLast?, x = '-' ∨ x = '+' := by
    rw [Text.isQuiet_iff]
    rcases hop with rfl | rfl
    · exact ⟨⟨by decide, .singleton _⟩, by simp⟩
    · exact ⟨⟨by decide, .singleton _⟩, by simp⟩
  have hwhole : Scans .fenced (ls ++ ls') (op.toList ++ (cs ++ ds)) := by
    refine (h.append h').quiet hsingle.1 (fun x hx y hy => ?_) trivial
    refine ⟨fun hne => hhead y hy hne.2, ?_⟩
    rintro ⟨rfl, -⟩
    exact absurd (hsingle.2 _ hx) (by decide)
  exact { hwhole with strings := by rw [hwhole.strings, List.filterMap_cons_none hstring] }

/-- By induction on the pieces: before each of them the scan is outside a string, and no comment can
start across its first character. -/
theorem Laid.scans (h : Laid s IsSign a b ps) : ∀ {ls : List Leaf},
    leafTexts ps = ls.map (Leaf.written s) → (∀ l ∈ ls, l.IsQuiet) →
    Scans a ls (Piece.textOf s ps).toList := by
  induction h with
  | nil | loose =>
    intro ls hls _
    cases List.map_eq_nil_iff.1 hls.symm
    exact .nil _
  | mark hm _ ih =>
    intro ls hls hquiet
    obtain ⟨hne, hcs, hhead⟩ := joints_quiet _ hm
    rw [Piece.textOf_cons, String.toList_append]
    exact (ih hls hquiet).fixed hne hcs fun _ => hhead
  | star _ ih =>
    intro ls hls hquiet
    have hstar : "*".toList ≠ [] ∧ ∀ c ∈ "*".toList, c ∉ Text.openers := by simp [Text.openers]
    rw [Piece.textOf_cons, String.toList_append]
    exact (ih hls hquiet).fixed hstar.1 hstar.2 nofun
  | empty _ ih =>
    intro ls hls hquiet
    simpa [Piece.text] using ih hls hquiet
  | lineBreak _ ih =>
    intro ls hls hquiet
    have hbreak : "\n".toList ≠ [] ∧ (∀ c ∈ "\n".toList, c ∉ Text.openers) ∧
        ∀ c ∈ "\n".toList.head?, c ∉ Text.closers := by simp [Text.openers, Text.closers]
    rw [Piece.textOf_cons, String.toList_append]
    exact (ih hls hquiet).fixed hbreak.1 hbreak.2.1 fun _ => hbreak.2.2
  | indent d _ ih =>
    intro ls hls hquiet
    rw [Piece.textOf_cons, String.toList_append]
    exact (ih hls hquiet).indented (indentBy_blank s d)
  | leaf t _ ih =>
    intro ls hls hquiet
    obtain ⟨l, ls, rfl, rfl, hrest⟩ := List.map_eq_cons_iff.1 hls.symm
    obtain ⟨hl, hquiet⟩ := List.forall_mem_cons.1 hquiet
    rw [Piece.textOf_cons, String.toList_append]
    exact (ih hrest.symm hquiet).leaf hl
  | sign hop hsign _ _ iharg ih =>
    intro ls hls hquiet
    rw [leafTexts_leaf, leafTexts_append] at hls
    obtain ⟨l, ls, rfl, hwritten, hrest⟩ := List.map_eq_cons_iff.1 hls.symm
    obtain ⟨ls, ls', rfl, harg, hps⟩ := List.map_eq_append_iff.1 hrest
    obtain ⟨hl, hquiet⟩ := List.forall_mem_cons.1 hquiet
    obtain ⟨hquiet, hquiet'⟩ := List.forall_mem_append.1 hquiet
    rw [startsWithSign_eq] at hsign
    rw [Piece.textOf_cons, Piece.textOf_append, String.toList_append, String.toList_append]
    exact .sign hop hl hwritten hsign (iharg harg.symm hquiet) (ih hps.symm hquiet')

/-! ### Statements -/

/-- The string constants of a statement that are written, in the order of its clauses. -/
def Statement.strings (t : Statement) : List String :=
  t.emitted.filterMap Leaf.string?

/-- In the text of a statement every string ends, the strings are the constants of the tree that are
written, all of its constants if every part of it has a place in the text, and no comment starts outside
them. -/
theorem scanned_render (s : Style) (t : Statement) (hsigns : ∀ n ∈ t.nodes, n.Prefixed IsSign)
    (hquiet : ∀ l ∈ t.leaves, l.IsQuiet) :
    (scanned (t.render s)).closed ∧
      (scanned (t.render s)).strings = t.strings ∧
      ((∀ n ∈ t.nodes, n.IsPlain) → t.strings = t.leaves.filterMap Leaf.string?) ∧
      ¬ Text.HasComment (scanned (t.render s)).code := by
  have hemits := statement_emits t
  have hscans := (statement_laid s t hsigns).scans (leafTexts_emitted s t) fun l hl =>
    hquiet l (hemits.sublist.subset hl)
  refine ⟨hscans.closed, hscans.strings, fun hplain => ?_, (Text.not_hasComment_iff _).2 hscans.chain⟩
  rw [Statement.strings, hemits.whole hplain]

/-- `select - -a, 'it''s -- /*'`. -/
theorem scanned_render_select :
    let x : Select :=
      { distinct := none, source := [], condition := none, groupBy := [], having := none,
        targets := [⟨.unary "-" (.unary "-" (.column ["a"] false)), none⟩,
          ⟨.const (.string "it's -- /*"), none⟩] }
    let t : Statement := .select ⟨none, .select x, [], none, none, []⟩
    (∀ n ∈ t.nodes, n.Prefixed IsSign) ∧ (∀ l ∈ t.leaves, l.IsQuiet) ∧
      (scanned (t.render {})).strings = ["it's -- /*"] ∧
      ¬ Text.HasComment (scanned (t.render {})).code := by
  intro x t
  have hsigns : ∀ n ∈ t.nodes, n.Prefixed IsSign := by
    simp [t, x, Statement.nodes, Query.nodes, withNodes, Body.nodes, Select.nodes, distinctNodes,
      targetNodes, fromNodes, optionNodes, exprNodes, sortNodes, Expr.nodes, Node.Prefixed, IsSign]
  have hquiet : ∀ l ∈ t.leaves, l.IsQuiet := by
    decide
  obtain ⟨-, hstrings, -, hcode⟩ := scanned_render {} t hsigns hquiet
  exact ⟨hsigns, hquiet, hstrings, hcode⟩

/-- A select without targets is not written, nor is the constant in its condition. -/
theorem scanned_render_loses_condition :
    let x : Select :=
      { distinct := none, targets := [], source := [], condition := some (.const (.string "x")),
        groupBy := [], having := none }
    let t : Statement := .select ⟨none, .select x, [], none, none, []⟩
    (∀ n ∈ t.nodes, n.Prefixed IsSign) ∧ (∀ l ∈ t.leaves, l.IsQuiet) ∧
      (scanned (t.render {})).strings = [] ∧ t.leaves.filterMap Leaf.string? = ["x"] := by
  intro x t
  refine ⟨?_, by decide, rfl, rfl⟩
  simp [t, x, Statement.nodes, Query.nodes, withNodes, Body.nodes, Select.nodes, distinctNodes,
    targetNodes, fromNodes, optionNodes, exprNodes, sortNodes, Expr.nodes, Node.Prefixed]

end SqlLayout.Layout
