import Mathlib.Data.List.TakeWhile
import SqlLayout.Proofs.HostConstants
import SqlLayout.Proofs.Lines
import SqlLayout.Proofs.Splice

/-!
What a revision does to a source. The new literals take the places of the old ones, and nothing else
changes, exactly if every old literal is looked for where it stands by then: a byte order mark moves
the literals of the first line, and a new literal moves those behind it that are replaced later.
-/

namespace SqlLayout.Host

/-! ### Where characters come from -/

/-- Where a character comes from: from the source, or from the literal that replaces the one at
`start`. -/
inductive Origin
  | source (i : Nat)
  | literal (start i : Nat)
  deriving DecidableEq, Repr

/-- A text with the origins of its characters. -/
def trace (origin : Nat → Origin) (text : List Char) : List (Char × Origin) :=
  text.zipIdx.map fun (c, i) => (c, origin i)

@[simp]
theorem map_fst_trace (origin : Nat → Origin) (text : List Char) :
    (trace origin text).map Prod.fst = text := by
  simp [trace, Function.comp_def]

@[simp]
theorem length_trace (origin : Nat → Origin) (text : List Char) :
    (trace origin text).length = text.length := by
  simp [trace]

theorem trace_ne_nil (origin : Nat → Origin) {text : List Char} (h : text ≠ []) :
    trace origin text ≠ [] := by
  simpa [trace] using h

theorem mem_trace {origin : Nat → Origin} {text : List Char} {x : Char × Origin}
    (h : x ∈ trace origin text) : ∃ i, x.2 = origin i := by
  obtain ⟨⟨c, i⟩, -, rfl⟩ := List.mem_map.1 h
  exact ⟨i, rfl⟩

theorem nodup_trace {origin : Nat → Origin} (horigin : Function.Injective origin)
    (text : List Char) : (trace origin text).Nodup := by
  have hsnd : (trace origin text).map Prod.snd = (text.zipIdx.map Prod.snd).map origin := by
    rw [trace, List.map_map, List.map_map]
    rfl
  apply List.Nodup.of_map Prod.snd
  rw [hsnd, List.zipIdx_map_snd]
  exact List.Nodup.map horigin List.nodup_range'

/-- A piece whose new characters know their origins. -/
def Splice.traced (e : Splice Char) : Splice (Char × Origin) :=
  ⟨e.start, e.stop, trace (.literal e.start) e.new⟩

def Cut.traced (c : Cut Char) : Cut (Char × Origin) :=
  { c.toSplice.traced with first := c.first, last := c.last }

@[simp]
theorem drift_traced (es : List (Splice Char)) (i : Nat) :
    drift (es.map Splice.traced) i = drift es i := by
  induction es with
  | nil => rfl
  | cons e es ih => simp [drift_cons, ih, Splice.traced]

theorem map_fst_cutAll_traced (cs : List (Cut Char)) (text : List (Char × Origin)) :
    (cutAll (cs.map Cut.traced) text).map Prod.fst = cutAll cs (text.map Prod.fst) := by
  induction cs with
  | nil => rfl
  | cons c cs ih =>
    simp only [cutAll, List.map_cons, List.foldr_cons, Cut.apply, List.map_append, List.map_take,
      List.map_drop] at ih ⊢
    rw [ih]
    simp [Cut.traced, Splice.traced]

theorem map_fst_newAt_traced (es : List (Splice Char)) (i : Nat) :
    (newAt (es.map Splice.traced) i).map Prod.fst = newAt es i := by
  induction es with
  | nil => rfl
  | cons e es ih =>
    by_cases he : e.start = i
    · simp [newAt, Splice.traced, he]
    · simpa [newAt, Splice.traced, he] using ih

theorem map_fst_replaceAll_traced (es : List (Splice Char)) (i : Nat)
    (text : List (Char × Origin)) :
    (replaceAll (es.map Splice.traced) i text).map Prod.fst =
      replaceAll es i (text.map Prod.fst) := by
  induction text generalizing i with
  | nil => rfl
  | cons x r ih =>
    have hany : ((es.map Splice.traced).any fun e => e.start ≤ i && i < e.stop) =
        es.any fun e => e.start ≤ i && i < e.stop := by
      rw [List.any_map]
      rfl
    simp only [replaceAll, List.map_append, map_fst_newAt_traced, ih, hany, List.map_cons]
    congr 2
    split <;> rfl

theorem Separate.traced {es : List (Splice Char)} (h : Separate es) :
    Separate (es.map Splice.traced) where
  proper := by
    intro e he
    obtain ⟨f, hf, rfl⟩ := List.mem_map.1 he
    exact h.proper f hf
  apart := List.pairwise_map.2 h.apart

/-- All characters of a traced source and of its traced new literals are different. -/
theorem nodup_traced {es : List (Splice Char)} (h : Separate es) (text : List Char) :
    (trace .source text ++ es.flatMap fun e => e.traced.new).Nodup := by
  rw [List.nodup_append]
  refine ⟨nodup_trace (fun _ _ h => by injection h) text, ?_, ?_⟩
  · rw [List.nodup_flatMap]
    refine ⟨fun e _ => nodup_trace (fun _ _ h => by injection h) e.new, ?_⟩
    refine h.apart.imp_of_mem ?_
    intro e f he hf hapart x hxe hxf
    obtain ⟨i, hi⟩ := mem_trace hxe
    obtain ⟨j, hj⟩ := mem_trace hxf
    rw [hi] at hj
    injection hj with hstart
    have := h.proper e he
    have := h.proper f hf
    have : e.stop < f.start ∨ f.stop < e.start := hapart
    omega
  · rintro x hx y hy rfl
    obtain ⟨e, -, he⟩ := List.mem_flatMap.1 hy
    obtain ⟨i, hi⟩ := mem_trace hx
    obtain ⟨j, hj⟩ := mem_trace he
    rw [hi] at hj
    cases hj

/-! ### Where literals are looked for -/

/-- The number of characters in front of the code. -/
def lead (source : String) : Nat :=
  source.toList.length - (codeOf source).length

/-- The byte order mark in front of a text, if there is one. -/
def orderMark (text : List Char) : List Char :=
  if text.head? = some '\uFEFF' then ['\uFEFF'] else []

/-- By how much a place in the code is looked for too early: in the first line, by the length of a byte
order mark. -/
def markShift (source : String) (i : Nat) : Nat :=
  if (placeOf (codeOf source) i).line = 1 then (orderMark source.toList).length else 0

theorem orderMark_append (text : List Char) : orderMark text ++ dropOrderMark text = text := by
  by_cases hmark : text.head? = some '\uFEFF'
  · rw [orderMark, if_pos hmark]
    cases text with
    | nil => cases hmark
    | cons c r =>
      injection hmark with hc
      rw [hc]
      rfl
  · rw [orderMark, if_neg hmark, List.nil_append]
    unfold dropOrderMark
    split
    · exact absurd rfl hmark
    · rfl

theorem newline_not_mem_orderMark (text : List Char) : '\n' ∉ orderMark text := by
  unfold orderMark
  split <;> simp

theorem dropInterpreter_cases (text : List Char) :
    dropInterpreter text = text ∨
    ∃ line, text = line ++ dropInterpreter text ∧ '\n' ∉ line ∧
      (dropInterpreter text = [] ∨ ∃ r, dropInterpreter text = '\n' :: r) := by
  unfold dropInterpreter
  split
  · refine .inr ⟨text.takeWhile (· != '\n'), List.takeWhile_append_dropWhile.symm, ?_, ?_⟩
    · intro hmem
      have hne := List.mem_takeWhile_imp hmem
      simp at hne
    · cases hdrop : text.dropWhile (· != '\n') with
      | nil => exact .inl rfl
      | cons c r =>
        have hc := List.head_dropWhile_not (· != '\n') (by rw [hdrop]; exact List.cons_ne_nil c r)
        simp only [hdrop, List.head_cons, bne_eq_false_iff_eq] at hc
        exact .inr ⟨r, by rw [hc]⟩
  · exact .inl rfl

/-- What stands in front of the code has no line break. It is the byte order mark, or else the code
has no characters or starts with a line break. -/
theorem codeOf_front (source : String) :
    ∃ front, source.toList = front ++ codeOf source ∧ lead source = front.length ∧ '\n' ∉ front ∧
      (front = orderMark source.toList ∨ codeOf source = [] ∨ ∃ r, codeOf source = '\n' :: r) := by
  have hmark := orderMark_append source.toList
  have hnewline := newline_not_mem_orderMark source.toList
  have hlead {front : List Char} (h : source.toList = front ++ codeOf source) :
      lead source = front.length := by
    rw [lead, h, List.length_append, Nat.add_sub_cancel]
  obtain hsame | ⟨line, hline, hno, hcode⟩ := dropInterpreter_cases (dropOrderMark source.toList)
  · have hsource : source.toList = orderMark source.toList ++ codeOf source := by
      rw [codeOf, hsame, hmark]
    exact ⟨orderMark source.toList, hsource, hlead hsource, hnewline, .inl rfl⟩
  · have hsource : source.toList = (orderMark source.toList ++ line) ++ codeOf source := by
      rw [codeOf, List.append_assoc, ← hline, hmark]
    refine ⟨orderMark source.toList ++ line, hsource, hlead hsource, ?_, .inr hcode⟩
    rw [List.mem_append, not_or]
    exact ⟨hnewline, hno⟩

/-- A literal that stands at its places in the code, those not in front of the code's first line
break. -/
structure InCode (source : String) (s : Span) : Prop where
  standsIn : s.StandsIn (codeOf source)
  stop_lt : s.stop < (codeOf source).length
  after : ∀ r, codeOf source = '\n' :: r → 1 ≤ s.start

theorem Span.StandsIn.start_lt {s : Span} {code : List Char} (h : s.StandsIn code) :
    s.start < s.stop := by
  obtain ⟨text, htext, -, hcode⟩ := h
  have hne : text ≠ "" := by
    rintro rfl
    exact absurd htext (by decide)
  by_contra hle
  have hzero : s.stop - s.start = 0 := by omega
  rw [hzero, List.take_zero] at hcode
  exact hne (String.toList_eq_nil_iff.1 hcode)

theorem placeOf_succ_line (text : List Char) (i : Nat) :
    (placeOf text i).line ≤ (placeOf text (i + 1)).line := by
  rw [placeOf, placeOf, List.take_add_one, List.foldl_append]
  cases text[i]? with
  | none => exact Nat.le_refl _
  | some c =>
    simp only [Option.toList_some, List.foldl_cons, List.foldl_nil, Place.next]
    split
    · exact Nat.le_succ _
    · exact Nat.le_refl _

theorem placeOf_line_mono (text : List Char) {i j : Nat} (h : i ≤ j) :
    (placeOf text i).line ≤ (placeOf text j).line := by
  induction h with
  | refl => exact Nat.le_refl _
  | step _ ih => exact Nat.le_trans ih (placeOf_succ_line text _)

theorem one_lt_placeOf_line {r : List Char} {i : Nat} (h : 1 ≤ i) :
    1 < (placeOf ('\n' :: r) i).line := by
  have hfirst : (placeOf ('\n' :: r) 1).line = 2 := by simp [placeOf, Place.next]
  have := placeOf_line_mono ('\n' :: r) h
  omega

/-- Where a place of the code is looked for in the source. -/
theorem offsetOf_codeOf {source : String} {i : Nat} (hi : i ≤ (codeOf source).length)
    (hafter : ∀ r, codeOf source = '\n' :: r → 1 ≤ i) (hne : codeOf source ≠ []) :
    offsetOf source.toList (placeOf (codeOf source) i) =
      .ok (i + lead source - markShift source i) := by
  obtain ⟨front, hfront, hlead, hno, hcases⟩ := codeOf_front source
  rw [hlead, markShift]
  conv_lhs => rw [hfront]
  rw [offsetOf_placeOf hno hi]
  by_cases hline : (placeOf (codeOf source) i).line = 1
  · have hmark : front = orderMark source.toList := by
      obtain hmark | hnil | ⟨r, hr⟩ := hcases
      · exact hmark
      · exact absurd hnil hne
      · have := one_lt_placeOf_line (r := r) (hafter r hr)
        rw [← hr] at this
        omega
    rw [if_pos hline, if_pos hline, hmark, Nat.add_sub_cancel]
  · rw [if_neg hline, if_neg hline, Nat.sub_zero]

theorem Spaced.of_mem {code : List Char} {least : Nat} {l : List Span} (h : Spaced code least l)
    {s : Span} (hs : s ∈ l) : least ≤ s.start ∧ s.stop < code.length ∧ s.StandsIn code := by
  induction l generalizing least with
  | nil => cases hs
  | cons t r ih =>
    obtain ⟨hleast, hstop, hstands, hrest⟩ := h
    cases hs with
    | head => exact ⟨hleast, hstop, hstands⟩
    | tail _ hs =>
      have hlt := hstands.start_lt
      obtain ⟨hleast', hs⟩ := ih hrest hs
      exact ⟨by omega, hs⟩

/-- Two literals with a character between them. -/
def Span.Apart (s t : Span) : Prop :=
  s.stop < t.start ∨ t.stop < s.start

theorem Spaced.pairwise {code : List Char} {least : Nat} {l : List Span}
    (h : Spaced code least l) : l.Pairwise Span.Apart := by
  induction l generalizing least with
  | nil => exact List.Pairwise.nil
  | cons t r ih =>
    obtain ⟨-, -, -, hrest⟩ := h
    exact List.pairwise_cons.2 ⟨fun s hs => .inl (hrest.of_mem hs).1, ih hrest⟩

/-- The literals of the constants that are found stand at their places, apart from each other. -/
theorem constants_inCode {source : String} {found : List Constant}
    (h : constants source = .ok found) :
    (∀ c ∈ found, InCode source c.span) ∧ (found.map Constant.span).Pairwise Span.Apart := by
  obtain ⟨trees, htrees, l, hperm, hsub⟩ := constants_spans h
  have hspaced := trees?_spaced htrees
  constructor
  · intro c hc
    have hmem := hsub.subset (hperm.mem_iff.2 (List.mem_map_of_mem hc))
    obtain ⟨-, hstop, hstands⟩ := hspaced.of_mem hmem
    refine ⟨hstands, hstop, ?_⟩
    intro r hr
    rw [hr] at htrees
    exact ((trees?_spaced_newline htrees).of_mem hmem).1
  · exact (hperm.pairwise_iff fun hst => hst.symm).1 (hspaced.pairwise.sublist hsub)

/-- The literals of constants start at different places. -/
theorem eq_of_start_eq {source : String} {found : List Constant} (hfound : constants source = .ok found)
    {c d : Constant} (hc : c ∈ found) (hd : d ∈ found) (hstart : c.start = d.start) : c = d := by
  obtain ⟨hcode, hapart⟩ := constants_inCode hfound
  have : Std.Symm fun a b : Constant => a.span.Apart b.span := ⟨fun _ _ => Or.symm⟩
  by_contra hne
  have hcd : c.stop < d.start ∨ d.stop < c.start := (List.pairwise_map.1 hapart).forall hc hd hne
  have hlt : c.start < c.stop := (hcode c hc).standsIn.start_lt
  have hlt' : d.start < d.stop := (hcode d hd).standsIn.start_lt
  omega

/-! ### Revisions -/

/-- The new text of a constant; none if the constant holds no SQL or its text is in its layout
already. -/
def newText? (style : Style) (c : Constant) : Option String :=
  match format style (Text.trim c.value) with
  | .ok text => if looksLikeSql c.value && text != c.value then some text else none
  | .error _ => none

/-- The constants that get a new text. -/
def revised (style : Style) (found : List Constant) : List (Constant × String) :=
  found.filterMap fun c => (newText? style c).map (c, ·)

theorem newText?_eq_some {style : Style} {c : Constant} {text : String} (h : newText? style c = some text) :
    looksLikeSql c.value ∧ format style (Text.trim c.value) = .ok text ∧ text ≠ c.value := by
  unfold newText? at h
  split at h
  · rename_i hformat
    split at h
    · rename_i hcond
      cases h
      rw [Bool.and_eq_true, bne_iff_ne] at hcond
      exact ⟨hcond.1, hformat, hcond.2⟩
    · cases h
  · cases h

theorem newText?_of_mem_revised {style : Style} {found : List Constant} {c : Constant × String} (h : c ∈ revised style found) :
    newText? style c.1 = some c.2 := by
  obtain ⟨d, -, hc⟩ := List.mem_filterMap.1 h
  obtain ⟨text, htext, rfl⟩ := Option.map_eq_some_iff.1 hc
  exact htext

/-- The literal of a constant, by its place in the source, and the one that takes its place. -/
def literalOf (source : String) (c : Constant × String) : Splice Char where
  start := c.1.start + lead source
  stop := c.1.stop + lead source
  new := (rawLiteral c.2).toList

/-- The literal of a constant with the places where it is looked for. -/
def cutOf (source : String) (c : Constant × String) : Cut Char where
  toSplice := literalOf source c
  first := c.1.start + lead source - markShift source c.1.start
  last := c.1.stop + lead source - markShift source c.1.stop

/-- The constant and the line of its literal. -/
def changeOf (source : String) (c : Constant × String) : Change :=
  ⟨c.1.name, (placeOf (codeOf source) c.1.start).line⟩

/-- The edit of a constant and its report. -/
def editFor (source : String) (c : Constant × String) : Edit × Change :=
  (⟨(cutOf source c).first, (cutOf source c).last, rawLiteral c.2⟩, changeOf source c)

theorem editOf_eq {style : Style} {source : String} {c : Constant} {o : Option (Edit × Change)}
    (hc : InCode source c.span) (h : editOf style source c = .ok o) :
    o = (newText? style c).map fun text => editFor source (c, text) := by
  have hlt : c.start < c.stop := hc.standsIn.start_lt
  have hstop : c.stop < (codeOf source).length := hc.stop_lt
  have hne : codeOf source ≠ [] := by
    intro hnil
    rw [hnil] at hstop
    cases hstop
  have hafter (r : List Char) (hr : codeOf source = '\n' :: r) : 1 ≤ c.start := hc.after r hr
  have hstart := offsetOf_codeOf (i := c.start) (by omega) hafter hne
  have hlast := offsetOf_codeOf (i := c.stop) (by omega) (fun r hr => by have := hafter r hr; omega)
    hne
  unfold editOf at h
  unfold newText?
  by_cases hsql : looksLikeSql c.value
  · simp only [hsql, Bool.not_true, Bool.false_eq_true, if_false] at h
    obtain ⟨text, htext, h⟩ := bind_eq_ok h
    by_cases heq : text = c.value
    · simp only [heq, beq_self_eq_true, if_true] at h
      cases h
      simp [htext, heq]
    · simp only [beq_iff_eq, heq, if_false, hstart, hlast] at h
      cases h
      simp [hsql, htext, heq, editFor, cutOf, literalOf, changeOf]
  · simp only [hsql, Bool.not_false, if_true] at h
    cases h
    cases format style (Text.trim c.value) <;> simp [hsql]

theorem filterMapM_eq_ok {ε α β : Type} {f : α → Except ε (Option β)} {g : α → Option β}
    {l : List α} {out : List β} (hf : ∀ a ∈ l, ∀ o, f a = .ok o → o = g a)
    (h : l.filterMapM f = .ok out) : out = l.filterMap g := by
  induction l generalizing out with
  | nil =>
    cases h
    rfl
  | cons a l ih =>
    rw [List.filterMapM_cons] at h
    obtain ⟨o, ho, h⟩ := bind_eq_ok h
    have hrest {rest : List β} (hl : l.filterMapM f = .ok rest) : rest = l.filterMap g :=
      ih (fun b hb => hf b (List.mem_cons_of_mem a hb)) hl
    rw [List.filterMap_cons, ← hf a List.mem_cons_self o ho]
    cases o with
    | none => exact hrest h
    | some b =>
      obtain ⟨rest, hl, h⟩ := bind_eq_ok h
      cases h
      simp only [hrest hl]

theorem exists_of_filterMapM_eq_ok {ε α β : Type} {f : α → Except ε (Option β)} {l : List α} {out : List β}
    (h : l.filterMapM f = .ok out) : ∀ a ∈ l, ∃ o, f a = .ok o := by
  induction l generalizing out with
  | nil => exact fun a ha => absurd ha List.not_mem_nil
  | cons a l ih =>
    rw [List.filterMapM_cons] at h
    obtain ⟨o, ho, h⟩ := bind_eq_ok h
    have hrest : ∃ rest, l.filterMapM f = .ok rest := by
      cases o with
      | none => exact ⟨out, h⟩
      | some b =>
        obtain ⟨rest, hrest, -⟩ := bind_eq_ok h
        exact ⟨rest, hrest⟩
    obtain ⟨rest, hrest⟩ := hrest
    exact List.forall_mem_cons.2 ⟨⟨o, ho⟩, ih hrest⟩

theorem filterMapM_eq_nil {ε α β : Type} {f : α → Except ε (Option β)} {l : List α}
    (h : ∀ a ∈ l, f a = .ok none) : l.filterMapM f = .ok [] := by
  induction l with
  | nil => rfl
  | cons a l ih =>
    rw [List.filterMapM_cons, h a List.mem_cons_self]
    exact ih fun b hb => h b (List.mem_cons_of_mem a hb)

theorem editFor_apply (source : String) (c : Constant × String) (text : List Char) :
    (editFor source c).1.apply text = (cutOf source c).apply text := by
  simp only [Edit.apply, Cut.apply, editFor, cutOf, literalOf]

theorem applyEdits_eq_cutAll (source : String) (l : List (Constant × String)) (text : List Char) :
    applyEdits (l.map fun c => (editFor source c).1) text = cutAll (l.map (cutOf source)) text := by
  rw [applyEdits, cutAll, List.foldr_map, List.foldr_map]
  simp only [editFor_apply]

theorem layOut_of_constants {style : Style} {source : String} {found : List Constant}
    (hfound : constants source = .ok found) :
    layOut style source = found.filterMapM (editOf style source) >>= fun edits =>
      .ok {
        source := String.ofList (applyEdits (edits.map (·.1)) source.toList)
        changes := edits.map (·.2) } := by
  rw [layOut, hfound]
  rfl

/-- A revision makes the cuts of the constants with a new text, and reports these constants. -/
theorem layOut_eq {style : Style} {source : String} {r : Revision}
    (h : layOut style source = .ok r) :
    ∃ found, constants source = .ok found ∧
      r.source.toList = cutAll ((revised style found).map (cutOf source)) source.toList ∧
      r.changes = (revised style found).map (changeOf source) := by
  unfold layOut at h
  obtain ⟨found, hfound, h⟩ := bind_eq_ok h
  have hfound : constants source = .ok found := by
    cases hc : constants source with
    | error e =>
      rw [hc] at hfound
      cases hfound
    | ok l =>
      rw [hc] at hfound
      cases hfound
      rfl
  obtain ⟨edits, hedits, h⟩ := bind_eq_ok h
  have hall := filterMapM_eq_ok
    (fun c hc o ho => editOf_eq ((constants_inCode hfound).1 c hc) ho) hedits
  have hrevised : edits = (revised style found).map (editFor source) := by
    rw [hall, revised, List.map_filterMap]
    simp [Function.comp_def]
  cases h
  refine ⟨found, hfound, ?_, ?_⟩
  · rw [String.toList_ofList, hrevised, List.map_map]
    exact applyEdits_eq_cutAll source _ _
  · change edits.map (·.2) = _
    rw [hrevised, List.map_map]
    rfl

theorem mem_of_mem_revised {style : Style} {found : List Constant} {c : Constant × String}
    (h : c ∈ revised style found) : c.1 ∈ found := by
  obtain ⟨d, hd, hc⟩ := List.mem_filterMap.1 h
  obtain ⟨text, -, rfl⟩ := Option.map_eq_some_iff.1 hc
  exact hd

theorem map_fst_revised_sublist (style : Style) (found : List Constant) :
    ((revised style found).map Prod.fst).Sublist found := by
  induction found with
  | nil => exact List.Sublist.slnil
  | cons c l ih =>
    cases h : newText? style c with
    | none => simpa [revised, h] using ih.cons c
    | some text => simpa [revised, h] using ih.cons_cons c

/-- The literals that are replaced do not touch each other. -/
theorem separate_literals {style : Style} {source : String} {found : List Constant}
    (h : constants source = .ok found) :
    Separate ((revised style found).map (literalOf source)) := by
  obtain ⟨hcode, hapart⟩ := constants_inCode h
  constructor
  · intro e he
    obtain ⟨c, hc, rfl⟩ := List.mem_map.1 he
    have hlt : c.1.start < c.1.stop := (hcode c.1 (mem_of_mem_revised hc)).standsIn.start_lt
    simp only [literalOf]
    omega
  · have hsub := hapart.sublist ((map_fst_revised_sublist style found).map Constant.span)
    rw [List.map_map, List.pairwise_map] at hsub
    refine List.pairwise_map.2 (hsub.imp ?_)
    intro c d hcd
    have hcd : c.1.stop < d.1.start ∨ d.1.stop < c.1.start := hcd
    simp only [Splice.Apart, literalOf]
    omega

theorem markShift_le_lead (source : String) (i : Nat) : markShift source i ≤ lead source := by
  have hmark := congrArg List.length (orderMark_append source.toList)
  have hcode : (codeOf source).length ≤ (dropOrderMark source.toList).length := by
    obtain hsame | ⟨line, hline, -⟩ := dropInterpreter_cases (dropOrderMark source.toList)
    · rw [codeOf, hsame]
    · have hlength := congrArg List.length hline
      rw [List.length_append] at hlength
      rw [codeOf]
      omega
  rw [List.length_append] at hmark
  unfold markShift lead
  split
  · omega
  · exact Nat.zero_le _

theorem markShift_anti (source : String) {i j : Nat} (h : i ≤ j) :
    markShift source j ≤ markShift source i := by
  have hfirst : 1 ≤ (placeOf (codeOf source) i).line :=
    placeOf_line_mono (codeOf source) (Nat.zero_le i)
  have hline := placeOf_line_mono (codeOf source) h
  unfold markShift
  split
  · rw [if_pos (by omega)]
  · exact Nat.zero_le _

/-- Every literal of the list is looked for where it stands once those after it are replaced. -/
def Undisturbed (source : String) : List (Constant × String) → Prop
  | [] => True
  | c :: l =>
    (drift (l.map (literalOf source)) (literalOf source c).start + markShift source c.1.start = 0 ∧
      drift (l.map (literalOf source)) (literalOf source c).start + markShift source c.1.stop = 0) ∧
    Undisturbed source l

theorem map_toSplice_cutOf (source : String) (l : List (Constant × String)) :
    (l.map (cutOf source)).map Cut.toSplice = l.map (literalOf source) := by
  rw [List.map_map]
  rfl

theorem inPlace_of_undisturbed {source : String} {l : List (Constant × String)} (h : Undisturbed source l) :
    InPlace (l.map (cutOf source)) := by
  induction l with
  | nil => trivial
  | cons c l ih =>
    obtain ⟨⟨hfirst, hlast⟩, hrest⟩ := h
    have hstart := markShift_le_lead source c.1.start
    have hstop := markShift_le_lead source c.1.stop
    refine ⟨?_, ih hrest⟩
    rw [map_toSplice_cutOf]
    simp only [cutOf, literalOf] at hfirst hlast ⊢
    omega

/-- Without a byte order mark, and with the constants in the order of their literals, no literal is
disturbed. -/
theorem undisturbed_of_increasing {source : String} {l : List (Constant × String)}
    (hmark : orderMark source.toList = []) (hproper : ∀ c ∈ l, c.1.start < c.1.stop)
    (hlt : l.Pairwise fun c d => c.1.start < d.1.start) : Undisturbed source l := by
  have hshift (i : Nat) : markShift source i = 0 := by simp [markShift, hmark]
  induction l with
  | nil => trivial
  | cons c l ih =>
    rw [List.pairwise_cons] at hlt
    have hzero : drift (l.map (literalOf source)) (literalOf source c).start = 0 := by
      apply drift_eq_zero
      intro e he
      obtain ⟨d, hd, rfl⟩ := List.mem_map.1 he
      have hstart := hlt.1 d hd
      have hstop := hproper d (List.mem_cons_of_mem c hd)
      simp only [literalOf]
      omega
    refine ⟨?_, ih (fun d hd => hproper d (List.mem_cons_of_mem c hd)) hlt.2⟩
    simp [hzero, hshift]

/-- The cuts of a revision with the origins of the new characters. -/
def tracedCuts (style : Style) (source : String) (found : List Constant) :
    List (Cut (Char × Origin)) :=
  ((revised style found).map (cutOf source)).map Cut.traced

theorem map_toSplice_traced (source : String) (l : List (Constant × String)) :
    ((l.map (cutOf source)).map Cut.traced).map Cut.toSplice =
      (l.map (literalOf source)).map Splice.traced := by
  simp [Function.comp_def, Cut.traced, cutOf]

theorem inPlace_iff (source : String) (l : List (Constant × String)) :
    InPlace ((l.map (cutOf source)).map Cut.traced) ↔ Undisturbed source l := by
  induction l with
  | nil => exact Iff.rfl
  | cons c l ih =>
    have hstart := markShift_le_lead source c.1.start
    have hstop := markShift_le_lead source c.1.stop
    simp only [List.map_cons, InPlace, Undisturbed, ih, map_toSplice_traced, drift_traced]
    refine and_congr_left fun _ => ?_
    simp only [Cut.traced, cutOf, Splice.traced, literalOf]
    omega

theorem rawLiteral_ne_nil (text : String) : (rawLiteral text).toList ≠ [] := by
  simp [rawLiteral]

theorem marked_tracedCuts {style : Style} {source : String} {found : List Constant}
    (h : constants source = .ok found) :
    Marked (tracedCuts style source found) (trace .source source.toList) := by
  have hcode := (constants_inCode h).1
  have hseparate : Separate ((revised style found).map (literalOf source)) := separate_literals h
  have hmem {c : Cut (Char × Origin)} (hc : c ∈ tracedCuts style source found) :
      ∃ d, d.1 ∈ found ∧ c = (cutOf source d).traced := by
    obtain ⟨e, he, rfl⟩ := List.mem_map.1 hc
    obtain ⟨d, hd, rfl⟩ := List.mem_map.1 he
    exact ⟨d, mem_of_mem_revised hd, rfl⟩
  have hlength : (codeOf source).length + lead source = source.toList.length := by
    obtain ⟨front, hfront, hlead, -⟩ := codeOf_front source
    rw [hlead, hfront, List.length_append, Nat.add_comm]
  constructor
  · rw [tracedCuts, map_toSplice_traced]
    exact hseparate.traced
  · intro c hc
    obtain ⟨d, hd, rfl⟩ := hmem hc
    have hstop : d.1.stop < (codeOf source).length := (hcode d.1 hd).stop_lt
    simp only [length_trace, Cut.traced, Splice.traced, cutOf, literalOf]
    omega
  · intro c hc
    obtain ⟨d, hd, rfl⟩ := hmem hc
    have hlt : d.1.start < d.1.stop := (hcode d.1 hd).standsIn.start_lt
    have hanti := markShift_anti source (Nat.le_of_lt hlt)
    simp only [Cut.traced, cutOf]
    omega
  · intro c hc
    obtain ⟨d, hd, rfl⟩ := hmem hc
    have hlt : d.1.start < d.1.stop := (hcode d.1 hd).standsIn.start_lt
    have hanti := markShift_anti source (Nat.le_of_lt hlt)
    have hle := markShift_le_lead source d.1.start
    simp only [Cut.traced, Splice.traced, cutOf, literalOf]
    omega
  · intro c hc
    obtain ⟨d, -, rfl⟩ := hmem hc
    simp only [Cut.traced, Splice.traced, cutOf, literalOf]
    exact trace_ne_nil _ (rawLiteral_ne_nil d.2)
  · have hnodup := nodup_traced hseparate source.toList
    rw [List.flatMap_map] at hnodup
    rw [tracedCuts, List.flatMap_map, List.flatMap_map]
    exact hnodup

/-- The revised source with the origins of its characters. -/
def revisionTrace (style : Style) (source : String) (found : List Constant) :
    List (Char × Origin) :=
  cutAll (tracedCuts style source found) (trace .source source.toList)

/-- The source with the literals replaced all at once, with the origins of its characters. -/
def literalTrace (style : Style) (source : String) (found : List Constant) :
    List (Char × Origin) :=
  replaceAll (((revised style found).map (literalOf source)).map Splice.traced) 0
    (trace .source source.toList)

theorem standsIn_source {source : String} {s : Span} (h : s.StandsIn (codeOf source)) :
    Span.StandsIn ⟨s.value, s.start + lead source, s.stop + lead source⟩ source.toList := by
  obtain ⟨text, htext, hvalue, hcode⟩ := h
  obtain ⟨front, hfront, hlead, -⟩ := codeOf_front source
  refine ⟨text, htext, hvalue, ?_⟩
  simp only [hcode, hfront, hlead]
  rw [Nat.add_comm s.start, List.drop_length_add_append, Nat.add_comm s.stop, Nat.add_sub_add_left]

end SqlLayout.Host
