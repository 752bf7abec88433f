import SqlLayout.Proofs.HostRereading
import SqlLayout.Proofs.Replacing

/-!
Revising a source that was revised before. Where the texts of the constants are in their layout once
they were brought into it, the source stays as it is, as long as it can be read again.
-/

namespace SqlLayout.Host

variable {style : Style} {source : String} {found : List Constant} {r : Revision}

/-- The layout of the constant's text, if there is one, has no carriage return and is its own layout. -/
def Constant.IsSettled (style : Style) (c : Constant) : Prop :=
  ∀ text, format style (Text.trim c.value) = .ok text →
    '\r' ∉ text.toList ∧ format style (Text.trim text) = .ok text

instance (style : Style) (c : Constant) : Decidable (c.IsSettled style) :=
  match h : format style (Text.trim c.value) with
  | .error _ => isTrue fun text htext => by rw [h] at htext; cases htext
  | .ok text =>
    decidable_of_iff ('\r' ∉ text.toList ∧ format style (Text.trim text) = .ok text) <| by
      rw [Constant.IsSettled, h]
      exact ⟨fun hs text' htext => by cases htext; exact hs, fun hs => hs text rfl⟩

/-- A source without a byte order mark whose SQL constants are found in the order of their places, each
with a settled text. -/
structure Steady (style : Style) (source : String) (found : List Constant) : Prop where
  unmarked : source.toList.head? ≠ some '\uFEFF'
  ordered : (found.filter fun c => looksLikeSql c.value).Pairwise fun c d => c.start < d.start
  settled : ∀ c ∈ found, looksLikeSql c.value → c.IsSettled style

instance (style : Style) (source : String) (found : List Constant) :
    Decidable (Steady style source found) :=
  decidable_of_iff (source.toList.head? ≠ some '\uFEFF' ∧
      (found.filter fun c => looksLikeSql c.value).Pairwise (fun c d => c.start < d.start) ∧
      ∀ c ∈ found, looksLikeSql c.value → c.IsSettled style)
    ⟨fun ⟨hmark, horder, hsettled⟩ => ⟨hmark, horder, hsettled⟩,
      fun h => ⟨h.unmarked, h.ordered, h.settled⟩⟩

/-! ### The revised code -/

theorem standsIn_startsText {s : Span} {code : List Char} (h : s.StandsIn code) :
    StartsText (code.drop s.start) := by
  obtain ⟨text, htext, -, hcode⟩ := h
  rw [← List.take_append_drop (s.stop - s.start) (code.drop s.start), ← hcode]
  exact (startsText_of_isText htext).append

theorem head?_codeOf (h : source.toList.head? ≠ some '\uFEFF') :
    (codeOf source).head? ≠ some '\uFEFF' := by
  obtain ⟨front, hfront, -, -, hcases⟩ := codeOf_front source
  obtain rfl | hnil | ⟨r, hr⟩ := hcases
  · rw [orderMark, if_neg h, List.nil_append] at hfront
    rwa [← hfront]
  · rw [hnil]
    simp
  · rw [hr]
    simp

/-- The lexemes of a source with constants. -/
theorem constants_lexemes (hfound : constants source = .ok found)
    (hmark : source.toList.head? ≠ some '\uFEFF') :
    ∃ ls trees, Lexed (codeOf source) 0 ls ∧ groupLexemes [] [] ls = some trees ∧
      trees? (codeOf source) = some trees ∧
      ∀ c ∈ found, EndsInGap ((codeOf source).take c.start) ∧
        ∃ text, isText text ∧ .leaf (.literal text c.start c.stop) ∈ ls := by
  obtain ⟨trees, htrees, -⟩ := constants_spans hfound
  obtain ⟨start, ls, hls, hgroup, hflat, rfl | hhead⟩ := trees?_lexed htrees
  · exact ⟨ls, trees, hls, hgroup, htrees, constants_lexed hfound htrees hflat hls⟩
  · exact absurd hhead (head?_codeOf hmark)

theorem separate_pieces (hfound : constants source = .ok found) :
    Separate ((revised style found).map pieceOf) := by
  have h : Separate ((revised style found).map (literalOf source)) := separate_literals hfound
  constructor
  · intro e he
    obtain ⟨c, hc, rfl⟩ := List.mem_map.1 he
    have := h.proper _ (List.mem_map_of_mem hc)
    simp only [literalOf, pieceOf] at this ⊢
    omega
  · refine List.pairwise_map.2 ((List.pairwise_map.1 h.apart).imp ?_)
    intro c d hcd
    simp only [Splice.Apart, literalOf, pieceOf] at hcd ⊢
    omega

theorem map_literalOf (source : String) (l : List (Constant × String)) :
    l.map (literalOf source) = (l.map pieceOf).map (Splice.shift (lead source)) := by
  rw [List.map_map]
  rfl

/-- The literals that get a new text can be replaced without a change to what is read around them. -/
theorem Steady.renewable (h : Steady style source found) (hfound : constants source = .ok found) :
    Renewable (codeOf source) (revised style found) where
  separate := separate_pieces hfound
  readable c hc := by
    obtain ⟨hsql, hformat, -⟩ := newText?_eq_some (newText?_of_mem_revised hc)
    exact (h.settled c.1 (mem_of_mem_revised hc) hsql c.2 hformat).1
  gap c hc := by
    obtain ⟨ls, trees, -, -, -, hlexed⟩ := constants_lexemes hfound h.unmarked
    exact (hlexed c.1 (mem_of_mem_revised hc)).1
  starts c hc :=
    standsIn_startsText ((constants_inCode hfound).1 c.1 (mem_of_mem_revised hc)).standsIn
  stop_lt c hc := ((constants_inCode hfound).1 c.1 (mem_of_mem_revised hc)).stop_lt

theorem Steady.undisturbed (h : Steady style source found) (hfound : constants source = .ok found) :
    Undisturbed source (revised style found) := by
  have hmark : orderMark source.toList = [] := if_neg h.unmarked
  refine undisturbed_of_increasing hmark (fun c hc => (h.renewable hfound).start_lt hc) ?_
  have hsql : ((revised style found).map Prod.fst).filter (fun c => looksLikeSql c.value) =
      (revised style found).map Prod.fst := by
    rw [List.filter_eq_self]
    intro c hc
    obtain ⟨d, hd, rfl⟩ := List.mem_map.1 hc
    exact (newText?_eq_some (newText?_of_mem_revised hd)).1
  have hsub := (map_fst_revised_sublist style found).filter fun c => looksLikeSql c.value
  rw [hsql] at hsub
  have hordered := h.ordered.sublist hsub
  rwa [List.pairwise_map] at hordered

/-- The revised source is what stands in front of the code, and the code with the new literals. -/
theorem Steady.toList_layOut (h : Steady style source found) (hfound : constants source = .ok found)
    (hr : layOut style source = .ok r) :
    ∃ front, source.toList = front ++ codeOf source ∧ '\n' ∉ front ∧
      (front = [] ∨ codeOf source = [] ∨ ∃ rest, codeOf source = '\n' :: rest) ∧
      r.source.toList = front ++ renewCode (revised style found) (codeOf source) := by
  obtain ⟨front, hfront, hlead, hnewline, hcases⟩ := codeOf_front source
  have hmark : orderMark source.toList = [] := if_neg h.unmarked
  rw [hmark] at hcases
  refine ⟨front, hfront, hnewline, hcases, ?_⟩
  obtain ⟨found', hfound', hsource, -⟩ := layOut_eq hr
  rw [hfound] at hfound'
  cases hfound'
  have hrenew := h.renewable hfound
  have hseparate : Separate ((revised style found).map (literalOf source)) := separate_literals hfound
  have hstop : ∀ c ∈ (revised style found).map (cutOf source), c.stop ≤ source.toList.length := by
    intro c hc
    obtain ⟨d, hd, rfl⟩ := List.mem_map.1 hc
    have hstop := hrenew.stop_lt d hd
    have hlength := congrArg List.length hfront
    rw [List.length_append] at hlength
    simp only [cutOf, literalOf]
    omega
  have hkeep : replaceAll ((revised style found).map (literalOf source)) 0 front = front := by
    apply replaceAll_of_outside hseparate
    intro e he
    obtain ⟨d, -, rfl⟩ := List.mem_map.1 he
    simp only [literalOf]
    omega
  rw [hsource, cutAll_eq_replaceCuts (by rwa [map_toSplice_cutOf]) hstop
    (inPlace_of_undisturbed (h.undisturbed hfound)), replaceCuts, map_toSplice_cutOf]
  conv_lhs => rw [hfront]
  rw [replaceAll_append, hkeep, map_literalOf, ← hlead, replaceAll_shift, renewCode]

theorem codeOf_of_unmarked (h : source.toList.head? ≠ some '\uFEFF') :
    codeOf source = dropInterpreter source.toList := by
  have hmark := orderMark_append source.toList
  rw [orderMark, if_neg h, List.nil_append] at hmark
  rw [codeOf, hmark]

theorem dropInterpreter_of_not_startsWith {text : List Char} (h : startsWith text "#!" = false) :
    dropInterpreter text = text := by
  rw [dropInterpreter, h, Bool.false_and, if_neg Bool.false_ne_true]

theorem dropInterpreter_of_ne {text : List Char} (h : dropInterpreter text ≠ text) :
    dropInterpreter text = text.dropWhile (· != '\n') := by
  unfold dropInterpreter at h ⊢
  split
  · rfl
  · rename_i hif
    rw [if_neg hif] at h
    exact absurd rfl h

theorem dropWhile_line {front rest : List Char} (hfront : '\n' ∉ front)
    (hrest : rest = [] ∨ rest.head? = some '\n') : (front ++ rest).dropWhile (· != '\n') = rest := by
  have hline : ∀ c ∈ front, (c != '\n') = true := by
    intro c hc
    rw [bne_iff_ne]
    rintro rfl
    exact hfront hc
  rw [List.dropWhile_append_of_pos hline]
  obtain rfl | hhead := hrest
  · rfl
  · obtain ⟨r, rfl⟩ := List.head?_eq_some_iff.1 hhead
    rfl

/-- The code of the revised source, if that has an interpreter line exactly if the source has one. -/
theorem Steady.codeOf_layOut (h : Steady style source found) (hfound : constants source = .ok found)
    (hr : layOut style source = .ok r) (hinterpreter : startsWith source.toList "#!" →
      (codeOf r.source = r.source.toList ↔ codeOf source = source.toList)) :
    codeOf r.source = renewCode (revised style found) (codeOf source) := by
  have hrenew := h.renewable hfound
  obtain ⟨front, hfront, hnewline, hcases, hnew⟩ := h.toList_layOut hfound hr
  have hmark : r.source.toList.head? ≠ some '\uFEFF' := by
    rw [hnew, List.head?_append, hrenew.head?_renewCode, ← List.head?_append, ← hfront]
    exact h.unmarked
  by_cases hsame : codeOf source = source.toList
  · have hnil : front = [] := by
      rw [hsame] at hfront
      simpa using hfront
    rw [hnil, List.nil_append] at hnew
    cases hstart : startsWith source.toList "#!" with
    | true => rw [(hinterpreter hstart).2 hsame, hnew]
    | false =>
      rw [codeOf_of_unmarked hmark, hnew]
      refine dropInterpreter_of_not_startsWith (hrenew.startsWith_renewCode ?_)
      rwa [hsame]
  · have hstart : startsWith source.toList "#!" = true := by
      cases hstart : startsWith source.toList "#!" with
      | true => rfl
      | false =>
        rw [codeOf_of_unmarked h.unmarked] at hsame
        exact absurd (dropInterpreter_of_not_startsWith hstart) hsame
    have hskips : codeOf r.source ≠ r.source.toList := fun heq => hsame ((hinterpreter hstart).1 heq)
    rw [codeOf_of_unmarked hmark] at hskips ⊢
    rw [dropInterpreter_of_ne hskips, hnew]
    refine dropWhile_line hnewline ?_
    obtain rfl | hnil | ⟨rest, hrest⟩ := hcases
    · exact absurd hfront.symm hsame
    · rw [hnil]
      exact .inl rfl
    · refine .inr ?_
      rw [hrenew.head?_renewCode, hrest]
      rfl

/-! ### The second revision -/

theorem Steady.constants_layOut (h : Steady style source found) (hfound : constants source = .ok found)
    (hr : layOut style source = .ok r) (hinterpreter : startsWith source.toList "#!" →
      (codeOf r.source = r.source.toList ↔ codeOf source = source.toList))
    (hfences : ∀ c ∈ revised style found, fenceSize c.2.toList ≤ 255) :
    constants r.source = .ok (found.map (Constant.renew (h.renewable hfound).renewal)) := by
  obtain ⟨ls, trees, hls, hgroup, htrees, hlexed⟩ := constants_lexemes hfound h.unmarked
  refine constants_renew hfound ?_
  rw [h.codeOf_layOut hfound hr hinterpreter, htrees]
  exact (h.renewable hfound).trees?_renewCode (head?_codeOf h.unmarked) hls hgroup
    (fun c hc => .inr ⟨Nat.zero_le _, (hlexed c.1 (mem_of_mem_revised hc)).2⟩) hfences

theorem Steady.constants_layOut_error (h : Steady style source found)
    (hfound : constants source = .ok found) (hr : layOut style source = .ok r)
    (hinterpreter : startsWith source.toList "#!" →
      (codeOf r.source = r.source.toList ↔ codeOf source = source.toList))
    {c : Constant × String} (hc : c ∈ revised style found) (hfence : 255 < fenceSize c.2.toList) :
    constants r.source = .error "cannot parse string into token stream" := by
  obtain ⟨ls, trees, hls, hgroup, htrees, hlexed⟩ := constants_lexemes hfound h.unmarked
  rw [constants, h.codeOf_layOut hfound hr hinterpreter,
    (h.renewable hfound).trees?_renewCode_eq_none (head?_codeOf h.unmarked) hls
      (fun c hc => .inr ⟨Nat.zero_le _, (hlexed c.1 (mem_of_mem_revised hc)).2⟩) hc hfence]

/-- A constant whose text is in its layout has no edit. -/
theorem editOf_eq_none {c : Constant}
    (h : looksLikeSql c.value → format style (Text.trim c.value) = .ok c.value) :
    editOf style source c = .ok none := by
  unfold editOf
  cases hsql : looksLikeSql c.value with
  | false => rfl
  | true =>
    rw [h hsql]
    change (if c.value == c.value then pure none else _) = _
    rw [if_pos (beq_self_eq_true c.value)]
    rfl

/-- A constant without a new text has its text in its layout. -/
theorem format_of_editOf {c : Constant} {o : Option (Edit × Change)} (h : editOf style source c = .ok o)
    (hsql : looksLikeSql c.value) (hnone : newText? style c = none) :
    format style (Text.trim c.value) = .ok c.value := by
  unfold editOf at h
  simp only [hsql, Bool.not_true, Bool.false_eq_true, if_false] at h
  obtain ⟨text, htext, -⟩ := bind_eq_ok h
  unfold newText? at hnone
  rw [htext] at hnone
  have heq : text = c.value := by simpa [hsql] using hnone
  rw [htext, heq]

/-- Every constant has an edit or none. -/
theorem editOf_of_layOut (hfound : constants source = .ok found) (hr : layOut style source = .ok r) :
    ∀ c ∈ found, ∃ o, editOf style source c = .ok o := by
  rw [layOut_of_constants hfound] at hr
  obtain ⟨edits, hedits, -⟩ := bind_eq_ok hr
  exact exists_of_filterMapM_eq_ok hedits

theorem layOut_of_settled {l : List Constant} (hfound : constants source = .ok l)
    (h : ∀ c ∈ l, looksLikeSql c.value → format style (Text.trim c.value) = .ok c.value) :
    layOut style source = .ok ⟨source, []⟩ := by
  have hedits : l.filterMapM (editOf style source) = .ok [] :=
    filterMapM_eq_nil fun c hc => editOf_eq_none (h c hc)
  rw [layOut_of_constants hfound, hedits]
  simp [applyEdits, bind, Except.bind]

/-- The constants of a revised source have their texts in their layout. -/
theorem Steady.format_renew (h : Steady style source found) (hfound : constants source = .ok found)
    (hr : layOut style source = .ok r) {c : Constant} (hc : c ∈ found)
    (hsql : looksLikeSql (c.renew (h.renewable hfound).renewal).value) :
    format style (Text.trim (c.renew (h.renewable hfound).renewal).value) =
      .ok (c.renew (h.renewable hfound).renewal).value := by
  have hvalue : (c.renew (h.renewable hfound).renewal).value =
      (h.renewable hfound).renewal.value c.value c.start := rfl
  rw [hvalue] at hsql ⊢
  cases hnew : newText? style c with
  | some text =>
    have hmem : (c, text) ∈ revised style found :=
      List.mem_filterMap.2 ⟨c, hc, by rw [hnew]; rfl⟩
    obtain ⟨hold, hformat, -⟩ := newText?_eq_some hnew
    have htext := (h.renewable hfound).text?_of_mem hmem
    rw [Renewal.value, htext]
    exact (h.settled c hc hold text hformat).2
  | none =>
    have hother : ∀ d ∈ revised style found, d.1.start ≠ c.start := by
      intro d hd hstart
      have hsome := newText?_of_mem_revised hd
      rw [eq_of_start_eq hfound (mem_of_mem_revised hd) hc hstart, hnew] at hsome
      cases hsome
    have hkeep := (h.renewable hfound).text?_eq_none hother
    rw [Renewal.value, hkeep, Option.getD_none] at hsql ⊢
    obtain ⟨o, ho⟩ := editOf_of_layOut hfound hr c hc
    exact format_of_editOf ho hsql hnew

/-- **Stability.** A source whose texts are settled is revised once and for all exactly if none of its
new literals has more hashes than a raw literal may have. -/
theorem layOut_stable_iff (hr : layOut style source = .ok r) (hfound : constants source = .ok found)
    (hsteady : Steady style source found) (hinterpreter : startsWith source.toList "#!" →
      (codeOf r.source = r.source.toList ↔ codeOf source = source.toList)) :
    layOut style r.source = .ok ⟨r.source, []⟩ ↔
      ∀ c ∈ revised style found, fenceSize c.2.toList ≤ 255 := by
  constructor
  · intro hagain c hc
    by_contra hfence
    have herror := hsteady.constants_layOut_error hfound hr hinterpreter hc (Nat.not_le.1 hfence)
    rw [layOut, herror] at hagain
    cases hagain
  · intro hfences
    refine layOut_of_settled (hsteady.constants_layOut hfound hr hinterpreter hfences) ?_
    intro c hc hsql
    obtain ⟨d, hd, rfl⟩ := List.mem_map.1 hc
    exact hsteady.format_renew hfound hr hd hsql

/-- A revised select is left alone. -/
theorem layOut_select_settles :
    layOut {} "const A: &str = r#\"\nSELECT\n  1\n\"#;\n" =
      .ok ⟨"const A: &str = r#\"\nSELECT\n  1\n\"#;\n", []⟩ := by
  have hr : layOut {} "const A: &str = \"select 1\";\n" =
      .ok ⟨"const A: &str = r#\"\nSELECT\n  1\n\"#;\n", [⟨"A", 1⟩]⟩ := by decide +kernel
  have hfound : constants "const A: &str = \"select 1\";\n" = .ok [⟨"A", "select 1", 16, 26⟩] := by
    decide +kernel
  refine (layOut_stable_iff hr hfound (by decide +kernel) ?_).2 (by decide +kernel)
  exact fun h => absurd h (by decide +kernel)

/-- Whether a first line that starts with `#!` names an interpreter is told from what stands after the
comment that begins there. With the new literal that is a bracket, so the line counts as code. -/
theorem layOut_interpreter_breaks :
    ¬ ∀ (style : Style) (source : String) (r : Revision) (found : List Constant),
      layOut style source = .ok r → constants source = .ok found → Steady style source found →
      layOut style r.source = .ok ⟨r.source, []⟩ := by
  intro h
  have hagain := h {} "#!/*\nconst A: &str = \"select '*/\\x5b'\";\n"
    ⟨"#!/*\nconst A: &str = r#\"\nSELECT\n  '*/['\n\"#;\n", [⟨"A", 2⟩]⟩ [⟨"A", "select '*/['", 17, 34⟩]
    (by decide +kernel) (by decide +kernel) (by decide +kernel)
  exact absurd hagain (by decide +kernel)

end SqlLayout.Host
