import Mathlib.Data.List.Infix
import SqlLayout.Proofs.Revision

/-!
A new literal is never the old one. A raw literal is read up to the first quote that its hashes follow,
so two texts do not share a raw literal, and a source in which some literal is replaced is another one.
-/

namespace SqlLayout.Host

/-- The characters that close a raw text. -/
def closing (n : Nat) : List Char :=
  '"' :: List.replicate n '#'

theorem closesAt_iff (n : Nat) (text : List Char) :
    closesAt n text = true ↔ ∃ q, closing n <+: text.drop q := by
  induction text with
  | nil => simp [closesAt, closing]
  | cons c r ih =>
    have hhere : (c == '"' && (List.replicate n '#').isPrefixOf r) = true ↔ closing n <+: c :: r := by
      rw [Bool.and_eq_true, beq_iff_eq, List.isPrefixOf_iff_prefix, closing, List.cons_prefix_cons, eq_comm]
    rw [closesAt, Bool.or_eq_true, hhere, ih]
    constructor
    · rintro (h | ⟨q, hq⟩)
      · exact ⟨0, h⟩
      · exact ⟨q + 1, hq⟩
    · rintro ⟨_ | q, hq⟩
      · exact .inl hq
      · exact .inr ⟨q, hq⟩

theorem fenceFrom_of_closesAt {text : List Char} {fuel n : Nat}
    (h : closesAt (fenceFrom text fuel n) text = true) : fenceFrom text fuel n = n + fuel := by
  induction fuel generalizing n with
  | zero => rfl
  | succ fuel ih =>
    rw [fenceFrom] at h ⊢
    split at h
    · rename_i hclose
      rw [if_pos hclose, ih h]
      omega
    · rename_i hopen
      exact absurd h hopen

/-- The hashes around a raw text close it nowhere in the text. -/
theorem closing_absent (text : List Char) (q : Nat) :
    ¬ closing (fenceSize text) <+: text.drop q := by
  intro hq
  have hclose := (closesAt_iff (fenceSize text) text).2 ⟨q, hq⟩
  have hsize : fenceSize text = 1 + text.length := fenceFrom_of_closesAt hclose
  have hlength := hq.length_le
  simp only [closing, List.length_cons, List.length_replicate, List.length_drop, hsize] at hlength
  omega

/-- A raw text ends at the first place where its fence closes it. -/
theorem rawEnd?_eq_some {fence cs : List Char} {n m : Nat}
    (h : rawEnd? (fun _ => true) fence n cs = some m) :
    ∃ p, m = n + p + 1 + fence.length ∧ '"' :: fence <+: cs.drop p ∧
      ∀ q < p, ¬ '"' :: fence <+: cs.drop q := by
  fun_induction rawEnd? (fun _ => true) fence n cs with
  | case1 => cases h
  | case2 n r ih =>
    obtain ⟨p, hm, hclose, hfirst⟩ := ih h
    refine ⟨p + 2, by omega, hclose, ?_⟩
    rintro (_ | _ | q) hq hprefix
    · simp at hprefix
    · simp at hprefix
    · exact hfirst q (by omega) hprefix
  | case3 n c r _ hclose =>
    rw [Bool.and_eq_true, beq_iff_eq, List.isPrefixOf_iff_prefix] at hclose
    refine ⟨0, by injection h; omega, ?_, fun q hq => absurd hq (Nat.not_lt_zero q)⟩
    rw [hclose.1]
    exact (List.cons_prefix_cons.2 ⟨rfl, hclose.2⟩)
  | case4 => cases h
  | case5 n c r _ hopen _ _ ih =>
    obtain ⟨p, hm, hclose, hfirst⟩ := ih h
    refine ⟨p + 1, by omega, hclose, ?_⟩
    rintro (_ | q) hq hprefix
    · obtain ⟨hc, hfence⟩ := List.cons_prefix_cons.1 hprefix
      rw [Bool.and_eq_true, beq_iff_eq, List.isPrefixOf_iff_prefix] at hopen
      exact hopen ⟨hc.symm, hfence⟩
    · exact hfirst q (by omega) hprefix
  | case6 => cases h

theorem toList_replicate_hash (n : Nat) : (Text.replicate "#" n).toList = List.replicate n '#' := by
  induction n with
  | zero => rfl
  | succ n ih =>
    rw [Text.replicate, String.toList_append, ih]
    rfl

/-- The characters of a raw literal. -/
theorem toList_rawLiteral (t : String) :
    (rawLiteral t).toList = 'r' :: (List.replicate (fenceSize t.toList) '#' ++
      '"' :: (t.toList ++ closing (fenceSize t.toList))) := by
  simp [rawLiteral, closing, toList_replicate_hash]

/-- The value of a raw text is what stands in front of the first place that closes it. -/
theorem textOf_raw {text : String} {cs : List Char} (hcs : text.toList = 'r' :: cs)
    (hne : textOf text ≠ "") :
    ∃ fence d body p, cs = fence ++ d :: body ∧ (∀ x ∈ fence, x = '#') ∧ d ≠ '#' ∧
      (textOf text).toList = body.take p ∧ '"' :: fence <+: body.drop p ∧
      ∀ q < p, ¬ '"' :: fence <+: body.drop q := by
  have htext : textOf text =
      let fence := cs.takeWhile (· == '#')
      let body := cs.drop (fence.length + 1)
      String.ofList (body.take ((rawEnd? (fun _ => true) fence 0 body).getD 0 - 1 - fence.length)) := by
    rw [textOf, hcs]
    rfl
  have hsplit : cs.takeWhile (· == '#') ++ cs.dropWhile (· == '#') = cs :=
    List.takeWhile_append_dropWhile
  have hfence : ∀ x ∈ cs.takeWhile (· == '#'), x = '#' := fun x hx => by
    simpa using List.mem_takeWhile_imp hx
  have hhead := List.head_dropWhile_not (· == '#') (l := cs)
  generalize cs.takeWhile (· == '#') = fence at htext hsplit hfence
  generalize cs.dropWhile (· == '#') = after at hsplit hhead
  subst hsplit
  cases after with
  | nil => simp [htext] at hne
  | cons d body =>
    have hbody : (fence ++ d :: body).drop (fence.length + 1) = body := by simp
    simp only [hbody] at htext
    cases hend : rawEnd? (fun _ => true) fence 0 body with
    | none => simp [htext, hend] at hne
    | some m =>
      obtain ⟨p, hm, hclose, hfirst⟩ := rawEnd?_eq_some hend
      have hlength : (some m).getD 0 - 1 - fence.length = p := by
        rw [Option.getD_some]
        omega
      refine ⟨fence, d, body, p, rfl, hfence, ?_, ?_, hclose, hfirst⟩
      · simpa using hhead (List.cons_ne_nil d body)
      · rw [htext, hend, hlength, String.toList_ofList]

/-- A closing fence after a text without one does not start in the text. -/
theorem closing_prefix_le {n q : Nat} {text r : List Char} (htext : ∀ q, ¬ closing n <+: text.drop q)
    (h : closing n <+: (text ++ '"' :: r).drop q) : text.length ≤ q := by
  by_contra hlt
  rw [Nat.not_le] at hlt
  rw [List.drop_append_of_le_length (Nat.le_of_lt hlt)] at h
  obtain ⟨rest, hrest⟩ := h
  obtain ⟨beyond, hbeyond, hnext⟩ | ⟨beyond, hbeyond, hnext⟩ := List.append_eq_append_iff.1 hrest
  · exact htext q ⟨beyond, hbeyond.symm⟩
  · cases beyond with
    | nil => exact htext q ⟨[], by simpa using hbeyond⟩
    | cons c beyond =>
      -- The quote after the text would be one of the hashes.
      obtain ⟨d, ds, hd⟩ := List.exists_cons_of_length_pos (l := text.drop q) (by simp; omega)
      have hc : '"' = c := (List.cons.inj hnext).1
      rw [closing, hd, List.cons_append, ← hc] at hbeyond
      have hmem : '"' ∈ List.replicate n '#' := by
        rw [(List.cons.inj hbeyond).2]
        simp
      exact absurd (List.eq_of_mem_replicate hmem) (by decide)

/-- Where a run of hashes ends in front of another character can be told from the text. -/
theorem hashes_unique {fence cs ds : List Char} {n : Nat} {c d : Char} (hfence : ∀ x ∈ fence, x = '#')
    (hc : c ≠ '#') (hd : d ≠ '#') (h : fence ++ c :: cs = List.replicate n '#' ++ d :: ds) :
    fence = List.replicate n '#' ∧ cs = ds := by
  have hrun {fence : List Char} (cs : List Char) {c : Char} (hfence : ∀ x ∈ fence, x = '#') (hc : c ≠ '#') :
      (fence ++ c :: cs).takeWhile (· == '#') = fence := by
    rw [List.takeWhile_append_of_pos (by simpa using hfence)]
    simp [hc]
  have heq : fence = List.replicate n '#' := by
    rw [← hrun cs hfence hc, h, hrun ds (fun x hx => List.eq_of_mem_replicate hx) hd]
  rw [heq] at h
  exact ⟨heq, (List.cons.inj (List.append_cancel_left h)).2⟩

/-- A raw text with a part of a raw literal in front of it ends where that literal ends. -/
theorem take_eq_of_closing {body rest rest' text : List Char} {n p : Nat}
    (h : body ++ rest = text ++ '"' :: rest') (htext : ∀ q, ¬ closing n <+: text.drop q)
    (hend : closing n <+: '"' :: rest') (hclose : closing n <+: body.drop p)
    (hfirst : ∀ q < p, ¬ closing n <+: body.drop q) : body.take p = text := by
  have hroom : p + (closing n).length ≤ body.length := by
    have hlength := hclose.length_le
    have hpos : 0 < (closing n).length := Nat.succ_pos _
    rw [List.length_drop] at hlength
    omega
  have hle : text.length ≤ p := by
    apply closing_prefix_le htext (r := rest')
    rw [← h, List.drop_append_of_le_length (by omega)]
    exact hclose.trans (List.prefix_append _ _)
  have hge : p ≤ text.length := by
    by_contra hlt
    rw [Nat.not_le] at hlt
    refine hfirst text.length hlt ?_
    have hdrop : body.drop text.length ++ rest = '"' :: rest' := by
      rw [← List.drop_append_of_le_length (by omega), h, List.drop_left]
    refine List.prefix_of_prefix_length_le hend (hdrop ▸ List.prefix_append _ _) ?_
    rw [List.length_drop]
    omega
  have hp : p = text.length := Nat.le_antisymm hge hle
  have htake := congrArg (List.take p) h
  rwa [List.take_append_of_le_length (by omega), hp, List.take_left, ← hp] at htake

/-- A text whose literal starts like a raw literal is that raw literal's text. -/
theorem textOf_eq_of_prefix {text t : String} {rest rest' : List Char} (hne : textOf text ≠ "")
    (h : text.toList ++ rest = (rawLiteral t).toList ++ rest') : textOf text = t := by
  rw [toList_rawLiteral] at h
  cases hcs : text.toList with
  | nil =>
    rw [String.toList_eq_nil_iff] at hcs
    exact absurd (by rw [hcs]; rfl) hne
  | cons c cs =>
    rw [hcs] at h
    obtain ⟨hc, h⟩ := List.cons.inj h
    subst hc
    obtain ⟨fence, d, body, p, rfl, hfence, hd, htext, hclose, hfirst⟩ := textOf_raw hcs hne
    have hrun : fence ++ d :: (body ++ rest) = List.replicate (fenceSize t.toList) '#' ++
        '"' :: (t.toList ++ (closing (fenceSize t.toList) ++ rest')) := by
      simpa using h
    obtain ⟨rfl, hbody⟩ := hashes_unique hfence hd (by decide) hrun
    have hwhole : body.take p = t.toList :=
      take_eq_of_closing hbody (closing_absent t.toList) (List.prefix_append _ _) hclose hfirst
    rw [hwhole] at htext
    exact String.toList_inj.1 htext

/-! ### Revised sources -/

theorem le_fenceFrom (text : List Char) (fuel n : Nat) : n ≤ fenceFrom text fuel n := by
  induction fuel generalizing n with
  | zero => exact Nat.le_refl n
  | succ fuel ih =>
    rw [fenceFrom]
    split
    · exact Nat.le_trans (Nat.le_succ n) (ih (n + 1))
    · exact Nat.le_refl n

theorem rawLiteral_tail (t : String) : ∃ r, (rawLiteral t).toList = 'r' :: '#' :: r := by
  obtain ⟨n, hn⟩ := Nat.exists_eq_add_of_le (le_fenceFrom t.toList t.toList.length 1)
  have hsize : fenceSize t.toList = n + 1 := by
    rw [fenceSize, hn, Nat.add_comm]
  rw [toList_rawLiteral, hsize]
  exact ⟨_, rfl⟩

theorem head_of_isText {text : String} (h : isText text) :
    ∃ c r, text.toList = c :: r ∧ c ≠ '#' := by
  rw [isText, Bool.or_eq_true, String.startsWith_string_iff, String.startsWith_string_iff] at h
  obtain ⟨r, hr⟩ | ⟨r, hr⟩ := h
  · exact ⟨'"', r, hr.symm, by decide⟩
  · exact ⟨'r', r, hr.symm, by decide⟩

/-- A constant with a new text holds SQL, and its new text is not the old one. -/
theorem ne_of_mem_revised {style : Style} {found : List Constant} {c : Constant × String}
    (h : c ∈ revised style found) : c.1.value ≠ "" ∧ c.2 ≠ c.1.value := by
  obtain ⟨hsql, -, hne⟩ := newText?_eq_some (newText?_of_mem_revised h)
  refine ⟨?_, hne⟩
  intro hempty
  rw [hempty] at hsql
  exact absurd hsql (by decide)

theorem markShift_le_one (source : String) (i : Nat) : markShift source i ≤ 1 := by
  unfold markShift orderMark
  split
  · split
    · exact Nat.le_refl 1
    · exact Nat.zero_le 1
  · exact Nat.zero_le 1

/-- The new literal of a constant does not stand in the source where the old one is looked for. -/
theorem new_absent {style : Style} {source : String} {found : List Constant}
    (hfound : constants source = .ok found) {c : Constant × String} (hc : c ∈ revised style found) :
    ¬ (cutOf source c).new <+: source.toList.drop (cutOf source c).first := by
  obtain ⟨hvalue, hne⟩ := ne_of_mem_revised hc
  have hcode := ((constants_inCode hfound).1 c.1 (mem_of_mem_revised hc)).standsIn
  obtain ⟨text, htext, htextOf, hslice⟩ := standsIn_source hcode
  have hlead := markShift_le_lead source c.1.start
  have hone := markShift_le_one source c.1.start
  have hold : ∃ rest, text.toList ++ rest = source.toList.drop (c.1.start + lead source) := by
    rw [hslice]
    exact ⟨_, List.take_append_drop _ _⟩
  obtain ⟨rest, hold⟩ := hold
  rintro ⟨rest', hnew⟩
  have hfirst : (cutOf source c).first = c.1.start + lead source - markShift source c.1.start := rfl
  have hliteral : (cutOf source c).new = (rawLiteral c.2).toList := by
    rw [cutOf, literalOf]
  rw [hfirst, hliteral] at hnew
  obtain hzero | hshift : markShift source c.1.start = 0 ∨ markShift source c.1.start = 1 := by omega
  · rw [hzero, Nat.sub_zero, ← hold] at hnew
    have htextOf' : textOf text = c.1.value := htextOf
    have hsame := textOf_eq_of_prefix (htextOf' ▸ hvalue) hnew.symm
    exact hne (hsame.symm.trans htextOf')
  -- One character too early the new literal would have its first hash at the start of the old one.
  · obtain ⟨r, hr⟩ := rawLiteral_tail c.2
    obtain ⟨x, t, ht, hx⟩ := head_of_isText htext
    have hnext := congrArg (List.drop 1) hnew
    rw [List.drop_drop, hshift, Nat.sub_add_cancel (by omega), ← hold, hr, ht] at hnext
    exact hx (List.cons.inj hnext).1.symm

/-- By induction on the cuts, the first of which is made last: where it is made, the text differs from
the source. -/
theorem cutAll_absent {style : Style} {source : String} {found : List Constant}
    (hfound : constants source = .ok found) : ∀ l ⊆ revised style found, l ≠ [] →
    ¬ cutAll (l.map (cutOf source)) source.toList <+: source.toList := by
  intro l
  induction l with
  | nil => exact fun _ h => absurd rfl h
  | cons c l ih =>
    intro hsub _ hprefix
    have hc : c ∈ revised style found := hsub List.mem_cons_self
    have hsub' : l ⊆ revised style found := fun x hx => hsub (List.mem_cons_of_mem c hx)
    have hstep : cutAll ((c :: l).map (cutOf source)) source.toList =
        (cutOf source c).apply (cutAll (l.map (cutOf source)) source.toList) := rfl
    rw [hstep, Cut.apply] at hprefix
    generalize htext : cutAll (l.map (cutOf source)) source.toList = text at hprefix
    obtain hlt | hle := Nat.lt_or_ge text.length (cutOf source c).first
    · rw [List.take_of_length_le (Nat.le_of_lt hlt), List.append_assoc] at hprefix
      have hrest : text <+: source.toList := (List.prefix_append _ _).trans hprefix
      cases l with
      | nil =>
        have hsource : source.toList = text := htext
        have hcode := (constants_inCode hfound).1 c.1 (mem_of_mem_revised hc)
        have hstart : c.1.start < c.1.stop := hcode.standsIn.start_lt
        have hstop : c.1.stop < (codeOf source).length := hcode.stop_lt
        obtain ⟨front, hfront, hlead, -⟩ := codeOf_front source
        have hlength := congrArg List.length hfront
        have hfirst : (cutOf source c).first ≤ c.1.start + lead source := Nat.sub_le _ _
        rw [List.length_append, hsource] at hlength
        omega
      | cons d l => exact ih hsub' (List.cons_ne_nil d l) (htext ▸ hrest)
    · have hdrop := List.IsPrefix.drop hprefix (cutOf source c).first
      rw [List.append_assoc, List.drop_append_of_le_length (by simp; omega),
        List.drop_eq_nil_of_le (List.length_take_le _ _), List.nil_append] at hdrop
      exact new_absent hfound hc ((List.prefix_append _ _).trans hdrop)

/-- A revision that reports a constant changes the source. -/
theorem layOut_source_ne {style : Style} {source : String} {r : Revision}
    (h : layOut style source = .ok r) (hchanged : r.isChanged) : r.source ≠ source := by
  obtain ⟨found, hfound, hsource, hchanges⟩ := layOut_eq h
  have hne : revised style found ≠ [] := by
    rintro hnil
    simp [Revision.isChanged, hchanges, hnil] at hchanged
  rintro hsame
  apply cutAll_absent hfound (revised style found) (List.Subset.refl _) hne
  rw [← hsource, hsame]

end SqlLayout.Host
