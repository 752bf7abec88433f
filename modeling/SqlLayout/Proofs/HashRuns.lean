import SqlLayout.Proofs.RawLiterals

/-!
The fence around a raw text. The search for it ends, with one hash more than ever follow a quote in the
text, and then the first quote that so many hashes follow is the one after the text.
-/

namespace SqlLayout.Host

/-- The length of the longest run of hashes right behind a quote; zero if the text has no quote. -/
def longestRun : List Char → Nat
  | [] => 0
  | c :: r => if c = '"' then max (r.takeWhile (· == '#')).length (longestRun r) else longestRun r

/-- The search for a fence, come to `n` hashes, ends with `m`: while a quote with that many hashes
behind it is in the text, one hash more is tried. -/
inductive SearchEnds (text : List Char) : Nat → Nat → Prop
  | found {n : Nat} : ¬ closing n <:+: text → SearchEnds text n n
  | onward {n m : Nat} : closing n <:+: text → SearchEnds text (n + 1) m → SearchEnds text n m

variable {text : List Char} {n m m' : Nat}

theorem SearchEnds.unique (h : SearchEnds text n m) (h' : SearchEnds text n m') : m = m' := by
  induction h with
  | found hopen =>
    cases h' with
    | found => rfl
    | onward hclose => exact absurd hclose hopen
  | onward hclose _ ih =>
    cases h' with
    | found hopen => exact absurd hclose hopen
    | onward _ h' => exact ih h'

/-- By induction on how many hashes are still missing. -/
theorem searchEnds_fenceSize (text : List Char) : SearchEnds text 1 (fenceSize text) := by
  suffices h : ∀ missing n, 1 ≤ n → n + missing = fenceSize text →
      SearchEnds text n (fenceSize text) by
    have hpos : 1 ≤ fenceSize text := le_fenceFrom text text.length 1
    exact h (fenceSize text - 1) 1 (Nat.le_refl 1) (by omega)
  intro missing
  induction missing with
  | zero =>
    intro n hn hsize
    obtain rfl : n = fenceSize text := hsize
    exact .found ((fenceSize_le_iff hn).1 (Nat.le_refl _))
  | succ missing ih =>
    intro n hn hsize
    have hclose : closing n <:+: text := by
      by_contra hopen
      have hle := (fenceSize_le_iff hn).2 hopen
      omega
    exact .onward hclose (ih (n + 1) (by omega) (by omega))

theorem replicate_prefix_iff (n : Nat) (text : List Char) :
    List.replicate n '#' <+: text ↔ n ≤ (text.takeWhile (· == '#')).length := by
  induction text generalizing n with
  | nil => simp
  | cons c r ih =>
    cases n with
    | zero => simp
    | succ n =>
      rw [List.replicate_succ, List.cons_prefix_cons, ih]
      by_cases hc : c = '#'
      · simp [hc]
      · have hne : ¬ '#' = c := fun h => hc h.symm
        simp [hc, hne]

/-- The text is closed early by as many hashes as follow one of its quotes. -/
theorem closing_infix_iff (hpos : 1 ≤ n) : closing n <:+: text ↔ n ≤ longestRun text := by
  induction text with
  | nil => simp [closing, longestRun]; omega
  | cons c r ih =>
    rw [List.infix_cons_iff, closing, List.cons_prefix_cons, replicate_prefix_iff, ← closing, ih, longestRun]
    by_cases hc : c = '"'
    · simp [hc]
    · have hne : ¬ '"' = c := fun h => hc h.symm
      simp [hc, hne]

/-- A fence has one hash more than the longest run. -/
theorem fenceSize_eq (text : List Char) : fenceSize text = 1 + longestRun text := by
  have hleast (m : Nat) (hm : 1 ≤ m) : fenceSize text ≤ m ↔ 1 + longestRun text ≤ m := by
    rw [fenceSize_le_iff hm, closing_infix_iff hm]
    omega
  have hpos : 1 ≤ fenceSize text := le_fenceFrom text text.length 1
  have hle := (hleast _ hpos).1 (Nat.le_refl _)
  have hge := (hleast (1 + longestRun text) (Nat.le_add_right 1 _)).2 (Nat.le_refl _)
  omega

/-- After the text there is no quote but the first character. -/
theorem closing_prefix_drop_closing {k q : Nat} (h : closing n <+: (closing k).drop q) : q = 0 := by
  cases q with
  | zero => rfl
  | succ q =>
    have hmem : '"' ∈ List.replicate k '#' := List.mem_of_mem_drop (h.subset List.mem_cons_self)
    exact absurd (List.eq_of_mem_replicate hmem) (by decide)

/-- The search for the fence of a text ends, with one hash more than the longest run that follows a
quote of the text. A raw literal for the text has that fence on both sides, and its text reaches up to
the first quote that the fence follows. -/
theorem fence_ends_search (w : String) :
    fenceSize w.toList = 1 + longestRun w.toList ∧
    (∀ m, SearchEnds w.toList 1 m ↔ m = fenceSize w.toList) ∧
    (rawLiteral w).toList =
      'r' :: (List.replicate (fenceSize w.toList) '#' ++ '"' :: (w.toList ++ closing (fenceSize w.toList))) ∧
    ∀ q, closing (fenceSize w.toList) <+: (w.toList ++ closing (fenceSize w.toList)).drop q ↔
      q = w.toList.length := by
  have hends : SearchEnds w.toList 1 (fenceSize w.toList) := searchEnds_fenceSize w.toList
  refine ⟨fenceSize_eq w.toList, fun m => ⟨fun h => h.unique hends, fun h => h ▸ hends⟩,
    toList_rawLiteral w, fun q => ?_⟩
  constructor
  · intro hclose
    have hge : w.toList.length ≤ q := closing_prefix_le (closing_absent w.toList) hclose
    rw [List.drop_append, List.drop_eq_nil_of_le hge, List.nil_append] at hclose
    have := closing_prefix_drop_closing hclose
    omega
  · rintro rfl
    rw [List.drop_left]

/-- A quote with one hash asks for two. -/
example : rawLiteral "say \"#hi\"" = "r##\"say \"#hi\"\"##" := by
  decide

end SqlLayout.Host
