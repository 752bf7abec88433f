/-!
Small operations on text that the other modules share: joining with a separator, replacing every
occurrence of a piece of text, and comparisons that ignore the case of ASCII letters.
-/

namespace SqlLayout.Text

/-- What holds for all characters of a list is decided along the list, not over all characters. -/
instance (priority := high) decidableForallChar (cs : List Char) (p : Char → Prop) [DecidablePred p] :
    Decidable (∀ c ∈ cs, p c) :=
  List.decidableBAll p cs

/-- The pieces in order with `sep` between neighbours. -/
def joinWith (sep : String) : List String → String
  | [] => ""
  | [s] => s
  | s :: t :: r => s ++ sep ++ joinWith sep (t :: r)

/-- The pieces in order with a comma and a blank between neighbours. -/
abbrev commas : List String → String :=
  joinWith ", "

/-- `n` copies of a text, one after the other. -/
def replicate (s : String) : Nat → String
  | 0 => ""
  | n + 1 => s ++ replicate s n

/-- Walks along a text; `skip` counts the characters of an occurrence that are still to be passed. -/
def replaceFrom (old new : List Char) : Nat → List Char → List Char
  | _, [] => []
  | k + 1, _ :: r => replaceFrom old new k r
  | 0, c :: r =>
    if old.isPrefixOf (c :: r) then new ++ replaceFrom old new (old.length - 1) r
    else c :: replaceFrom old new 0 r

/-- Every occurrence of `old`, found from left to right and without overlaps, becomes `new`.
`old` must not be empty. -/
def replaceAll (old new : String) (s : String) : String :=
  String.ofList (replaceFrom old.toList new.toList 0 s.toList)

/-- Every occurrence of one character is replaced on its own. -/
theorem replaceFrom_singleton (a : Char) (new cs : List Char) :
    replaceFrom [a] new 0 cs = cs.flatMap fun c => if c = a then new else [c] := by
  induction cs with
  | nil => rfl
  | cons c r ih =>
    by_cases hc : c = a
    · simp [replaceFrom, hc, ih]
    · have hne : ¬ a = c := fun h => hc h.symm
      simp [replaceFrom, hc, hne, ih]

/-- The text with its ASCII letters in upper case. -/
def asciiUpper (s : String) : String :=
  String.ofList (s.toList.map Char.toUpper)

/-- The text with its ASCII letters in lower case. -/
def asciiLower (s : String) : String :=
  String.ofList (s.toList.map Char.toLower)

/-- Equality up to the case of ASCII letters. -/
def eqIgnoreCase (s t : String) : Bool :=
  asciiLower s == asciiLower t

/-- Whether the number of a character lies in one of the ranges, ends included. -/
def inRanges (ranges : List (Nat × Nat)) (c : Char) : Bool :=
  ranges.any fun (low, high) => low ≤ c.toNat && c.toNat ≤ high

/-- Unicode's white space. -/
def isBlank (c : Char) : Bool :=
  let n := c.toNat
  (9 ≤ n && n ≤ 13) || n == 0x20 || n == 0x85 || n == 0xA0 || n == 0x1680 ||
    (0x2000 ≤ n && n ≤ 0x200A) || n == 0x2028 || n == 0x2029 || n == 0x202F || n == 0x205F ||
    n == 0x3000

/-- The text without white space at either end. -/
def trim (s : String) : String :=
  String.ofList ((s.toList.dropWhile isBlank).reverse.dropWhile isBlank).reverse

/-- The first maximal run of characters that are not white space; empty when there is none. -/
def firstWord (s : String) : String :=
  String.ofList ((s.toList.dropWhile isBlank).takeWhile (!isBlank ·))

end SqlLayout.Text
