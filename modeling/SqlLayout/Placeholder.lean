import SqlLayout.Text.Basic

/-!
Named parameters such as `:name`. The grammar has no place for them, so the colon becomes a marker
that makes the parameter a plain name, and the marker becomes a colon again in the result. The two
colons of a cast are kept apart by a marker of their own in between.
-/

namespace SqlLayout.Placeholder

/-- Stands for the two colons of a cast while single colons are replaced. -/
def castMarker : String := "castpre_"

/-- Stands for the colon of a named parameter. -/
def paramMarker : String := "ttpre_"

/-- Turns `:name` into a plain name and leaves casts alone. -/
def normalize (text : String) : String :=
  Text.replaceAll castMarker "::"
    (Text.replaceAll ":" paramMarker (Text.replaceAll "::" castMarker text))

/-- Turns the marker of a named parameter back into a colon. -/
def restore (text : String) : String :=
  Text.replaceAll paramMarker ":" text

end SqlLayout.Placeholder
