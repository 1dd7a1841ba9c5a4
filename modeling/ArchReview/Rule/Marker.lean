import ArchReview.Settings.Basic

/-!
# Markers

Markers are words of the settings that some rules look for in a text. All markers of a rule go into
one pattern, as alternatives in the order of the settings, each escaped so that it stands for
itself. Without a marker that says anything there is no pattern, and nothing is found.
-/

namespace ArchReview.Marker

/-- The markers that say anything, without blanks around them. -/
def usable (markers : List String) : List (List Char) :=
  (markers.map fun m => Text.trim m.toList).filter fun m => !m.isEmpty

/-- The characters that mean something else than themselves in a pattern. -/
def metaCharacters : List Char := "\\.+*?()|[]\x7b\x7d^$#&-~".toList

def escape (marker : List Char) : List Char :=
  marker.flatMap fun c => if metaCharacters.contains c then ['\\', c] else [c]

/-- One pattern for all markers, in what stands before and behind them. -/
def pattern? (front back : String) (markers : List String) : Option String :=
  match usable markers with
  | []    => none
  | words => some (front ++ "|".intercalate (words.map fun w => String.ofList (escape w)) ++ back)

/-- Why the pattern of some markers is refused, if there is one and it is. -/
def refusal? (compiler : PatternCompiler) (name : String) (pattern : Option String) :
    Option String :=
  (pattern.bind compiler.refusal?).map fun reason => s!"invalid {name} marker pattern: {reason}"

end ArchReview.Marker
