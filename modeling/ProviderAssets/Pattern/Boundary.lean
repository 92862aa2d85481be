import ProviderAssets.Pattern.Basic

/-!
# Boundaries

The conditions that a pattern can put on a position: the ends of the text, of its lines and of its
words.
-/

namespace ProviderAssets.Boundary

/-- The beginning of the text. -/
def textStart : Boundary := fun before _ => before.isNone

/-- The end of the text. -/
def textEnd : Boundary := fun _ after => after.isNone

/-- The beginning of a line, where lines end in newlines. -/
def lineStart : Boundary := fun before _ => before.all (· = '\n')

/-- The end of a line, where lines end in newlines. -/
def lineEnd : Boundary := fun _ after => after.all (· = '\n')

/-- The beginning of a line, where lines end in carriage returns, newlines or one after the
other. -/
def lineStartAny : Boundary := fun before after =>
  match before with
  | none => true
  | some b => b = '\n' || (b = '\r' && after ≠ some '\n')

/-- The end of a line, where lines end in carriage returns, newlines or one after the other. -/
def lineEndAny : Boundary := fun before after =>
  match after with
  | none => true
  | some a => a = '\r' || (a = '\n' && before ≠ some '\r')

variable (word : CharSet)

/-- The beginning or the end of a word. -/
def wordEdge : Boundary := fun before after => before.any word != after.any word

/-- No edge of a word. -/
def noWordEdge : Boundary := fun before after => before.any word == after.any word

/-- The beginning of a word. -/
def wordStart : Boundary := fun before after => !before.any word && after.any word

/-- The end of a word. -/
def wordEnd : Boundary := fun before after => before.any word && !after.any word

/-- No word before. -/
def wordStartHalf : Boundary := fun before _ => !before.any word

/-- No word after. -/
def wordEndHalf : Boundary := fun _ after => !after.any word

end ProviderAssets.Boundary
