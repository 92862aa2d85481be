/-!
# Cutting text

Cutting a text at a character, at its first line, and at the newlines at its end; joining texts.
-/

namespace ProviderAssets.Text

/-- The text before the first `c` and the text after it. -/
def splitFirst (c : Char) (s : String) : Option (String × String) :=
  let before := s.toList.takeWhile (· ≠ c)
  match s.toList.drop before.length with
  | _ :: after => some (String.ofList before, String.ofList after)
  | [] => none

/-- The text without the newlines at its end. -/
def trimNewlines (s : String) : String :=
  String.ofList ((s.toList.reverse.dropWhile (· = '\n')).reverse)

/-- The text with exactly one newline at its end. -/
def endLine (s : String) : String := trimNewlines s ++ "\n"

/-- The text before the first newline. -/
def firstLine (s : String) : String := String.ofList (s.toList.takeWhile (· ≠ '\n'))

/-- The text between single quotes of the grave kind, as messages name things. -/
def ticked (s : String) : String := "\x60" ++ s ++ "\x60"

/-- The texts one after the other, with `separator` between them. -/
def joinWith (separator : String) : List String → String
  | [] => ""
  | [s] => s
  | s :: rest => s ++ separator ++ joinWith separator rest

/-- Whether `needle` is a part of the text. -/
def hasPart (needle : List Char) : List Char → Bool
  | [] => needle.isEmpty
  | c :: cs => needle.isPrefixOf (c :: cs) || hasPart needle cs

/-- The text of bytes in UTF-8. -/
def ofBytes? (bytes : List UInt8) : Option String := String.fromUTF8? ⟨bytes.toArray⟩

end ProviderAssets.Text
