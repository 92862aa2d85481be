import ProviderAssets.Mismatch
import ProviderAssets.Yaml.Fault

/-!
# Errors of reading a document

A document cannot be read because its text has a fault, because a value in it does not fit, or
because it nests or repeats too much. A value that does not fit is named by its path and place.
-/

namespace ProviderAssets.Yaml

/-- The way from the root of a document to a value. -/
inductive Path where
  | root
  | item (parent : Path) (index : Nat)
  | field (parent : Path) (key : String)
  /-- The value of a key that is no scalar. -/
  | unknown (parent : Path)
  deriving DecidableEq, Inhabited

/-- The text of a path. -/
def Path.text : Path → String
  | root => "."
  | item parent index => parent.text ++ "[" ++ toString index ++ "]"
  | field root key => key
  | field parent key => parent.text ++ "." ++ key
  | unknown root => "?"
  | unknown parent => parent.text ++ ".?"

/-- An error of reading a document. -/
inductive Error where
  | fault (f : Fault)
  /-- A value that does not fit; `site` is where it stands, if that is known. -/
  | mismatch (m : Mismatch) (site : Option (Mark × Path))
  | depth (mark : Mark)
  | repetition
  | noDocument
  | severalDocuments

namespace Error

/-- An error that names no site yet gets one. -/
def locate (mark : Mark) (path : Path) : Error → Error
  | mismatch m none => mismatch m (some (mark, path))
  | e => e

/-- The message. -/
def message : Error → String
  | fault f => f.message
  | mismatch m none => m.message .general
  | mismatch m (some (mark, path)) =>
    (if path = .root then "" else path.text ++ ": ") ++ m.message .general ++ mark.clause
  | depth mark => "recursion limit exceeded" ++ mark.clause
  | repetition => "repetition limit exceeded"
  | noDocument => "EOF while parsing a value"
  | severalDocuments =>
    "deserializing from YAML containing more than one document is not supported"

end Error

end ProviderAssets.Yaml
