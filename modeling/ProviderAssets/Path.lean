/-!
# Paths of files

A path is a text of names between slashes. Joining an absolute path to another one gives the former.
-/

namespace ProviderAssets

/-- A path of a file or a directory. -/
structure Path where
  /-- The parts of the path with slashes between them. -/
  text : String
  deriving DecidableEq, Inhabited

namespace Path

/-- Whether a path begins at the root of all paths. -/
def isAbsolute (p : Path) : Bool := p.text.toList.head? = some '/'

/-- The path that leads to `q` from `p`. -/
def join (p : Path) (q : String) : Path :=
  if (Path.mk q).isAbsolute || p.text.isEmpty then ⟨q⟩
  else if p.text.toList.getLast? = some '/' then ⟨p.text ++ q⟩
  else ⟨p.text ++ "/" ++ q⟩

/-- The path in reverse, without what at its end does not lead on: slashes and names that are a
dot. Of an absolute path the first slash stays. -/
def trimEnd : List Char → List Char
  | [] => []
  | ['/'] => ['/']
  | ['.', '/'] => ['/']
  | '/' :: rest => trimEnd rest
  | '.' :: '/' :: rest => trimEnd ('/' :: rest)
  | cs => cs

/-- The directory that a path leads through last, if it leads through one. -/
def parent? (p : Path) : Option Path :=
  let cs := trimEnd p.text.toList.reverse
  if cs.isEmpty || cs = ['/'] then none
  else some ⟨String.ofList (trimEnd (cs.dropWhile (· ≠ '/'))).reverse⟩

end Path

end ProviderAssets
