import ProviderAssets.Import

/-!
# The command line

The program has two commands. `import` makes the assets of providers, `image-key` prints the key of
an image. Options have long names and a value each, given as the next argument or after an equals
sign; after two hyphens all arguments are positional.
-/

namespace ProviderAssets

open Yaml (Decode)

namespace CommandLine

/-- Why arguments are refused. -/
inductive UsageError where
  | noCommand
  | unknownCommand (name : String)
  | unexpectedArgument (text : String)
  | missingValue (option : String)
  | repeatedOption (option : String)
  | invalidValue (value option reason : String)
  | missingArguments
  deriving DecidableEq

/-- An option with its value, as messages name it. -/
def described (option : String) : String :=
  "'--" ++ option ++ " <" ++ String.ofList (option.toList.map Char.toUpper) ++ ">'"

/-- The message. -/
def UsageError.message : UsageError → String
  | noCommand => "Usage: capi-import <COMMAND>"
  | unknownCommand name => "error: unrecognized subcommand '" ++ name ++ "'"
  | unexpectedArgument text => "error: unexpected argument '" ++ text ++ "' found"
  | missingValue option =>
    "error: a value is required for " ++ described option ++ " but none was supplied"
  | repeatedOption option =>
    "error: the argument " ++ described option ++ " cannot be used multiple times"
  | invalidValue value option reason =>
    "error: invalid value '" ++ value ++ "' for " ++ described option ++ ": " ++ reason
  | missingArguments => "error: the following required arguments were not provided:"

/-- What a command takes. -/
structure Signature where
  /-- The names of the options, and what is wrong with a value. -/
  options : List (String × (String → Option UsageError))
  /-- How many positional arguments there are. -/
  positional : Nat

/-- The values that were given. -/
structure Given where
  /-- The names and values of the options that are settled, latest first. -/
  options : List (String × String) := []
  /-- The positional arguments, latest first. -/
  positional : List String := []
  /-- An option that is not settled yet, with its value if that has come. -/
  pending : Option (String × Option String) := none

/-- The name of a long option, and its value if one follows an equals sign. -/
def splitOption (name : List Char) : String × Option String :=
  let before := name.takeWhile (· ≠ '=')
  match name.drop before.length with
  | _ :: value => (String.ofList before, some (String.ofList value))
  | [] => (String.ofList before, none)

namespace Signature

/-- Adds the value of an option. -/
def addOption (s : Signature) (g : Given) (name value : String) : Except UsageError Given := do
  if (g.options.lookup name).isSome then throw (.repeatedOption name)
  if let some e := (s.options.lookup name).bind (· value) then throw e
  return { g with options := (name, value) :: g.options, pending := none }

/-- Settles the option that is pending. An argument that is unknown is refused before that. -/
def settle (s : Signature) (g : Given) : Except UsageError Given :=
  match g.pending with
  | none => pure g
  | some (name, none) => throw (.missingValue name)
  | some (name, some value) => s.addOption g name value

/-- Adds a positional argument. -/
def addPositional (s : Signature) (g : Given) (text : String) : Except UsageError Given := do
  if s.positional ≤ g.positional.length then throw (.unexpectedArgument text)
  let g ← s.settle g
  return { g with positional := text :: g.positional }

/-- Adds an argument that is not an option. -/
def addText (s : Signature) (g : Given) (text : String) : Except UsageError Given :=
  match g.pending with
  | some (name, none) => pure { g with pending := some (name, some text) }
  | _ => s.addPositional g text

/-- Adds a long option. -/
def addLong (s : Signature) (g : Given) (option : List Char) : Except UsageError Given := do
  let (name, value?) := splitOption option
  if (s.options.lookup name).isNone then throw (.unexpectedArgument ("--" ++ name))
  let g ← s.settle g
  match value? with
  | some value => s.addOption g name value
  | none => return { g with pending := some (name, none) }

/-- Reads arguments. -/
def parse (s : Signature) (g : Given) : List String → Except UsageError Given
  | [] => s.settle g
  | arg :: rest =>
    match arg.toList with
    -- After two hyphens there are no options any more.
    | ['-', '-'] => do s.settle (← rest.foldlM s.addPositional g)
    | '-' :: '-' :: option => do s.parse (← s.addLong g option) rest
    -- There are no short options.
    | '-' :: c :: _ => throw (.unexpectedArgument (String.ofList ['-', c]))
    | _ => do s.parse (← s.addText g arg) rest

end Signature

/-- Any value will do. -/
def anyValue (_ : String) : Option UsageError := none

/-- A path may not be empty. -/
def pathValue (option value : String) : Option UsageError :=
  if value.isEmpty then some (.missingValue option) else none

/-- The type of provider that a text names as a document. -/
def providerType? (s : String) : Option ProviderType :=
  (ProviderType.decoder.readOnly (Yaml.documents s)).toOption

/-- A type of provider. -/
def typeValue (value : String) : Option UsageError :=
  if (providerType? value).isSome then none
  else some (.invalidValue value "type" <|
    "unknown provider type " ++ Text.ticked value ++ ", expected one of " ++
      Text.joinWith ", " (ProviderType.all.map ProviderType.name))

/-- What the program is asked to do. -/
inductive Command where
  | importAssets (config : Option Path) (releases root : Path) (only : Option String)
  | imageKey (p : Provider) (image : String)

/-- What an import takes. -/
def importSignature : Signature where
  options := [("config", pathValue "config"), ("mirror", pathValue "mirror"),
    ("root", pathValue "root"), ("provider", anyValue)]
  positional := 0

/-- What the key of an image takes. -/
def imageKeySignature : Signature where
  options := [("name", anyValue), ("type", typeValue)]
  positional := 1

/-- The import that was asked for. -/
def importOf (g : Given) : Except UsageError Command :=
  match g.options.lookup "mirror" with
  | some releases =>
    pure (.importAssets ((g.options.lookup "config").map Path.mk) ⟨releases⟩
      ⟨(g.options.lookup "root").getD "."⟩ (g.options.lookup "provider"))
  | none => throw .missingArguments

/-- The image key that was asked for. -/
def imageKeyOf (g : Given) : Except UsageError Command :=
  match g.options.lookup "name", (g.options.lookup "type").bind providerType?, g.positional with
  | some name, some type, [image] => pure (.imageKey { name, type, version := "" } image)
  | _, _, _ => throw .missingArguments

/-- The names of the commands. -/
def commandNames : List String := ["import", "image-key", "help"]

/-- What is wrong with an argument where a command should be; `hyphens` says that it comes after two
hyphens. -/
def notCommand (hyphens : Bool) (arg : String) : UsageError :=
  if hyphens && arg ∈ commandNames then .unexpectedArgument arg else .unknownCommand arg

/-- Reads the arguments of the program. -/
def parse : List String → Except UsageError Command
  | [] | ["--"] => throw .noCommand
  | "import" :: args => do importOf (← importSignature.parse {} args)
  | "image-key" :: args => do imageKeyOf (← imageKeySignature.parse {} args)
  | "--" :: arg :: _ => throw (notCommand true arg)
  | arg :: _ =>
    match arg.toList with
    | '-' :: '-' :: option => throw (.unexpectedArgument ("--" ++ (splitOption option).1))
    | '-' :: c :: _ => throw (.unexpectedArgument (String.ofList ['-', c]))
    | _ => throw (notCommand false arg)

/-- What a run of the program gives. -/
structure Output where
  /-- The code that the program ends with. -/
  exitCode : Nat
  /-- The text for the standard output. -/
  stdout : String := ""
  /-- The text for the standard error output. -/
  stderr : String := ""
  deriving DecidableEq

/-- A text of several lines, with `indent` before every line but the first. -/
def indented (indent s : String) : String :=
  String.ofList (s.toList.flatMap fun c => if c = '\n' then '\n' :: indent.toList else [c])

/-- The lines of causes from number `n` on. -/
def numbered (n : Nat) : List String → String
  | [] => ""
  | cause :: rest =>
    let number := toString n
    String.ofList (List.replicate (5 - number.length) ' ') ++ number ++ ": " ++
      indented "       " cause ++ "\n" ++ numbered (n + 1) rest

/-- The report of a failure: what went wrong, and what lies behind it. -/
def report : List String → String
  | [] => "Error: \n"
  | [what] => "Error: " ++ what ++ "\n"
  | [what, cause] =>
    "Error: " ++ what ++ "\n\nCaused by:\n    " ++ indented "    " cause ++ "\n"
  | what :: causes => "Error: " ++ what ++ "\n\nCaused by:\n" ++ numbered 0 causes

variable {m : Type → Type} [Monad m]

/-- Runs an import. -/
def runImport (s : Storage m) (config : Option Path) (releases root : Path) (only : Option String) :
    ExceptT Failure m Unit := do
  let config ← match config with
    | some path => Import.orFail (.load path) (← (Import.loadConfig s path).run)
    | none => pure Config.standard
  discard (Import.run s config releases root only)

/-- Runs the program. -/
def run (s : Storage m) (args : List String) : m Output := do
  match parse args with
  | .error e => return { exitCode := 2, stderr := Text.firstLine e.message }
  | .ok (.imageKey p image) => return { exitCode := 0, stdout := Image.key p image ++ "\n" }
  | .ok (.importAssets config releases root only) =>
    match ← (runImport s config releases root only).run with
    | .ok _ => return { exitCode := 0 }
    | .error f => return { exitCode := 1, stderr := report f.chain }

end CommandLine

end ProviderAssets
