import ProviderAssets.Json.Reader
import ProviderAssets.Kind
import ProviderAssets.Resource.Identity
import ProviderAssets.Yaml.Decode

/-!
# Errors of an import

Everything that can go wrong between the files of a release and its assets. An error has a message
and, where another error lies behind it, the message of that as a cause.
-/

namespace ProviderAssets

/-- Why the operating system refuses to do something with a file. -/
inductive FileFault where
  | notFound
  | permissionDenied
  | alreadyExists
  | notDirectory
  | isDirectory
  | nameTooLong
  | invalidName
  | other (text : String)
  deriving DecidableEq

/-- The wording of a file fault. -/
def FileFault.message : FileFault → String
  | notFound => "No such file or directory (os error 2)"
  | permissionDenied => "Permission denied (os error 13)"
  | alreadyExists => "File exists (os error 17)"
  | notDirectory => "Not a directory (os error 20)"
  | isDirectory => "Is a directory (os error 21)"
  | nameTooLong => "File name too long (os error 36)"
  | invalidName => "file name contained an unexpected NUL byte"
  | other text => text

/-- Why a resource lacks something that an import relies on. -/
inductive Defect where
  /-- The kind has no place to put a certificate authority into. -/
  | noInjection (kind : Kind)
  /-- No service is named for the webhooks. -/
  | noService
  /-- The value at a field of a path is not of the expected type. -/
  | shape (expected field path : String)
  deriving DecidableEq

/-- The wording of a defect. -/
def Defect.message : Defect → String
  | noInjection kind => kind.name ++ " cannot carry a CA injection reference"
  | noService => "no webhook service reference"
  | shape expected field path =>
    "expected " ++ expected ++ " at " ++ Text.ticked field ++ " of field path " ++ Text.ticked path

/-- An error. -/
inductive Error where
  /-- The certificate that a resource refers to has no secret. -/
  | unresolvedCertificate (referrer : ResourceId) (reference : String)
  /-- The reference to a certificate is not of the form namespace and name. -/
  | malformedReference (referrer : ResourceId) (value : String)
  /-- The resource does not have the shape of its kind. -/
  | decode (id : ResourceId) (m : Mismatch)
  /-- The resource lacks something. -/
  | malformed (id : ResourceId) (defect : Defect)
  /-- Two resources have the same identity. -/
  | conflict (id : ResourceId)
  /-- There is no version for the provider. -/
  | missingVersion (provider : String)
  /-- The file cannot be read. -/
  | read (path : String) (fault : FileFault)
  /-- The text is no document of the expected kind. -/
  | yaml (e : Yaml.Error)
  /-- The text is no object of texts. -/
  | json (e : Json.Error)
  /-- The bytes are no text. -/
  | utf8 (what : String)

namespace Error

/-- The message. -/
def message : Error → String
  | unresolvedCertificate referrer reference =>
    Text.ticked referrer.text ++ ": can't find secret from certificate " ++ Text.ticked reference
  | malformedReference referrer value =>
    Text.ticked referrer.text ++ ": malformed injection reference " ++ Text.ticked value ++
      ", expected " ++ Text.ticked "<namespace>/<certificate>"
  | decode id m => "decoding " ++ Text.ticked id.text ++ ": " ++ m.message .json
  | malformed id defect => "malformed " ++ Text.ticked id.text ++ ": " ++ defect.message
  | conflict id =>
    "may not add resource with an already registered id " ++ Text.ticked id.text
  | missingVersion provider => "no version recorded for provider " ++ Text.ticked provider
  | read path fault => "reading " ++ Text.ticked path ++ ": " ++ fault.message
  | yaml e => "yaml: " ++ e.message
  | json e => "json: " ++ e.message
  | utf8 what => Text.ticked what ++ " is not valid utf-8"

/-- The message of the error that lies behind this one. -/
def cause? : Error → Option String
  | decode _ m => some (m.message .json)
  | read _ fault => some fault.message
  | yaml e => some e.message
  | json e => some e.message
  | _ => none

end Error

/-- What a decoder makes of the only document of a text. -/
def Yaml.Decoder.read {α : Type} (d : Yaml.Decoder α) (documents : List Yaml.Document) :
    Except ProviderAssets.Error α :=
  (d.readOnly documents).mapError ProviderAssets.Error.yaml

end ProviderAssets
