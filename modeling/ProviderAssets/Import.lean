import ProviderAssets.Release
import ProviderAssets.Storage
import ProviderAssets.VersionCatalog

/-!
# Imports

An import makes the assets of the configured providers from the published releases, provider after
provider. The files of a provider are written only when all of them have been made; the first
failure ends the import, and what earlier providers wrote remains.
-/

namespace ProviderAssets

/-- Why an import ends. -/
inductive Failure where
  /-- No provider of the given name is configured. -/
  | noProvider (name : String)
  /-- An error that speaks for itself. -/
  | plain (e : Error)
  /-- A configuration cannot be loaded. -/
  | load (path : Path) (e : Error)
  /-- A catalog cannot be read. -/
  | parse (path : Path) (e : Error)
  /-- A release cannot be had. -/
  | fetch (label version : String) (e : Error)
  /-- No assets can be made of a release. -/
  | provider (name : String) (e : Error)
  /-- A directory cannot be made. -/
  | create (path : Path) (fault : FileFault)
  /-- A file cannot be written. -/
  | write (path : Path) (fault : FileFault)

namespace Failure

/-- The error behind a failure, if it is one of an import's own. -/
def error? : Failure → Option Error
  | plain e | load _ e | parse _ e | fetch _ _ e | provider _ e => some e
  | noProvider _ | create _ _ | write _ _ => none

/-- What was being done, where that needs saying. -/
def context? : Failure → Option String
  | noProvider name => some ("no provider named " ++ Text.ticked name ++ " is configured")
  | plain _ => none
  | load path _ => some ("failed to load config " ++ path.text)
  | parse path _ => some ("failed to parse " ++ path.text)
  | fetch label version _ => some ("failed to fetch " ++ label ++ " " ++ version)
  | provider name _ => some ("failed to import provider " ++ Text.ticked name)
  | create path _ => some ("failed to create " ++ path.text)
  | write path _ => some ("failed to write " ++ path.text)

/-- What was being done, what went wrong, and what lies behind that. -/
def chain (f : Failure) : List String :=
  let causes := match f with
    | create _ fault | write _ fault => [fault.message]
    | f =>
      match f.error? with
      | some e => e.message :: e.cause?.toList
      | none => []
  f.context?.toList ++ causes

end Failure

namespace Import

variable {m : Type → Type} [Monad m]

/-- The outcome of an action that may fail, under a name for the failure. -/
def orFail {ε α : Type} (f : ε → Failure) (x : Except ε α) : ExceptT Failure m α :=
  match x with
  | .ok a => pure a
  | .error e => throw (f e)

/-- Reads a file. -/
def read (s : Storage m) (p : Path) : ExceptT Error m (List UInt8) := do
  match ← (s.read p : m _) with
  | .ok bytes => return bytes
  | .error fault => throw (.read p.text fault)

/-- Loads a configuration. -/
def loadConfig (s : Storage m) (p : Path) : ExceptT Error m Config := do
  let bytes ← read s p
  match Config.ofDocuments (Yaml.documentsOfBytes bytes) with
  | .ok config => return config
  | .error e => throw e

/-- The directory of a release among the published ones. -/
def releaseDir (releases : Path) (p : Provider) : Path :=
  (releases.join p.manifestLabel).join p.version

/-- Fetches a release from among the published ones. -/
def fetch (s : Storage m) (releases : Path) (p : Provider) : ExceptT Error m Release := do
  let dir := releaseDir releases p
  let metadata ← read s (dir.join "metadata.yaml")
  let components ← read s (dir.join p.componentsFile)
  match Text.ofBytes? components with
  | some components => return { metadata, components }
  | none => throw (.utf8 p.componentsFile)

/-- Loads the image catalog. A missing one is empty. -/
def loadCatalog (s : Storage m) (p : Path) : ExceptT Failure m ImageCatalog := do
  match ← (s.read p : m _) with
  | .ok bytes => orFail (.parse p) (ImageCatalog.ofBytes bytes)
  | .error .notFound => return .empty
  | .error fault => throw (.plain (.read p.text fault))

/-- Writes a file in the directory of the assets. -/
def writeFile (s : Storage m) (root : Path) (file : OutputFile) : ExceptT Failure m Unit := do
  let path := root.join file.path.text
  if let some dir := path.parent? then
    orFail (.create dir) (← (s.makeDirs dir : m _))
  orFail (.write path) (← (s.write path file.contents : m _))

/-- Writes files one after the other. -/
def commit (s : Storage m) (root : Path) (files : List OutputFile) : ExceptT Failure m Unit :=
  files.forM (writeFile s root)

/-- Makes the assets of a provider; nothing is written yet. -/
def prepare (s : Storage m) (config : Config) (releases root : Path) (versions : VersionCatalog)
    (c : ProviderConfig) : ExceptT Failure m Assets := do
  let version ← orFail .plain (versions.versionOf c.name)
  let p := c.provider version
  let release ← orFail (.fetch p.manifestLabel version) (← (fetch s releases p).run)
  -- The catalog is read anew for every provider, with the images of those before.
  let catalog ← loadCatalog s (root.join config.imageCatalog.text)
  orFail (.provider p.name) (release.assets config c.exclude p catalog)

/-- Imports a provider. -/
def importProvider (s : Storage m) (config : Config) (releases root : Path)
    (versions : VersionCatalog) (c : ProviderConfig) : ExceptT Failure m Assets := do
  let assets ← prepare s config releases root versions c
  commit s root assets.files
  return assets

/-- Imports the configured providers, or only the one with the given name. -/
def run (s : Storage m) (config : Config) (releases root : Path) (only : Option String) :
    ExceptT Failure m (List Assets) := do
  let providers := config.selected only
  if providers.isEmpty then throw (.noProvider (only.getD ""))
  let versionsPath := root.join config.versionCatalog.text
  let bytes ← orFail .plain (← (read s versionsPath).run)
  let versions ← orFail (.parse versionsPath) (VersionCatalog.ofBytes bytes)
  providers.mapM (importProvider s config releases root versions)

end Import

end ProviderAssets
