import ProviderAssets.Error
import ProviderAssets.Path

/-!
# Storage

What an import needs of the place where its files are: reading a file, making a directory with those
above it, and writing a file.
-/

namespace ProviderAssets

/-- A place for files, in a monad of its own. -/
structure Storage (m : Type → Type) where
  /-- The bytes of a file. -/
  read : Path → m (Except FileFault (List UInt8))
  /-- Makes a directory, and those above it that are missing. -/
  makeDirs : Path → m (Except FileFault Unit)
  /-- Writes a text to a file, in place of what it held before. -/
  write : Path → String → m (Except FileFault Unit)

end ProviderAssets
