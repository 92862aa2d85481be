import ProviderAssets.Error
import ProviderAssets.Json.Printer
import ProviderAssets.SortedFields
import ProviderAssets.Text.Cut

/-!
# Image catalogs

The catalog maps image keys to images. It is kept in a file that every import adds to.
-/

namespace ProviderAssets

/-- A map from image keys to images. -/
structure ImageCatalog where
  /-- The images by their keys. -/
  images : SortedFields
  deriving DecidableEq

namespace ImageCatalog

/-- The catalog without images. -/
def empty : ImageCatalog := ⟨.empty⟩

/-- The number of images. -/
def size (c : ImageCatalog) : Nat := c.images.size

/-- Whether there is no image. -/
def isEmpty (c : ImageCatalog) : Bool := c.images.isEmpty

/-- The image at a key. -/
def get? (c : ImageCatalog) (key : String) : Option String := c.images.get? key

/-- Reads a catalog from the bytes of its file. -/
def ofBytes (bytes : List UInt8) : Except Error ImageCatalog := do
  let fields ← (Json.readFields bytes).mapError .json
  return ⟨.ofPairs fields⟩

/-- The text of the file of a catalog. -/
def text (c : ImageCatalog) : String := Text.endLine (Json.pretty c.images)

/-- The catalog with more images. They take the place of those at their keys. -/
def merge (c : ImageCatalog) (images : Fields String) : ImageCatalog :=
  ⟨c.images.insertAll images⟩

end ImageCatalog

end ProviderAssets
