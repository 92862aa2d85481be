import ProviderAssets.Manifest.Basic
import ProviderAssets.Provider
import ProviderAssets.Resource.Shape

/-!
# Container images

The images of a release are replaced later on. Each one goes by a key that is made from the provider
and from the bare name of the image.
-/

namespace ProviderAssets

namespace Image

/-- What follows the last slash. -/
def lastSegment (image : List Char) : List Char := (image.reverse.takeWhile (· ≠ '/')).reverse

/-- The bare name of an image: its last path segment without digest and tag. -/
def bareName (image : String) : String :=
  String.ofList
    (((lastSegment image.toList).takeWhile (· ≠ '@')).takeWhile (· ≠ ':'))

/-- The key of an image. The proxy is shared by all providers; any other image but one is the
manager of its provider. -/
def key (p : Provider) (image : String) : String :=
  match bareName image with
  | "kube-rbac-proxy" => "kube-rbac-proxy"
  | "ip-address-manager" => p.type.name ++ "-" ++ p.name ++ ":ip-address-manager"
  | _ => p.type.name ++ "-" ++ p.name ++ ":manager"

end Image

/-- The images of the containers of all deployments by their keys. A later image with the same key
takes the place of an earlier one. -/
def Manifest.images (p : Provider) (m : Manifest) : Except Error (Fields String) :=
  m.resources.foldlM (fun images r => do
    if r.kind = .deployment then
      let containers ← r.decode Shape.deployment
      return Fields.insertAll images (containers.map fun c => (Image.key p c.image, c.image))
    else return images) []

end ProviderAssets
