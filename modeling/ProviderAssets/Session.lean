import ProviderAssets.Exclusion
import ProviderAssets.Labels
import ProviderAssets.Manifest.Text
import ProviderAssets.Relocation
import ProviderAssets.Resource.Edit
import ProviderAssets.ServingCertificate.Platform

/-!
# Sessions

A session works on a manifest step by step. It also holds a second manifest, for what is set aside,
and the bindings of services to secrets that were found last. A step that fails may leave a mark: to
move resources or to give them certificates a step takes them out of the manifest, and they are lost
if that fails.
-/

namespace ProviderAssets

/-- The state of a session. -/
structure Session where
  /-- The resources that are worked on. -/
  manifest : Manifest := .empty
  /-- What is set aside. -/
  aside : Manifest := .empty
  /-- The bindings that were looked up last. -/
  bindings : Bindings := []
  /-- The bindings by which platform certificates were asked for last. -/
  platformBindings : Bindings := []

/-- A step of a session. -/
inductive Step where
  | insert (r : Resource)
  | relocate (ns : String)
  | label (p : Provider)
  /-- Looks up the bindings of services to secrets. -/
  | bind
  /-- Gives the manifest the certificates of the platform, by the bindings that are given. -/
  | forPlatform (bound : Bindings)
  /-- Gives the manifest the certificates of the platform, by its own bindings. -/
  | platformCertificates
  | exclude (e : Exclusion)
  /-- Sets roles and accounts aside. -/
  | splitRbac (a : Annotations)
  /-- Sets the resources aside for which `p` holds. -/
  | setAside (p : Resource → Bool)
  | retain (p : Resource → Bool)
  | swap
  /-- Writes the manifest as text and reads that again. -/
  | reread
  | edit (index : Nat) (e : Edit)

namespace Session

/-- Puts a new manifest in, or fails and leaves the session as it is. -/
def replace (s : Session) : Except Error Manifest → Except Error Unit × Session
  | .ok m => (.ok (), { s with manifest := m })
  | .error e => (.error e, s)

/-- Puts a new manifest in, or fails and leaves none. -/
def rebuild (s : Session) (result : Except Error Manifest) : Except Error Unit × Session :=
  match result with
  | .ok m => (.ok (), { s with manifest := m })
  | .error e => (.error e, { s with manifest := .empty })

/-- Gives the manifest the certificates of the platform, by its own bindings. -/
def usePlatformCertificates (s : Session) : Except Error Unit × Session :=
  match s.manifest.bindings with
  | .ok bound => { s with platformBindings := bound }.rebuild (s.manifest.forPlatform bound)
  | .error e => (.error e, s)

/-- Takes a step. -/
def step (s : Session) : Step → Except Error Unit × Session
  | .insert r => s.replace (s.manifest.insert r)
  | .relocate ns => s.rebuild (s.manifest.relocate ns)
  | .label p => (.ok (), { s with manifest := s.manifest.label p })
  | .bind =>
    match s.manifest.bindings with
    | .ok bindings => (.ok (), { s with bindings })
    | .error e => (.error e, s)
  | .forPlatform bound => s.rebuild (s.manifest.forPlatform bound)
  | .platformCertificates => s.usePlatformCertificates
  | .exclude e => (.ok (), { s with manifest := s.manifest.exclude e })
  | .splitRbac a =>
    let (manifest, aside) := s.manifest.splitRbac a
    (.ok (), { s with manifest, aside })
  | .setAside p =>
    let (manifest, aside) := s.manifest.partition p
    (.ok (), { s with manifest, aside })
  | .retain p => (.ok (), { s with manifest := s.manifest.filter p })
  | .swap => (.ok (), { s with manifest := s.aside, aside := s.manifest })
  | .reread => s.replace (Manifest.ofText s.manifest.render)
  | .edit index e => (.ok (), { s with manifest := s.manifest.modifyAt index (·.edit e) })

/-- Takes steps one after the other, whether or not they fail. -/
def steps (s : Session) (todo : List Step) : Session := todo.foldl (fun s x => (s.step x).2) s

end Session

end ProviderAssets
