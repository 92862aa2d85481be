import ProviderAssets.Manifest.Basic
import ProviderAssets.Resource.Shape
import ProviderAssets.ServingCertificate.Reference

/-!
# Bindings of services to secrets

Webhooks need serving certificates. A release gets them from certificate resources, to which the
resources that are called through a service refer. `Manifest.bindings` follows these references: it
says for each such service which secret its certificate has to be written to.
-/

namespace ProviderAssets

/-- The names of services, each with the name of the secret for its serving certificate. -/
abbrev Bindings := Fields String

namespace Manifest

/-- The secrets of the certificates among some resources. The last certificate of a name counts. -/
def secretsOf (rs : List Resource) : Except Error (Fields String) :=
  rs.foldlM (fun secrets r => do
    if r.kind = .certificate then
      return Fields.insert secrets r.name (← r.decode Shape.certificate)
    else return secrets) []

/-- The secret that a resource refers to by `value`. -/
def secretFor (secrets : Fields String) (r : Resource) (value : String) : Except Error String := do
  let some ref := InjectionReference.ofText? value | throw (.malformedReference r.id value)
  let some secret := (Fields.get? secrets ref.certificate).filter (!·.isEmpty)
    | throw (.unresolvedCertificate r.id value)
  return secret

/-- The service and the secret that a resource binds, if it asks for an authority. -/
def bindingOf (secrets : Fields String) (r : Resource) : Except Error (Option (String × String)) :=
  if r.kind.acceptsInjection then
    match r.injectionText? with
    | some value => do
      let secret ← secretFor secrets r value
      return some (← r.injectionService, secret)
    | none => pure none
  else pure none

/-- The bindings of the services that resources of a manifest are called through. References name
certificates by name alone; the namespace in them does not count. -/
def bindings (m : Manifest) : Except Error Bindings := do
  let secrets ← secretsOf m.resources
  m.resources.foldlM (fun bound r => do
    match ← bindingOf secrets r with
    | some (service, secret) => return Fields.insert bound service secret
    | none => return bound) []

end Manifest

end ProviderAssets
