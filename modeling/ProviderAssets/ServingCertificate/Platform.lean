import ProviderAssets.ServingCertificate.Binding

/-!
# Serving certificates of the platform

The platform makes a serving certificate for every service that is annotated with the name of a
secret, and puts its authority into every resource that is annotated for that. Certificates and
their issuers are not needed then, nor is the namespace, which exists already.
-/

namespace ProviderAssets

namespace Resource

/-- Asks the platform for its authority in place of that of a certificate. -/
def requestBundle (annotations : Json.Object) : Json.Object :=
  let rest := Fields.erase annotations Annotation.injectFrom
  match Json.Object.text? annotations Annotation.injectFrom with
  | some _ => Fields.insert rest Annotation.injectBundle (.string "true")
  | none => rest

/-- The resource as the platform wants it, or nothing if the platform makes it needless. -/
def forPlatform (bound : Bindings) (r : Resource) : Option Resource :=
  match r.kind with
  | .customResourceDefinition | .mutatingWebhookConfiguration | .validatingWebhookConfiguration =>
    some (r.modifyAnnotations requestBundle)
  | .service =>
    match Fields.get? bound r.name with
    | some secret =>
      some (r.updateAnnotations (Fields.insert · Annotation.servingSecret (.string secret)))
    | none => some r
  | .certificate | .issuer | .namespaceKind => none
  | _ => some r

end Resource

namespace Manifest

/-- The manifest as the platform wants it, where services are bound to secrets as given. -/
def forPlatform (bound : Bindings) (m : Manifest) : Except Error Manifest :=
  collect (fun r => pure (r.forPlatform bound)) m.resources

/-- The manifest as the platform wants it. -/
def withPlatformCertificates (m : Manifest) : Except Error Manifest := do
  m.forPlatform (← m.bindings)

end Manifest

end ProviderAssets
