import ProviderAssets.FieldPath
import ProviderAssets.Manifest.Basic
import ProviderAssets.ServingCertificate.Reference

/-!
# Relocation

All assets of an import live in one namespace. Relocation moves every resource that belongs to a
namespace there, and every reference to one: the services of webhooks and API services, the service
accounts of role bindings, and the certificates that resources ask to be given the authority of.
-/

namespace ProviderAssets

open Json (Object Value)

namespace Relocation

/-- Kinds without a role of their own in an import whose resources belong to no namespace. -/
def clusterScopedKinds : List String :=
  ["APIService", "ClusterIssuer", "PriorityClass", "StorageClass", "PersistentVolume"]

/-- Whether a resource belongs to a namespace. -/
def isNamespaced (r : Resource) : Bool :=
  match r.kind with
  | .other => r.id.gvk.kind ∉ clusterScopedKinds
  | kind => !kind.isClusterScoped

/-- Where the service of a webhook is named. -/
def webhookNamespace : FieldPath :=
  [.items "webhooks", .field "clientConfig", .field "service", .field "namespace"]

/-- Where the service that converts custom resources is named. -/
def conversionNamespace : FieldPath :=
  [.field "spec", .field "conversion", .field "webhook", .field "clientConfig", .field "service",
    .field "namespace"]

/-- Where the service behind an API is named. -/
def apiServiceNamespace : FieldPath := [.field "spec", .field "service", .field "namespace"]

/-- The rule for the services of webhooks that change resources. -/
def mutatingWebhooks : FieldRule := .ofKind "MutatingWebhookConfiguration" webhookNamespace

/-- The rule for the services of webhooks that check resources. -/
def validatingWebhooks : FieldRule := .ofKind "ValidatingWebhookConfiguration" webhookNamespace

/-- The rule for the services that convert custom resources. -/
def conversions : FieldRule := .ofKind "CustomResourceDefinition" conversionNamespace

/-- The rule for the services behind APIs. -/
def apiServices : FieldRule := .ofKind "APIService" apiServiceNamespace

/-- Where resources of the cluster name the namespace of a service. -/
def serviceNamespaces : List FieldRule :=
  [mutatingWebhooks, validatingWebhooks, conversions, apiServices]

/-- The rule for the subjects of bindings in a namespace. -/
def roleBindings : FieldRule := .ofKind "RoleBinding" [.items "subjects"]

/-- The rule for the subjects of bindings in the cluster. -/
def clusterRoleBindings : FieldRule := .ofKind "ClusterRoleBinding" [.items "subjects"]

/-- Where bindings name who they are for. -/
def subjects : List FieldRule := [roleBindings, clusterRoleBindings]

/-- Moves the subject of a binding if it is a service account. -/
def moveSubject (ns : String) (subject : Object) : Object :=
  if Json.Object.text? subject "kind" = some "ServiceAccount" then
    Fields.insert subject "namespace" (.string ns)
  else subject

/-- Moves the certificate in an injection reference of a resource. -/
def moveInjection (ns : String) (r : Resource) : Resource :=
  match r.injectionText?.bind InjectionReference.ofText? with
  | some ref =>
    r.modifyAnnotations
      (Fields.insert · Annotation.injectFrom (.string { ref with ns }.text))
  | none => r

/-- Moves a resource and its references into a namespace. -/
def move (ns : String) (r : Resource) : Except Error Resource := do
  let r := if isNamespaced r then r.setNamespace (some ns) else r
  let r ← FieldRule.updateAll (m := Id) serviceNamespaces .text (fun _ => pure ns) r
  let r ← FieldRule.updateAll (m := Id) subjects .object (fun s => pure (moveSubject ns s)) r
  return moveInjection ns r

end Relocation

/-- Moves all resources and their references into a namespace. -/
def Manifest.relocate (ns : String) (m : Manifest) : Except Error Manifest :=
  Manifest.collect (fun r => some <$> Relocation.move ns r) m.resources

end ProviderAssets
