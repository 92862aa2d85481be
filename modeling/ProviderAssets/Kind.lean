/-!
# Kinds of resources

The kinds that an import treats in a way of their own. All other kinds are `other`.
-/

namespace ProviderAssets

/-- A kind of resource. -/
inductive Kind where
  | certificate
  | issuer
  /-- The kind of namespaces themselves. -/
  | namespaceKind
  | customResourceDefinition
  | mutatingWebhookConfiguration
  | validatingWebhookConfiguration
  | service
  | deployment
  | clusterRole
  | role
  | clusterRoleBinding
  | roleBinding
  | serviceAccount
  | other
  deriving DecidableEq

namespace Kind

/-- The kinds that have a name. -/
def named : List Kind :=
  [certificate, issuer, namespaceKind, customResourceDefinition, mutatingWebhookConfiguration,
    validatingWebhookConfiguration, service, deployment, clusterRole, role, clusterRoleBinding,
    roleBinding, serviceAccount]

/-- The name of a kind. -/
def name : Kind → String
  | certificate => "Certificate"
  | issuer => "Issuer"
  | namespaceKind => "Namespace"
  | customResourceDefinition => "CustomResourceDefinition"
  | mutatingWebhookConfiguration => "MutatingWebhookConfiguration"
  | validatingWebhookConfiguration => "ValidatingWebhookConfiguration"
  | service => "Service"
  | deployment => "Deployment"
  | clusterRole => "ClusterRole"
  | role => "Role"
  | clusterRoleBinding => "ClusterRoleBinding"
  | roleBinding => "RoleBinding"
  | serviceAccount => "ServiceAccount"
  | other => "<other>"

/-- The kind with the given name. -/
def ofName (s : String) : Kind := (named.find? (·.name = s)).getD other

/-- Kinds that go into the manifest of roles and accounts. -/
def isRbac : Kind → Bool
  | clusterRole | role | clusterRoleBinding | roleBinding | serviceAccount => true
  | _ => false

/-- Kinds that can ask for the certificate authority of a service to be put into them. -/
def acceptsInjection : Kind → Bool
  | customResourceDefinition | mutatingWebhookConfiguration | validatingWebhookConfiguration =>
    true
  | _ => false

/-- Kinds whose resources belong to no namespace. -/
def isClusterScoped : Kind → Bool
  | namespaceKind | customResourceDefinition | mutatingWebhookConfiguration
  | validatingWebhookConfiguration | clusterRole | clusterRoleBinding => true
  | _ => false

end Kind

end ProviderAssets
