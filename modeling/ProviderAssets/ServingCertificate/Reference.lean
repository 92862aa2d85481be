import ProviderAssets.Resource.Basic

/-!
# Injection references

A resource asks for the authority of a certificate by an annotation that names the namespace and
the name of the certificate.
-/

namespace ProviderAssets

namespace Annotation

/-- Names the certificate whose authority a resource asks for. -/
def injectFrom : String := "cert-manager.io/inject-ca-from"

/-- Asks the platform for its service authority. -/
def injectBundle : String := "service.beta.openshift.io/inject-cabundle"

/-- Names the secret for the serving certificate of a service. -/
def servingSecret : String := "service.beta.openshift.io/serving-cert-secret-name"

end Annotation

/-- A reference to a certificate. -/
structure InjectionReference where
  /-- The namespace of the certificate. -/
  ns : String
  /-- Its name. -/
  certificate : String
  deriving DecidableEq

namespace InjectionReference

/-- The reference in a text: what is before and after the first slash. -/
def ofText? (s : String) : Option InjectionReference :=
  (Text.splitFirst '/' s).map fun (ns, certificate) => { ns, certificate }

/-- The text of a reference. -/
def text (r : InjectionReference) : String := r.ns ++ "/" ++ r.certificate

end InjectionReference

namespace Resource

/-- The text by which a resource asks for an authority. -/
def injectionText? (r : Resource) : Option String :=
  r.annotations?.bind (Json.Object.text? · Annotation.injectFrom)

end Resource

end ProviderAssets
