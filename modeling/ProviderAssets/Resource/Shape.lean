import ProviderAssets.Error
import ProviderAssets.Json.Decode
import ProviderAssets.Resource.Basic

/-!
# Shapes of resources

What an import reads of the resources of a few kinds: the secret of a certificate, the services of
webhooks, the containers of a deployment. All other fields are ignored.
-/

namespace ProviderAssets

open Json (Decoder)

/-- A reference to a service. -/
structure ServiceReference where
  /-- The name of the service. -/
  name : String
  /-- Its namespace, if that is given. -/
  ns : Option String
  deriving DecidableEq

/-- How the server calls a webhook. -/
structure ClientConfig where
  /-- The service that it is called through, if it is by one. -/
  service : Option ServiceReference
  deriving DecidableEq

/-- A webhook of a webhook configuration. -/
structure Webhook where
  /-- The name. -/
  name : String
  /-- How it is called. -/
  clientConfig : ClientConfig
  deriving DecidableEq

/-- The webhook that converts resources between versions. -/
structure ConversionWebhook where
  /-- How it is called, if that is given. -/
  clientConfig : Option ClientConfig
  deriving DecidableEq

/-- How resources are converted between versions. -/
structure Conversion where
  /-- The webhook that does it, if one does. -/
  webhook : Option ConversionWebhook
  deriving DecidableEq

/-- A container of a deployment. -/
structure Container where
  /-- The name. -/
  name : String
  /-- The image that it runs. -/
  image : String
  deriving DecidableEq

namespace Shape

/-- The name of the secret of a certificate; empty if none is given. -/
def certificate : Decoder String :=
  .record1 "Certificate" "spec"
    (.record1 "CertificateSpec" "secretName" .string (some "")) none

/-- A reference to a service. -/
def serviceReference : Decoder ServiceReference := fun v => do
  let (name, ns) ← Decoder.record2 "ServiceReference" "name" .string "namespace"
    (.option .string) (some none) v
  return { name, ns }

/-- How the server calls a webhook. -/
def clientConfig : Decoder ClientConfig := fun v =>
  ClientConfig.mk <$> Decoder.record1 "ClientConfig" "service" (.option serviceReference)
    (some none) v

/-- The webhook that converts resources between versions. -/
def conversionWebhook : Decoder ConversionWebhook := fun v =>
  ConversionWebhook.mk <$> Decoder.record1 "WebhookConversion" "clientConfig"
    (.option clientConfig) (some none) v

/-- How resources are converted between versions. -/
def conversion : Decoder Conversion := fun v =>
  Conversion.mk <$> Decoder.record1 "CustomResourceConversion" "webhook"
    (.option conversionWebhook) (some none) v

/-- The conversion of a custom resource definition. -/
def customResourceDefinition : Decoder (Option Conversion) :=
  .record1 "CustomResourceDefinition" "spec"
    (.record1 "CustomResourceDefinitionSpec" "conversion" (.option conversion) (some none)) none

/-- A webhook. -/
def webhook : Decoder Webhook := fun v => do
  let (name, clientConfig) ← Decoder.record2 "Webhook" "name" .string "clientConfig"
    clientConfig none v
  return { name, clientConfig }

/-- The webhooks of a webhook configuration. -/
def webhookConfiguration : Decoder (List Webhook) :=
  .record1 "WebhookConfiguration" "webhooks" (.list webhook) (some [])

/-- A container. -/
def container : Decoder Container := fun v => do
  let (name, image) ← Decoder.record2 "Container" "name" .string "image" .string none v
  return { name, image }

/-- The containers of a deployment, apart from those that only prepare it. -/
def deployment : Decoder (List Container) :=
  .record1 "Deployment" "spec"
    (.record1 "DeploymentSpec" "template"
      (.record1 "PodTemplateSpec" "spec"
        (.record1 "PodSpec" "containers" (.list container) (some [])) none) none) none

end Shape

namespace Resource

variable {α : Type}

/-- Reads what a shape asks for from a resource. -/
def decode (r : Resource) (d : Decoder α) : Except Error α :=
  (d (.object r.root)).mapError (.decode r.id)

/-- The service that a resource which asks for a certificate authority is called through: that of
the conversion webhook, or of the first webhook. -/
def injectionService (r : Resource) : Except Error String := do
  let service ← match r.kind with
    | .customResourceDefinition => do
      let conversion ← r.decode Shape.customResourceDefinition
      pure (((conversion.bind (·.webhook)).bind (·.clientConfig)).bind (·.service))
    | .mutatingWebhookConfiguration | .validatingWebhookConfiguration => do
      let webhooks ← r.decode Shape.webhookConfiguration
      pure (webhooks.head?.bind (·.clientConfig.service))
    | kind => throw (.malformed r.id (.noInjection kind))
  match service with
  | some s => pure s.name
  | none => throw (.malformed r.id .noService)

end Resource

end ProviderAssets
