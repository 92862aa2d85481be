import ProviderAssets.Image
import ProviderAssets.ImageCatalog
import ProviderAssets.Labels
import ProviderAssets.Manifest.Text
import ProviderAssets.PlatformAnnotations
import ProviderAssets.Relocation
import ProviderAssets.ServingCertificate.Platform
import ProviderAssets.VersionCatalog
import ProviderAssets.Text.Folding
import ProviderAssets.Text.Script
import ProviderAssets.Pattern.Parser
import ProviderAssets.Config
import ProviderAssets.Package.Reader
import ProviderAssets.Disk
import ProviderAssets.Import
import ProviderAssets.Session
import ProviderAssets.Main
import ProviderAssets.Proofs.Fields
import ProviderAssets.Proofs.FieldPath
import ProviderAssets.Proofs.Rewriting
import ProviderAssets.Proofs.Views
import ProviderAssets.Proofs.Relocation
import ProviderAssets.Proofs.LastEntry
import ProviderAssets.Proofs.ServingCertificate.Bindings
import ProviderAssets.Proofs.ServingCertificate.Platform
import ProviderAssets.Proofs.Stages
import ProviderAssets.Proofs.Conservation
import ProviderAssets.Proofs.Shipment
import ProviderAssets.Proofs.Reading
import ProviderAssets.Proofs.Identity
import ProviderAssets.Proofs.Encoding
import ProviderAssets.Proofs.References
import ProviderAssets.Proofs.Payload
import ProviderAssets.Proofs.Changes
import ProviderAssets.Proofs.FixedPoint
import ProviderAssets.Proofs.Shape
import ProviderAssets.Proofs.ServingCertificate.Resolution
import ProviderAssets.Proofs.Commits
import ProviderAssets.Proofs.Json
import ProviderAssets.Proofs.Rereading
import ProviderAssets.Proofs.Accumulation
import ProviderAssets.Proofs.FileNames
import ProviderAssets.Proofs.Reimport
import ProviderAssets.Proofs.ConfigMap
import ProviderAssets.Proofs.Packages
import ProviderAssets.Proofs.Locality
import ProviderAssets.Proofs.Requirements
import ProviderAssets.Proofs.Failure
import ProviderAssets.Proofs.Relocatable
import ProviderAssets.Proofs.LastMove
import ProviderAssets.Proofs.ServingCertificate.Lookup
import ProviderAssets.Proofs.Atomicity
import ProviderAssets.Proofs.Repetition
import ProviderAssets.Proofs.Stream
import ProviderAssets.Proofs.ServingCertificate.Settled
import ProviderAssets.Proofs.ServingCertificate.Reordering
import ProviderAssets.Proofs.MovedServices
import ProviderAssets.Proofs.Independence
import ProviderAssets.Proofs.Images
import ProviderAssets.Proofs.Annotations
import ProviderAssets.Proofs.Exclusion
import ProviderAssets.Proofs.Traversal.Calls
import ProviderAssets.Proofs.BareName
