import ClassSharing.Main
import ClassSharing.Snapshot
import ClassSharing.Proofs.Image.Opening
import ClassSharing.Proofs.Image.Codec
import ClassSharing.Proofs.Table
import ClassSharing.Proofs.Machine.Frame
import ClassSharing.Proofs.Machine.Graph
import ClassSharing.Proofs.Machine.Loaders
import ClassSharing.Proofs.Machine.Ownership
import ClassSharing.Proofs.Image.Collect
import ClassSharing.Proofs.Image.Writer
import ClassSharing.Proofs.Image.Materialize
import ClassSharing.Proofs.Session.Effect
import ClassSharing.Proofs.Session.Frame
import ClassSharing.Proofs.Image.Archivable
import ClassSharing.Proofs.Session.Restore
import ClassSharing.Proofs.Library.SetTable
import ClassSharing.Proofs.Machine.Readiness
import ClassSharing.Proofs.Session.Request
import ClassSharing.Proofs.Library.Installed
import ClassSharing.Proofs.Library.Objects
import ClassSharing.Proofs.Library.Holdings
import ClassSharing.Proofs.Library.Layout
import ClassSharing.Proofs.Library.Startup
import ClassSharing.Proofs.Library.Computing
import ClassSharing.Proofs.Library.Restoring
import ClassSharing.Proofs.Library.Archiving
import ClassSharing.Proofs.Files.Installing
import ClassSharing.Proofs.Files.Places
import ClassSharing.Proofs.Files.Replacing
import ClassSharing.Proofs.Bootstrap.Opening
import ClassSharing.Proofs.Bootstrap.Agreement
import ClassSharing.Proofs.Bootstrap.Layers
import ClassSharing.Proofs.Library.Processes
import ClassSharing.Proofs.Library.Linking
import ClassSharing.Proofs.Library.ArchivedModules
import ClassSharing.Proofs.Library.Contents
import ClassSharing.Proofs.Library.Resolving
import ClassSharing.Proofs.Library.Membership
import ClassSharing.Proofs.Library.Describing
import ClassSharing.Proofs.Library.Sets
import ClassSharing.Proofs.Library.Reading
import ClassSharing.Proofs.Library.Relinking
import ClassSharing.Proofs.Library.LinkedModules
import ClassSharing.Proofs.Library.Generation
import ClassSharing.Proofs.Library.Invokers
import ClassSharing.Proofs.Session.Regime
import ClassSharing.Proofs.Session.Termination
import ClassSharing.Proofs.Session.Journal
import ClassSharing.Proofs.Session.Lifecycle
import ClassSharing.Proofs.Session.Calls
import ClassSharing.Proofs.Session.Outcomes
import ClassSharing.Proofs.Session.Exposure
import ClassSharing.Proofs.Library.Unarchived
import ClassSharing.Proofs.Library.Lookups
import ClassSharing.Proofs.Library.Uses
import ClassSharing.Proofs.Library.Declared
import ClassSharing.Proofs.Library.Caches
import ClassSharing.Proofs.Cbor.Exactness
import ClassSharing.Proofs.Image.Exactness
import ClassSharing.Proofs.Image.Readable
import ClassSharing.Proofs.Image.Damage
import ClassSharing.Proofs.Image.Reproducible
import ClassSharing.Proofs.Image.Discovery
import ClassSharing.Proofs.Image.Refusal
import ClassSharing.Proofs.Image.Specifications
import ClassSharing.Proofs.Image.Consistent
import ClassSharing.Proofs.Image.InPlace
import ClassSharing.Proofs.Session.Answers
import ClassSharing.Proofs.Session.AllOrNothing
import ClassSharing.Proofs.Session.Undisturbed
import ClassSharing.Proofs.Image.Records
import ClassSharing.Proofs.Library.LinkingOnce
import ClassSharing.Proofs.Session.Failures
import ClassSharing.Proofs.Session.Separation
import ClassSharing.Proofs.Cbor.Bounds
import ClassSharing.Proofs.Image.Canonical
import ClassSharing.Proofs.Library.Signatures
import ClassSharing.Proofs.Files.Atomicity
import ClassSharing.Proofs.Config.Precedence
import ClassSharing.Proofs.Config.Search
import ClassSharing.Proofs.Machine.Slots
import ClassSharing.Proofs.Machine.Statics
