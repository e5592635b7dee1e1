import FlashVolume.Main
import FlashVolume.Memory.Backend
import FlashVolume.Storage.Armed
import FlashVolume.Proofs.Path.Bytes
import FlashVolume.Proofs.Request
import FlashVolume.Proofs.Storage.Running
import FlashVolume.Proofs.Memory.PathMap
import FlashVolume.Proofs.Memory.Calls
import FlashVolume.Proofs.Memory.Requests
import FlashVolume.Proofs.Digest.Chunks
import FlashVolume.Proofs.Memory.Digests
import FlashVolume.Proofs.Memory.Changes
import FlashVolume.Proofs.Footprints
import FlashVolume.Proofs.Memory.Tree
import FlashVolume.Proofs.Memory.Steps
import FlashVolume.Proofs.Memory.Rewrites
import FlashVolume.Proofs.Storage.Discipline
import FlashVolume.Proofs.Discipline
import FlashVolume.Proofs.FirstErrors
import FlashVolume.Proofs.Path.Names
import FlashVolume.Proofs.Host.Paths
import FlashVolume.Proofs.Site
import FlashVolume.Proofs.Host.Mirrors
import FlashVolume.Proofs.Storage.Listing
import FlashVolume.Proofs.Storage.Presentation
import FlashVolume.Proofs.Memory.Presentation
import FlashVolume.Proofs.Host.Calls
import FlashVolume.Proofs.Host.Presentation
import FlashVolume.Proofs.Storage.Agreement
import FlashVolume.Proofs.Storage.Finding
import FlashVolume.Proofs.Agreement
import FlashVolume.Proofs.Equivalence
import FlashVolume.Proofs.Path.Stages
import FlashVolume.Proofs.Memory.Making
import FlashVolume.Proofs.Memory.Failures
import FlashVolume.Proofs.Text.Order
import FlashVolume.Proofs.Memory.Children
import FlashVolume.Proofs.Passes
import FlashVolume.Proofs.Memory.Records
import FlashVolume.Proofs.Memory.Iteration
import FlashVolume.Proofs.Memory.Deleting
import FlashVolume.Proofs.Memory.Uniqueness
import FlashVolume.Proofs.Text.Words
import FlashVolume.Proofs.Text.Numerals
import FlashVolume.Proofs.Shell.Rendering
import FlashVolume.Proofs.Storage.Abreast
import FlashVolume.Proofs.Host.Translation
import FlashVolume.Proofs.Host.Realm
import FlashVolume.Proofs.Host.Confinement
import FlashVolume.Proofs.Host.Boundary
import FlashVolume.Proofs.Mounting
import FlashVolume.Proofs.Memory.Visibility
import FlashVolume.Proofs.Text.Utf8
import FlashVolume.Proofs.Shell.Conversation
import FlashVolume.Proofs.Queries
import FlashVolume.Proofs.Memory.ReadOnly
import FlashVolume.Proofs.Memory.Enclosure
import FlashVolume.Proofs.Refusal
import FlashVolume.Proofs.Host.Growth
import FlashVolume.Proofs.Unmounted
import FlashVolume.Proofs.Path.Canonical
import FlashVolume.Proofs.Path.Limits
import FlashVolume.Proofs.Digest.Reads
import FlashVolume.Proofs.Memory.Partial
import FlashVolume.Proofs.Shell.Listing
import FlashVolume.Proofs.Text.Boundaries
import FlashVolume.Proofs.Path.Joining
import FlashVolume.Proofs.History
import FlashVolume.Proofs.Memory.Dots
import FlashVolume.Proofs.TooLong
import FlashVolume.Proofs.Digest.Bits
import FlashVolume.Proofs.Digest.Constants
import FlashVolume.Proofs.Digest.Standard
import FlashVolume.Proofs.Digest.Hash
import FlashVolume.Proofs.Digest.Checksum
import FlashVolume.Proofs.Digest.Conformance
