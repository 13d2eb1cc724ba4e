import ArenaRegistry.Arena.Listing
import ArenaRegistry.Arena.Heap
import ArenaRegistry.Arena.Pool
import ArenaRegistry.Arena.Tamper
import ArenaRegistry.Pointer.Compare
import ArenaRegistry.Registry.Op
import ArenaRegistry.Proofs.Arena.Calls
import ArenaRegistry.Proofs.Arena.Preservation
import ArenaRegistry.Proofs.Arena.Traffic
import ArenaRegistry.Proofs.Arena.Consistency
import ArenaRegistry.Proofs.Arena.Discipline
import ArenaRegistry.Proofs.Arena.Coverage
import ArenaRegistry.Proofs.Arena.Carving
import ArenaRegistry.Proofs.Arena.Tracking
import ArenaRegistry.Proofs.Arena.Session
import ArenaRegistry.Proofs.Arena.Ownership
import ArenaRegistry.Proofs.Arena.Settlement
import ArenaRegistry.Proofs.Arena.Failure
import ArenaRegistry.Proofs.Arena.Handles
import ArenaRegistry.Proofs.Pointer.Text
import ArenaRegistry.Proofs.Registry.Turn
import ArenaRegistry.Proofs.Registry.WellFormed
import ArenaRegistry.Proofs.Registry.References
import ArenaRegistry.Proofs.Registry.Honour
import ArenaRegistry.Proofs.Registry.Casting
import ArenaRegistry.Proofs.Registry.Order
import ArenaRegistry.Proofs.Registry.Pinned
import ArenaRegistry.Proofs.Registry.Failure
import ArenaRegistry.Proofs.Tag.Walks
import ArenaRegistry.Proofs.Registry.Views
import ArenaRegistry.Proofs.Registry.Textual
import ArenaRegistry.Proofs.Arena.Roster
import ArenaRegistry.Proofs.Registry.Locality
import ArenaRegistry.Proofs.Registry.Listings
import ArenaRegistry.Proofs.Registry.Policies
import ArenaRegistry.Proofs.Arena.Twins
import ArenaRegistry.Proofs.Arena.Panicking
import ArenaRegistry.Proofs.Arena.Faultless
import ArenaRegistry.Proofs.Tag.Reachability
import ArenaRegistry.Proofs.Arena.Frames
import ArenaRegistry.Proofs.Arena.LastInChunk
import ArenaRegistry.Proofs.Arena.Retired
import ArenaRegistry.Proofs.Arena.Growth
import ArenaRegistry.Proofs.Arena.Resizing
import ArenaRegistry.Proofs.Tag.Hops
import ArenaRegistry.Proofs.Pointer.Grammar
import ArenaRegistry.Proofs.Arena.Unwinding
import ArenaRegistry.Proofs.Arena.Diagnosis
import ArenaRegistry.Proofs.Tag.Duality
import ArenaRegistry.Proofs.Registry.Recasting
import ArenaRegistry.Proofs.Registry.Alternatives
import ArenaRegistry.Proofs.Tag.History
import ArenaRegistry.Proofs.Registry.Arrivals
import ArenaRegistry.Proofs.Arena.Claims
import ArenaRegistry.Proofs.Arena.Headroom
import ArenaRegistry.Proofs.Tag.Interning
import ArenaRegistry.Proofs.Settings.Environment
import ArenaRegistry.Proofs.Arena.Regranting
import ArenaRegistry.Proofs.Arena.Provenance
