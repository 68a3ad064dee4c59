import MemoryBudget.Numeric.Significant
import MemoryBudget.Numeric.Multiplier
import MemoryBudget.Numeric.Shortest
import MemoryBudget.Budget
import MemoryBudget.Pressure
import MemoryBudget.Lru.Arena
import MemoryBudget.Lru.Basic
import MemoryBudget.Lru.Operation
import MemoryBudget.Lru.RecencyList
import MemoryBudget.Dialogue.Script
import MemoryBudget.Dialogue.Service
import MemoryBudget.Dialogue.Machine
import MemoryBudget.Dialogue.Engine
import MemoryBudget.Cache.Basic
import MemoryBudget.Cache.Clients
import MemoryBudget.Cache.Engine
import MemoryBudget.Pool.Recyclable
import MemoryBudget.Pool.Buckets
import MemoryBudget.Pool.Stock
import MemoryBudget.Pool.Basic
import MemoryBudget.Pool.Depot
import MemoryBudget.Pool.Clients
import MemoryBudget.Pool.Tiers
import MemoryBudget.Pool.Engine
import MemoryBudget.Pool.Shelf
import MemoryBudget.Bitmap
import MemoryBudget.Buffer
import MemoryBudget.Block
import MemoryBudget.Text.Visible
import MemoryBudget.Text.Quoted
import MemoryBudget.Shared.Allocations
import MemoryBudget.Shared.Custody
import MemoryBudget.Shared.Basic
import MemoryBudget.Shared.Clients
import MemoryBudget.Suite
import MemoryBudget.Proofs.Lru.Links
import MemoryBudget.Proofs.Lru.Layout
import MemoryBudget.Proofs.Lru.Recency
import MemoryBudget.Proofs.Lru.Representation
import MemoryBudget.Proofs.Lru.Meaning
import MemoryBudget.Proofs.Lru.Refinement
import MemoryBudget.Proofs.Lru.Touches
import MemoryBudget.Proofs.Lru.Unlinking
import MemoryBudget.Proofs.Lru.Relabelling
import MemoryBudget.Proofs.Dialogue.History
import MemoryBudget.Proofs.Dialogue.Versions
import MemoryBudget.Proofs.Dialogue.Memory
import MemoryBudget.Proofs.Dialogue.Marking
import MemoryBudget.Proofs.Dialogue.Transcript
import MemoryBudget.Proofs.Dialogue.Inquiries
import MemoryBudget.Proofs.Dialogue.Executions
import MemoryBudget.Proofs.Dialogue.Linearisation
import MemoryBudget.Proofs.Cache.Steps
import MemoryBudget.Proofs.Lru.Relief
import MemoryBudget.Proofs.Cache.Soundness
import MemoryBudget.Proofs.Cache.Conservation
import MemoryBudget.Proofs.Cache.Chronicle
import MemoryBudget.Proofs.Cache.Relabelling
import MemoryBudget.Proofs.Cache.Numbering
import MemoryBudget.Proofs.Cache.Fates
import MemoryBudget.Proofs.Cache.Linearisation
import MemoryBudget.Proofs.Pool.Buckets
import MemoryBudget.Proofs.Pool.Listing
import MemoryBudget.Proofs.Pool.Shelves
import MemoryBudget.Proofs.Pool.Meaning
import MemoryBudget.Proofs.Pool.Refinement
import MemoryBudget.Proofs.Pool.Steps
import MemoryBudget.Proofs.Pool.Tagging
import MemoryBudget.Proofs.Pool.Conservation
import MemoryBudget.Proofs.Pool.Chronicle
import MemoryBudget.Proofs.Pool.Fates
import MemoryBudget.Proofs.Pool.Objects
import MemoryBudget.Proofs.Pool.Supply
import MemoryBudget.Proofs.Pool.Transparency
import MemoryBudget.Proofs.Pool.Relief
import MemoryBudget.Proofs.Pool.Accounts
import MemoryBudget.Proofs.Pool.Tiers
import MemoryBudget.Proofs.Pool.Linearisation
import MemoryBudget.Proofs.Reentrancy
import MemoryBudget.Proofs.Shared.Counts
import MemoryBudget.Proofs.Shared.Departures
import MemoryBudget.Proofs.Shared.Steps
import MemoryBudget.Proofs.Shared.Reports
import MemoryBudget.Proofs.Suite.Operations
import MemoryBudget.Proofs.Suite.Recycling
import MemoryBudget.Proofs.Suite.Batches
import MemoryBudget.Proofs.Suite.Aliasing
import MemoryBudget.Proofs.Suite.Relief
import MemoryBudget.Proofs.Pool.BestFit
import MemoryBudget.Proofs.Cache.Putting
import MemoryBudget.Proofs.Dialogue.Turns
import MemoryBudget.Proofs.Pool.Serving
import MemoryBudget.Proofs.Pool.Views
import MemoryBudget.Proofs.Pool.Secrecy
import MemoryBudget.Proofs.Pool.WorkingSet
import MemoryBudget.Proofs.Shared.Sightings
import MemoryBudget.Proofs.Lru.Rescaling
import MemoryBudget.Proofs.Rescaling
import MemoryBudget.Proofs.Pool.Screening
import MemoryBudget.Proofs.Dialogue.Thrift
import MemoryBudget.Proofs.Dialogue.Termination
import MemoryBudget.Proofs.Dialogue.Frugality
import MemoryBudget.Proofs.Cache.Thrift
import MemoryBudget.Proofs.Pool.Thrift
import MemoryBudget.Proofs.Shrinking
import MemoryBudget.Proofs.Lru.Trimming
import MemoryBudget.Proofs.Lru.Integrity
import MemoryBudget.Proofs.Lru.UnitCosts
import MemoryBudget.Proofs.Lru.Inclusion
import MemoryBudget.Proofs.Dialogue.Attendance
import MemoryBudget.Proofs.Dialogue.Trimming
import MemoryBudget.Proofs.Cache.Visits
import MemoryBudget.Proofs.Cache.Trimming
import MemoryBudget.Proofs.Cache.Textbook
import MemoryBudget.Proofs.Pool.Trimming
import MemoryBudget.Proofs.Trimming
import MemoryBudget.Proofs.Dialogue.Interleaving
import MemoryBudget.Proofs.Pool.Serials
import MemoryBudget.Proofs.Pool.Coherence
import MemoryBudget.Proofs.Numeric.Rounding
import MemoryBudget.Proofs.Numeric.Scaling
