import TaskMemory.Config.Options
import TaskMemory.Memory.Blocks
import TaskMemory.Memory.Table
import TaskMemory.Tracked.Drop
import TaskMemory.Ring.Session
import TaskMemory.Pool.Session
import TaskMemory.Payload.Session
import TaskMemory.Graph.Successors
import TaskMemory.Graph.Session
import TaskMemory.Store.Session
import TaskMemory.Contention.Report
import TaskMemory.Contention.Relay
import TaskMemory.Proofs.Handle.Packing
import TaskMemory.Proofs.Pool.FreeList
import TaskMemory.Proofs.Pool.Tenancy
import TaskMemory.Proofs.Pool.Accounting
import TaskMemory.Proofs.Pool.Disposal
import TaskMemory.Proofs.Pool.FaultyDrop
import TaskMemory.Proofs.Pool.Refinement
import TaskMemory.Proofs.Handle.RoundTrip
import TaskMemory.Proofs.Ring.Contents
import TaskMemory.Proofs.Ring.Handover
import TaskMemory.Proofs.Ring.Readings
import TaskMemory.Proofs.Ring.Queue
import TaskMemory.Proofs.Graph.Completion
import TaskMemory.Proofs.Graph.Readiness
import TaskMemory.Proofs.Store.FirstWriter
import TaskMemory.Proofs.Store.Race
import TaskMemory.Proofs.Pool.Alone
import TaskMemory.Proofs.Pool.Allotment
import TaskMemory.Proofs.Pool.Crowding
import TaskMemory.Proofs.Payload.OneShot
import TaskMemory.Proofs.Pool.Overtaking
import TaskMemory.Proofs.Pool.Nesting
import TaskMemory.Proofs.Graph.Upkeep
import TaskMemory.Proofs.Pool.Release
import TaskMemory.Proofs.Pool.Addressing
import TaskMemory.Proofs.Pool.Peak
import TaskMemory.Proofs.Pool.Footprint
import TaskMemory.Proofs.Interruption
import TaskMemory.Proofs.Pool.Reuse
import TaskMemory.Proofs.Memory.Accounts
import TaskMemory.Proofs.Memory.Snapshots
import TaskMemory.Proofs.Store.Footprint
import TaskMemory.Proofs.Graph.Multiplicity
import TaskMemory.Proofs.Graph.Countdown
import TaskMemory.Proofs.Handle.Acceptance
import TaskMemory.Proofs.Pool.Transcript
import TaskMemory.Proofs.Pool.Telling
import TaskMemory.Proofs.Contention.Stock
import TaskMemory.Proofs.Contention.Turnover
import TaskMemory.Proofs.Contention.Merging
import TaskMemory.Proofs.Memory.Growth
import TaskMemory.Proofs.Memory.Storage
import TaskMemory.Proofs.Memory.Relocation
