import ResourceManager.Cluster.Deadlock
import ResourceManager.Cluster.Drains
import ResourceManager.Cluster.Engaged
import ResourceManager.Cluster.Generated
import ResourceManager.Cluster.Grantees
import ResourceManager.Cluster.Grants
import ResourceManager.Cluster.Ledger
import ResourceManager.Cluster.Lifecycle
import ResourceManager.Cluster.Orphans
import ResourceManager.Cluster.Outboxes
import ResourceManager.Cluster.Progress
import ResourceManager.Cluster.Refinement
import ResourceManager.Cluster.Represents
import ResourceManager.Cluster.Runs
import ResourceManager.Cluster.System
import ResourceManager.Cluster.Tracks
import ResourceManager.Cluster.View
import ResourceManager.Comms.Addresses
import ResourceManager.Comms.Commands
import ResourceManager.Comms.Connections
import ResourceManager.Comms.Descriptors
import ResourceManager.Comms.Framing
import ResourceManager.Comms.Messages
import ResourceManager.Comms.Requests
import ResourceManager.Comms.ResourceAdapter
import ResourceManager.Comms.ThreadPool
import ResourceManager.Comms.Workers
import ResourceManager.Coordinator.AllOrNothing
import ResourceManager.Coordinator.Collector
import ResourceManager.Coordinator.Departures
import ResourceManager.Coordinator.Detections
import ResourceManager.Coordinator.NodeDeath
import ResourceManager.Coordinator.Records
import ResourceManager.Coordinator.Registration
import ResourceManager.Coordinator.Removals
import ResourceManager.Coordinator.Responses
import ResourceManager.Coordinator.Rollback
import ResourceManager.Coordinator.Stage
import ResourceManager.Coordinator.StateMachine
import ResourceManager.Directory.Announce
import ResourceManager.Directory.Datagrams
import ResourceManager.Directory.Expiry
import ResourceManager.Directory.History
import ResourceManager.Directory.Payload
import ResourceManager.Directory.RoundTrip
import ResourceManager.EventLoop.Discipline
import ResourceManager.EventLoop.OneTask
import ResourceManager.EventLoop.Sane
import ResourceManager.EventLoop.System
import ResourceManager.Grid.Client
import ResourceManager.Grid.Custody
import ResourceManager.Grid.InStep
import ResourceManager.Grid.Lines
import ResourceManager.Grid.Processes
import ResourceManager.Grid.Requests
import ResourceManager.Grid.System
import ResourceManager.HashTable.Basic
import ResourceManager.HashTable.Insert
import ResourceManager.HashTable.Map
import ResourceManager.HashTable.Probing
import ResourceManager.HashTable.Table
import ResourceManager.HashTable.Valid
import ResourceManager.Inventory.Announcements
import ResourceManager.Inventory.Events
import ResourceManager.Inventory.FirstFit
import ResourceManager.Inventory.Isolation
import ResourceManager.Inventory.Leaks
import ResourceManager.Inventory.Moves
import ResourceManager.Inventory.Reclaim
import ResourceManager.Inventory.Wake
import ResourceManager.Inventory.WakeUps
import ResourceManager.Library.BoundedFifo
import ResourceManager.Library.BoundedLog
import ResourceManager.Library.Fields
import ResourceManager.Library.History
import ResourceManager.Library.KeyedList
import ResourceManager.Library.Loops
import ResourceManager.Library.Numerals
import ResourceManager.Library.OrderedAcquisition
import ResourceManager.Library.Permits
import ResourceManager.Library.Runs
import ResourceManager.Library.Scanf
import ResourceManager.Network.Refinement
import ResourceManager.Network.System
import ResourceManager.Resources.KnownNodes
import ResourceManager.Resources.LocalResource
import ResourceManager.Resources.OwnedJobs
import ResourceManager.Resources.Queues
import ResourceManager.Resources.Types
import ResourceManager.Scheduler.Bridge
import ResourceManager.Scheduler.JobLife
import ResourceManager.Scheduler.Loop
import ResourceManager.Scheduler.Ordering
import ResourceManager.Scheduler.Outcomes
import ResourceManager.Scheduler.Packets
import ResourceManager.Scheduler.Requests
import ResourceManager.Scheduler.Submission
