import ListKeeper.Act
import ListKeeper.App
import ListKeeper.Board
import ListKeeper.Checklist
import ListKeeper.Config.Basic
import ListKeeper.Config.Environment
import ListKeeper.Criteria.Basic
import ListKeeper.Criteria.Order
import ListKeeper.Draft
import ListKeeper.Error
import ListKeeper.Index
import ListKeeper.Item
import ListKeeper.Json.Basic
import ListKeeper.Json.Canonical
import ListKeeper.Json.Parser
import ListKeeper.Json.Printer
import ListKeeper.Json.Record
import ListKeeper.Keeper.Basic
import ListKeeper.Keeper.Call
import ListKeeper.Keeper.Filters
import ListKeeper.Keeper.Items
import ListKeeper.Keeper.Lists
import ListKeeper.Keeper.Mutation
import ListKeeper.Notice
import ListKeeper.Number.Double
import ListKeeper.Number.Numeral
import ListKeeper.Number.Reading
import ListKeeper.Number.Shortest
import ListKeeper.Period
import ListKeeper.Proofs.Act
import ListKeeper.Proofs.Collection
import ListKeeper.Proofs.Config
import ListKeeper.Proofs.Draft
import ListKeeper.Proofs.Environment
import ListKeeper.Proofs.Filtering
import ListKeeper.Proofs.Index
import ListKeeper.Proofs.Json.Numeral
import ListKeeper.Proofs.Json.Record
import ListKeeper.Proofs.Json.RoundTrip
import ListKeeper.Proofs.Keeper.Accounts
import ListKeeper.Proofs.Keeper.Agreement
import ListKeeper.Proofs.Keeper.Atomicity
import ListKeeper.Proofs.Keeper.Basic
import ListKeeper.Proofs.Keeper.Canonical
import ListKeeper.Proofs.Keeper.Coherence
import ListKeeper.Proofs.Keeper.Confidentiality
import ListKeeper.Proofs.Keeper.Integrity
import ListKeeper.Proofs.Keeper.Loading
import ListKeeper.Proofs.Keeper.Mutation
import ListKeeper.Proofs.Keeper.Publishing
import ListKeeper.Proofs.Keeper.Recording
import ListKeeper.Proofs.Keeper.Recovery
import ListKeeper.Proofs.Keeper.Rollback
import ListKeeper.Proofs.Keeper.Setters
import ListKeeper.Proofs.Keeper.Status
import ListKeeper.Proofs.Keeper.Updating
import ListKeeper.Proofs.Period
import ListKeeper.Proofs.Queue.Accounting
import ListKeeper.Proofs.Queue.Basic
import ListKeeper.Proofs.Queue.Chronicle
import ListKeeper.Proofs.Queue.Drivers
import ListKeeper.Proofs.Queue.History
import ListKeeper.Proofs.Queue.Order
import ListKeeper.Proofs.Queue.Retries
import ListKeeper.Proofs.Queue.Run
import ListKeeper.Proofs.Queue.Slots
import ListKeeper.Proofs.Queue.Story
import ListKeeper.Proofs.Search
import ListKeeper.Proofs.Simulation.Idle
import ListKeeper.Proofs.Simulation.Join
import ListKeeper.Proofs.Simulation.Sync
import ListKeeper.Proofs.Simulation.Tasks
import ListKeeper.Proofs.Simulation.Waiting
import ListKeeper.Proofs.Sort
import ListKeeper.Proofs.Storage.Coherence
import ListKeeper.Proofs.Storage.Crash
import ListKeeper.Proofs.Storage.Document
import ListKeeper.Proofs.Storage.Durability
import ListKeeper.Proofs.Storage.Fault
import ListKeeper.Proofs.Storage.Image
import ListKeeper.Proofs.Storage.Path
import ListKeeper.Proofs.Storage.Replace
import ListKeeper.Proofs.Subscription
import ListKeeper.Proofs.Time.Calendar
import ListKeeper.Proofs.View
import ListKeeper.Proofs.World
import ListKeeper.Queue.Basic
import ListKeeper.Queue.Operation
import ListKeeper.Queue.Priority
import ListKeeper.Queue.Record
import ListKeeper.Simulation.Bench
import ListKeeper.Simulation.Join
import ListKeeper.Simulation.Lock
import ListKeeper.Simulation.Machine
import ListKeeper.Simulation.Roster
import ListKeeper.Simulation.Rule
import ListKeeper.Simulation.Service
import ListKeeper.Simulation.Session
import ListKeeper.Storage.DataFile
import ListKeeper.Storage.Disk
import ListKeeper.Storage.Gateway
import ListKeeper.Storage.Image
import ListKeeper.Storage.Path
import ListKeeper.Text.Basic
import ListKeeper.Text.CaseData
import ListKeeper.Text.Lowercase
import ListKeeper.Time.Date
import ListKeeper.Time.Rfc3339
import ListKeeper.Time.Timestamp
import ListKeeper.Trace
import ListKeeper.Transaction
import ListKeeper.World
