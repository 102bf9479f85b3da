import BufferPool.Arena.Basic
import BufferPool.Arena.Session
import BufferPool.Arena.Update
import BufferPool.Buffer.Basic
import BufferPool.Buffer.Transfer
import BufferPool.Config
import BufferPool.Desk.Basic
import BufferPool.Desk.Command
import BufferPool.Desk.Perform
import BufferPool.Desk.Run
import BufferPool.Event
import BufferPool.Fault
import BufferPool.Payload
import BufferPool.Pool.Content
import BufferPool.Pool.Lists
import BufferPool.Pool.Setup
import BufferPool.Pool.Storage
import BufferPool.Pool.Traversal
import BufferPool.PoolM
import BufferPool.Producer
import BufferPool.Report.Describe
import BufferPool.Report.Digest
import BufferPool.Report.Events
import BufferPool.Retention
import BufferPool.SizeClass
import BufferPool.Supply
import BufferPool.Sweep
import BufferPool.World
import BufferPool.Proofs.Arena.Relink
import BufferPool.Proofs.Arena.Occupancy
import BufferPool.Proofs.Arena.Clearing
import BufferPool.Proofs.Arena.Runs
import BufferPool.Proofs.Arena.Catalog
import BufferPool.Proofs.Arena.Ledger
import BufferPool.Proofs.Arena.Reuse
import BufferPool.Proofs.World.Quiet
import BufferPool.Proofs.World.Chronicle
import BufferPool.Proofs.World.Operations
import BufferPool.Proofs.World.Lifetime
import BufferPool.Proofs.Desk.CallChronicle
import BufferPool.Proofs.Desk.SceneSteps
import BufferPool.Proofs.Desk.Handles
import BufferPool.Proofs.Pool.Stock
import BufferPool.Proofs.Pool.Lending
import BufferPool.Proofs.Arena.Distinct
import BufferPool.Proofs.Drain.Order
import BufferPool.Proofs.Drain.Progress
import BufferPool.Proofs.Drain.Sections
import BufferPool.Proofs.Drain.Work
import BufferPool.Proofs.Drain.Producing
import BufferPool.Proofs.Drain.Consuming
import BufferPool.Proofs.Drain.Setup
import BufferPool.Proofs.Drain.Balance
import BufferPool.Proofs.Buffer.Cursors
import BufferPool.Proofs.World.Acts
import BufferPool.Proofs.World.Idle
import BufferPool.Proofs.Arena.Contents
import BufferPool.Proofs.World.Bulletin
import BufferPool.Proofs.World.Past
import BufferPool.Proofs.World.Books
import BufferPool.Proofs.World.Triple
import BufferPool.Proofs.World.Totals
import BufferPool.Proofs.Pool.Accounts
import BufferPool.Proofs.Pool.TraversalRules
import BufferPool.Proofs.Pool.ComposedAccounts
import BufferPool.Proofs.Desk.CallAccounts
import BufferPool.Proofs.Desk.ThreadSteps
import BufferPool.Proofs.Desk.Accounting
import BufferPool.Proofs.Desk.Payloads
import BufferPool.Proofs.Pool.Frame
import BufferPool.Proofs.Desk.Cursors
import BufferPool.Proofs.Pool.Skipping
import BufferPool.Proofs.Desk.Sweeps
import BufferPool.Proofs.Desk.Runs
import BufferPool.Proofs.Pool.WarrantedSteps
import BufferPool.Proofs.Pool.Calm
import BufferPool.Proofs.Pool.WarrantedOperations
import BufferPool.Proofs.Pool.WarrantedRequests
import BufferPool.Proofs.Desk.StepLabels
import BufferPool.Proofs.Desk.Publication
import BufferPool.Proofs.Pool.SendingOff
import BufferPool.Proofs.Pool.Reclaiming
import BufferPool.Proofs.Desk.Abandonment
import BufferPool.Proofs.Desk.Journal
import BufferPool.Proofs.Buffer.Streams
import BufferPool.Proofs.Desk.Committed
import BufferPool.Proofs.Desk.Ownership
import BufferPool.Proofs.World.Lockstep
import BufferPool.Proofs.Pool.InStep
import BufferPool.Proofs.Desk.InStep
import BufferPool.Proofs.Desk.Actions
import BufferPool.Proofs.Desk.Profiles
import BufferPool.Proofs.Buffer.Marks
import BufferPool.Proofs.Pool.LicensedSteps
import BufferPool.Proofs.Pool.LicensedOperations
import BufferPool.Proofs.Desk.LicensedActions
import BufferPool.Proofs.Pool.Cache
import BufferPool.Proofs.Desk.Cache
import BufferPool.Proofs.Pool.Discarding
import BufferPool.Proofs.Pool.LicensedCells
import BufferPool.Proofs.Desk.Marks
import BufferPool.Proofs.Pool.Capacity
import BufferPool.Proofs.Desk.Capacity
import BufferPool.Proofs.Pool.Sights
import BufferPool.Proofs.Pool.Isolation
import BufferPool.Proofs.Desk.Isolation
import BufferPool.Proofs.Pool.Failing
import BufferPool.Proofs.Desk.Failing
import BufferPool.Proofs.Pool.Lookup
import BufferPool.Proofs.Desk.Lookup
import BufferPool.Proofs.Pool.VisitLogs
import BufferPool.Proofs.Desk.Snapshots
import BufferPool.Proofs.World.Record
import BufferPool.Proofs.Pool.Rows
import BufferPool.Proofs.Pool.Completion
import BufferPool.Proofs.Desk.Completion
import BufferPool.Proofs.Pool.Supplying
import BufferPool.Proofs.Pool.Providing
import BufferPool.Proofs.Desk.Providing
import BufferPool.Proofs.Pool.Obtaining
import BufferPool.Proofs.Desk.Obtaining
import BufferPool.Proofs.Pool.Deciding
import BufferPool.Proofs.Desk.Deciding
import BufferPool.Proofs.Pool.Departing
import BufferPool.Proofs.Desk.Leasing
import BufferPool.Proofs.Pool.Sweeping
import BufferPool.Proofs.Pool.Settling
import BufferPool.Proofs.Desk.Passes
import BufferPool.Proofs.SizeClass.Least
import BufferPool.Proofs.Buffer.Migration
import BufferPool.Proofs.Desk.Migration
import BufferPool.Proofs.Pool.Locks
import BufferPool.Proofs.Desk.Locks
import BufferPool.Proofs.Pool.Retrying
import BufferPool.Proofs.Desk.Retries
import BufferPool.Proofs.Pool.Closing
import BufferPool.Proofs.Desk.Teardown
import BufferPool.Proofs.Pool.Preallocating
import BufferPool.Proofs.Pool.Undoing
import BufferPool.Proofs.Pool.Building
import BufferPool.Proofs.Buffer.Writing
import BufferPool.Proofs.Desk.Writing
import BufferPool.Proofs.World.Wording
import BufferPool.Proofs.Pool.Agreement
import BufferPool.Proofs.Pool.SettingUp
import BufferPool.Proofs.Pool.Filling
import BufferPool.Proofs.Desk.LargeRequests
