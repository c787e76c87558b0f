import PooledRouting.Backoff.Basic
import PooledRouting.Backoff.Retry
import PooledRouting.Balancer.Basic
import PooledRouting.Balancer.Choice
import PooledRouting.Balancer.Endpoint
import PooledRouting.Balancer.Fault
import PooledRouting.Balancer.Load
import PooledRouting.Balancer.PlainEndpoint
import PooledRouting.Balancer.Registry
import PooledRouting.Balancer.Ring
import PooledRouting.Balancer.Rotation
import PooledRouting.Balancer.SmoothWeights
import PooledRouting.Balancer.Strategy
import PooledRouting.Binary64.Arithmetic
import PooledRouting.Binary64.Basic
import PooledRouting.Checksum
import PooledRouting.Cluster.Basic
import PooledRouting.Cluster.PooledEndpoint
import PooledRouting.Command.Arguments
import PooledRouting.Command.Basic
import PooledRouting.Command.VariableFile
import PooledRouting.Command.Variables
import PooledRouting.Connection
import PooledRouting.Decimal.Layout
import PooledRouting.Decimal.Reading
import PooledRouting.Decimal.Shortest
import PooledRouting.Main
import PooledRouting.Pool.Checkout
import PooledRouting.Pool.Dialing
import PooledRouting.Pool.Fault
import PooledRouting.Pool.Operations
import PooledRouting.Pool.Options
import PooledRouting.Pool.Retirement
import PooledRouting.Pool.State
import PooledRouting.Pool.Stats
import PooledRouting.Pool.Turns
import PooledRouting.Settings.Basic
import PooledRouting.Settings.Environment
import PooledRouting.Settings.LogFormat
import PooledRouting.Settings.Record
import PooledRouting.Simulation.Basic
import PooledRouting.Simulation.Report
import PooledRouting.Text.Alphanumeric
import PooledRouting.Text.Blank
import PooledRouting.Text.Figure
import PooledRouting.Text.Fold
import PooledRouting.Text.Invisible
import PooledRouting.Text.Json
import PooledRouting.Text.Quoted
import PooledRouting.Text.Ranges
import PooledRouting.Text.Span
import PooledRouting.Text.Truth
import PooledRouting.Proofs.Pool.Runs
import PooledRouting.Proofs.Pool.Tasks
import PooledRouting.Proofs.Pool.Changes
import PooledRouting.Proofs.Pool.Acts
import PooledRouting.Proofs.Pool.Chains
import PooledRouting.Proofs.Pool.Attempts
import PooledRouting.Proofs.Pool.Roster
import PooledRouting.Proofs.Pool.Slots
import PooledRouting.Proofs.Pool.Bookkeeping
import PooledRouting.Proofs.Pool.Transports
import PooledRouting.Proofs.Pool.Calls
import PooledRouting.Proofs.Pool.Caps
import PooledRouting.Proofs.Pool.Circuit
import PooledRouting.Proofs.Pool.TopUps
import PooledRouting.Proofs.Pool.Outage
import PooledRouting.Proofs.Pool.Leases
import PooledRouting.Proofs.Pool.Events
import PooledRouting.Proofs.Pool.Releases
import PooledRouting.Proofs.Pool.Checkouts
import PooledRouting.Proofs.Pool.Rejections
import PooledRouting.Proofs.Pool.Queue
import PooledRouting.Proofs.Pool.Closing
import PooledRouting.Proofs.Pool.Shutdown
import PooledRouting.Proofs.Pool.Step
import PooledRouting.Proofs.Pool.Order
import PooledRouting.Proofs.Pool.Stages
import PooledRouting.Proofs.Pool.Waits
import PooledRouting.Proofs.Pool.IdleCap
import PooledRouting.Proofs.Pool.DialTurns
import PooledRouting.Proofs.Pool.DialFailures
import PooledRouting.Proofs.Balancer.Runs
import PooledRouting.Proofs.Balancer.HashRing
import PooledRouting.Proofs.Balancer.Remapping
import PooledRouting.Proofs.Balancer.Selections
import PooledRouting.Proofs.Balancer.Shares
import PooledRouting.Proofs.Balancer.Starvation
import PooledRouting.Proofs.Balancer.Choosing
import PooledRouting.Proofs.Balancer.Contract
import PooledRouting.Proofs.Pool.Ledger
import PooledRouting.Proofs.Balancer.Alignment
import PooledRouting.Proofs.Pool.Admissions
import PooledRouting.Proofs.Pool.GetLedger
import PooledRouting.Proofs.Cluster.Traffic
import PooledRouting.Proofs.Pool.DialTimes
import PooledRouting.Proofs.Pool.OneCall
import PooledRouting.Proofs.Pool.InTime
import PooledRouting.Proofs.Pool.Faultless
import PooledRouting.Proofs.Simulation.Chance
import PooledRouting.Proofs.Simulation.Pools
import PooledRouting.Proofs.Simulation.Requests
import PooledRouting.Proofs.Simulation.Balance
import PooledRouting.Proofs.Command.Balance
import PooledRouting.Proofs.Backoff.Retries
import PooledRouting.Proofs.Balancer.InWords
import PooledRouting.Proofs.Balancer.LeastLoad
import PooledRouting.Proofs.Balancer.LoadSpread
import PooledRouting.Proofs.Pool.IdleSearch
import PooledRouting.Proofs.Pool.IdleOrder
import PooledRouting.Proofs.Binary64.Whole
import PooledRouting.Proofs.Binary64.Quotient
import PooledRouting.Proofs.Backoff.Doubling
import PooledRouting.Proofs.Connection.History
import PooledRouting.Proofs.Settings.RoundTrip
import PooledRouting.Proofs.Balancer.FairTurns
import PooledRouting.Proofs.Pool.HitShare
