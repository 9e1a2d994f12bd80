import Outbound.Rehearsal.Batches
import Outbound.Rehearsal.Calls
import Outbound.Rehearsal.Configs
import Outbound.Rehearsal.Contexts
import Outbound.Rehearsal.Deliveries
import Outbound.Rehearsal.EthClient
import Outbound.Rehearsal.Exchanges
import Outbound.Rehearsal.Processes
import Outbound.Rehearsal.Propagation
import Outbound.Rehearsal.Refreshes
import Outbound.Rehearsal.Reloads
import Outbound.Rehearsal.Requests
import Outbound.Rehearsal.Retries
import Outbound.Rehearsal.Scans
import Outbound.Rehearsal.Sessions
import Outbound.Rehearsal.Slots
import Outbound.Rehearsal.Values
import Outbound.Eth.BatchingClient
import Outbound.Proofs.Batch.Delivery
import Outbound.Batch.Greedy
import Outbound.Proofs.Batch.Timing
import Outbound.Proofs.Batch.Segmentation
import Outbound.Proofs.Eth.Answers
import Outbound.Proofs.Eth.Bookkeeping
import Outbound.Proofs.Eth.Preservation
import Outbound.Proofs.Eth.FanOut
import Outbound.Proofs.Eth.NodeRuns
import Outbound.Proofs.Eth.Completion
import Outbound.Proofs.Eth.Refinement
import Outbound.Proofs.Eth.Isolation
import Outbound.Eth.RpcClient
import Outbound.Proofs.Eth.RoundTrips
import Outbound.Eth.Journal
import Outbound.Proofs.Eth.Resending
import Outbound.Eth.Reloading
import Outbound.Proofs.Eth.Refusals
import Outbound.Proofs.Eth.Settlement
import Outbound.Proofs.Eth.Generations
import Outbound.Proofs.Eth.Closings
import Outbound.Proofs.Eth.Succession
import Outbound.Proofs.Refresh.SingleFlight
import Outbound.Proofs.Refresh.StaleFailures
import Outbound.Proofs.Refresh.Prediction
import Outbound.Proofs.Refresh.Custody
import Outbound.Proofs.Refresh.Lifetime
import Outbound.Proofs.Context.Tree
import Outbound.Context.Done
import Outbound.Proofs.Context.Reasons
import Outbound.Slot.Live
import Outbound.Proofs.Slot.Assignment
import Outbound.Reload.Shared
import Outbound.Proofs.Reload.Chain
import Outbound.Proofs.Batch.Closing
import Outbound.Proofs.Eth.Shutdown
import Outbound.Proofs.Http.TimeLimit
import Outbound.Redis.Live
import Outbound.Proofs.Redis.Commands
import Outbound.Proofs.Redis.Recovery
import Outbound.Proofs.Eth.Accounting
import Outbound.Text.Numeral
import Outbound.Proofs.Text.Hexadecimal
import Outbound.Proofs.Json.Members
import Outbound.Eth.CallParams
import Outbound.Proofs.Eth.Quantities
import Outbound.Proofs.Eth.BlockTags
import Outbound.Proofs.Eth.CallEncoding
import Outbound.Retry.Live
import Outbound.Proofs.Retry.Record
import Outbound.Proofs.Retry.LastAttempt
import Outbound.Proofs.Outcome
import Outbound.Proofs.Http.Spellings
import Outbound.Proofs.Http.DefaultFields
import Outbound.Proofs.Grpc.ClientId
import Outbound.Proofs.Eth.ReplyShapes
import Outbound.Context.Work
import Outbound.Proofs.Context.Work
import Outbound.Proofs.Refresh.Accounting
import Outbound.Eth.Loading
import Outbound.Proofs.Eth.Loading
import Outbound.Redis.LiveScan
import Outbound.Proofs.Redis.Paging
import Outbound.Batch.Chronicle
import Outbound.Proofs.Batch.OpenWindow
