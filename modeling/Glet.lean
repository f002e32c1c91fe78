import Glet.Incremental
import Glet.Nodes
import Glet.Latency
import Glet.Gpulets
import Glet.Placing
import Glet.Guard
import Glet.AllocateFit
import Glet.Readjust
import Glet.MergeShare
import Glet.Runs
import Glet.Reach
import Glet.Effects
import Glet.Entries
import Glet.Bystanders
import Glet.Threshold
import Glet.OneShot
import Glet.Partition
import Glet.Coverage
import Glet.Served
import Glet.Duty
import Glet.Machine
import Glet.LoadBalancer
import Glet.TargetRates
import Glet.Hysteresis
import Glet.Epoch
import Glet.RequestQueues
import Glet.AppInstance
import Glet.Dataflow
import Glet.Wire
import Glet.BatchedRequest
import Glet.Pipeline
import Glet.Slo
import Glet.Bandwidth
import Glet.Memory
import Glet.Pool
import Glet.BatchSlots
import Glet.SafeUnload
import Glet.Drain
import Glet.LoadControl
import Glet.LoadSync
import Glet.Shutdown
import Glet.LoadUnload
import Glet.ProxyWire
import Glet.GpuIdxs
import Glet.Devices
import Glet.Addressing
import Glet.Control
import Glet.MaxBatch
import Glet.LastMin
import Glet.BestFit
import Glet.AdjustRes
import Glet.AdjustSat
import Glet.Overload
import Glet.Charges
import Glet.SaturationTable
import Glet.Executable
import Glet.LatencyModel
import Glet.LatencyLookup
import Glet.LatencyQueries
import Glet.Interpolation
import Glet.LatencyMonotone
import Glet.Revert
import Glet.MergeRate
import Glet.FixedPoint
import Glet.ScheduleFile
import Glet.ShareFeasible
import Glet.Room
import Glet.Vacancy
import Glet.Placement
import Glet.DryRun
import Glet.Rows
import Glet.Calls
import Glet.DutyReads
import Glet.Avoids
import Glet.Lookups
import Glet.TableFound
import Glet.NetworkLimit
import Glet.BatchPair
import Glet.CopyToOutput
import Glet.IndexVectors
import Glet.FullSearch
import Glet.ResetScheduler
import Glet.SocketReceive
import Glet.FairShare
import Glet.SelfTuning
import Glet.Poisson
import Glet.ReadjustEnds
import Glet.Sweep
import Glet.UnloadModels
import Glet.Routing
import Glet.FrontendRuns
import Glet.Simulation
import Glet.Beacons
import Glet.StaticSchedule
import Glet.Replies
import Glet.Answers
import Glet.Instances
import Glet.Clients
import Glet.ClientRuns
import Glet.EndToEnd
import Glet.Smoothing
import Glet.Steady
import Glet.Performs
import Glet.KeptSizes
import Glet.Standalone
import Glet.KeptProxies
import Glet.Potential
import Glet.Progress
import Glet.Batchers
import Glet.Dispatch
import Glet.DispatchRuns
import Glet.WorkEnds
import Glet.Liveness
