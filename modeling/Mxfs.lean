import Mxfs.Append
import Mxfs.Arbiter
import Mxfs.Atomic
import Mxfs.Bcm2711
import Mxfs.BlockSearch
import Mxfs.BlockTimes
import Mxfs.Blocking
import Mxfs.Buffers
import Mxfs.Bus
import Mxfs.Chip
import Mxfs.Compress
import Mxfs.Config
import Mxfs.Csv
import Mxfs.Dates
import Mxfs.Decode
import Mxfs.Defs
import Mxfs.Direct
import Mxfs.Driver
import Mxfs.Economy
import Mxfs.EpochSearch
import Mxfs.EpochWalk
import Mxfs.EraseFirst
import Mxfs.Export
import Mxfs.Failure
import Mxfs.Find
import Mxfs.Flush
import Mxfs.Formatter
import Mxfs.Fsm
import Mxfs.Grant
import Mxfs.Handover
import Mxfs.Harm
import Mxfs.Layout
import Mxfs.Ledger
import Mxfs.Leftover
import Mxfs.Lib.Bytes
import Mxfs.Lib.Poll
import Mxfs.Lib.Ring
import Mxfs.Lib.Run
import Mxfs.Lib.Wear
import Mxfs.Life
import Mxfs.Lifecycle
import Mxfs.LinuxTimes
import Mxfs.Listing
import Mxfs.Log
import Mxfs.Model
import Mxfs.Mount
import Mxfs.OnBcm2711
import Mxfs.OnPart
import Mxfs.OutOfRange
import Mxfs.OwnPage
import Mxfs.PageFit
import Mxfs.PageTable
import Mxfs.Polled
import Mxfs.PowerLoss
import Mxfs.PowerOn
import Mxfs.Query
import Mxfs.Read
import Mxfs.ReadBack
import Mxfs.Reclaim
import Mxfs.Refine
import Mxfs.Registers
import Mxfs.Retention
import Mxfs.RingLog
import Mxfs.Rp2040
import Mxfs.SameMount
import Mxfs.Search
import Mxfs.Settle
import Mxfs.Simulate
import Mxfs.Spec
import Mxfs.Spi
import Mxfs.Step
import Mxfs.Store
import Mxfs.System
import Mxfs.Timerange
import Mxfs.Timing
import Mxfs.Torn
import Mxfs.Walk
import Mxfs.Wear
