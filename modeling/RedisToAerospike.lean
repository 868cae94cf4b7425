import RedisToAerospike.Core.LTS
import RedisToAerospike.Core.Decimal
import RedisToAerospike.Core.Dict
import RedisToAerospike.Core.Regex
import RedisToAerospike.Core.Utf8
import RedisToAerospike.L1Data.Config
import RedisToAerospike.L1Data.Models
import RedisToAerospike.L2Convert.Coerce
import RedisToAerospike.L2Convert.Converters
import RedisToAerospike.Core.Fallible
import RedisToAerospike.L2Convert.HashConverter
import RedisToAerospike.L2Convert.Registry
import RedisToAerospike.Core.Glob
import RedisToAerospike.L3Place.SetRouting
import RedisToAerospike.L3Place.Prepare
import RedisToAerospike.Core.Replay
import RedisToAerospike.L3Sink.AerospikeSink
import RedisToAerospike.L2Read.RedisSource
import RedisToAerospike.L3Sink.KeyCollisions
import RedisToAerospike.L3Sink.WriteMany
import RedisToAerospike.L3Sink.BatchVsSingle
import RedisToAerospike.Core.Pool
import RedisToAerospike.L4Pipeline.Migrator
import RedisToAerospike.L4Pipeline.Workers
import RedisToAerospike.L4Pipeline.Queue
import RedisToAerospike.L4Pipeline.Accounting
import RedisToAerospike.L4Pipeline.Progress
import RedisToAerospike.L5Migration.System
import RedisToAerospike.L5Migration.Landings
import RedisToAerospike.L5Migration.Confluence
import RedisToAerospike.L5Migration.LastWrite
import RedisToAerospike.L2Read.BatchReads
import RedisToAerospike.L2Read.Scan
import RedisToAerospike.L2Read.Races
import RedisToAerospike.Core.PrefixCode
import RedisToAerospike.L2Convert.Members
import RedisToAerospike.L2Convert.Failures
import RedisToAerospike.L3Sink.Alignment
import RedisToAerospike.Core.Metered
import RedisToAerospike.L4Pipeline.RateLimit
import RedisToAerospike.L4Pipeline.Memory
import RedisToAerospike.L4Pipeline.Throttle
import RedisToAerospike.Core.Partition
import RedisToAerospike.L1Data.PyVal
import RedisToAerospike.L1Data.RunConfig
import RedisToAerospike.L6Cli.Config
import RedisToAerospike.L6Cli.BuildConfig
import RedisToAerospike.L6Cli.Precedence
import RedisToAerospike.L6Cli.Environment
import RedisToAerospike.L6Cli.ServerInfo
import RedisToAerospike.L6Cli.Preview
import RedisToAerospike.L6Cli.TtlGate
import RedisToAerospike.L2Convert.Numerals
import RedisToAerospike.Core.Rounding
import RedisToAerospike.L2Convert.ExactTtl
import RedisToAerospike.L3Place.Overrides
import RedisToAerospike.L3Sink.Placement
import RedisToAerospike.L3Sink.ExactBins
import RedisToAerospike.L4Pipeline.Windows
import RedisToAerospike.L6Cli.SizeGuard
import RedisToAerospike.L6Cli.SetRouteCli
import RedisToAerospike.L5Migration.Resume
import RedisToAerospike.L4Pipeline.Termination
import RedisToAerospike.L5Migration.Termination
import RedisToAerospike.L3Sink.Readings
import RedisToAerospike.L5Migration.EndToEnd
import RedisToAerospike.L4Pipeline.Report
import RedisToAerospike.L4Pipeline.Tally
import RedisToAerospike.L5Migration.Report
import RedisToAerospike.L3Place.Supported
import RedisToAerospike.L6Cli.ExitCode
import RedisToAerospike.L5Migration.Safety
import RedisToAerospike.L5Migration.Sequential
import RedisToAerospike.L4Pipeline.Heartbeat
import RedisToAerospike.L5Migration.Successive
import RedisToAerospike.L4Pipeline.Settled
import RedisToAerospike.L5Migration.Unreliable
