import TuningMod.Lib.Runs
import TuningMod.Lib.Ring
import TuningMod.Lib.Pairing
import TuningMod.PeerMsg
import TuningMod.Outbox
import TuningMod.Trigger
import TuningMod.TriggerSends
import TuningMod.TriggerTimers
import TuningMod.TriggerPersists
import TuningMod.TriggerPairing
import TuningMod.Pacing
import TuningMod.Measurement
import TuningMod.SourceDtn
import TuningMod.PacingRecord
import TuningMod.LearningMode
import TuningMod.Lib.Slots
import TuningMod.PeerTables
import TuningMod.Lib.Window
import TuningMod.Retransmission
import TuningMod.Lib.Search
import TuningMod.CheckReq
import TuningMod.ArgumentBounds
import TuningMod.Lib.Records
import TuningMod.PeerStream
import TuningMod.RootQdisc
import TuningMod.Lib.Decimal
import TuningMod.PacingRates
import TuningMod.KafkaPolicy
import TuningMod.Duplicates
import TuningMod.Reports
import TuningMod.EvaluationGate
import TuningMod.Lib.Tasks
import TuningMod.Writers
import TuningMod.Delivery
import TuningMod.Lib.Monitor
import TuningMod.TimerSignals
import TuningMod.Lib.LittleEndian
import TuningMod.Addresses
import TuningMod.Messages
import TuningMod.PeerCodec
import TuningMod.Hpn
import TuningMod.HpnReadings
import TuningMod.HpnClients
import TuningMod.Leftovers
import TuningMod.RequestText
import TuningMod.RequestLine
import TuningMod.Tuncli
import TuningMod.Destination
import TuningMod.Lib.KeyValues
import TuningMod.UserConfig
import TuningMod.ConfigValues
import TuningMod.ListenPort
import TuningMod.SystemTuning
import TuningMod.LogBackups
import TuningMod.RetransmissionPercent
import TuningMod.PollWindow
import TuningMod.IntReport
import TuningMod.Lib.Region
import TuningMod.Lib.Rounds
import TuningMod.Numerals
import TuningMod.Activities
import TuningMod.Bitrate
import TuningMod.TunerSteps
import TuningMod.TuningLog
import TuningMod.TuningBounds
import TuningMod.FlowRotation
import TuningMod.ActivityRing
import TuningMod.SenderSockets
import TuningMod.RingBufferSize
import TuningMod.ScannerBounds
import TuningMod.SettingsRaised
import TuningMod.TimerSpec
import TuningMod.Lib.Fgets
import TuningMod.AppBandwidth
import TuningMod.NicSpeeds
import TuningMod.TcpSockets
import TuningMod.TcpListing
import TuningMod.TunerDirection
import TuningMod.Lib.Turns
import TuningMod.DestinationTurns
import TuningMod.Lib.ShortWrites
import TuningMod.MonitorClient
import TuningMod.HpnSession
import TuningMod.PeerSessions
import TuningMod.Lib.Shell
import TuningMod.Assessment
import TuningMod.Menu
import TuningMod.Lib.Dict
import TuningMod.Lib.Csv
import TuningMod.Lib.Json
import TuningMod.TuningGraph
import TuningMod.DtnMenu
import TuningMod.Lib.RateLimit
import TuningMod.RttThread
import TuningMod.DaemonAdmin
import TuningMod.Settled
import TuningMod.SinkWarnings
