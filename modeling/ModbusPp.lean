import ModbusPp.Core.PduSilentChange
import ModbusPp.Transport.MbapBounds
import ModbusPp.Transport.FrameRoundTrip
import ModbusPp.Client.Disclosure
import ModbusPp.Client.ExceptionResponses
import ModbusPp.Client.LateAnswers
import ModbusPp.Client.LongWrites
import ModbusPp.Client.Reads
import ModbusPp.Client.ServerRuns
import ModbusPp.Transport.ErrorDetection
import ModbusPp.Transport.TcpRoundTrip
import ModbusPp.RegisterMap.BatchCompleteness
import ModbusPp.Pipeline.CorrelationWrap
import ModbusPp.Pipeline.FailedSubmissions
import ModbusPp.Pipeline.Expiry
import ModbusPp.PubSub.DeadBand
import ModbusPp.Client.SharedTransport
import ModbusPp.Client.Protection
import ModbusPp.Pipeline.AgainstServer
import ModbusPp.PubSub.Delivery
import ModbusPp.PubSub.Independence
import ModbusPp.PubSub.Coverage
import ModbusPp.Discovery.LateDevices
import ModbusPp.Transport.Senders
import ModbusPp.Client.Replies
import ModbusPp.Client.ResponseChecks
import ModbusPp.Pipeline.SyncCalls
import ModbusPp.Pipeline.SubmitRace
import ModbusPp.Transport.LoopbackChannels
import ModbusPp.RegisterMap.RegisterMap
import ModbusPp.Core.PduReserialize
import ModbusPp.RegisterMap.BatchCodec
import ModbusPp.RegisterMap.BatchPermutation
import ModbusPp.RegisterMap.StringCodec
import ModbusPp.Client.WireCounts
import ModbusPp.Pipeline.Carriage
import ModbusPp.PubSub.TypedTriggers
import ModbusPp.PubSub.QuietSources
import ModbusPp.PubSub.FirstReadings
import ModbusPp.PubSub.FailedPushes
import ModbusPp.PubSub.RateLimit
import ModbusPp.PubSub.ReceivedEvents
import ModbusPp.Transport.StreamBoundaries
import ModbusPp.Transport.RtuTransport
import ModbusPp.Client.RemoteDevice
import ModbusPp.Client.RemoteRegisters
import ModbusPp.Client.TypedRegisters
import ModbusPp.Transport.MergedFrames
import ModbusPp.Transport.Connections
import ModbusPp.Client.BatchReads
import ModbusPp.Pipeline.Statistics
import ModbusPp.Client.LoopNotifications
import ModbusPp.Client.StopFlag
import ModbusPp.Client.PushedFrames
import ModbusPp.PubSub.HandlerRuns
import ModbusPp.Discovery.AgainstServer
import ModbusPp.Pipeline.Notifications
