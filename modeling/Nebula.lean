import Nebula.Sip.StreamFraming
import Nebula.Sip.MessageRoundTrip
import Nebula.Redis.ZoneConvergence
import Nebula.Redis.CommandRetries
import Nebula.Media.SampleConservation
import Nebula.Media.Ipv4Packet
import Nebula.Media.AckGroups
import Nebula.Media.AckedRates
import Nebula.Media.AllocationBounds
import Nebula.Media.FeedbackForm
import Nebula.Media.FeedbackTiming
import Nebula.Media.PublishedLayers
import Nebula.Media.ForwardingContinuity
import Nebula.Media.LayerSwitching
import Nebula.Media.RtxSender
import Nebula.Media.NackRate
import Nebula.Media.NackInterval
import Nebula.Media.CounterRuns
import Nebula.Media.FeedbackTermination
import Nebula.Media.InterNode
import Nebula.Media.AllocationUpdates
import Nebula.Media.CompoundFeedback
import Nebula.Media.SourceMixing
import Nebula.Media.SoundFile
import Nebula.Codec.DtmfBuffer
import Nebula.Codec.H264Encoding
import Nebula.Codec.SliceSplitting
import Nebula.Codec.H264Indexing
import Nebula.Sdp.Totality
import Nebula.Sdp.ConnectionScope
import Nebula.Sdp.Answer
import Nebula.Media.PeerAuthentication
import Nebula.Media.PeerPackets
import Nebula.Media.TargetRate
import Nebula.Media.TrackDemux
import Nebula.Media.SrtpReplay
import Nebula.Db.CacheFreshness
import Nebula.Db.CacheKeys
import Nebula.Db.CachedAbsence
import Nebula.Db.RegistrationCheck
import Nebula.Db.LocationList
import Nebula.Db.AuxTimeline
import Nebula.Redis.DistributedMutex
import Nebula.Sip.RequestRouting
import Nebula.Sip.TransactionRecords
import Nebula.Sip.TransactionKeys
import Nebula.Sip.CommaLists
import Nebula.Sip.TransactionTimers
import Nebula.Media.Rollover
import Nebula.Media.SrtpReception
import Nebula.Media.SrtpRoundTrip
import Nebula.Media.AudioSequence
import Nebula.Media.WorkerPools
import Nebula.Rpc.CommandOrder
import Nebula.Sip.SpinFollowUp
import Nebula.Sip.ClientTransactions
import Nebula.Switchboard.BridgeWinner
import Nebula.Switchboard.BridgeSetup
import Nebula.Switchboard.ContextUpdates
import Nebula.Switchboard.NestedFlows
import Nebula.Switchboard.ParkingSlots
import Nebula.Switchboard.MediaSymmetry
import Nebula.Switchboard.RoomAuthority
import Nebula.Switchboard.RoutingLoops
import Nebula.Switchboard.CallQueue
import Nebula.Switchboard.WaitingTimes
import Nebula.Switchboard.Shortcodes
import Nebula.Switchboard.DtmfCollection
import Nebula.Switchboard.InactivityMonitor
import Nebula.Switchboard.InboundLimit
import Nebula.Switchboard.ConferenceEnds
import Nebula.Switchboard.RoomRegistry
import Nebula.Switchboard.WaitingRoom
import Nebula.Proxy.Register
import Nebula.Media.FixedDqueue
import Nebula.Media.RtpClock
import Nebula.Media.DataRateTracker
import Nebula.Sip.Retransmission
import Nebula.Media.TelephoneEvents
import Nebula.Db.AuxTransitions
import Nebula.Proxy.TenantAffinity
import Nebula.Db.CallbackSearch
import Nebula.Redis.ConnectionPool
import Nebula.Proxy.Presence
import Nebula.Media.DtmfTransport
import Nebula.Lib.ScoredSet
import Nebula.Switchboard.QueueLine
import Nebula.Lib.ResumableUpload
import Nebula.Media.RecordingUpload
import Nebula.Media.WavRecording
import Nebula.Media.SessionPorts
import Nebula.Codec.Udptl
