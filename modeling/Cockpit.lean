import Cockpit.Lib.Durable
import Cockpit.Lib.StepRun
import Cockpit.Lib.Binary64
import Cockpit.Lib.CheckedInt
import Cockpit.Lib.ClockOffset
import Cockpit.Can.Frame
import Cockpit.Vehicle.Codec
import Cockpit.Shield.Adapter
import Cockpit.Vehicle.ChassisSink
import Cockpit.Vehicle.Client
import Cockpit.Vehicle.StateSource
import Cockpit.Vehicle.FaultLaws
import Cockpit.Vehicle.SafetyLoop
import Cockpit.Ros.SafetyNode
import Cockpit.Upgrader.Version
import Cockpit.Upgrader.Transaction
import Cockpit.Upgrader.Procedures
import Cockpit.Upgrader.CrashConsistency
import Cockpit.Upgrader.AntiRollback
import Cockpit.Upgrader.TrustedRollback
import Cockpit.Upgrader.RecoveryScope
import Cockpit.Upgrader.Confirmation
import Cockpit.Ota.SafeOta
import Cockpit.Bridge.Nav2Provider
import Cockpit.Bridge.OneGoal
import Cockpit.Bridge.BridgeService
import Cockpit.Camera.H264Udp
import Cockpit.Transfer.RtspServer
import Cockpit.Transfer.UdpHop
import Cockpit.Transfer.MediaRuns
import Cockpit.Vanguard.DisarmBarrier
import Cockpit.Lib.ForEach
import Cockpit.Navigator.ProcessManager
import Cockpit.Navigator.ProcessSteps
import Cockpit.Lib.SlidingWindow
import Cockpit.Navigator.ProcessRecords
import Cockpit.Navigator.ModeSwitch
import Cockpit.Lib.Callers
import Cockpit.Voice.Conversation
import Cockpit.Voice.Interaction
import Cockpit.Voice.InteractionSteps
import Cockpit.Voice.Ownership
import Cockpit.Voice.NoWedge
import Cockpit.Voice.Finality
import Cockpit.Voice.Isolation
import Cockpit.Voice.InputGate
import Cockpit.Voice.WakePrompts
import Cockpit.Voice.AsyncSink
import Cockpit.Voice.CompletesOnce
import Cockpit.Voice.SpeechSegmenter
import Cockpit.Voice.AudioPlaybackClient
import Cockpit.Voice.PlaybackContract
import Cockpit.Audio.AudioPlayback
import Cockpit.Recording.EventVideoRecorder
import Cockpit.Lib.KeepLast
import Cockpit.Audio.PlaybackResults
import Cockpit.Camera.SharedFrameBuffer
import Cockpit.Camera.FrameBroker
import Cockpit.Camera.SharedFrames
import Cockpit.Camera.FrameAccounting
import Cockpit.Camera.CameraService
import Cockpit.Camera.PreviewTruth
import Cockpit.Json.Parser
import Cockpit.Json.Laws
import Cockpit.Json.Writing
import Cockpit.Recording.Records
import Cockpit.Recording.RecordingSession
import Cockpit.Vehicle.OdometryTimeMapper
import Cockpit.Vehicle.OdometryTime
import Cockpit.Lib.OrderedFilter
import Cockpit.Vehicle.FaultOrder
import Cockpit.Vehicle.RebootCount
import Cockpit.Shield.AccelerationLimit
import Cockpit.Lib.Crc
import Cockpit.Vehicle.FrameChecksum
import Cockpit.Vehicle.WireFormats
import Cockpit.Event.EventQueue
import Cockpit.Event.MessageBus
import Cockpit.Event.BusEffect
import Cockpit.Event.Delivery
import Cockpit.Lib.Abnf
import Cockpit.Lib.Utf8
import Cockpit.Json.Grammar
import Cockpit.Json.Acceptance
import Cockpit.Json.Validator
import Cockpit.Json.Validation
import Cockpit.Lib.Incremental
import Cockpit.Llm.HttpBody
import Cockpit.Llm.SseLines
import Cockpit.Llm.LlamaServerClient
import Cockpit.Llm.Framing
import Cockpit.Llm.Segmentation
import Cockpit.Lib.RingIndex
import Cockpit.Lib.Runs
import Cockpit.Audio.AudioFrame
import Cockpit.Audio.SpscRingBuffer
import Cockpit.Audio.SpeechSegmenter
import Cockpit.Audio.SpeechRuns
import Cockpit.Audio.SpokenFrames
import Cockpit.Recording.ByteBudget
import Cockpit.Recording.ArtifactBudget
import Cockpit.Recording.SessionBudget
import Cockpit.Audio.AudioStreamPublisher
import Cockpit.Audio.AudioCaptureStream
import Cockpit.Lib.Utf8Text
import Cockpit.Voice.SpeechText
import Cockpit.Lib.Utf8Pieces
import Cockpit.Voice.TranscriptNormalizer
import Cockpit.Voice.Transcripts
import Cockpit.Llm.ChunkSize
import Cockpit.Llm.ChunkContract
import Cockpit.Lib.FairRun
import Cockpit.Voice.CancellationFlight
import Cockpit.Voice.PlaybackCancellation
import Cockpit.Voice.SingleFlight
import Cockpit.Lib.LengthPrefix
import Cockpit.Transfer.AnnexB
import Cockpit.Transfer.DecoderConfiguration
import Cockpit.Recording.GopWindow
import Cockpit.Recording.RecordingCatalog
import Cockpit.Json.Escaping
import Cockpit.Json.Members
import Cockpit.Llm.JsonStrings
import Cockpit.Llm.JsonFields
import Cockpit.Lib.CheckedMemory
import Cockpit.Camera.CpuVideoFrame
import Cockpit.Camera.SoftwareIsp
import Cockpit.Lib.LexicalPath
import Cockpit.Recording.RecordingIntegrity
import Cockpit.Recording.SessionFiles
import Cockpit.Recording.IntegrityAgreement
import Cockpit.Lib.NumberedLog
import Cockpit.Vehicle.VehicleGrpcService
import Cockpit.Vehicle.EventSubscribers
import Cockpit.Voice.AudioFocusController
import Cockpit.Camera.SoftwareIspPreview
import Cockpit.Camera.CameraRecovery
import Cockpit.Camera.StopWakeup
import Cockpit.Media.GstreamerMediaPlayer
import Cockpit.Media.CommandAtomicity
import Cockpit.Navigator.IpcConnector
import Cockpit.Navigator.ExclusiveSocket
import Cockpit.Camera.NativeTuning
import Cockpit.Camera.TuningRevisions
import Cockpit.Camera.NativeArgusSession
import Cockpit.Camera.BufferOwnership
import Cockpit.Llm.LlamaServerProcess
import Cockpit.Llm.OneChild
import Cockpit.Lib.GreedyChoice
import Cockpit.Eunomia.SelectKeyframes
import Cockpit.Eunomia.Coverage
import Cockpit.Eunomia.KeyframeCoverage
import Cockpit.Upgrader.VersionOrder
import Cockpit.Camera.SharedFrameLayout
import Cockpit.Audio.AudioStreamProtocol
import Cockpit.Navigator.RequestFraming
import Cockpit.Debugger.LogRotation
import Cockpit.Audio.WavRoundTrip
import Cockpit.Camera.AtomicSave
