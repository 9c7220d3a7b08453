import Onegram.Lib.Bytes
import Onegram.Lib.Crossing
import Onegram.Lib.Elements
import Onegram.Lib.ExactReader
import Onegram.Lib.Gap
import Onegram.Lib.Run
import Onegram.Lib.Table
import Onegram.Crypto.Primitives
import Onegram.Crypto.Kdf
import Onegram.Crypto.AesIge
import Onegram.WireGuard
import Onegram.TunnelLoop
import Onegram.SecretChat
import Onegram.SecretIncoming
import Onegram.SecretOutgoing
import Onegram.MessageHole
import Onegram.Srtp
import Onegram.MessageCipher
import Onegram.EncryptedPackets
import Onegram.ProgressToken
import Onegram.Stun
import Onegram.IceProbe
import Onegram.Dtls
import Onegram.TcpConnection
import Onegram.Proofs.ChaChaPoly
import Onegram.Proofs.WireGuard
import Onegram.Proofs.TunnelLoop
import Onegram.Proofs.SecretSelection
import Onegram.Proofs.SecretGap
import Onegram.Proofs.SecretDelivery
import Onegram.Proofs.SecretResend
import Onegram.Proofs.SecretOutgoing
import Onegram.Proofs.ChannelHoles
import Onegram.Proofs.FeedHoles
import Onegram.Proofs.SecretNumbers
import Onegram.Proofs.Srtp
import Onegram.Proofs.SrtpReceive
import Onegram.Proofs.Stun
import Onegram.Proofs.IceIntegrity
import Onegram.Proofs.IceProbe
import Onegram.Proofs.Dtls
import Onegram.Proofs.DtlsFlights
import Onegram.Proofs.DtlsRecovery
import Onegram.Proofs.TcpReads
import Onegram.Proofs.SocketPackets
import Onegram.Proofs.WebSocketFrames
import Onegram.Proofs.WebSocketStream
import Onegram.Proofs.MessageIds
import Onegram.Proofs.MonotoneClock
import Onegram.Proofs.RequestRun
import Onegram.Proofs.KeyValueCoder
import Onegram.Proofs.MediaBox
import Onegram.Proofs.MessageCipher
import Onegram.Proofs.IncomingPackets
import Onegram.Proofs.QuickAcks
import Onegram.Proofs.ProgressToken
import Onegram.Proofs.MultipartFetch
import Onegram.Proofs.Rekey
import Onegram.TLSerialization
import Onegram.Proofs.TLSerialization
import Onegram.Proofs.ServiceMessages
import Onegram.Proofs.DatacenterAuth
import Onegram.Proofs.RequestOrder
import Onegram.Proofs.ContainerPacking
import Onegram.Proofs.Datagrams
import Onegram.Proofs.StallDetection
import Onegram.Proofs.Acknowledgements
import Onegram.DynamicStore
import Onegram.Proofs.DynamicStore
import Onegram.Proofs.DnsBackup
import Onegram.Routing
import Onegram.Lib.FallibleTable
import Onegram.Proofs.Routing
import Onegram.Proofs.RoutingRecovery
import Onegram.TunnelDaemon
import Onegram.Proofs.TunnelDaemon
import Onegram.TempKeyBinding
import Onegram.Proofs.TempKeyBinding
import Onegram.SaltSet
import Onegram.Proofs.SaltSet
import Onegram.Lib.Cursor
import Onegram.Proofs.Unwrapping
import Onegram.BackupAddresses
import Onegram.Proofs.BackupAddresses
import Onegram.Proofs.TLStrings
import Onegram.DhAnswer
import Onegram.Proofs.DhAnswer
import Onegram.DtlsLog
import Onegram.Proofs.DtlsLog
import Onegram.SocketWrites
import Onegram.Proofs.SocketWrites
import Onegram.SocksRequests
import Onegram.Proofs.SocksRequests
import Onegram.Crypto.Factorize
import Onegram.Proofs.Factorize
import Onegram.EncryptedChat
import Onegram.Proofs.EncryptedChat
import Onegram.Proofs.HandshakeAtomic
import Onegram.Proofs.RekeyGiveUp
import Onegram.Proofs.MssClamping
import Onegram.TurnClient
import Onegram.Proofs.StunCodec
import Onegram.Proofs.StunSealing
import Onegram.Proofs.TurnReceive
import Onegram.DnsQuery
import Onegram.Proofs.DnsQuery
import Onegram.Proofs.DnsReply
import Onegram.Lib.CText
import Onegram.Awg
import Onegram.Proofs.Awg
import Onegram.Lib.Passing
import Onegram.SplitRoutes
import Onegram.Proofs.SplitRoutes
import Onegram.Proofs.AesIgeBuffers
import Onegram.Base64
import Onegram.Proofs.Base64
import Onegram.RouteCoordinator
import Onegram.Proofs.CandidateRoutes
import Onegram.Lib.ChunkedScan
import Onegram.KernelScan
import Onegram.Proofs.KernelScan
import Onegram.ConfigImport
import Onegram.Proofs.ConfigImport
import Onegram.SecretAcceptance
import Onegram.Proofs.LayerHeader
import Onegram.Proofs.SecretAcceptance
import Onegram.MultipartFetch
import Onegram.Proofs.PartGrid
import Onegram.Lib.BatchInsert
import Onegram.IndexSet
import Onegram.Proofs.IndexSet
import Onegram.DatacenterAuth
import Onegram.Proofs.RsaEnvelope
import Onegram.Lib.KeyedTable
import Onegram.PeerId
import Onegram.QueuedPolls
import Onegram.Proofs.QueuedPolls
import Onegram.Lib.MoveToFront
import Onegram.PinnedDialogs
import Onegram.Proofs.PinnedDialogs
import Onegram.ChannelMessage
import Onegram.ChannelSortKeys
import Onegram.Proofs.ChannelSortKeys
import Onegram.Lib.Transaction
import Onegram.ChannelIngest
import Onegram.Proofs.ChannelIngest
import Onegram.Lib.GroupedChanges
import Onegram.ChannelUpdates
import Onegram.Proofs.ChannelUpdates
import Onegram.Proofs.ChannelPoll
import Onegram.UpdateRouting
import Onegram.Lib.Gate
import Onegram.UpdateGates
import Onegram.Proofs.PartDelivery
import Onegram.Proofs.UpdateRouting
import Onegram.Lib.BlockStream
import Onegram.Lib.Memory
import Onegram.Lib.Hkdf
import Onegram.Proofs.Kdf
import Onegram.Proofs.Aead
import Onegram.Lib.ByteOrder
import Onegram.SortKeyBytes
import Onegram.Proofs.SortKeyBytes
import Onegram.Lib.CounterMode
import Onegram.Proofs.CtrWords
import Onegram.Lib.Srp
import Onegram.TwoStepUtils
import Onegram.Proofs.TwoStepUtils
import Onegram.Proofs.ChannelIngestResult
import Onegram.Lib.Checked
import Onegram.Lib.Limbs
import Onegram.Crypto.X25519
import Onegram.Proofs.X25519Limbs
import Onegram.Proofs.X25519Field
import Onegram.Proofs.X25519Bounds
import Onegram.Proofs.X25519Bytes
import Onegram.Proofs.X25519
import Onegram.Lib.Montgomery
import Onegram.Proofs.Prime25519
import Onegram.Proofs.X25519Group
import Onegram.Proofs.KeyAgreement
import Onegram.ActionStage
import Onegram.Proofs.ActionStage
import Onegram.Proofs.ActorService
