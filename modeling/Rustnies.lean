import Rustnies.Bytes
import Rustnies.Carrier
import Rustnies.Client.Daemon
import Rustnies.Client.Reconnect
import Rustnies.Client.Session
import Rustnies.Client.Shutdown
import Rustnies.Client.Site
import Rustnies.Config.UnknownKeys
import Rustnies.Congestion
import Rustnies.Crypto.Aead
import Rustnies.Crypto.Noise
import Rustnies.Crypto.NoiseSpec
import Rustnies.Crypto.Symbolic
import Rustnies.Fec.Adaptive
import Rustnies.Fec.AdaptiveLaws
import Rustnies.Fec.Elimination
import Rustnies.Fec.Gf256
import Rustnies.Fec.ReedSolomon
import Rustnies.Fec.ReedSolomonLaws
import Rustnies.Fec.Scheme
import Rustnies.Framing
import Rustnies.Lib.Bitmap
import Rustnies.Lib.Deals
import Rustnies.Lib.Documents
import Rustnies.Lib.Gauss
import Rustnies.Lib.Ledger
import Rustnies.Lib.Loops
import Rustnies.Lib.Runs
import Rustnies.Lib.Subnet
import Rustnies.Lib.SystematicCode
import Rustnies.Lib.Table
import Rustnies.Lib.TokenBucket
import Rustnies.Lib.Trails
import Rustnies.Lib.WordInt
import Rustnies.Lib.Words
import Rustnies.Obfuscation
import Rustnies.Platform.Addresses
import Rustnies.Platform.FilterTable
import Rustnies.Platform.Firewall
import Rustnies.Platform.GuardInstall
import Rustnies.Platform.GuardPolicy
import Rustnies.Platform.NatRules
import Rustnies.Platform.ResolvConf
import Rustnies.Platform.RouteAll
import Rustnies.Platform.RouteFile
import Rustnies.Platform.RouteRemoval
import Rustnies.Protocol.Agreement
import Rustnies.Protocol.ClientHandshake
import Rustnies.Protocol.Frame
import Rustnies.Protocol.FrameGrammar
import Rustnies.Protocol.FrameLaws
import Rustnies.Protocol.Handshake
import Rustnies.Protocol.Header
import Rustnies.Protocol.Negotiation
import Rustnies.Protocol.Offer
import Rustnies.Protocol.Profile
import Rustnies.Protocol.Session
import Rustnies.Protocol.SessionLaws
import Rustnies.RttEstimator
import Rustnies.Server.Admission
import Rustnies.Server.Cap
import Rustnies.Server.Channels
import Rustnies.Server.DeviceOrder
import Rustnies.Server.Dispatch
import Rustnies.Server.Effects
import Rustnies.Server.Eviction
import Rustnies.Server.Impersonation
import Rustnies.Server.Loop
import Rustnies.Server.Peers
import Rustnies.Server.Probes
import Rustnies.Server.Reload
import Rustnies.Server.Replay
import Rustnies.Server.ReturnPath
import Rustnies.Server.Revocation
import Rustnies.Server.Roaming
import Rustnies.Server.Routing
import Rustnies.Server.Sessions
import Rustnies.Server.Signals
import Rustnies.Server.State
import Rustnies.Server.Streams
import Rustnies.Server.TunNets
import Rustnies.Server.Whitening
import Rustnies.TcpReno
import Rustnies.Transport
import Rustnies.Tunnel.Acknowledged
import Rustnies.Tunnel.Arrival
import Rustnies.Tunnel.Closing
import Rustnies.Tunnel.Delivery
import Rustnies.Tunnel.Emission
import Rustnies.Tunnel.Endings
import Rustnies.Tunnel.Fates
import Rustnies.Tunnel.FecParams
import Rustnies.Tunnel.Forgery
import Rustnies.Tunnel.GroupBounds
import Rustnies.Tunnel.GroupDelivery
import Rustnies.Tunnel.GroupRecovery
import Rustnies.Tunnel.Groups
import Rustnies.Tunnel.HeaderBinding
import Rustnies.Tunnel.InFlight
import Rustnies.Tunnel.Integrity
import Rustnies.Tunnel.Loop
import Rustnies.Tunnel.Moves
import Rustnies.Tunnel.Nonces
import Rustnies.Tunnel.Pacing
import Rustnies.Tunnel.Pairing
import Rustnies.Tunnel.PathMtu
import Rustnies.Tunnel.Receive
import Rustnies.Tunnel.RttSamples
import Rustnies.Tunnel.Send
import Rustnies.Tunnel.State
import Rustnies.Tunnel.Suppression
import Rustnies.Tunnel.Upkeep
import Rustnies.Tunnel.View
import Rustnies.Tunnel.Window
