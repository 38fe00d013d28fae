import Netxduo.Tcp.Socket
import Netxduo.Tcp.Trim
import Netxduo.Tcp.DataCheck
import Netxduo.Library.Spans
import Netxduo.Tcp.Place
import Netxduo.Tcp.Walk
import Netxduo.Tcp.ReceiveQueue
import Netxduo.Tcp.Frame
import Netxduo.Tcp.Progress
import Netxduo.Tcp.Queueing
import Netxduo.Tcp.Delivery
import Netxduo.Tcp.WindowTrim
import Netxduo.Tcp.DataCheckSound
import Netxduo.Tcp.SackRecovery
import Netxduo.Tcp.Retransmit
import Netxduo.Tcp.AckCheck
import Netxduo.Tcp.Options
import Netxduo.Tcp.PacketProcess
import Netxduo.Tcp.Resend
import Netxduo.Tcp.PacketSound
import Netxduo.Tcp.Hearing
import Netxduo.Tcp.Disconnect
import Netxduo.Tcp.Send
import Netxduo.Tcp.System
import Netxduo.Library.Runs
import Netxduo.Tcp.Steps
import Netxduo.Tcp.Opened
import Netxduo.Tcp.Stream
import Netxduo.Tcp.Content
import Netxduo.Library.Coverage
import Netxduo.Tcp.FinHonoured
import Netxduo.Tcp.Scoreboard
import Netxduo.Tcp.Evidence
import Netxduo.Syncache.Cookie
import Netxduo.Syncache.Options
import Netxduo.Syncache.Cache
import Netxduo.Syncache.Structure
import Netxduo.Tcp.Backoff
import Netxduo.Tcp.Entries
import Netxduo.Tcp.WindowAccount
import Netxduo.Tcp.BlindSegments
import Netxduo.Tcp.WindowEdge
import Netxduo.Tcp.Wakeup
import Netxduo.Tcp.TransmitAccount
import Netxduo.Syncache.Held
import Netxduo.Tcp.Segmentation
import Netxduo.Secure.SlidingWindow
import Netxduo.Secure.Pkcs7
import Netxduo.Crypto.Montgomery
import Netxduo.Library.Merge
import Netxduo.Tcp.SackReport
import Netxduo.Ip.Fragment
import Netxduo.Ip.Fragmentation
import Netxduo.Secure.HostBinding
import Netxduo.Dns.Name
import Netxduo.Mqtt.ExactlyOnce
import Netxduo.Mqtt.Segmentation
import Netxduo.Mrp.VlanRoundTrip
import Netxduo.Secure.HandshakeOrder
import Netxduo.Secure.RecordSegments
import Netxduo.Translation.Restored
import Netxduo.Translation.Intact
import Netxduo.Web.ChunkedBody
import Netxduo.WebSocket.Cuts
import Netxduo.Secure.Handshake
import Netxduo.Secure.ClientHandshake
import Netxduo.Secure.ServerHandshake
import Netxduo.Secure.HandshakeFrame
import Netxduo.Translation.Intact
import Netxduo.Tcp.PrrCredit
import Netxduo.Tcp.RttSample
import Netxduo.Tcp.PipeCount
import Netxduo.Tcp.Acceptance
import Netxduo.Tcp.SackDecode
import Netxduo.Crypto.CcmRfc
import Netxduo.Crypto.Drbg
import Netxduo.Crypto.DrbgSpec
import Netxduo.Crypto.DrbgCalls
import Netxduo.Tcp.RepairWire
import Netxduo.Tcp.RtoWalk
import Netxduo.Ip.ForwardFragment
import Netxduo.Ip.Forward
import Netxduo.Ip.Ipv6Options
import Netxduo.Tcp.SynData
import Netxduo.Crypto.SignedBytes
import Netxduo.Crypto.SignedModulus
import Netxduo.Ip.ChecksumCompute
import Netxduo.Packets.Offsets
import Netxduo.Crypto.StoredNumber
import Netxduo.Crypto.FieldHelpers
import Netxduo.Crypto.FastReduce
import Netxduo.Secure.Accounting
import Netxduo.Secure.HostNames
import Netxduo.Secure.Calendar
import Netxduo.Secure.CbcPadding
import Netxduo.Secure.CertificateVerify
import Netxduo.Crypto.GcmStream
import Netxduo.Crypto.EcdsaVerify
import Netxduo.Secure.RemoteCertificate
import Netxduo.Packets.DataSlice
import Netxduo.Tsn.ShaperContainer
import Netxduo.Tsn.GateList
import Netxduo.Ptp.ClockTime
import Netxduo.Library.LinkedLists
import Netxduo.Translation.Links
import Netxduo.Translation.Conservation
import Netxduo.Web.ChunkedSend
import Netxduo.Library.Rings
import Netxduo.Packets.Suspension
import Netxduo.Packets.Pool
import Netxduo.Ip.Routing
import Netxduo.Udp.Receive
import Netxduo.Crypto.Hash
import Netxduo.Crypto.Hmac
import Netxduo.Ppp.Frame
import Netxduo.Tftp.Transfer
import Netxduo.Tftp.Upload
import Netxduo.Utility.Base64
import Netxduo.Crypto.Hkdf
