import Neth.Lib.Bytes
import Neth.Lib.Trace
import Neth.Lib.SlidingWindow
import Neth.ReplayWindow
import Neth.Proofs.ReplayWindow
import Neth.Addr
import Neth.Header
import Neth.Platform
import Neth.Cert
import Neth.Handshake
import Neth.NoiseUtil
import Neth.Env
import Neth.HostMap
import Neth.HandshakeManager
import Neth.Firewall
import Neth.Lib.Trim
import Neth.Text
import Neth.Rule
import Neth.Lib.DER
import Neth.Issue
import Neth.IPv4
import Neth.Proofs.IPv4
import Neth.LightHouse
import Neth.Interface
import Neth.Lib.Checked
import Neth.Accesses
import Neth.Network
import Neth.Proofs.Header
import Neth.Lib.Framing
import Neth.Lib.Lossy
import Neth.Keys
import Neth.Assumptions
import Neth.Symbolic
import Neth.Proofs.Accesses
import Neth.Proofs.Symbolic
import Neth.Lib.Fallible
import Neth.Proofs.Handshake
import Neth.Proofs.MessageMAC
import Neth.Proofs.Responder
import Neth.Proofs.Initiator
import Neth.Proofs.Node
import Neth.Proofs.Control
import Neth.Proofs.DataChannel
import Neth.Proofs.Delivery
import Neth.Proofs.Firewall
import Neth.Proofs.Rule
import Neth.Lib.Leases
import Neth.Proofs.Conntrack
import Neth.Proofs.RoundTrip
import Neth.Proofs.Exchange
import Neth.Proofs.Issue
import Neth.Proofs.Identity
import Neth.Proofs.KeyAgreement
import Neth.Lib.TwoKeys
import Neth.Proofs.HostMap
import Neth.Proofs.Pending
import Neth.Proofs.Retry
import Neth.Proofs.PendingQueue
import Neth.Proofs.Indexes
import Neth.Proofs.Registry
import Neth.Lib.Iteration
import Neth.Proofs.Senders
import Neth.Proofs.Discovery
import Neth.Proofs.WhoAmI
import Neth.Proofs.Source
import Neth.Lib.Reactions
import Neth.Proofs.Reactions
import Neth.Lib.Interleave
import Neth.Concurrent
import Neth.Daemons
import Neth.Proofs.Concurrent
import Neth.Proofs.Tokens
import Neth.Proofs.Stages
import Neth.Proofs.HeldIndexes
import Neth.Proofs.Matching
import Neth.Proofs.Nonces
import Neth.Proofs.Queue
import Neth.Proofs.Inside
import Neth.Proofs.Confidential
import Neth.Proofs.Authorised
import Neth.Proofs.Packets
import Neth.Proofs.EndToEnd
import Neth.Proofs.Channel
import Neth.Proofs.Outsider
import Neth.Config
import Neth.PKI
import Neth.Proofs.PKI
import Neth.Lib.Handles
import Neth.TUN
import Neth.Proofs.TUN
import Neth.Start
import Neth.Proofs.Start
import Neth.Proofs.Statics
import Neth.Proofs.Contact
import Neth.CertTool
import Neth.Proofs.CertTool
