import Peregrine.Lib.Runs
import Peregrine.Lib.Views
import Peregrine.Lib.Table
import Peregrine.Lib.FirstMatch
import Peregrine.Lib.Prog
import Peregrine.Lib.Costs
import Peregrine.Lib.Bytes
import Peregrine.Lib.Wire
import Peregrine.Lib.Duplex
import Peregrine.Lib.Network
import Peregrine.Config
import Peregrine.Net
import Peregrine.Lib.Base64
import Peregrine.Lib.Glob
import Peregrine.Acl.Auth
import Peregrine.Protocol.Socks5.Handshake
import Peregrine.Upstream.Direct
import Peregrine.Upstream.Socks5Proxy
import Peregrine.Protocol.Socks5.Session
import Peregrine.Protocol.Socks5.Patience
import Peregrine.Protocol.Socks5.Grammar
import Peregrine.Protocol.Socks5.Accept
import Peregrine.Protocol.Socks5.Answers
import Peregrine.Lib.NetText
import Peregrine.Lib.NetFormat
import Peregrine.Lib.NetSocket
import Peregrine.CoreText
import Peregrine.Lib.HttpHead
import Peregrine.Lib.Authority
import Peregrine.Upstream.HttpProxy
import Peregrine.Upstream.Chain
import Peregrine.Upstream.IpLiterals
import Peregrine.Upstream.HttpTunnel
import Peregrine.Upstream.ChainRoute
import Peregrine.Upstream.Router
import Peregrine.Upstream.Tls
import Peregrine.Protocol.Socks5.UdpPacket
import Peregrine.Protocol.Socks5.UdpOffsets
import Peregrine.Protocol.Socks5.UdpRelay
import Peregrine.Protocol.Socks5.UdpOwnership
import Peregrine.Protocol.Socks5.UdpIsolation
import Peregrine.Protocol.Socks5.UdpAccounting
import Peregrine.Protocol.Socks5.UdpChannel
import Peregrine.Protocol.Socks5.UdpAttribution
import Peregrine.Protocol.Socks5.UdpFlow
import Peregrine.Protocol.Socks5.UdpClosing
import Peregrine.Protocol.Socks5.UdpAccess
import Peregrine.Protocol.Socks5.UdpDelivery
import Peregrine.Protocol.Socks5.UdpAtomicity
import Peregrine.Http
import Peregrine.Acl.Controller
import Peregrine.PlainText
import Peregrine.Acl.PlainEngines
import Peregrine.Acl.Meaning
import Peregrine.Acl.Conditions
import Peregrine.Acl.Order
import Peregrine.Acl.DnsNames
import Peregrine.Acl.MappedSources
import Peregrine.Acl.ExactPatterns
import Peregrine.Protocol.Detect
import Peregrine.Protocol.HttpHandler
import Peregrine.Protocol.Forwarding
import Peregrine.Protocol.Endpoints
import Peregrine.Upstream.ConnectRequest
import Peregrine.Server.Server
import Peregrine.Server.Shutdown
import Peregrine.Server.Permits
import Peregrine.Server.Drain
import Peregrine.Server.Dispatch
import Peregrine.Server.Requests
import Peregrine.Server.OneDial
import Peregrine.Server.Reach
import Peregrine.Server.Progress
import Peregrine.Server.Sessions
import Peregrine.Server.Startup
import Peregrine.Server.Enforcement
import Peregrine.Server.Tasks
import Peregrine.Server.Egress
import Peregrine.Server.Reload
import Peregrine.Server.Announce
import Peregrine.Upstream.Socks5Agreement
import Peregrine.Upstream.Line
import Peregrine.Upstream.ServedChain
import Peregrine.Upstream.LengthBytes
import Peregrine.Upstream.Socks5Replies
import Peregrine.Upstream.BasicAgreement
