import VantaDns.Protocol.Packet
import VantaDns.Protocol.NameWire
import VantaDns.Protocol.MessageWire
import VantaDns.Protocol.RoundTrip
import VantaDns.Filter.Engine
import VantaDns.Protocol.Compression
import VantaDns.Cache.DnsCache
import VantaDns.Resolver.Forwarder
import VantaDns.Service.Forwarding
import VantaDns.Protocol.Size
import VantaDns.Service.Connection
import VantaDns.Lib.Run
import VantaDns.Service.Run
import VantaDns.Protocol.Wire
import VantaDns.Service.Matching
import VantaDns.Cache.Transparency
import VantaDns.Service.CachedReplies
import VantaDns.Service.Concurrent
import VantaDns.Service.Interleaving
import VantaDns.Protocol.Blocked
import VantaDns.Protocol.Layout
import VantaDns.Protocol.NameWalk
import VantaDns.Filter.Host
import VantaDns.Filter.Rules
import VantaDns.Filter.Spellings
import VantaDns.Service.NameIdentity
import VantaDns.Resolver.Failover
import VantaDns.Service.Agreement
import VantaDns.Service.CacheIntegrity
import VantaDns.Cache.History
import VantaDns.Config.SocketAddr
import VantaDns.Config.ServerConfig
import VantaDns.Config.Upstreams
import VantaDns.Config.Startup
import VantaDns.Service.BlockMode
import VantaDns.Cache.Ttl
import VantaDns.Cache.Statistics
import VantaDns.Filter.Chunks
import VantaDns.Filter.Stored
import VantaDns.Lib.Chunks
import VantaDns.Phone.UpdateBlocklists
import VantaDns.Phone.Bundled
import VantaDns.Service.Progress
import VantaDns.Cache.Memory
import VantaDns.Service.Shared
import VantaDns.Service.Ideal
import VantaDns.Protocol.Extension
import VantaDns.Service.Server
import VantaDns.Phone.VantaVpn
import VantaDns.Phone.Toggle
import VantaDns.Phone.DnsUdpForwarder
import VantaDns.Config.Listeners
import VantaDns.Resolver.ForwardPacket
import VantaDns.Service.Deployed
import VantaDns.Lib.Words
import VantaDns.Phone.StevenBlack
import VantaDns.Phone.Blocking
