import Fleximq.Protocol.Message
import Fleximq.Protocol.HeaderSerde
import Fleximq.Foundation.Rmp
import Fleximq.Protocol.RawMessage
import Fleximq.Protocol.Frame
import Fleximq.Protocol.FrameRoundTrip
import Fleximq.Protocol.HeaderRoundTrip
import Fleximq.Foundation.Incremental
import Fleximq.Protocol.Parser
import Fleximq.Protocol.Waiting
import Fleximq.Protocol.Codec
import Fleximq.Protocol.Streaming
import Fleximq.Protocol.SizeRejection
import Fleximq.Protocol.CodecAgreement
import Fleximq.Foundation.Loop
import Fleximq.Protocol.Builder
import Fleximq.Peer.Handshake
import Fleximq.Foundation.Trace
import Fleximq.Transport.Tcp
import Fleximq.Transport.WebSocket
import Fleximq.Protocol.Delivery
import Fleximq.Protocol.Forwarding
import Fleximq.Protocol.EndOfStream
import Fleximq.Protocol.FailStop
import Fleximq.Foundation.OnceCell
import Fleximq.Protocol.Extensions
import Fleximq.Protocol.Caching
import Fleximq.Peer.Reply
import Fleximq.Peer.Split
import Fleximq.Foundation.Link
import Fleximq.Peer.Session
import Fleximq.Peer.SessionLink
import Fleximq.Peer.Delivery
import Fleximq.Peer.Receiving
import Fleximq.Peer.Deadlock
import Fleximq.Peer.Flushing
import Fleximq.Peer.OverWebSocket
import Fleximq.Peer.WebSocketPipes
import Fleximq.Foundation.LengthPrefixed
import Fleximq.Transport.TcpWriter
import Fleximq.Transport.TcpReader
import Fleximq.Transport.TcpConnection
import Fleximq.Protocol.SizeLimits
import Fleximq.Protocol.ParseAll
import Fleximq.Protocol.Progress
import Fleximq.Protocol.ReadyMade
import Fleximq.Protocol.Responses
import Fleximq.Protocol.Typed
import Fleximq.Protocol.Correlation
import Fleximq.Protocol.Building
import Fleximq.Foundation.LruCache
import Fleximq.Protocol.Peek
import Fleximq.Transport.Url
import Fleximq.Foundation.Words
import Fleximq.Transport.Dispatch
import Fleximq.Transport.Stdio
import Fleximq.Transport.StdioStream
import Fleximq.Transport.Manager
import Fleximq.Transport.Ipc
import Fleximq.Transport.IpcListening
import Fleximq.Transport.Channel
import Fleximq.Transport.Rendezvous
import Fleximq.Transport.Registry
import Fleximq.Transport.Connecting
import Fleximq.Transport.WebSocketWaker
