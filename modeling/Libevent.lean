import Libevent.Proofs.Epoll.Equivalence
import Libevent.Proofs.Epoll.EdgeTriggered
import Libevent.Proofs.Epoll.Index
import Libevent.Proofs.Event.Added
import Libevent.Proofs.Event.MainLoop
import Libevent.Proofs.Event.Foreach
import Libevent.Proofs.Event.Activation
import Libevent.Proofs.Buffer.Drain
import Libevent.Proofs.Buffer.Callbacks
import Libevent.Proofs.Event.Priority
import Libevent.Proofs.Http.Injection
import Libevent.Proofs.Http.Reply
import Libevent.Proofs.Http.ChunkedBody
import Libevent.Proofs.Http.LengthBody
import Libevent.Proofs.Http.UriSet
import Libevent.Proofs.Http.UriCodec
import Libevent.Proofs.Dns.Getaddrinfo
import Libevent.Proofs.Dns.ServerPort
import Libevent.Proofs.Backends.Agreement
import Libevent.Proofs.Bufferevent.Caps
import Libevent.Proofs.Bufferevent.Members
import Libevent.Proofs.Bufferevent.Reports
import Libevent.Proofs.Bufferevent.Ticks
import Libevent.Proofs.Bufferevent.Pair
import Libevent.Proofs.Dns.Evidence
import Libevent.Proofs.Dns.Ids
import Libevent.Proofs.Dns.Listening
import Libevent.Proofs.Dns.Probing
import Libevent.Proofs.Dns.Waiting
import Libevent.Proofs.TimeHeap
import Libevent.Proofs.Http.Vhost
import Libevent.Proofs.Http.Retry
import Libevent.Proofs.Inet
import Libevent.Proofs.Dns.Packet
import Libevent.Proofs.Util
