import ReverseProxy.Rotation
import ReverseProxy.Spoofing
import ReverseProxy.Body
import ReverseProxy.Answering
import ReverseProxy.Proxy
import ReverseProxy.Routing
import ReverseProxy.Health
import ReverseProxy.Config
import ReverseProxy.Unavailable
import ReverseProxy.Distribution
import ReverseProxy.RoundRobin
import ReverseProxy.Forwarding
import ReverseProxy.HeadReader
import ReverseProxy.Shutdown
import ReverseProxy.Agreement
import ReverseProxy.HeadTooLarge
import ReverseProxy.HeadBuffer
import ReverseProxy.ActiveConnections
import ReverseProxy.Flapping
import ReverseProxy.Signals
import ReverseProxy.StatusLine
import ReverseProxy.FirstLine
import ReverseProxy.HopByHop
import ReverseProxy.Load
import ReverseProxy.Startup
import ReverseProxy.Serial
import ReverseProxy.Delivery
import ReverseProxy.Progress
import ReverseProxy.HyperServer
import ReverseProxy.HyperProgress
import ReverseProxy.Passthrough
import ReverseProxy.Failover
import ReverseProxy.Chain
import ReverseProxy.UrlChecker
import ReverseProxy.EchoServer
import ReverseProxy.TokioCopy
import ReverseProxy.AsyncGuide
import ReverseProxy.Launch
