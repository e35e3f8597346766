import EspressoProxy.Proxy.TagMonotonicity
import EspressoProxy.Semantics.GoMap
import EspressoProxy.Semantics.Machine
import EspressoProxy.Semantics.Uint64
import EspressoProxy.Verifier.Nitro.Cursors
import EspressoProxy.Verifier.Nitro.FinalityGuarantee
import EspressoProxy.Verifier.Nitro.Restart
import EspressoProxy.Verifier.Nitro.Safety
import EspressoProxy.Verifier.Nitro.ScanCompleteness
import EspressoProxy.Verifier.Op.Agreement
import EspressoProxy.Verifier.Nitro.Authenticity
import EspressoProxy.Verifier.Nitro.RewindSafety
import EspressoProxy.Verifier.Nitro.Attempts
import EspressoProxy.JsonRpc.JsonTree
import EspressoProxy.Proxy.TagSubstitution
import EspressoProxy.Proxy.BatchAgreement
import EspressoProxy.JsonRpc.RequestCodec
import EspressoProxy.Adapters.InterceptorGlue
import EspressoProxy.WebSocket.Bridge
import EspressoProxy.WebSocket.Integrity
import EspressoProxy.Store.Reload
import EspressoProxy.Verifier.Op.Acceptance
import EspressoProxy.Verifier.Nitro.FeedReference
import EspressoProxy.Verifier.Nitro.Eviction
import EspressoProxy.Verifier.Nitro.FeedCursor
import EspressoProxy.Semantics.Tiling
import EspressoProxy.Verifier.Nitro.ScanRanges
import EspressoProxy.Semantics.Exclusive
import EspressoProxy.Verifier.FinalityPoller
import EspressoProxy.Verifier.Nitro.FetcherLifecycle
import EspressoProxy.Http.Header
import EspressoProxy.Http.Middlewares
import EspressoProxy.Semantics.BigEndian
import EspressoProxy.Verifier.Nitro.FeedConnection
import EspressoProxy.Verifier.Op.L1Origin
import EspressoProxy.WebSocket.Transports
import EspressoProxy.Http.Cors
import EspressoProxy.JsonRpc.RoundTrip
import EspressoProxy.Http.Preflight
import EspressoProxy.Proxy.Deployment
import EspressoProxy.Verifier.Nitro.Coverage
import EspressoProxy.Verifier.Nitro.Deployed
import EspressoProxy.Verifier.Op.Deployed
import EspressoProxy.Verifier.Op.HashChain
import EspressoProxy.Verifier.Nitro.Provenance
import EspressoProxy.WebSocket.Session
import EspressoProxy.WebSocket.SessionEnd
import EspressoProxy.Verifier.Nitro.Progress
import EspressoProxy.Verifier.Op.Progress
import EspressoProxy.JsonRpc.ResponseCodec
import EspressoProxy.Adapters.ErrorReply
import EspressoProxy.Http.Serving
import EspressoProxy.Proxy.Readiness
import EspressoProxy.Http.CrossOrigin
import EspressoProxy.WebSocket.Header
import EspressoProxy.Proxy.Process
import EspressoProxy.Proxy.ProcessInvariant
import EspressoProxy.Proxy.Shutdown
