import InertiaRelayer.Auth.Sequential
import InertiaRelayer.Auth.Session
import InertiaRelayer.Auth.Admission
import InertiaRelayer.Auth.Redemption
import InertiaRelayer.Auth.LiveChallenge
import InertiaRelayer.Auth.Capacity
import InertiaRelayer.Auth.Handshake
import InertiaRelayer.Auth.Authenticity
import InertiaRelayer.Auth.Sweep
import InertiaRelayer.Auth.TokenSafety
import InertiaRelayer.Auth.LateRedemption
import InertiaRelayer.Relayer.Keys
import InertiaRelayer.Relayer.Subscription
import InertiaRelayer.Relayer.SingleValidator
import InertiaRelayer.Relayer.Service
import InertiaRelayer.Relayer.FanOut
import InertiaRelayer.Relayer.StakedNodes
import InertiaRelayer.Proxy.Withholding
import InertiaRelayer.Proxy.Expiry
import InertiaRelayer.Proxy.DelayRefinement
import InertiaRelayer.Proxy.RelayerPath
import InertiaRelayer.Proxy.BundleMirror
import InertiaRelayer.Proxy.Readers
import InertiaRelayer.Proxy.FastPath
import InertiaRelayer.Proxy.WireFormat
import InertiaRelayer.Proxy.CertPin
import InertiaRelayer.Blockengine.Upstream
import InertiaRelayer.Blockengine.Isolation
import InertiaRelayer.Blockengine.Pipeline
import InertiaRelayer.Relayer.Heartbeats
import InertiaRelayer.Relayer.Shutdown
import InertiaRelayer.Proxy.Datagrams
import InertiaRelayer.Blockengine.Clients
import InertiaRelayer.Blockengine.Completeness
import InertiaRelayer.Blockengine.Shutdown
import InertiaRelayer.Proxy.Backoff
import InertiaRelayer.Proxy.ShutdownWatch
import InertiaRelayer.Proxy.Control
import InertiaRelayer.Relayer.StakeRefresh
import InertiaRelayer.Relayer.KeyModes
import InertiaRelayer.Process.Shutdown
import InertiaRelayer.Proxy.Mirroring
