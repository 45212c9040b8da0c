import EasyTier.Tunnel.AntiReplay
import EasyTier.Peers.NonceUniqueness
import EasyTier.Peers.KeyAgreement
import EasyTier.Peers.Delivery
import EasyTier.Peers.Confidentiality
import EasyTier.Peers.Forwarding
import EasyTier.Route.NoLostUpdate
import EasyTier.Acl.Criteria
import EasyTier.Acl.HotReload
import EasyTier.Rpc.Compression
import EasyTier.Rpc.Merge
import EasyTier.Tunnel.FramedStream
import EasyTier.Peers.CredentialRuns
import EasyTier.Peers.FailedHandshake
import EasyTier.Peers.ConnLife
import EasyTier.Peers.PeerMap
import EasyTier.Peers.ForeignBookkeeping
import EasyTier.Route.Revocation
import EasyTier.Route.Confinement
import EasyTier.Tunnel.TurnedAway
import EasyTier.Foundation.TokenBucket
import EasyTier.Route.CostOverflow
import EasyTier.Route.AddressMaps
import EasyTier.Peers.LeaseExclusion
import EasyTier.Socket.UdpSessionLayer
import EasyTier.Route.BitmapRoundTrip
import EasyTier.Route.FailedBatch
import EasyTier.Route.CredentialPatch
import EasyTier.Route.RawReflection
import EasyTier.Gateway.Dhcp
import EasyTier.Gateway.ReassemblyRuns
import EasyTier.Gateway.ProxyCidr
import EasyTier.Connectivity.StunClient
