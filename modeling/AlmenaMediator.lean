import AlmenaMediator.Library.Transition
import AlmenaMediator.Library.Program
import AlmenaMediator.Library.Splitting
import AlmenaMediator.Library.Base64Url
import AlmenaMediator.Library.Crashes
import AlmenaMediator.Didcomm.Basic
import AlmenaMediator.Didcomm.Json
import AlmenaMediator.Didcomm.Crypto.Keys
import AlmenaMediator.Didcomm.Crypto.Jwe
import AlmenaMediator.Didcomm.Crypto.Jws
import AlmenaMediator.Didcomm.Message
import AlmenaMediator.Didcomm.Jwt
import AlmenaMediator.Didcomm.UnpackSoundness
import AlmenaMediator.Didcomm.Pack
import AlmenaMediator.Didcomm.Laws
import AlmenaMediator.Didcomm.Reopening
import AlmenaMediator.Didcomm.Onion
import AlmenaMediator.Didcomm.RoundTrip
import AlmenaMediator.Didcomm.Layerings
import AlmenaMediator.Store.Memory
import AlmenaMediator.Store.Footprint
import AlmenaMediator.Store.Ownership
import AlmenaMediator.Store.Redis.ByteCounter
import AlmenaMediator.Dispatch.Basic
import AlmenaMediator.Dispatch.Protocols
import AlmenaMediator.Dispatch.Relay
import AlmenaMediator.Dispatch.Mediation
import AlmenaMediator.Dispatch.Pickup
import AlmenaMediator.Dispatch.Devices
import AlmenaMediator.Dispatch.Receive
import AlmenaMediator.Library.Pool
import AlmenaMediator.Dispatch.Authority
import AlmenaMediator.Store.Registrar
import AlmenaMediator.Dispatch.RecipientProof
import AlmenaMediator.Didcomm.Loopback
import AlmenaMediator.Dispatch.Loopback
import AlmenaMediator.Store.Keyed
import AlmenaMediator.Dispatch.Isolation
import AlmenaMediator.Store.Mailbox
import AlmenaMediator.Dispatch.Mailbox
import AlmenaMediator.Dispatch.RelayRoute
import AlmenaMediator.Library.Agenda
import AlmenaMediator.Store.Relays
import AlmenaMediator.Dispatch.RelayWorker
import AlmenaMediator.Dispatch.RelayLease
import AlmenaMediator.Dispatch.RelayRetries
import AlmenaMediator.Dispatch.RelayKept
import AlmenaMediator.Dispatch.Live
import AlmenaMediator.Dispatch.LiveSessions
import AlmenaMediator.Dispatch.LiveDelivery
import AlmenaMediator.Store.Queues
import AlmenaMediator.Store.Redis.Queues
import AlmenaMediator.Dispatch.LiveStart
import AlmenaMediator.Store.Estates
import AlmenaMediator.Store.Redis.Estates
import AlmenaMediator.Dispatch.Backing
import AlmenaMediator.Dispatch.Orphans
import AlmenaMediator.Library.AddressBlock
import AlmenaMediator.Transport.Addresses
import AlmenaMediator.Transport.Http
import AlmenaMediator.Store.Redis.Expiry
import AlmenaMediator.Store.Redis.Bodies
import AlmenaMediator.Dispatch.Delivery
import AlmenaMediator.Store.Redis.Acknowledging
import AlmenaMediator.Dispatch.AllOrNothing
import AlmenaMediator.Dispatch.RelayBackoff
import AlmenaMediator.Didcomm.Transparent
import AlmenaMediator.Didcomm.Did.Multikey
import AlmenaMediator.Didcomm.Did.Peer
import AlmenaMediator.Didcomm.Did.PeerRoundTrip
import AlmenaMediator.Didcomm.Amplification
import AlmenaMediator.Didcomm.Overhead
import AlmenaMediator.Didcomm.Crypto.KdfContext
import AlmenaMediator.Didcomm.Did.Rereading
import AlmenaMediator.Dispatch.ProofAge
import AlmenaMediator.Library.Glob
import AlmenaMediator.Dispatch.DiscoverFeatures
import AlmenaMediator.Library.Tally
import AlmenaMediator.Store.Hits
import AlmenaMediator.Store.Redis.Hits
import AlmenaMediator.Transport.RateLimit
import AlmenaMediator.Didcomm.Did.OwnKeys
import AlmenaMediator.Dispatch.Identity
import AlmenaMediator.Dispatch.KeyFile
import AlmenaMediator.Dispatch.Keyspace
import AlmenaMediator.Dispatch.Pushes
import AlmenaMediator.Library.Interference
import AlmenaMediator.Library.Sweep
import AlmenaMediator.Store.Idle
import AlmenaMediator.Store.Redis.Idle
import AlmenaMediator.Dispatch.Idle
import AlmenaMediator.Didcomm.Forwarding
import AlmenaMediator.Dispatch.Arrival
