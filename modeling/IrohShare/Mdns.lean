import IrohShare.Protocol
import Mathlib.Data.List.AList

/-! Local discovery, `mdns.rs`: a map from endpoint ids to named devices that is
published after each event that may have changed it. -/
namespace IrohShare

/-- A device's name and address, as the peer watch carries them. -/
abbrev Peer := String × EndpointAddr

structure EndpointInfo where
  endpointId : EndpointId
  addrs : List String
  userData : Option String
  deriving DecidableEq, Repr

def EndpointInfo.intoEndpointAddr (info : EndpointInfo) : EndpointAddr :=
  ⟨info.endpointId, info.addrs⟩

inductive DiscoveryEvent where
  | discovered (info : EndpointInfo)
  | expired (endpointId : EndpointId)
  | other
  deriving DecidableEq, Repr

abbrev PeerMap := AList fun _ : EndpointId => Peer

/-- The values of a hash map come in no particular order. -/
def PeerMap.Lists (peers : PeerMap) (values : List Peer) : Prop :=
  values.Perm (peers.entries.map Sigma.snd)

instance (peers : PeerMap) (values : List Peer) : Decidable (peers.Lists values) :=
  inferInstanceAs (Decidable (List.Perm _ _))

/-- One event of `discover`: the map it publishes, or nothing when it goes on
without publishing. -/
def discover (peers : PeerMap) : DiscoveryEvent → Option PeerMap
  | .discovered info =>
    info.userData.map fun name => peers.insert info.endpointId (name, info.intoEndpointAddr)
  | .expired endpointId => some (peers.erase endpointId)
  | .other => none

end IrohShare
