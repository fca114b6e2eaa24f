/-
Peers: who asks for a bundle.

A peer that connects over the internet is its address without the port,
so all connections of one host are one peer; anything else, the name of
a hidden service for one, is taken as it is. A peer always gets the same
bundle of a generation, chosen by a hash of its text.
-/
import RouterSeed.Bytes
import RouterSeed.Digest.Sha2
import RouterSeed.Peer.Address

namespace RouterSeed

/-- Who asks for a bundle. -/
structure Peer where
  text : String
  deriving DecidableEq, Repr

namespace Peer

/-- The peer at the other end of a connection. -/
def ofRemoteAddress (remote : String) : Peer :=
  match IpAddress.ofSocketText? remote with
  | some address => ⟨address.text⟩
  | none => ⟨remote⟩

/-- The number of a peer's bundle among `count`, of which there is one at
least. -/
def slot (peer : Peer) (count : Nat) : Nat :=
  Bytes.toNat ((Digest.sha256 (Bytes.ofString peer.text)).take 8) % count

theorem slot_lt (peer : Peer) {count : Nat} (h : 0 < count) : peer.slot count < count :=
  Nat.mod_lt _ h

end Peer

end RouterSeed
