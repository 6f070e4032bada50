/-
The kinds of values the components pass to each other: addresses, connections,
keys and instants.

Instants and durations are natural numbers of nanoseconds.
-/
import Mathlib.Algebra.Group.Nat.Defs

namespace WarrenGuard

/-- An IPv4 address, as its 32 bits. -/
abbrev Ipv4Addr := BitVec 32

/-- An IPv6 address, as its 128 bits. -/
abbrev Ipv6Addr := BitVec 128

/-- `std::net::IpAddr`, over what stands for an address of each family. -/
inductive IpAddr (V4 V6 : Type) where
  | v4 (addr : V4)
  | v6 (addr : V6)
deriving DecidableEq

/-- A connection of the exit, numbered by the caller. -/
abbrev ConnId := ℕ

/-- The 32 bytes a connection is authenticated by. -/
abbrev Pubkey := BitVec 256

/-- The ephemeral public key of an HPKE setup, 32 bytes. -/
abbrev EncapsulatedKey := BitVec 256

/-- The wire version of a multi-hop session: `/v2` is the post-quantum one. -/
inductive Version where
  | v1
  | v2
deriving DecidableEq

/-- The version byte of the frames of a session. -/
def versionByte : Version → UInt8
  | .v1 => 0x01
  | .v2 => 0x02

/-- The identifier of an exit, 16 bytes. -/
abbrev ExitId := BitVec 128

/-- What the key of one packet is derived from, besides its number: the encapsulated
key of the session and the epoch. -/
structure SealTag where
  encapsulatedKey : EncapsulatedKey
  epoch : UInt32
deriving DecidableEq

def nanosPerSec : ℕ := 1000000000

end WarrenGuard
