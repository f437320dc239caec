/-
Address families, binary addresses and `inet_pton`.
-/
import NeighborDiscovery.Utility.FunctionReturn

namespace NeighborDiscovery

inductive Family where
  | inet
  | inet6
deriving DecidableEq, Repr

def Family.addrSize : Family → Nat
  | .inet => 4
  | .inet6 => 16

/-- `in_addr` and `in6_addr`, in network byte order. -/
abbrev InAddr (T : Family) := Vector UInt8 T.addrSize

def InAddr.zero (T : Family) : InAddr T := Vector.replicate T.addrSize 0

/-- The text a `const char*` from `c_str()` stands for: it ends at the first NUL. -/
def cStr (s : Bytes) : Bytes := s.takeWhile (· ≠ 0)

/-- What `inet_pton` answers: 1 and an address, 0 or -1. -/
inductive PtonResult (T : Family) where
  | parsed (addr : InAddr T)
  | malformed
  | unsupported
deriving DecidableEq

/-- `inet_pton`, a fixed function of the text. -/
abbrev InetPton := (T : Family) → Bytes → PtonResult T

/-- The address where `inet_pton` returns 1. -/
def PtonResult.addr? {T : Family} : PtonResult T → Option (InAddr T)
  | .parsed addr => some addr
  | .malformed => none
  | .unsupported => none

/-- The destination after a call that did not return a negative number, the
destination being value-initialised before it. -/
def PtonResult.written {T : Family} : PtonResult T → Option (InAddr T)
  | .parsed addr => some addr
  | .malformed => some (InAddr.zero T)
  | .unsupported => none

end NeighborDiscovery
