/-!
# Addresses that may be dialled

`blockedIP` keeps webhooks from internal addresses, and `publicStatusIP` keeps status fetches
from them. Both unwrap IPv4-mapped addresses. The first knows neither the special-use ranges
nor the translation prefixes outside `2000::/3`.
-/

namespace Clavex

inductive DialAddr where
  | v4 (a : BitVec 32)
  | v6 (a : BitVec 128) (zone : String)
deriving DecidableEq

structure IPRange where
  base : DialAddr
  bits : Nat

def range4 (a b c d : BitVec 8) (bits : Nat) : IPRange := ⟨.v4 (a ++ b ++ c ++ d), bits⟩

def range6 (a b last : BitVec 16) (bits : Nat) : IPRange := ⟨.v6 (a ++ b ++ 0#80 ++ last) "", bits⟩

namespace DialAddr

variable (ip : DialAddr)

def zone : DialAddr → String
  | .v4 _ => ""
  | .v6 _ zone => zone

def is6 : DialAddr → Bool
  | .v4 _ => false
  | .v6 .. => true

def unmap : DialAddr → DialAddr
  | .v4 a => .v4 a
  | .v6 a zone => if a >>> 32 = 0xffff then .v4 (a.setWidth 32) else .v6 a zone

def under (p : IPRange) : Bool :=
  match ip, p.base with
  | .v4 a, .v4 b => a >>> (32 - p.bits) == b >>> (32 - p.bits)
  | .v6 a _, .v6 b _ => a >>> (128 - p.bits) == b >>> (128 - p.bits)
  | _, _ => false

def isUnspecified : Bool := ip.under (range4 0 0 0 0 32) || ip.under (range6 0 0 0 128)

def isLoopback : Bool := ip.under (range4 127 0 0 0 8) || ip.under (range6 0 0 1 128)

def isPrivate : Bool :=
  ip.under (range4 10 0 0 0 8) || ip.under (range4 172 16 0 0 12) || ip.under (range4 192 168 0 0 16) ||
    ip.under (range6 0xfc00 0 0 7)

def isLinkLocalUnicast : Bool := ip.under (range4 169 254 0 0 16) || ip.under (range6 0xfe80 0 0 10)

def isMulticast : Bool := ip.under (range4 224 0 0 0 4) || ip.under (range6 0xff00 0 0 8)

def hasScope (scope : BitVec 128) : DialAddr → Bool
  | .v4 _ => false
  | .v6 a _ => a >>> 120 == 0xff && a >>> 112 &&& 0xf == scope

def isLinkLocalMulticast : Bool := ip.under (range4 224 0 0 0 24) || hasScope 2 ip

def isInterfaceLocalMulticast : Bool := hasScope 1 ip

def isGlobalUnicast : Bool :=
  ip != .v4 0 && ip != .v4 0xffffffff && ip != .v6 0 "" && !ip.isLoopback && !ip.isMulticast && !ip.isLinkLocalUnicast

end DialAddr

def IPRange.contains (p : IPRange) (ip : DialAddr) : Bool := ip.zone == "" && ip.under p

/-- `net.ParseIP` reads no zones, and the methods of `net.IP` unwrap mapped addresses. -/
def netParseIP (ip : DialAddr) : Option DialAddr := if ip.zone = "" then some ip.unmap else none

def blockedIP : Option DialAddr → Bool
  | none => true
  | some ip =>
    ip.isLoopback || ip.isPrivate || ip.isLinkLocalUnicast || ip.isLinkLocalMulticast || ip.isInterfaceLocalMulticast ||
      ip.isUnspecified || ip.isMulticast

def statusBlockedRanges : List IPRange :=
  [range4 0 0 0 0 8, range4 100 64 0 0 10, range4 192 0 0 0 24, range4 192 0 2 0 24, range4 192 88 99 0 24,
    range4 198 18 0 0 15, range4 198 51 100 0 24, range4 203 0 113 0 24, range4 240 0 0 0 4, range6 0x2001 0 0 32,
    range6 0x2001 0xdb8 0 32, range6 0x2001 0x10 0 28, range6 0x2001 0x20 0 28, range6 0x2002 0 0 16]

def globalRange6 : IPRange := range6 0x2000 0 0 3

def publicStatusIP (address : DialAddr) : Bool :=
  let ip := address.unmap
  if !ip.isGlobalUnicast || ip.isPrivate || ip.isLoopback || ip.isLinkLocalUnicast then false
  else if ip.is6 && !globalRange6.contains ip then false
  else !statusBlockedRanges.any (·.contains ip)

/-- What the dial guard does not look at. -/
def SpecialUse (ip : DialAddr) : Prop :=
  (∃ p ∈ statusBlockedRanges, p.contains ip = true) ∨ (ip.is6 = true ∧ globalRange6.contains ip = false)

/-- A broadcast address is no global unicast address, but is also in a blocked range. -/
theorem global_of_dialled {ip} (hb : blockedIP (some ip) = false) (hs : ¬SpecialUse ip) :
    ip.isGlobalUnicast = true := by
  have hne : ip ≠ .v4 0xffffffff := by
    intro e
    subst e
    exact hs (.inl ⟨range4 240 0 0 0 4, by simp [statusBlockedRanges], by decide⟩)
  have h4 : ip ≠ .v4 0 := by
    intro e
    subst e
    exact absurd hb (by decide)
  have h6 : ip ≠ .v6 0 "" := by
    intro e
    subst e
    exact absurd hb (by decide)
  simp only [blockedIP, Bool.or_eq_false_iff] at hb
  simpa [DialAddr.isGlobalUnicast, hb] using ⟨⟨h4, hne⟩, h6⟩

/-- A webhook reaches exactly those addresses internal to status fetches that are of special
use. -/
theorem publicStatusIP_of_dialled (address : DialAddr) (h : blockedIP (netParseIP address) = false) :
    publicStatusIP address = true ↔ ¬SpecialUse address.unmap := by
  unfold netParseIP at h
  split at h
  · by_cases hs : SpecialUse address.unmap
    · refine iff_of_false ?_ (not_not_intro hs)
      rcases hs with hs | hs
      · simp_all [publicStatusIP]
      · simp [publicStatusIP, hs]
    · refine iff_of_true ?_ hs
      have hg := global_of_dialled h hs
      simp only [blockedIP, Bool.or_eq_false_iff] at h
      cases h6 : address.unmap.is6 <;> simp_all [publicStatusIP, SpecialUse]
  · cases h

theorem publicStatusIP_of_resolver :
    publicStatusIP (.v4 0x08080808) = true ↔ ¬SpecialUse (DialAddr.v4 0x08080808).unmap :=
  publicStatusIP_of_dialled _ (by decide)

/-- `64:ff9b::a9fe:a9fe` is translated to the address of a metadata service. -/
theorem dialled_not_publicStatusIP :
    ¬∀ address, blockedIP (netParseIP address) = false → publicStatusIP address = true := by
  intro h
  exact absurd (h (.v6 0x0064ff9b0000000000000000a9fea9fe "") (by decide)) (by decide)

end Clavex
