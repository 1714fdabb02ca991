import Cled.Core.Ranking
import Cled.Lan.Wire

/-!
# Choosing which of a device's addresses to try first

Devices announce every address they have, and only some are reachable from here.
Addresses are tried in order, best first: the lower the score, the better.
-/

namespace Cled.Lan

open Cled.Core

/-! ## Kinds of addresses -/

/-- `octets()[index]`. -/
def octet (ip : BitVec 32) (index : ℕ) : ℕ :=
  (ip.toNat >>> (24 - 8 * index)) % 256

/-- `Ipv4Addr::is_loopback`. -/
def isLoopbackV4 (ip : BitVec 32) : Bool := octet ip 0 == 127

/-- `Ipv4Addr::is_link_local`. -/
def isLinkLocal (ip : BitVec 32) : Bool :=
  octet ip 0 == 169 && octet ip 1 == 254

/-- `Ipv4Addr::is_private`. -/
def isPrivate (ip : BitVec 32) : Bool :=
  octet ip 0 == 10 ||
    (octet ip 0 == 172 && 16 ≤ octet ip 1 && octet ip 1 ≤ 31) ||
      (octet ip 0 == 192 && octet ip 1 == 168)

/-- `Ipv6Addr::is_loopback`. -/
def isLoopbackV6 (ip : BitVec 128) : Bool := ip == 1

/-- `Ipv6Addr::is_unicast_link_local`. -/
def isUnicastLinkLocal (ip : BitVec 128) : Bool :=
  (ip >>> 112) &&& 0xffc0 == 0xfe80

def SocketAddr.isLoopback : SocketAddr → Bool
  | .v4 ip _ => isLoopbackV4 ip
  | .v6 ip _ _ _ => isLoopbackV6 ip

def sameSubnet (ip network mask : BitVec 32) : Bool :=
  mask != 0 && ip &&& mask == network &&& mask

/-! ## Ranking -/

section Ranking

-- This machine's IPv4 interfaces as (address, netmask).
variable (networks : List (BitVec 32 × BitVec 32))

/-- Lower is better. -/
def score : SocketAddr → ℕ
  | .v4 ip _ =>
      if isLoopbackV4 ip then 6
      else if isLinkLocal ip then 4
      -- Same subnet as one of this machine's interfaces.
      else if networks.any fun (net, mask) => sameSubnet ip net mask then 0
      else if isPrivate ip then 1
      else 2
  | .v6 ip _ _ scopeId =>
      if isLoopbackV6 ip then 6
      else if isUnicastLinkLocal ip then if scopeId ≠ 0 then 5 else 7
      else 3

def rankWith (addresses : List SocketAddr) : List SocketAddr :=
  let ranked := addresses.foldl
    (fun ranked address =>
      if ranked.any fun (_, other) => other = address then ranked
      else ranked ++ [(score networks address, address)]) []
  -- Equally good addresses keep their announced order.
  (ranked.insertionSort (·.1 ≤ ·.1)).map Prod.snd

/-- At least as good. -/
def AsGood (a b : SocketAddr) : Prop := score networks a ≤ score networks b

instance : DecidableRel (AsGood networks) :=
  fun a b => inferInstanceAs (Decidable (score networks a ≤ score networks b))

instance : IsTrans SocketAddr (AsGood networks) := ⟨fun _ _ _ => Nat.le_trans⟩

instance : Std.Total (AsGood networks) := ⟨fun _ _ => Nat.le_total _ _⟩

/-- The addresses, without repetitions, in the order of their scores. -/
theorem rankWith_eq (addresses : List SocketAddr) :
    rankWith networks addresses =
      (keepFirst addresses).insertionSort (AsGood networks) := by
  have hranked : addresses.foldl
      (fun ranked address =>
        if ranked.any fun (_, other) => other = address then ranked
        else ranked ++ [(score networks address, address)]) [] =
      (keepFirst addresses).map fun address =>
        (score networks address, address) := by
    induction addresses using List.reverseRecOn with
    | nil => rfl
    | append_singleton addresses last ih =>
        rw [List.foldl_append, ih, keepFirst_concat]
        by_cases hmem : last ∈ addresses <;> simp [hmem]
  rw [rankWith, hranked, ← List.map_insertionSort (AsGood networks),
    List.map_map]
  · exact List.map_id _
  · exact fun _ _ _ _ => Iff.rfl

@[simp]
theorem mem_rankWith {addresses : List SocketAddr} {address : SocketAddr} :
    address ∈ rankWith networks addresses ↔ address ∈ addresses := by
  rw [rankWith_eq, List.mem_insertionSort, mem_keepFirst]

/-! ## What is documented -/

/-- Best first, without duplicates and unusable ones: loopback, unless nothing
else is left. -/
structure RankedFrom (addresses ranked : List SocketAddr) : Prop where
  usable : ∀ address, address ∈ ranked ↔ address ∈ addresses ∧
    (address.isLoopback = true →
      ∀ other ∈ addresses, other.isLoopback = true)
  once : ranked.Nodup
  sorted : ranked.Pairwise fun a b => score networks a ≤ score networks b
  stable : ranked.Pairwise fun a b =>
    score networks a = score networks b → addresses.idxOf a < addresses.idxOf b

/-- Everything but the unusable addresses is as documented, so addresses are
ranked as documented unless some but not all of them are loopback. -/
theorem rankedFrom_rankWith_iff (addresses : List SocketAddr) :
    RankedFrom networks addresses (rankWith networks addresses) ↔
      (∀ address ∈ addresses, address.isLoopback = false) ∨
        ∀ address ∈ addresses, address.isLoopback = true := by
  have hpairs : (rankWith networks addresses).Pairwise
      (Ranked (AsGood networks) fun a b =>
        addresses.idxOf a < addresses.idxOf b) := by
    rw [rankWith_eq]
    exact pairwise_insertionSort_stable (pairwise_keepFirst addresses)
  constructor
  · intro hranked
    by_cases hall : ∀ address ∈ addresses, address.isLoopback = true
    · exact .inr hall
    · refine .inl fun address hmem => Bool.eq_false_of_not_eq_true ?_
      intro hloopback
      have hkept := (mem_rankWith networks).mpr hmem
      exact hall (((hranked.usable address).mp hkept).2 hloopback)
  · intro hkinds
    refine ⟨fun address => ?_, ?_, hpairs.imp fun h => h.1,
      hpairs.imp fun h heq => h.2 heq.ge⟩
    · rw [mem_rankWith]
      refine ⟨fun hmem => ⟨hmem, fun hloopback => ?_⟩, And.left⟩
      rcases hkinds with hnone | hall
      · rw [hnone address hmem] at hloopback
        cases hloopback
      · exact hall
    · rw [rankWith_eq]
      exact (List.perm_insertionSort _ _).nodup_iff.mpr
        (nodup_keepFirst addresses)

end Ranking

/-- 127.0.0.1. -/
def exampleLoopback : SocketAddr := .v4 0x7f000001 4000

/-- 192.168.1.34. -/
def exampleHome : SocketAddr := .v4 0xc0a80122 4000

/-- A loopback address stays, though there is another. -/
theorem not_rankedFrom_loopback :
    ¬ RankedFrom [] [exampleLoopback, exampleHome]
      (rankWith [] [exampleLoopback, exampleHome]) := by
  intro hranked
  have hkept : exampleLoopback ∈ rankWith [] [exampleLoopback, exampleHome] :=
    (mem_rankWith []).mpr List.mem_cons_self
  have hall := ((hranked.usable exampleLoopback).mp hkept).2 (by decide)
  exact absurd (hall exampleHome (by simp)) (by decide)

/-- The source's test: the home network before the bridges of virtual machines. -/
example : rankWith [(0xc0a80114, 0xffffff00)]
    [.v4 0xac110001 4000, .v4 0xac140001 4000, exampleHome] =
      [exampleHome, .v4 0xac110001 4000, .v4 0xac140001 4000] := by
  decide

end Cled.Lan
