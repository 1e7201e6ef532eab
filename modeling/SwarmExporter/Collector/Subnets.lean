import SwarmExporter.Collector.Desired
import SwarmExporter.Lib.Bits

/-!
# The node address against a subnet

An IPv4-mapped node address is its IPv4 form, and a subnet written as IPv4-mapped IPv6 is the IPv4
subnet it is. The first is read off the address, the second off the network, that is, after the host
bits are masked: the mapped prefix survives the mask exactly where the prefix length covers it
(`network_mapped_iff`). So a subnet is IPv4 exactly where its own first 96 bits say so and its prefix
length is at least 96, and it contains the addresses that agree with it on its prefix
(`canonicalSubnet_contains_iff`).
-/

namespace SwarmExporter

open Lib

/-- `::ffff:0:0`. -/
def mappedPrefix : BitVec 128 := 0xffff00000000#128

/-! ## Masks -/

namespace Subnet

variable {width : Nat} (net : Subnet width)

theorem contains_iff {addr : BitVec width} :
    net.contains addr = true ↔ AgreeOn net.prefixLen addr net.addr := by
  rw [contains, network, netmask, beq_iff_eq, and_mask_eq_iff net.valid]

theorem getMsbD_network (i : Nat) :
    net.network.getMsbD i = (net.addr.getMsbD i && decide (i < net.prefixLen)) := by
  rw [network, netmask, BitVec.getMsbD_and, getMsbD_mask net.valid]

end Subnet

/-! ## Mapped addresses and networks -/

/-- An address is mapped by its first 96 bits. -/
theorem shiftRight_eq_iff (addr : BitVec 128) :
    addr >>> 32 = 0xffff#128 ↔ AgreeOn 96 addr mappedPrefix := by
  have hbits : ∀ i < 96, (0xffff#128).getMsbD (i + 32) = mappedPrefix.getMsbD i := by decide
  have hzero : ∀ i < 32, (0xffff#128).getMsbD i = false := by decide
  have hshift : ∀ i < 96, (addr >>> 32).getMsbD (i + 32) = addr.getMsbD i := by
    intro i hi
    rw [BitVec.getMsbD_ushiftRight, Nat.add_sub_cancel, decide_eq_true (by omega), Bool.true_and]
    simp
  constructor
  · intro heq i hi
    rw [← hshift i hi, heq, hbits i hi]
  · intro hagree
    apply BitVec.eq_of_getMsbD_eq
    intro i hi
    by_cases hlow : i < 32
    · rw [hzero i hlow, BitVec.getMsbD_ushiftRight]
      simp [hlow]
    · obtain ⟨j, rfl⟩ : ∃ j, i = j + 32 := ⟨i - 32, by omega⟩
      rw [hshift j (by omega), hagree j (by omega), hbits j (by omega)]

/-- **A masked network is mapped exactly where the mask covers the mapped prefix**: a shorter one clears
the last of its bits, which is set. -/
theorem network_mapped_iff (net : Subnet 128) : AgreeOn 96 net.network mappedPrefix ↔
    96 ≤ net.prefixLen ∧ AgreeOn 96 net.addr mappedPrefix := by
  have hlast : mappedPrefix.getMsbD 95 = true := by decide
  constructor
  · intro h
    have hcovers : 96 ≤ net.prefixLen := by
      have hbit := h 95 (by decide)
      rw [net.getMsbD_network, hlast, Bool.and_eq_true, decide_eq_true_eq] at hbit
      omega
    refine ⟨hcovers, fun i hi => ?_⟩
    have hbit := h i hi
    rwa [net.getMsbD_network, decide_eq_true (by omega), Bool.and_true] at hbit
  · rintro ⟨hcovers, h⟩ i hi
    rw [net.getMsbD_network, h i hi, decide_eq_true (by omega), Bool.and_true]

/-- The network of a subnet whose prefix is shorter is never read as IPv4. -/
theorem toCanonical_network_cases (net : Subnet 128) :
    (96 ≤ net.prefixLen ∧ AgreeOn 96 net.addr mappedPrefix ∧
      (IpAddr.v6 net.network).toCanonical = .v4 (net.network.setWidth 32)) ∨
    (¬(96 ≤ net.prefixLen ∧ AgreeOn 96 net.addr mappedPrefix) ∧
      (IpAddr.v6 net.network).toCanonical = .v6 net.network) := by
  simp only [IpAddr.toCanonical, shiftRight_eq_iff]
  by_cases hmapped : AgreeOn 96 net.network mappedPrefix
  · obtain ⟨hcovers, haddr⟩ := (network_mapped_iff net).1 hmapped
    exact .inl ⟨hcovers, haddr, if_pos hmapped⟩
  · exact .inr ⟨mt (network_mapped_iff net).2 hmapped, if_neg hmapped⟩

/-! ## Subnets as they are written -/

/-- `addr` is of the subnet's family and agrees with it on its prefix. -/
def IpNet.Covers : IpNet → IpAddr → Prop
  | .v4 net, .v4 addr => AgreeOn net.prefixLen addr net.addr
  | .v6 net, .v6 addr => AgreeOn net.prefixLen addr net.addr
  | _, _ => False

/-- What a prefix length leaves after the mapped prefix is one of IPv4. -/
theorem prefixLen_sub_le (net : Subnet 128) : net.prefixLen - 96 ≤ 32 := by
  have := net.valid
  omega

/-- A subnet with the mapped prefix and at least its length is the IPv4 subnet of its low bits. -/
def IpNet.unmapped : IpNet → IpNet
  | .v4 net => .v4 net
  | .v6 net =>
    if 96 ≤ net.prefixLen ∧ AgreeOn 96 net.addr mappedPrefix then
      .v4 ⟨net.addr.setWidth 32, net.prefixLen - 96, prefixLen_sub_le net⟩
    else .v6 net

theorem contains_iff_covers (subnet : IpNet) (addr : IpAddr) :
    subnet.contains addr = true ↔ subnet.Covers addr := by
  cases subnet <;> cases addr <;> simp [IpNet.contains, IpNet.Covers, Subnet.contains_iff]

theorem getMsbD_setWidth_low (addr : BitVec 128) (i : Nat) :
    (addr.setWidth 32).getMsbD i = addr.getMsbD (i + 96) := by
  rw [BitVec.getMsbD_setWidth]
  simp

/-- **What a subnet contains** once it is canonical. -/
theorem canonicalSubnet_contains_iff (subnet : IpNet) (addr : IpAddr) :
    (canonicalSubnet subnet).contains addr = true ↔ subnet.unmapped.Covers addr := by
  rw [contains_iff_covers]
  cases subnet with
  | v4 net => rfl
  | v6 net =>
    have hvalid := net.valid
    rcases toCanonical_network_cases net with ⟨hcovers, haddr, hcanonical⟩ | ⟨hnot, hcanonical⟩
    · simp only [canonicalSubnet, IpNet.unmapped, hcanonical, hcovers, haddr, and_self, if_true]
      rw [dif_pos (by omega)]
      cases addr with
      | v6 addr => rfl
      | v4 addr =>
        refine forall₂_congr fun i hi => ?_
        simp only at hi
        rw [getMsbD_setWidth_low, getMsbD_setWidth_low, net.getMsbD_network,
          decide_eq_true (by omega), Bool.and_true]
    · simp only [canonicalSubnet, IpNet.unmapped, hcanonical, if_neg hnot]

/-- `::ffff:a.b.c.d/(96 + q)` is `a.b.c.d/q`. -/
theorem unmapped_mapped (addr : BitVec 32) {count : Nat} (h : count ≤ 32) :
    (IpNet.v6 ⟨0xffff#96 ++ addr, 96 + count, by omega⟩).unmapped = .v4 ⟨addr, count, h⟩ := by
  have hagree : AgreeOn 96 (0xffff#96 ++ addr) mappedPrefix := by
    rw [agreeOn_append_iff]
    decide
  have hlow : (0xffff#96 ++ addr : BitVec 128).setWidth 32 = addr := by
    apply BitVec.eq_of_getMsbD_eq
    intro i hi
    rw [getMsbD_setWidth_low, BitVec.getMsbD_append, if_pos (by omega), Nat.add_sub_cancel]
  simp [IpNet.unmapped, hagree, hlow]

/-! ## The constraint -/

section Constraint

variable [HostText] {expected : String} {subnet : IpNet}

theorem matchNodeIpConstraint_subnet (haddr : HostText.parseIpAddr expected = none)
    (hnet : HostText.parseIpNet expected = some subnet) (operator : ConstraintOp) (nodeAddr : String) :
    matchNodeIpConstraint operator expected nodeAddr =
      operator.apply (((HostText.parseIpAddr nodeAddr).map IpAddr.toCanonical).any
        (canonicalSubnet subnet).contains) := by
  simp only [matchNodeIpConstraint, haddr, hnet]

/-- `==` holds for the addresses the subnet covers. -/
theorem matchNodeIpConstraint_equal_iff (haddr : HostText.parseIpAddr expected = none)
    (hnet : HostText.parseIpNet expected = some subnet) (nodeAddr : String) :
    matchNodeIpConstraint .equal expected nodeAddr = true ↔
      ∃ ip, HostText.parseIpAddr nodeAddr = some ip ∧ subnet.unmapped.Covers ip.toCanonical := by
  rw [matchNodeIpConstraint_subnet haddr hnet]
  simp only [ConstraintOp.apply, reduceCtorEq, if_false, Option.any_eq_true, Option.map_eq_some_iff,
    canonicalSubnet_contains_iff]
  constructor
  · rintro ⟨_, ⟨ip, hip, rfl⟩, hcovers⟩
    exact ⟨ip, hip, hcovers⟩
  · rintro ⟨ip, hip, hcovers⟩
    exact ⟨_, ⟨ip, hip, rfl⟩, hcovers⟩

theorem matchNodeIpConstraint_subnet_notEqual (haddr : HostText.parseIpAddr expected = none)
    (hnet : HostText.parseIpNet expected = some subnet) (nodeAddr : String) :
    matchNodeIpConstraint .notEqual expected nodeAddr =
      !matchNodeIpConstraint .equal expected nodeAddr := by
  simp [matchNodeIpConstraint_subnet haddr hnet, ConstraintOp.apply]

end Constraint

/-- **The node address against a subnet.** With the node address canonical, and a subnet of at least 96
bits with the mapped prefix read as the IPv4 subnet of its low bits, `==` holds if and only if both are
of one family and agree on the prefix, and `!=` is its negation. So `::ffff:a.b.c.d/(96 + q)` and
`a.b.c.d/q` match the same nodes, a shorter IPv6 subnet matches no IPv4 or mapped address, and the
subtraction of 96 never saturates. -/
theorem node_ip_subnets [HostText] :
    (∀ expected subnet, HostText.parseIpAddr expected = none →
      HostText.parseIpNet expected = some subnet → ∀ nodeAddr,
      (matchNodeIpConstraint .equal expected nodeAddr = true ↔
        ∃ ip, HostText.parseIpAddr nodeAddr = some ip ∧ subnet.unmapped.Covers ip.toCanonical) ∧
      matchNodeIpConstraint .notEqual expected nodeAddr =
        !matchNodeIpConstraint .equal expected nodeAddr) ∧
    (∀ (addr : BitVec 32) (count : Nat) (h : count ≤ 32) (mapped plain : String),
      HostText.parseIpAddr mapped = none →
      HostText.parseIpNet mapped = some (.v6 ⟨0xffff#96 ++ addr, 96 + count, by omega⟩) →
      HostText.parseIpAddr plain = none → HostText.parseIpNet plain = some (.v4 ⟨addr, count, h⟩) →
      ∀ operator nodeAddr, matchNodeIpConstraint operator mapped nodeAddr =
        matchNodeIpConstraint operator plain nodeAddr) ∧
    (∀ (expected nodeAddr : String) (net : Subnet 128) (ip : IpAddr) (addr : BitVec 32),
      HostText.parseIpAddr expected = none → HostText.parseIpNet expected = some (.v6 net) →
      net.prefixLen < 96 → HostText.parseIpAddr nodeAddr = some ip → ip.toCanonical = .v4 addr →
      matchNodeIpConstraint .equal expected nodeAddr = false) ∧
    ∀ (net : Subnet 128) (addr : BitVec 32),
      (IpAddr.v6 net.network).toCanonical = .v4 addr → 96 ≤ net.prefixLen := by
  refine ⟨?_, ?_, ?_, ?_⟩
  · intro expected subnet haddr hnet nodeAddr
    exact ⟨matchNodeIpConstraint_equal_iff haddr hnet nodeAddr,
      matchNodeIpConstraint_subnet_notEqual haddr hnet nodeAddr⟩
  · intro addr count h mapped plain hmapped hmappedNet hplain hplainNet operator nodeAddr
    have hequal : matchNodeIpConstraint .equal mapped nodeAddr =
        matchNodeIpConstraint .equal plain nodeAddr := by
      rw [Bool.eq_iff_iff, matchNodeIpConstraint_equal_iff hmapped hmappedNet,
        matchNodeIpConstraint_equal_iff hplain hplainNet, unmapped_mapped addr h]
      rfl
    cases operator with
    | equal => exact hequal
    | notEqual =>
      rw [matchNodeIpConstraint_subnet_notEqual hmapped hmappedNet,
        matchNodeIpConstraint_subnet_notEqual hplain hplainNet, hequal]
  · intro expected nodeAddr net ip addr haddr hnet hshort hip hcanonical
    rw [Bool.eq_false_iff, Ne, matchNodeIpConstraint_equal_iff haddr hnet]
    rintro ⟨ip', hip', hcovers⟩
    rw [hip] at hip'
    cases hip'
    rw [hcanonical, IpNet.unmapped, if_neg (by omega)] at hcovers
    exact hcovers
  · intro net addr hcanonical
    rcases toCanonical_network_cases net with ⟨hcovers, -, -⟩ | ⟨-, hv6⟩
    · exact hcovers
    · rw [hv6] at hcanonical
      cases hcanonical

namespace Sample

/-- `10.1.2.3`, and `10.0.0.0/8` in its two forms. -/
@[reducible] def addresses : HostText where
  toLowercase := text.toLowercase
  parseIpAddr text := if text = "10.1.2.3" then some (.v4 0x0a010203#32) else none
  parseIpNet text :=
    if text = "10.0.0.0/8" then some (.v4 ⟨0x0a000000#32, 8, by decide⟩)
    else if text = "::ffff:10.0.0.0/104" then
      some (.v6 ⟨0xffff#96 ++ 0x0a000000#32, 96 + 8, by decide⟩)
    else none

end Sample

open Sample in
/-- `10.1.2.3` is in `::ffff:10.0.0.0/104` because it is in `10.0.0.0/8`. -/
theorem node_ip_subnets_sample :
    @matchNodeIpConstraint addresses .equal "::ffff:10.0.0.0/104" "10.1.2.3" = true := by
  rw [(@node_ip_subnets addresses).2.1 0x0a000000#32 8 (by decide) "::ffff:10.0.0.0/104" "10.0.0.0/8"
    rfl rfl rfl rfl]
  have hagree : AgreeOn 8 0x0a010203#32 0x0a000000#32 := by decide
  exact ((@node_ip_subnets addresses).1 "10.0.0.0/8" _ rfl rfl "10.1.2.3").1.2
    ⟨.v4 0x0a010203#32, rfl, hagree⟩

end SwarmExporter
