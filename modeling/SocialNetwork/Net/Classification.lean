import SocialNetwork.Foundation.Bits
import SocialNetwork.Net.AddressForms

/-!
# Which addresses are classified right

The predicates of `helpers/ip_address.cpp` that sort addresses into ranges. They read `data_` as
`uint32_t` words and compare these with constants in host order, while parsing a text and copying an
`in6_addr` leave the bytes in network order. On a little-endian host each predicate therefore looks
at the address with the bytes of each word reversed (`IpAddress.reversed`), and the address is
classified right exactly if the reversed one lies in the same ranges (`classified_iff`).

A range is stated in network order: a `Prefix` is a number and a count of leading bits.
-/

namespace SocialNetwork.Net

open Foundation Helpers

/-! ## The predicates -/

namespace IpAddress

variable (ip : IpAddress)

/-- `IpAddress::is_multicast`. -/
def isMulticast : Bool :=
  match ip.family with
  | .v4 => ip.value 0 &&& 0xF0000000 = 0xE0000000
  | .v6 => ip.value 0 &&& 0xFF000000 = 0xFF000000

/-- `IpAddress::is_linklocal`. -/
def isLinklocal : Bool :=
  match ip.family with
  | .v4 => ip.value 0 &&& 0xFFFF0000 = 0xA9FE0000
  | .v6 => ip.value 0 &&& 0xFFC00000 = 0xFE800000

/-- `IpAddress::is_sitelocal`. -/
def isSitelocal : Bool :=
  match ip.family with
  | .v4 => ip.value 0 &&& 0xFF000000 = 0x0A000000 || ip.value 0 &&& 0xFFFF0000 = 0xC0A80000 ||
      (ip.value 0 ≥ 0xAC100000 && ip.value 0 ≤ 0xAC1FFFFF)
  | .v6 => ip.value 0 &&& 0xFFC00000 = 0xFEC00000 || ip.value 0 &&& 0xFE000000 = 0xFC000000

/-- `IpAddress::is_reserved`. -/
def isReserved : Bool :=
  match ip.family with
  | .v4 => ip.value 0 &&& 0xF0000000 = 0xF0000000
  | .v6 => false

/-- `IpAddress::is_documentation`. -/
def isDocumentation : Bool :=
  match ip.family with
  | .v4 => ip.value 0 &&& 0xFFFFFF00 = 0xC6336400 || ip.value 0 &&& 0xFFFFFF00 = 0xCB007100 ||
      ip.value 0 &&& 0xFFFFFF00 = 0xC0000200
  | .v6 => ip.value 0 &&& 0xFFFFFFFF = 0x20010DB8

/-! ## Ranges in network order -/

/-- The `i`-th word, in network order. -/
def netWord (i : Nat) : Nat :=
  load32 (ip.byte (4 * i + 3)) (ip.byte (4 * i + 2)) (ip.byte (4 * i + 1)) (ip.byte (4 * i))

/-- The address as a number, in network order. -/
def number : Nat :=
  match ip.family with
  | .v4 => ip.netWord 0
  | .v6 => ((ip.netWord 0 * 2 ^ 32 + ip.netWord 1) * 2 ^ 32 + ip.netWord 2) * 2 ^ 32 + ip.netWord 3

/-- The address whose words have their bytes in the other order. -/
def reversed : IpAddress :=
  ⟨ip.family, Vector.ofFn fun i : Fin 16 => ip.byte (4 * (i / 4) + (3 - i % 4))⟩

end IpAddress

/-- The bits of an address. -/
def Family.width : Family → Nat
  | .v4 => 32
  | .v6 => 128

/-- The addresses that begin with the same `len` bits as `net`. -/
structure Prefix where
  family : Family
  net : Nat
  len : Nat

/-- The address has the prefix. -/
def Prefix.Contains (p : Prefix) (ip : IpAddress) : Prop :=
  ip.family = p.family ∧
    ip.number / 2 ^ (p.family.width - p.len) = p.net / 2 ^ (p.family.width - p.len)

instance (p : Prefix) (ip : IpAddress) : Decidable (p.Contains ip) := by
  unfold Prefix.Contains
  infer_instance

/-- The address lies in one of the ranges. -/
def InSome (ranges : List Prefix) (ip : IpAddress) : Prop := ∃ p ∈ ranges, p.Contains ip

/-- `127.0.0.0/8`, `::1` and `::ffff:127.0.0.0/104`. -/
def loopbackRanges : List Prefix :=
  [⟨.v4, 0x7F000000, 8⟩, ⟨.v6, 1, 128⟩, ⟨.v6, 0xFFFF * 2 ^ 32 + 0x7F000000, 104⟩]

/-- `224.0.0.0/4` and `ff00::/8`. -/
def multicastRanges : List Prefix := [⟨.v4, 0xE0000000, 4⟩, ⟨.v6, 0xFF000000 * 2 ^ 96, 8⟩]

/-- `169.254.0.0/16` and `fe80::/10`. -/
def linklocalRanges : List Prefix := [⟨.v4, 0xA9FE0000, 16⟩, ⟨.v6, 0xFE800000 * 2 ^ 96, 10⟩]

/-- `10.0.0.0/8`, `192.168.0.0/16`, `172.16.0.0/12`, `fec0::/10` and `fc00::/7`. -/
def sitelocalRanges : List Prefix :=
  [⟨.v4, 0x0A000000, 8⟩, ⟨.v4, 0xC0A80000, 16⟩, ⟨.v4, 0xAC100000, 12⟩,
    ⟨.v6, 0xFEC00000 * 2 ^ 96, 10⟩, ⟨.v6, 0xFC000000 * 2 ^ 96, 7⟩]

/-- `240.0.0.0/4`. -/
def reservedRanges : List Prefix := [⟨.v4, 0xF0000000, 4⟩]

/-- `198.51.100.0/24`, `203.0.113.0/24`, `192.0.2.0/24` and `2001:db8::/32`. -/
def documentationRanges : List Prefix :=
  [⟨.v4, 0xC6336400, 24⟩, ⟨.v4, 0xCB007100, 24⟩, ⟨.v4, 0xC0000200, 24⟩,
    ⟨.v6, 0x20010DB8 * 2 ^ 96, 32⟩]

/-- `::ffff:0:0/96`. -/
def mappedRanges : List Prefix := [⟨.v6, 0xFFFF * 2 ^ 32, 96⟩]

/-- `::/96`. -/
def compatibleRanges : List Prefix := [⟨.v6, 0, 96⟩]

/-- Every predicate holds exactly of the addresses in its ranges. -/
structure Classified (ip : IpAddress) : Prop where
  loopback : ip.isLoopback = true ↔ InSome loopbackRanges ip
  multicast : ip.isMulticast = true ↔ InSome multicastRanges ip
  linklocal : ip.isLinklocal = true ↔ InSome linklocalRanges ip
  sitelocal : ip.isSitelocal = true ↔ InSome sitelocalRanges ip
  reserved : ip.isReserved = true ↔ InSome reservedRanges ip
  documentation : ip.isDocumentation = true ↔ InSome documentationRanges ip
  mapped : ip.isIpv4Mapped = true ↔ InSome mappedRanges ip
  compatible : ip.isIpv4Compatible = true ↔ ip.family = .v4 ∨ InSome compatibleRanges ip

/-- The ranges whose members the predicates may take for others. -/
def orderedRanges : List (List Prefix) :=
  [loopbackRanges, multicastRanges, linklocalRanges, sitelocalRanges, reservedRanges,
    documentationRanges, mappedRanges]

/-- The address and the one with the bytes of each word reversed lie in the same ranges. -/
def SameRanges (ip : IpAddress) : Prop :=
  ∀ ranges ∈ orderedRanges, InSome ranges ip.reversed ↔ InSome ranges ip

/-! ## Words -/

namespace IpAddress

variable {ip : IpAddress}

/-- The bytes of each word change places. -/
theorem byte_reversed (i : Nat) (hi : i < 16) :
    ip.reversed.byte i = ip.byte (4 * (i / 4) + (3 - i % 4)) := by
  unfold byte reversed
  rw [Vector.toList_ofFn, List.getD_eq_getElem?_getD, List.getElem?_ofFn]
  simp [hi, byte]

/-- What the code reads as a word is the word of the reversed address. -/
theorem netWord_reversed (i : Nat) (hi : i < 4) : ip.reversed.netWord i = ip.value i := by
  unfold netWord value
  have hdiv : ∀ k < 4, (4 * i + k) / 4 = i ∧ (4 * i + k) % 4 = k := fun k hk => by omega
  rw [byte_reversed _ (by omega), byte_reversed _ (by omega), byte_reversed _ (by omega),
    byte_reversed _ (by omega), (hdiv 3 (by omega)).1, (hdiv 3 (by omega)).2, (hdiv 2 (by omega)).1,
    (hdiv 2 (by omega)).2, (hdiv 1 (by omega)).1, (hdiv 1 (by omega)).2,
    show 4 * i / 4 = i by omega, show 4 * i % 4 = 0 by omega]
  rfl

/-- Four bytes are a number of 32 bits. -/
theorem load32_lt (b₀ b₁ b₂ b₃ : UInt8) : load32 b₀ b₁ b₂ b₃ < 2 ^ 32 := by
  have h₀ := b₀.toNat_lt
  have h₁ := b₁.toNat_lt
  have h₂ := b₂.toNat_lt
  have h₃ := b₃.toNat_lt
  unfold load32
  omega

/-- A word in the order of the host is one of 32 bits. -/
theorem value_lt (i : Nat) : ip.value i < 2 ^ 32 := load32_lt _ _ _ _

/-- A word in network order is one of 32 bits. -/
theorem netWord_lt (i : Nat) : ip.netWord i < 2 ^ 32 := load32_lt _ _ _ _

/-- The family stays. -/
@[simp] theorem family_reversed : ip.reversed.family = ip.family := by
  rw [reversed]

/-- The reversed IPv4 address is the word that the code reads. -/
theorem number_reversed_v4 (hf : ip.family = .v4) : ip.reversed.number = ip.value 0 := by
  rw [number, family_reversed, hf]
  exact netWord_reversed 0 (by norm_num)

/-- The reversed IPv6 address is the four words that the code reads. -/
theorem number_reversed_v6 (hf : ip.family = .v6) : ip.reversed.number =
    ((ip.value 0 * 2 ^ 32 + ip.value 1) * 2 ^ 32 + ip.value 2) * 2 ^ 32 + ip.value 3 := by
  rw [number, family_reversed, hf]
  simp only [netWord_reversed 0 (by norm_num), netWord_reversed 1 (by norm_num),
    netWord_reversed 2 (by norm_num), netWord_reversed 3 (by norm_num)]

end IpAddress

/-! ## Masks and prefixes -/

/-- No range holds an address. -/
theorem inSome_nil {ip : IpAddress} : InSome [] ip ↔ False := by
  simp [InSome]

/-- The first range or one of the others. -/
theorem inSome_cons {p : Prefix} {ranges : List Prefix} {ip : IpAddress} :
    InSome (p :: ranges) ip ↔ p.Contains ip ∨ InSome ranges ip := by
  simp [InSome]

namespace IpAddress

variable {ip : IpAddress}

/-- Comparing a word under a mask is comparing its leading bits. -/
theorem value_and_eq_iff (mask net len i : Nat) (hmask : mask = 2 ^ 32 - 2 ^ (32 - len))
    (hnet : 2 ^ (32 - len) ∣ net) :
    ip.value i &&& mask = net ↔ ip.value i / 2 ^ (32 - len) = net / 2 ^ (32 - len) := by
  rw [hmask]
  exact and_prefixMask_eq_iff (Nat.sub_le 32 len) (value_lt i) hnet

/-- The test of an IPv4 address under a mask. -/
theorem contains_v4_iff (mask net len : Nat) (hmask : mask = 2 ^ 32 - 2 ^ (32 - len))
    (hnet : 2 ^ (32 - len) ∣ net) : (⟨.v4, net, len⟩ : Prefix).Contains ip.reversed ↔
      ip.family = .v4 ∧ ip.value 0 &&& mask = net := by
  rw [value_and_eq_iff mask net len 0 hmask hnet, Prefix.Contains, family_reversed]
  refine and_congr_right fun hf => ?_
  rw [number_reversed_v4 hf, Family.width]

/-- The test of the first word of an IPv6 address under a mask. -/
theorem contains_v6_iff (mask net len : Nat) (hlen : len ≤ 32)
    (hmask : mask = 2 ^ 32 - 2 ^ (32 - len)) (hnet : 2 ^ (32 - len) ∣ net) :
    (⟨.v6, net * 2 ^ 96, len⟩ : Prefix).Contains ip.reversed ↔
      ip.family = .v6 ∧ ip.value 0 &&& mask = net := by
  rw [value_and_eq_iff mask net len 0 hmask hnet, Prefix.Contains, family_reversed]
  refine and_congr_right fun hf => ?_
  have hpow : 2 ^ (Family.v6.width - len) = 2 ^ 96 * 2 ^ (32 - len) := by
    rw [← Nat.pow_add, Family.width]
    congr 1
    omega
  have h₁ := ip.value_lt 1
  have h₂ := ip.value_lt 2
  have h₃ := ip.value_lt 3
  have hfirst : ip.reversed.number / 2 ^ 96 = ip.value 0 := by
    rw [number_reversed_v6 hf]
    omega
  rw [hpow, ← Nat.div_div_eq_div_mul, ← Nat.div_div_eq_div_mul, hfirst,
    Nat.mul_div_cancel _ (by norm_num)]

/-! ## What each predicate tests -/

/-- The code compares the reversed words with the multicast ranges. -/
theorem isMulticast_iff : ip.isMulticast = true ↔ InSome multicastRanges ip.reversed := by
  rw [multicastRanges, inSome_cons, inSome_cons, inSome_nil,
    contains_v4_iff 0xF0000000 0xE0000000 4 (by decide) (by decide),
    contains_v6_iff 0xFF000000 0xFF000000 8 (by decide) (by decide) (by decide)]
  cases hf : ip.family <;> simp [isMulticast, hf]

/-- The code compares the reversed words with the link-local ranges. -/
theorem isLinklocal_iff : ip.isLinklocal = true ↔ InSome linklocalRanges ip.reversed := by
  rw [linklocalRanges, inSome_cons, inSome_cons, inSome_nil,
    contains_v4_iff 0xFFFF0000 0xA9FE0000 16 (by decide) (by decide),
    contains_v6_iff 0xFFC00000 0xFE800000 10 (by decide) (by decide) (by decide)]
  cases hf : ip.family <;> simp [isLinklocal, hf]

/-- The bounds of `172.16.0.0/12` are those of its prefix. -/
theorem isSitelocal_iff : ip.isSitelocal = true ↔ InSome sitelocalRanges ip.reversed := by
  have hinterval : ip.value 0 ≥ 0xAC100000 ∧ ip.value 0 ≤ 0xAC1FFFFF ↔
      ip.value 0 &&& 0xFFF00000 = 0xAC100000 := by
    rw [value_and_eq_iff 0xFFF00000 0xAC100000 12 0 (by decide) (by decide)]
    omega
  rw [sitelocalRanges, inSome_cons, inSome_cons, inSome_cons, inSome_cons, inSome_cons, inSome_nil,
    contains_v4_iff 0xFF000000 0x0A000000 8 (by decide) (by decide),
    contains_v4_iff 0xFFFF0000 0xC0A80000 16 (by decide) (by decide),
    contains_v4_iff 0xFFF00000 0xAC100000 12 (by decide) (by decide), ← hinterval,
    contains_v6_iff 0xFFC00000 0xFEC00000 10 (by decide) (by decide) (by decide),
    contains_v6_iff 0xFE000000 0xFC000000 7 (by decide) (by decide) (by decide)]
  cases hf : ip.family <;> simp [isSitelocal, hf, or_assoc]

/-- The code compares the reversed words with the reserved range. -/
theorem isReserved_iff : ip.isReserved = true ↔ InSome reservedRanges ip.reversed := by
  rw [reservedRanges, inSome_cons, inSome_nil,
    contains_v4_iff 0xF0000000 0xF0000000 4 (by decide) (by decide)]
  cases hf : ip.family <;> simp [isReserved, hf]

/-- The code compares the reversed words with the documentation ranges. -/
theorem isDocumentation_iff :
    ip.isDocumentation = true ↔ InSome documentationRanges ip.reversed := by
  rw [documentationRanges, inSome_cons, inSome_cons, inSome_cons, inSome_cons, inSome_nil,
    contains_v4_iff 0xFFFFFF00 0xC6336400 24 (by decide) (by decide),
    contains_v4_iff 0xFFFFFF00 0xCB007100 24 (by decide) (by decide),
    contains_v4_iff 0xFFFFFF00 0xC0000200 24 (by decide) (by decide),
    contains_v6_iff 0xFFFFFFFF 0x20010DB8 32 (by decide) (by decide) (by decide)]
  cases hf : ip.family <;> simp [isDocumentation, hf, or_assoc]

/-- A word that is compared whole. -/
theorem value_and_all (i : Nat) : ip.value i &&& 0xFFFFFFFF = ip.value i := by
  rw [show 0xFFFFFFFF = 2 ^ 32 - 1 by norm_num, Nat.and_two_pow_sub_one_eq_mod]
  exact Nat.mod_eq_of_lt (value_lt i)

/-- What `is_ipv4_mapped` reads. -/
theorem isIpv4Mapped_eq_true : ip.isIpv4Mapped = true ↔
    ip.family = .v6 ∧ ip.value 0 = 0 ∧ ip.value 1 = 0 ∧ ip.value 2 = 0xFFFF := by
  cases hf : ip.family <;> simp [isIpv4Mapped, hf, value_and_all, and_assoc]

/-- The number of an IPv6 address without its last word. -/
theorem number_div_v6 (hf : ip.family = .v6) :
    ip.number / 2 ^ 32 = (ip.netWord 0 * 2 ^ 32 + ip.netWord 1) * 2 ^ 32 + ip.netWord 2 := by
  have h := ip.netWord_lt 3
  rw [number, hf]
  show (((ip.netWord 0 * 2 ^ 32 + ip.netWord 1) * 2 ^ 32 + ip.netWord 2) * 2 ^ 32 + ip.netWord 3) /
    2 ^ 32 = _
  omega

/-- A prefix of IPv6 addresses, with its width in place. -/
theorem contains_v6 (net len : Nat) : (⟨.v6, net, len⟩ : Prefix).Contains ip ↔
    ip.family = .v6 ∧ ip.number / 2 ^ (128 - len) = net / 2 ^ (128 - len) := Iff.rfl

/-- `::ffff:0:0/96`, word by word. -/
theorem inSome_mapped_iff : InSome mappedRanges ip ↔
    ip.family = .v6 ∧ ip.netWord 0 = 0 ∧ ip.netWord 1 = 0 ∧ ip.netWord 2 = 0xFFFF := by
  rw [mappedRanges, inSome_cons, inSome_nil, or_false, contains_v6,
    show 128 - 96 = 32 from rfl]
  refine and_congr_right fun hf => ?_
  have h₁ := ip.netWord_lt 1
  have h₂ := ip.netWord_lt 2
  rw [number_div_v6 hf]
  omega

/-- `::/96`, word by word. -/
theorem inSome_compatible_iff : InSome compatibleRanges ip ↔
    ip.family = .v6 ∧ ip.netWord 0 = 0 ∧ ip.netWord 1 = 0 ∧ ip.netWord 2 = 0 := by
  rw [compatibleRanges, inSome_cons, inSome_nil, or_false, contains_v6,
    show 128 - 96 = 32 from rfl]
  refine and_congr_right fun hf => ?_
  rw [number_div_v6 hf]
  omega

/-- The code compares the reversed words with the mapped range. -/
theorem isIpv4Mapped_iff : ip.isIpv4Mapped = true ↔ InSome mappedRanges ip.reversed := by
  rw [isIpv4Mapped_eq_true, inSome_mapped_iff, family_reversed, netWord_reversed 0 (by norm_num),
    netWord_reversed 1 (by norm_num), netWord_reversed 2 (by norm_num)]

/-- A word is zero in either order of its bytes. -/
theorem load32_eq_zero_iff (b₀ b₁ b₂ b₃ : UInt8) :
    load32 b₀ b₁ b₂ b₃ = 0 ↔ load32 b₃ b₂ b₁ b₀ = 0 := by
  unfold load32
  omega

/-- The test of `::/96` does not depend on the order of the bytes. -/
theorem isIpv4Compatible_iff_inSome :
    ip.isIpv4Compatible = true ↔ ip.family = .v4 ∨ InSome compatibleRanges ip := by
  have hword : ∀ i, ip.netWord i = 0 ↔ ip.value i = 0 := fun i => load32_eq_zero_iff _ _ _ _
  rw [inSome_compatible_iff, hword, hword, hword]
  cases hf : ip.family <;> simp [isIpv4Compatible, hf, value_and_all, and_assoc]

/-- The word `0000ffff` is another number when its bytes are reversed. -/
theorem ne_of_reversed {x₀ x₁ x₂ x₃ : Nat}
    (h : x₀ + 256 * x₁ + 65536 * x₂ + 16777216 * x₃ = 0xFFFF) :
    x₃ + 256 * x₂ + 65536 * x₁ + 16777216 * x₀ ≠ 0xFFFF := by
  have h₂ : x₂ < 1 := by omega
  have h₃ : x₃ < 1 := by omega
  intro hreversed
  have h₀ : x₀ < 1 := by omega
  have h₁ : x₁ < 1 := by omega
  omega

/-- An address and the reversed one are not both mapped. -/
theorem not_mapped_reversed (h : InSome mappedRanges ip.reversed) : ¬InSome mappedRanges ip := by
  intro hmapped
  have hvalue := (isIpv4Mapped_eq_true.mp (isIpv4Mapped_iff.mpr h)).2.2.2
  exact ne_of_reversed hvalue (inSome_mapped_iff.mp hmapped).2.2.2

/-- `::ffff:127.0.0.0/104` lies in `::ffff:0:0/96`. -/
theorem inSome_mapped_of_loopback
    (h : (⟨.v6, 0xFFFF * 2 ^ 32 + 0x7F000000, 104⟩ : Prefix).Contains ip) :
    InSome mappedRanges ip := by
  rw [contains_v6, show 128 - 104 = 24 from rfl] at h
  rw [mappedRanges, inSome_cons, contains_v6, show 128 - 96 = 32 from rfl]
  exact .inl ⟨h.1, by omega⟩

/-- `::1` with its last word reversed, as `is_loopback` compares it. -/
theorem contains_one_reversed : (⟨.v6, 1, 128⟩ : Prefix).Contains ip.reversed ↔
    ip.family = .v6 ∧ ip.value 0 = 0 ∧ ip.value 1 = 0 ∧ ip.value 2 = 0 ∧ ip.value 3 = 1 := by
  rw [contains_v6, family_reversed, show 128 - 128 = 0 from rfl]
  refine and_congr_right fun hf => ?_
  have h₁ := ip.value_lt 1
  have h₂ := ip.value_lt 2
  have h₃ := ip.value_lt 3
  rw [number_reversed_v6 hf]
  omega

/-- Where the code does not read behind the array, it tests the ranges of `is_loopback`. -/
theorem isLoopback_iff (h : ¬InSome mappedRanges ip.reversed) :
    ip.isLoopback = true ↔ InSome loopbackRanges ip.reversed := by
  have hmapped : ip.isIpv4Mapped = false := by
    rw [Bool.eq_false_iff]
    exact fun hmapped => h (isIpv4Mapped_iff.mp hmapped)
  rw [loopbackRanges, inSome_cons, inSome_cons, inSome_cons, inSome_nil, or_false,
    or_iff_left fun hcontains => h (inSome_mapped_of_loopback hcontains),
    contains_v4_iff 0xFF000000 0x7F000000 8 (by decide) (by decide), contains_one_reversed]
  cases hf : ip.family <;> simp [isLoopback, hf, hmapped, and_assoc]

end IpAddress

/-! ## The condition -/

/-- **An address is classified right exactly if it keeps its ranges when the bytes of each word are
reversed.**
Source: `is_multicast`, `is_loopback`, `is_linklocal`, `is_sitelocal`, `is_reserved`,
`is_documentation`, `is_ipv4_compatible`, `is_ipv4_mapped` -/
theorem classified_iff (ip : IpAddress) : Classified ip ↔ SameRanges ip := by
  have hloopback (hsame : InSome mappedRanges ip.reversed ↔ InSome mappedRanges ip) :
      ip.isLoopback = true ↔ InSome loopbackRanges ip.reversed :=
    IpAddress.isLoopback_iff fun h => IpAddress.not_mapped_reversed h (hsame.mp h)
  constructor
  · intro h
    have hmapped := IpAddress.isIpv4Mapped_iff.symm.trans h.mapped
    simp only [SameRanges, orderedRanges, List.forall_mem_cons, List.not_mem_nil, false_imp_iff,
      implies_true, and_true]
    exact ⟨(hloopback hmapped).symm.trans h.loopback,
      IpAddress.isMulticast_iff.symm.trans h.multicast,
      IpAddress.isLinklocal_iff.symm.trans h.linklocal,
      IpAddress.isSitelocal_iff.symm.trans h.sitelocal,
      IpAddress.isReserved_iff.symm.trans h.reserved,
      IpAddress.isDocumentation_iff.symm.trans h.documentation, hmapped⟩
  · intro h
    have hmem : ∀ ranges ∈ orderedRanges, InSome ranges ip.reversed ↔ InSome ranges ip := h
    refine ⟨(hloopback (hmem _ (by simp [orderedRanges]))).trans (hmem _ (by simp [orderedRanges])),
      IpAddress.isMulticast_iff.trans (hmem _ (by simp [orderedRanges])),
      IpAddress.isLinklocal_iff.trans (hmem _ (by simp [orderedRanges])),
      IpAddress.isSitelocal_iff.trans (hmem _ (by simp [orderedRanges])),
      IpAddress.isReserved_iff.trans (hmem _ (by simp [orderedRanges])),
      IpAddress.isDocumentation_iff.trans (hmem _ (by simp [orderedRanges])),
      IpAddress.isIpv4Mapped_iff.trans (hmem _ (by simp [orderedRanges])),
      IpAddress.isIpv4Compatible_iff_inSome⟩

/-- `127.0.0.1`, parsed from its text, is not classified as loopback. -/
theorem not_classified_localhost :
    ∃ ip, IpAddress.tryParse (str "127.0.0.1") = some ip ∧ ip.isLoopback = false ∧
      InSome loopbackRanges ip ∧ ¬Classified ip := by
  have hloopback : (⟨.v4, toData [127, 0, 0, 1]⟩ : IpAddress).isLoopback = false := by decide
  have hrange : InSome loopbackRanges ⟨.v4, toData [127, 0, 0, 1]⟩ :=
    ⟨_, List.mem_cons_self, by decide⟩
  refine ⟨_, IpAddress.tryParse_dotted 127 0 0 1, hloopback, hrange, fun h => ?_⟩
  rw [h.loopback.mpr hrange] at hloopback
  exact Bool.noConfusion hloopback

end SocialNetwork.Net
