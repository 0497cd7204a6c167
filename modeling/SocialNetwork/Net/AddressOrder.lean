import Mathlib.Data.Prod.Lex
import SocialNetwork.Foundation.Words
import SocialNetwork.Foundation.OrderedSet
import SocialNetwork.Foundation.Bits
import SocialNetwork.Net.IpAddress

/-!
# The order of addresses

The comparison operators of `IpAddress` and `increment`. An address is a family and the number
that its bytes denote in network order (`addressValue`): `==` and `>` compare these two
(`equals_iff`, `greater_iff`), and so does `<`, which is neither of them (`less_iff`). `increment`
adds one to the number, modulo the number of addresses of the family (`addressValue_increment`).
-/

namespace SocialNetwork.Net

open Foundation Helpers

/-! ## The code -/

/-- `std::memcmp` of two blocks of one length: the difference of the first bytes that differ. -/
def memcmp : Bytes → Bytes → Int
  | a :: as, b :: bs => if a = b then memcmp as bs else (a.toNat : Int) - b.toNat
  | _, _ => 0

namespace IpAddress

variable (ip : IpAddress)

/-- The bytes of `data_` that count. -/
def addressBytes : Bytes := ip.data.toList.take ip.length

/-- `IpAddress::operator>`. -/
def greater (rsh : IpAddress) : Bool :=
  if ip.family.af > rsh.family.af then true
  else if ip.family.af < rsh.family.af then false
  else memcmp ip.addressBytes (rsh.data.toList.take ip.length) > 0

/-- `IpAddress::operator<`. -/
def less (rsh : IpAddress) : Bool := if ip.equals rsh then false else !ip.greater rsh

/-- The loop of `increment` over the bytes from the last one on: whether this is the last one, and
`overflow`. -/
def incrementLoop : Bool → Bool → Bytes → Bytes
  | _, _, [] => []
  | last, overflow, d :: rest =>
      if last || overflow then
        let sum := d.toNat + 1
        if sum &&& 0x0100 ≠ 0 then 0 :: incrementLoop false true rest
        else UInt8.ofNat (0xFF &&& sum) :: incrementLoop false false rest
      else d :: rest

/-- `IpAddress::increment`. -/
def increment : IpAddress :=
  ⟨ip.family, toData ((incrementLoop true false ip.addressBytes.reverse).reverse ++
    ip.data.toList.drop ip.length)⟩

/-! ## The number of an address -/

/-- The number that the bytes of an address denote. -/
def addressValue : Nat := wordValue 256 (ip.addressBytes.map UInt8.toNat)

variable {ip}

/-- The bytes of an address are those of its family. -/
theorem length_addressBytes (ip : IpAddress) : ip.addressBytes.length = ip.length := by
  rw [addressBytes, List.length_take, Vector.length_toList]
  unfold length
  split <;> rfl

/-- Addresses of one family have the same length. -/
theorem length_eq_of_family {ip rsh : IpAddress} (h : ip.family = rsh.family) :
    ip.length = rsh.length := by rw [length, length, h]

/-- The two families have different numbers. -/
theorem af_inj {f g : Family} : f.af = g.af ↔ f = g := by
  cases f <;> cases g <;> decide

/-- The digits of a byte string. -/
theorem digits_lt (s : Bytes) : ∀ d ∈ s.map UInt8.toNat, d < 256 := by
  intro d hd
  obtain ⟨c, -, rfl⟩ := List.mem_map.mp hd
  exact c.toNat_lt

/-- The bytes of an address are a number of its length. -/
theorem addressValue_lt (ip : IpAddress) : ip.addressValue < 256 ^ ip.length := by
  have hlt := wordValue_lt (b := 256) (by norm_num) (digits_lt ip.addressBytes)
  rwa [List.length_map, length_addressBytes] at hlt

/-- **The bytes are compared like the numbers.** -/
theorem memcmp_pos_iff {l r : Bytes} (hlen : l.length = r.length) :
    0 < memcmp l r ↔ wordValue 256 (r.map UInt8.toNat) < wordValue 256 (l.map UInt8.toNat) := by
  induction l generalizing r with
  | nil =>
      obtain rfl := List.eq_nil_of_length_eq_zero hlen.symm
      exact iff_of_false (by simp [memcmp]) (lt_irrefl _)
  | cons a l ih =>
      cases r with
      | nil => cases hlen
      | cons b r =>
          have hlen' : l.length = r.length := by simpa using hlen
          have hdigits : (l.map UInt8.toNat).length = (r.map UInt8.toNat).length := by simpa using hlen'
          rw [memcmp, List.map_cons, List.map_cons]
          by_cases hab : a = b
          · rw [if_pos hab, ih hlen', hab, wordValue_cons, wordValue_cons, hdigits]
            exact (Nat.add_lt_add_iff_right).symm
          · have hne : a.toNat ≠ b.toNat := fun h => hab (UInt8.toNat_inj.mp h)
            rw [if_neg hab]
            rcases Nat.lt_or_gt_of_ne hne with hlt | hgt
            · have hword := wordValue_cons_lt (by norm_num) hdigits (digits_lt l) hlt
              exact iff_of_false (by omega) (Nat.lt_asymm hword)
            · have hword := wordValue_cons_lt (by norm_num) hdigits.symm (digits_lt r) hgt
              exact iff_of_true (by omega) hword

/-- What the operators compare: the families, then the numbers. -/
def addressKey (ip : IpAddress) : Nat ×ₗ Nat := toLex (ip.family.af, ip.addressValue)

/-- Addresses are compared by family, then by number. -/
theorem addressKey_eq_iff {ip rsh : IpAddress} : ip.addressKey = rsh.addressKey ↔
    ip.family = rsh.family ∧ ip.addressValue = rsh.addressValue := by
  rw [addressKey, addressKey, toLex_inj, Prod.mk.injEq, af_inj]

/-- The order of the keys is that of the families, then of the numbers. -/
theorem addressKey_lt_iff {ip rsh : IpAddress} : ip.addressKey < rsh.addressKey ↔
    ip.family.af < rsh.family.af ∨
      (ip.family = rsh.family ∧ ip.addressValue < rsh.addressValue) := by
  rw [addressKey, addressKey, Prod.Lex.toLex_lt_toLex, af_inj]

/-- **`==`** compares the keys. -/
theorem equals_iff (ip rsh : IpAddress) : ip.equals rsh = true ↔
    ip.addressKey = rsh.addressKey := by
  rw [equals, Bool.and_eq_true, decide_eq_true_eq, decide_eq_true_eq, addressKey_eq_iff]
  refine and_congr_right fun hfamily => ?_
  have hlen : ip.addressBytes.length = rsh.addressBytes.length := by
    rw [length_addressBytes, length_addressBytes, length_eq_of_family hfamily]
  rw [addressValue, addressValue, wordValue_inj (by norm_num) (by simpa using hlen) (digits_lt _)
    (digits_lt _), map_toNat_inj, addressBytes, addressBytes, length_eq_of_family hfamily]

/-- **`>`** compares the keys. -/
theorem greater_iff (ip rsh : IpAddress) : ip.greater rsh = true ↔
    rsh.addressKey < ip.addressKey := by
  rw [addressKey_lt_iff]
  unfold greater
  split
  · exact iff_of_true rfl (.inl ‹_›)
  · rename_i hgt
    split
    · rename_i hlt
      refine iff_of_false (by simp) ?_
      rintro (h | ⟨h, -⟩)
      · exact hgt h
      · exact hlt.ne (congrArg Family.af h).symm
    · rename_i hlt
      have hfamily : ip.family = rsh.family := af_inj.mp (by omega)
      have hlen : ip.addressBytes.length = rsh.addressBytes.length := by
        rw [length_addressBytes, length_addressBytes, length_eq_of_family hfamily]
      rw [decide_eq_true_eq, length_eq_of_family hfamily, ← addressBytes, gt_iff_lt,
        memcmp_pos_iff hlen]
      simp only [hfamily, lt_irrefl, true_and, false_or]
      rfl

/-- **`<`** compares the keys. -/
theorem less_iff (ip rsh : IpAddress) : ip.less rsh = true ↔ ip.addressKey < rsh.addressKey :=
  keyed_of_eq_gt equals_iff greater_iff ip rsh

/-! ## Counting up -/

/-- The sum of a byte and one overflows exactly if the byte was the last one. -/
theorem sum_overflow {d : Nat} (h : d < 256) : (d + 1) &&& 0x0100 ≠ 0 ↔ d + 1 = 256 := by
  have hmask : (d + 1) &&& (2 ^ 9 - 2 ^ 8) = (d + 1) / 2 ^ 8 * 2 ^ 8 :=
    and_prefixMask (by norm_num) (by omega)
  norm_num at hmask
  rw [hmask]
  omega

/-- **The loop of `increment`** counts up with a carry. -/
theorem incrementLoop_digits (last overflow : Bool) (l : Bytes) :
    (incrementLoop last overflow l).map UInt8.toNat =
      if last || overflow then succDigits 256 (l.map UInt8.toNat) else l.map UInt8.toNat := by
  induction l generalizing last overflow with
  | nil => simp [incrementLoop, succDigits]
  | cons d rest ih =>
      have hd := d.toNat_lt
      rw [incrementLoop]
      split
      · rename_i hactive
        rw [List.map_cons, succDigits]
        by_cases hsum : d.toNat + 1 = 256
        · rw [if_pos ((sum_overflow hd).mpr hsum), if_pos hsum, List.map_cons, ih,
            if_pos (Bool.or_true false)]
          rfl
        · have hbyte : (UInt8.ofNat (0xFF &&& (d.toNat + 1))).toNat = d.toNat + 1 := by
            rw [Nat.and_comm, show (0xFF : Nat) = 2 ^ 8 - 1 from rfl, Nat.and_two_pow_sub_one_eq_mod,
              UInt8.toNat_ofNat']
            omega
          rw [if_neg fun h => hsum ((sum_overflow hd).mp h), if_neg hsum, List.map_cons, ih,
            if_neg (by simp), hbyte]
      · rfl

/-- The loop of `increment` keeps the number of bytes. -/
theorem length_incrementLoop (last overflow : Bool) (l : Bytes) :
    (incrementLoop last overflow l).length = l.length := by
  rw [← List.length_map (f := UInt8.toNat), incrementLoop_digits]
  split
  · rw [length_succDigits, List.length_map]
  · exact List.length_map _

/-- `increment` keeps the family. -/
@[simp] theorem increment_family (ip : IpAddress) : ip.increment.family = ip.family := by
  rw [increment]

/-- `increment` keeps the length. -/
@[simp] theorem increment_length (ip : IpAddress) : ip.increment.length = ip.length :=
  length_eq_of_family (increment_family ip)

/-- The bytes of the next address. -/
theorem increment_data (ip : IpAddress) : ip.increment.data.toList =
    (incrementLoop true false ip.addressBytes.reverse).reverse ++ ip.data.toList.drop ip.length := by
  apply toList_toData
  have hle : ip.length ≤ 16 := by
    unfold length
    split <;> omega
  rw [List.length_append, List.length_reverse, length_incrementLoop, List.length_reverse,
    length_addressBytes, List.length_drop, Vector.length_toList]
  omega

/-- **`increment` adds one** to the number of an address. -/
theorem addressValue_increment (ip : IpAddress) :
    ip.increment.addressValue = (ip.addressValue + 1) % 256 ^ ip.length := by
  have hbytes : ip.increment.addressBytes =
      (incrementLoop true false ip.addressBytes.reverse).reverse := by
    rw [addressBytes, increment_length, increment_data, List.take_left']
    rw [List.length_reverse, length_incrementLoop, List.length_reverse, length_addressBytes]
  have hdigits : ∀ d ∈ (ip.addressBytes.map UInt8.toNat).reverse, d < 256 := fun d hd =>
    digits_lt _ d (List.mem_reverse.mp hd)
  rw [addressValue, addressValue, hbytes, List.map_reverse, incrementLoop_digits,
    if_pos (Bool.true_or false), wordValue, List.reverse_reverse, List.map_reverse,
    ofDigits_succDigits (by norm_num) hdigits, List.length_reverse, List.length_map, length_addressBytes]
  rfl

/-- The family after any number of steps. -/
theorem iterate_increment_family (ip : IpAddress) (k : Nat) :
    (increment^[k] ip).family = ip.family := by
  induction k with
  | zero => rfl
  | succ k ih => rw [Function.iterate_succ_apply', increment_family, ih]

/-- Counting up from an address. -/
theorem addressValue_iterate (ip : IpAddress) (k : Nat) :
    (increment^[k + 1] ip).addressValue =
      ((increment^[k] ip).addressValue + 1) % 256 ^ ip.length := by
  rw [Function.iterate_succ_apply', addressValue_increment,
    length_eq_of_family (iterate_increment_family ip k)]

/-- Of the addresses of one family, the next one is the successor. -/
theorem less_increment {x : IpAddress} (h : ∃ c ∈ x.addressBytes, c ≠ 0xFF) :
    x.less x.increment = true ∧
      ∀ y, y.family = x.family → ¬(x.less y = true ∧ y.less x.increment = true) := by
  obtain ⟨c, hc, hne⟩ := h
  have hlast : ∃ d ∈ x.addressBytes.map UInt8.toNat, d ≠ 256 - 1 :=
    ⟨c.toNat, List.mem_map_of_mem hc, fun heq => hne (UInt8.toNat_inj.mp heq)⟩
  have hlt := wordValue_succ_lt (by norm_num) (digits_lt _) hlast
  rw [List.length_map, length_addressBytes, ← addressValue] at hlt
  have hnext : x.increment.addressValue = x.addressValue + 1 := by
    rw [addressValue_increment, Nat.mod_eq_of_lt hlt]
  constructor
  · rw [less_iff, addressKey_lt_iff, hnext]
    exact .inr ⟨(increment_family x).symm, Nat.lt_succ_self _⟩
  · intro y hy
    rw [less_iff, less_iff, addressKey_lt_iff, addressKey_lt_iff, increment_family, hy, hnext]
    simp only [lt_irrefl, true_and, false_or]
    omega

/-- **`increment` is the successor** in the order of addresses: it adds one to the number that the
bytes denote, modulo the number of addresses of the family; an address that is not all ones is less
than the next one with none between them; and counting up from any address goes through all
addresses of the family before one comes back.

Source: `IpAddress::increment` and the comparison operators of `IpAddress`. -/
theorem increment_successor (x : IpAddress) :
    x.increment.family = x.family ∧
    x.increment.addressValue = (x.addressValue + 1) % 2 ^ (8 * x.length) ∧
    ((∃ c ∈ x.addressBytes, c ≠ 0xFF) → x.less x.increment = true ∧
      ∀ y, y.family = x.family → ¬(x.less y = true ∧ y.less x.increment = true)) ∧
    (∀ y, y.family = x.family → ∃ k < 2 ^ (8 * x.length), (increment^[k] x).equals y = true) ∧
    ∀ i < 2 ^ (8 * x.length), ∀ j < 2 ^ (8 * x.length),
      (increment^[i] x).equals (increment^[j] x) = true → i = j := by
  have hsize : 2 ^ (8 * x.length) = 256 ^ x.length := by rw [Nat.pow_mul]
  rw [hsize]
  refine ⟨increment_family x, addressValue_increment x, less_increment, fun y hy => ?_, fun i hi j hj h => ?_⟩
  · have hvalue : y.addressValue < 256 ^ x.length := length_eq_of_family hy ▸ addressValue_lt y
    obtain ⟨k, hk, heq⟩ := counter_surjective (a := fun k => (increment^[k] x).addressValue)
      (addressValue_iterate x) (addressValue_lt x) hvalue
    refine ⟨k, hk, ?_⟩
    rw [equals_iff, addressKey_eq_iff, iterate_increment_family]
    exact ⟨hy.symm, heq⟩
  · rw [equals_iff, addressKey_eq_iff] at h
    exact counter_injective (a := fun k => (increment^[k] x).addressValue)
      (addressValue_iterate x) (addressValue_lt x) hi hj h.2

end IpAddress

end SocialNetwork.Net
