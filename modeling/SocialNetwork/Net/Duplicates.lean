import SocialNetwork.Net.AddressOrder
import SocialNetwork.Net.AddressForms

/-!
# Duplicates in host entries

`remove_duplicates` and the constructors of `HostEntry`. The vector is filtered with a `std::set`,
which compares by `operator<`. The order of addresses is strict and total, and what it does not
tell apart is equal (`less_total`), so that the set refuses exactly what it has already; what stays
of a list are its distinct addresses, in the order of their first occurrences (`deduplicated`).
-/

namespace SocialNetwork.Net

open Foundation Helpers

/-! ## The code -/

/-- `operator<` of `std::string`. -/
def stringLess : Bytes → Bytes → Bool
  | _, [] => false
  | [], _ :: _ => true
  | a :: as, b :: bs => if a = b then stringLess as bs else a < b

/-- `remove_duplicates`, for elements that `std::set` compares with `less`. -/
def removeDuplicatesBy {α : Type*} (less : α → α → Bool) (list : List α) : List α :=
  OrderedSet.keepInserted less [] list

/-- `hostent`: the name, the aliases and the `h_length` bytes behind each pointer of the address
list; a list may be a null pointer. -/
structure Hostent where
  hName : Bytes
  hAliases : Option (List Bytes)
  hAddrList : Option (List Bytes)

/-- An element of the list that `getaddrinfo` returns; the name and the address may be null
pointers. -/
structure Addrinfo where
  aiCanonname : Option Bytes
  aiAddrlen : Nat
  aiAddr : Option Sockaddr

/-- `HostEntry`. -/
structure HostEntry where
  name : Bytes
  aliases : List Bytes
  addresses : List IpAddress

namespace HostEntry

/-- The addresses of a `hostent`; `none` is the exception of `IpAddress(const void*, socklen_t)`. -/
def hostentAddresses (entry : Hostent) : Option (List IpAddress) :=
  (entry.hAddrList.getD []).mapM fun address => IpAddress.ofPointer (some address)

/-- `HostEntry(struct hostent*)`. -/
def ofHostent (entry : Hostent) : Option HostEntry :=
  (hostentAddresses entry).map fun addresses =>
    { name := entry.hName
      aliases := removeDuplicatesBy stringLess (entry.hAliases.getD [])
      addresses := removeDuplicatesBy IpAddress.less addresses }

/-- The address of a list element, of one of the two families. -/
def addrinfoAddress (ai : Addrinfo) : Option IpAddress :=
  if ai.aiAddrlen ≠ 0 then ai.aiAddr.bind IpAddress.ofSockaddr else none

/-- `HostEntry(struct addrinfo*)`. -/
def ofAddrinfo (info : List Addrinfo) : HostEntry where
  name := info.foldl (fun name ai => ai.aiCanonname.getD name) []
  aliases := []
  addresses := removeDuplicatesBy IpAddress.less (info.filterMap addrinfoAddress)

end HostEntry

/-! ## The order -/

namespace IpAddress

theorem less_keyed : Keyed less addressKey := less_iff

/-- **`<` is a strict total order compatible with `==`.** -/
theorem less_total :
    (∀ a : IpAddress, a.less a = false) ∧
    (∀ a b c : IpAddress, a.less b = true → b.less c = true → a.less c = true) ∧
    (∀ a b : IpAddress, (a.less b = true ∧ a.equals b = false ∧ b.less a = false) ∨
      (a.less b = false ∧ a.equals b = true ∧ b.less a = false) ∨
      (a.less b = false ∧ a.equals b = false ∧ b.less a = true)) ∧
    ∀ a b : IpAddress, a.equals b = true ↔
      a.family = b.family ∧ a.addressBytes = b.addressBytes := by
  simp only [← Bool.not_eq_true, less_iff, equals_iff]
  refine ⟨fun a => lt_irrefl _, fun a b c => lt_trans, fun a b => ?_, fun a b => ?_⟩
  · rcases lt_trichotomy a.addressKey b.addressKey with h | h | h
    · exact .inl ⟨h, h.ne, h.asymm⟩
    · exact .inr (.inl ⟨h.not_lt, h, h.symm.not_lt⟩)
    · exact .inr (.inr ⟨h.asymm, h.ne', h⟩)
  · rw [← equals_iff, equals, Bool.and_eq_true, decide_eq_true_eq, decide_eq_true_eq]
    refine and_congr_right fun hfamily => ?_
    rw [addressBytes, addressBytes, length_eq_of_family hfamily]

end IpAddress

/-- The order of strings is that of their bytes. -/
theorem stringLess_keyed : Keyed stringLess fun s : Bytes => s.map UInt8.toNat := by
  intro l r
  dsimp only
  induction l generalizing r with
  | nil => cases r <;> simp [stringLess]
  | cons a l ih =>
      cases r with
      | nil => simp [stringLess]
      | cons b r =>
          have hlt : a < b ↔ a.toNat < b.toNat := UInt8.lt_iff_toNat_lt
          rw [stringLess, List.map_cons, List.map_cons, List.cons_lt_cons_iff]
          by_cases hab : a = b
          · rw [if_pos hab, ih, hab]
            simp
          · have hne : a.toNat ≠ b.toNat := fun h => hab (UInt8.toNat_inj.mp h)
            rw [if_neg hab, decide_eq_true_eq, hlt]
            simp [hne]

/-! ## What stays -/

/-- `remove_duplicates` of addresses. -/
theorem deduplicated_addresses (list : List IpAddress) :
    OrderedSet.Deduplicated IpAddress.equals list (removeDuplicatesBy IpAddress.less list) :=
  OrderedSet.deduplicated IpAddress.less_keyed IpAddress.equals_iff list

/-- `remove_duplicates` of aliases. -/
theorem deduplicated_aliases (list : List Bytes) :
    OrderedSet.Deduplicated (fun a b => decide (a = b)) list (removeDuplicatesBy stringLess list) := by
  refine OrderedSet.deduplicated stringLess_keyed (fun a b => ?_) list
  rw [decide_eq_true_eq]
  exact map_toNat_inj.symm

/-! ## The addresses that the resolver model keeps -/

/-- The bytes that do not count are zero. -/
def Padded (ip : IpAddress) : Prop := ip.data.toList.drop ip.length = List.replicate (16 - ip.length) 0

/-- Padded addresses are equal if they are the same value. -/
theorem equals_iff_eq {a b : IpAddress} (ha : Padded a) (hb : Padded b) :
    a.equals b = true ↔ a = b := by
  rw [IpAddress.less_total.2.2.2]
  constructor
  · rintro ⟨hfamily, hbytes⟩
    have hlen := IpAddress.length_eq_of_family hfamily
    have hdata : a.data.toList = b.data.toList := by
      rw [← List.take_append_drop a.length a.data.toList,
        ← List.take_append_drop b.length b.data.toList, ha, hb, ← IpAddress.addressBytes,
        ← IpAddress.addressBytes, hbytes, hlen]
    obtain ⟨family, data⟩ := a
    obtain ⟨family', data'⟩ := b
    rw [IpAddress.mk.injEq]
    exact ⟨hfamily, Vector.toList_inj.mp hdata⟩
  · rintro rfl
    exact ⟨rfl, rfl⟩

/-- The addresses of the model of name resolution are padded. -/
theorem padded_toIpAddress {info : AddrInfo} {ip : IpAddress}
    (h : info.toIpAddress = some ip) : Padded ip := by
  cases info with
  | inet addr =>
      obtain rfl := Option.some.inj h
      have hlen : (⟨.v4, toData [addr.b₃, addr.b₂, addr.b₁, addr.b₀]⟩ : IpAddress).length = 4 := rfl
      rw [Padded, IpAddress.ofSockaddrIn_eq, hlen, toData, Vector.toList_ofFn]
      rfl
  | inet6 addr =>
      obtain rfl := Option.some.inj h
      have hlen : (IpAddress.ofSockaddrIn6 ⟨0, addr⟩).length = 16 := rfl
      rw [Padded, hlen, List.drop_of_length_le (by rw [Vector.length_toList])]
      rfl
  | other => cases h

/-- One more address, in the model of name resolution. -/
theorem removeDuplicates_append (list : List IpAddress) (ip : IpAddress) :
    removeDuplicates (list ++ [ip]) =
      removeDuplicates list ++ if ip ∈ list then [] else [ip] := by
  induction list with
  | nil => simp [removeDuplicates]
  | cons a list ih =>
      rw [List.cons_append, removeDuplicates, removeDuplicates, ih, List.filter_append,
        List.cons_append]
      congr 2
      by_cases hmem : ip ∈ list
      · rw [if_pos hmem, if_pos (List.mem_cons_of_mem _ hmem)]
        rfl
      · by_cases hip : ip = a
        · rw [if_neg hmem, if_pos (hip ▸ List.mem_cons_self), hip]
          simp
        · rw [if_neg hmem, if_neg (by simp [hip, hmem])]
          simp [hip]

/-- **The model of name resolution removes the duplicates** as the set does. -/
theorem hostEntry_eq (infos : List AddrInfo) :
    hostEntry infos = removeDuplicatesBy IpAddress.less (infos.filterMap AddrInfo.toIpAddress) := by
  have hpadded : ∀ ip ∈ infos.filterMap AddrInfo.toIpAddress, Padded ip := by
    intro ip hip
    obtain ⟨info, -, h⟩ := List.mem_filterMap.mp hip
    exact padded_toIpAddress h
  rw [hostEntry, removeDuplicatesBy]
  generalize infos.filterMap AddrInfo.toIpAddress = list at hpadded
  induction list using List.reverseRecOn with
  | nil => rfl
  | append_singleton list ip ih =>
      have hlist : ∀ a ∈ list, Padded a := fun a ha => hpadded a (List.mem_append_left _ ha)
      have hip : Padded ip := hpadded ip (by simp)
      have hmem : ip.addressKey ∈ list.map IpAddress.addressKey ↔ ip ∈ list := by
        constructor
        · intro h
          obtain ⟨a, ha, heq⟩ := List.mem_map.mp h
          rwa [← (equals_iff_eq (hlist a ha) hip).mp ((IpAddress.equals_iff a ip).mpr heq)]
        · exact List.mem_map_of_mem
      rw [removeDuplicates_append, OrderedSet.keepInserted_append IpAddress.less_keyed, ih hlist]
      simp only [hmem]

/-- **Host entries have no duplicates.** The order of addresses is strict and total and compatible with
`==`, which compares the families and the bytes that count. What `remove_duplicates` leaves of any
list of addresses, and of the addresses of any `hostent` and any list of `addrinfo`, are the distinct
addresses in the order of their first occurrences.

Source: `remove_duplicates`, `HostEntry::HostEntry` and the comparison operators of `IpAddress`. -/
theorem hostEntries_deduplicated :
    ((∀ a : IpAddress, a.less a = false) ∧
      (∀ a b c : IpAddress, a.less b = true → b.less c = true → a.less c = true) ∧
      (∀ a b : IpAddress, (a.less b = true ∧ a.equals b = false ∧ b.less a = false) ∨
        (a.less b = false ∧ a.equals b = true ∧ b.less a = false) ∨
        (a.less b = false ∧ a.equals b = false ∧ b.less a = true)) ∧
      ∀ a b : IpAddress, a.equals b = true ↔
        a.family = b.family ∧ a.addressBytes = b.addressBytes) ∧
    (∀ list, OrderedSet.Deduplicated IpAddress.equals list
      (removeDuplicatesBy IpAddress.less list)) ∧
    (∀ entry he, HostEntry.ofHostent entry = some he →
      ∃ addresses, HostEntry.hostentAddresses entry = some addresses ∧
        OrderedSet.Deduplicated IpAddress.equals addresses he.addresses) ∧
    ∀ info, OrderedSet.Deduplicated IpAddress.equals
      (info.filterMap HostEntry.addrinfoAddress) (HostEntry.ofAddrinfo info).addresses := by
  refine ⟨IpAddress.less_total, deduplicated_addresses, fun entry he h => ?_,
    fun info => deduplicated_addresses _⟩
  obtain ⟨addresses, haddresses, rfl⟩ := Option.map_eq_some_iff.mp h
  exact ⟨addresses, haddresses, deduplicated_addresses addresses⟩

end SocialNetwork.Net
