import SocialNetwork.Net.Duplicates

/-!
# The order of socket addresses

The comparison operators of `SocketAddress`. `==` looks at the family of its left operand only: an IP
address on the left asks the right operand for a host, which a UNIX address does not have, so that
the comparison throws. `>` compares the families first. Addresses of UNIX sockets alone and IP
addresses alone are compared by a key (`ordersBy_unix`, `ordersBy_ip`); a set of addresses is totally
ordered by the operators exactly if it does not mix the two kinds (`totallyOrdered_iff`).
-/

namespace SocialNetwork.Net

open Foundation Helpers

namespace SocketAddress

/-! ## The code -/

/-- `SocketAddress::family`, as a number: `AF_UNIX`, `AF_INET` or `AF_INET6`. -/
def family : SocketAddress → Nat
  | .unixLocal _ => 1
  | .ipv4 _ => 2
  | .ipv6 _ => 10

/-- `SocketAddress::is_unix_local`. -/
def isUnixLocal : SocketAddress → Bool
  | .unixLocal _ => true
  | _ => false

variable (lhs rsh : SocketAddress)

/-- `SocketAddress::operator!=`. -/
def notEquals : Except SocketError Bool := do
  return !(← lhs.equals rsh)

/-- `SocketAddress::operator>`. -/
def greater : Except SocketError Bool :=
  if lhs.family > rsh.family then .ok true
  else if lhs.family < rsh.family then .ok false
  else if lhs.family = 1 then .ok (stringLess rsh.toString lhs.toString)
  else do
    let host ← lhs.host
    let rshHost ← rsh.host
    if host.greater rshHost then return true
    else if host.less rshHost then return false
    else
      let port ← lhs.port
      let rshPort ← rsh.port
      return port > rshPort

/-- `SocketAddress::operator>=`. -/
def greaterEquals : Except SocketError Bool := do
  if ← lhs.equals rsh then return true
  else lhs.greater rsh

/-- `SocketAddress::operator<`. -/
def less : Except SocketError Bool := do
  if ← lhs.equals rsh then return false
  else return !(← lhs.greater rsh)

/-- `SocketAddress::operator<=`. -/
def lessEquals : Except SocketError Bool := do
  if ← lhs.equals rsh then return true
  else lhs.less rsh

/-- The six comparison operators. -/
def operators : List (SocketAddress → SocketAddress → Except SocketError Bool) :=
  [equals, notEquals, greater, greaterEquals, less, lessEquals]

/-! ## Keys -/

/-- The operators return, and `==` is an equivalence relation and `<` a strict total order on the
addresses of a set. -/
structure TotallyOrdered (S : Set SocketAddress) : Prop where
  returns : ∀ a ∈ S, ∀ b ∈ S, ∀ op ∈ operators, ∃ r, op a b = .ok r
  refl : ∀ a ∈ S, a.equals a = .ok true
  symm : ∀ a ∈ S, ∀ b ∈ S, a.equals b = .ok true → b.equals a = .ok true
  trans : ∀ a ∈ S, ∀ b ∈ S, ∀ c ∈ S, a.equals b = .ok true → b.equals c = .ok true →
    a.equals c = .ok true
  less_trans : ∀ a ∈ S, ∀ b ∈ S, ∀ c ∈ S, a.less b = .ok true → b.less c = .ok true →
    a.less c = .ok true
  trichotomy : ∀ a ∈ S, ∀ b ∈ S,
    (a.less b = .ok true ∧ a.equals b = .ok false ∧ b.less a = .ok false) ∨
    (a.less b = .ok false ∧ a.equals b = .ok true ∧ b.less a = .ok false) ∨
    (a.less b = .ok false ∧ a.equals b = .ok false ∧ b.less a = .ok true)

/-- `==` and `>` compare keys. -/
def OrdersBy {κ : Type*} [LinearOrder κ] (S : Set SocketAddress) (key : SocketAddress → κ) : Prop :=
  ∀ a ∈ S, ∀ b ∈ S, (∃ r, a.equals b = .ok r ∧ (r = true ↔ key a = key b)) ∧
    ∃ r, a.greater b = .ok r ∧ (r = true ↔ key b < key a)

variable {κ : Type*} [LinearOrder κ] {S : Set SocketAddress} {key : SocketAddress → κ}

/-- `<` compares the keys, too. -/
theorem OrdersBy.less (h : OrdersBy S key) {a b : SocketAddress} (ha : a ∈ S) (hb : b ∈ S) :
    ∃ r, a.less b = .ok r ∧ (r = true ↔ key a < key b) := by
  obtain ⟨⟨e, heq, he⟩, g, hgt, hg⟩ := h a ha b hb
  rw [SocketAddress.less, heq, hgt]
  cases e with
  | true => exact ⟨false, rfl, iff_of_false (by simp) (he.mp rfl).not_lt⟩
  | false =>
      have hne : key a ≠ key b := fun hsame => by cases he.mpr hsame
      refine ⟨!g, rfl, ?_⟩
      rw [Bool.not_eq_true', ← Bool.not_eq_true, hg, not_lt]
      exact ⟨fun hle => hle.lt_of_ne hne, le_of_lt⟩

/-- All operators return. -/
theorem OrdersBy.returns (h : OrdersBy S key) {a b : SocketAddress} (ha : a ∈ S) (hb : b ∈ S)
    {op : SocketAddress → SocketAddress → Except SocketError Bool} (hop : op ∈ operators) :
    ∃ r, op a b = .ok r := by
  obtain ⟨⟨e, heq, -⟩, g, hgt, -⟩ := h a ha b hb
  obtain ⟨l, hless, -⟩ := h.less ha hb
  simp only [operators, List.mem_cons, List.not_mem_nil, or_false] at hop
  rcases hop with rfl | rfl | rfl | rfl | rfl | rfl
  · exact ⟨e, heq⟩
  · rw [notEquals, heq]
    exact ⟨!e, rfl⟩
  · exact ⟨g, hgt⟩
  · rw [greaterEquals, heq, hgt]
    cases e <;> exact ⟨_, rfl⟩
  · exact ⟨l, hless⟩
  · rw [lessEquals, heq, hless]
    cases e <;> exact ⟨_, rfl⟩

/-- A result that is known by when it is true. -/
theorem ok_iff {x : Except SocketError Bool} {p : Prop} (h : ∃ r, x = .ok r ∧ (r = true ↔ p)) :
    (x = .ok true ↔ p) ∧ (x = .ok false ↔ ¬p) := by
  obtain ⟨r, rfl, hr⟩ := h
  rw [← hr, Except.ok.injEq, Except.ok.injEq, Bool.not_eq_true]
  exact ⟨Iff.rfl, Iff.rfl⟩

/-- **Addresses that are compared by a key** are totally ordered. -/
theorem OrdersBy.totallyOrdered (h : OrdersBy S key) : TotallyOrdered S := by
  have heq : ∀ a ∈ S, ∀ b ∈ S, _ := fun a ha b hb => ok_iff (h a ha b hb).1
  have hlt : ∀ a ∈ S, ∀ b ∈ S, _ := fun a ha b hb => ok_iff (h.less ha hb)
  constructor
  · exact fun a ha b hb op hop => h.returns ha hb hop
  · exact fun a ha => (heq a ha a ha).1.mpr rfl
  · exact fun a ha b hb hab => (heq b hb a ha).1.mpr ((heq a ha b hb).1.mp hab).symm
  · exact fun a ha b hb c hc hab hbc =>
      (heq a ha c hc).1.mpr (((heq a ha b hb).1.mp hab).trans ((heq b hb c hc).1.mp hbc))
  · exact fun a ha b hb c hc hab hbc =>
      (hlt a ha c hc).1.mpr (((hlt a ha b hb).1.mp hab).trans ((hlt b hb c hc).1.mp hbc))
  · intro a ha b hb
    rw [(heq a ha b hb).1, (heq a ha b hb).2, (hlt a ha b hb).1, (hlt a ha b hb).2,
      (hlt b hb a ha).1, (hlt b hb a ha).2]
    rcases lt_trichotomy (key a) (key b) with hab | hab | hab
    · exact .inl ⟨hab, hab.ne, hab.asymm⟩
    · exact .inr (.inl ⟨hab.not_lt, hab, hab.symm.not_lt⟩)
    · exact .inr (.inr ⟨hab.asymm, hab.ne', hab⟩)

/-! ## The two kinds of addresses -/

/-- UNIX addresses are compared by their paths. -/
theorem ordersBy_unix (hS : ∀ a ∈ S, a.isUnixLocal = true) :
    OrdersBy S fun a => a.toString.map UInt8.toNat := by
  intro a ha b hb
  cases a with
  | ipv4 s => cases hS _ ha
  | ipv6 s => cases hS _ ha
  | unixLocal p =>
      cases b with
      | ipv4 s => cases hS _ hb
      | ipv6 s => cases hS _ hb
      | unixLocal q =>
          exact ⟨⟨decide (cStr p = cStr q), rfl, decide_eq_true_iff.trans map_toNat_inj.symm⟩,
            stringLess (cStr q) (cStr p), rfl, stringLess_keyed (cStr q) (cStr p)⟩

theorem af_le_of_addressKey_le {ip rsh : IpAddress} (h : ip.addressKey ≤ rsh.addressKey) :
    ip.family.af ≤ rsh.family.af := by
  rcases h.lt_or_eq with h | h
  · rcases IpAddress.addressKey_lt_iff.mp h with h | h
    · exact h.le
    · exact (congrArg Family.af h.1).le
  · exact (congrArg Family.af (IpAddress.addressKey_eq_iff.mp h).1).le

/-- What the operators compare of an IP address: the host, then the port. -/
def ipKey : SocketAddress → (Nat ×ₗ Nat) ×ₗ Nat
  | .ipv4 sockaddr =>
      toLex ((IpAddress.ofSockaddrIn sockaddr).addressKey, (htons sockaddr.sinPort).toNat)
  | .ipv6 sockaddr =>
      toLex ((IpAddress.ofSockaddrIn6 sockaddr).addressKey, (htons sockaddr.sin6Port).toNat)
  | .unixLocal _ => toLex (toLex (0, 0), 0)

/-- An IP address has a host of its family and a port. -/
theorem exists_host_port {a : SocketAddress} (h : a.isUnixLocal = false) :
    ∃ host port, a.host = .ok host ∧ a.port = .ok port ∧ a.family = host.family.af ∧
      a.ipKey = toLex (host.addressKey, port.toNat) ∧
      ∀ b, a.equals b = (do
        let host ← a.host
        let rshHost ← b.host
        if host.equals rshHost then
          let port ← a.port
          let rshPort ← b.port
          return port = rshPort
        else return false) := by
  cases a with
  | unixLocal p => cases h
  | ipv4 s => exact ⟨_, _, rfl, rfl, rfl, rfl, fun b => rfl⟩
  | ipv6 s => exact ⟨_, _, rfl, rfl, rfl, rfl, fun b => rfl⟩

/-- **`==`** of IP addresses compares their hosts and ports. -/
theorem equals_ip {a b : SocketAddress} (ha : a.isUnixLocal = false) (hb : b.isUnixLocal = false) :
    ∃ r, a.equals b = .ok r ∧ (r = true ↔ a.ipKey = b.ipKey) := by
  obtain ⟨host, port, hhost, hport, -, hkey, hequals⟩ := exists_host_port ha
  obtain ⟨host', port', hhost', hport', -, hkey', -⟩ := exists_host_port hb
  have hsame : port = port' ↔ port.toNat = port'.toNat := UInt16.toNat_inj.symm
  have heq := IpAddress.equals_iff host host'
  rw [hequals, hhost, hhost', hport, hport', hkey, hkey', toLex_inj, Prod.mk.injEq, ← hsame, ← heq]
  simp only [bind, Except.bind, pure, Except.pure]
  split
  · rename_i h
    exact ⟨_, rfl, by simp [h]⟩
  · rename_i h
    exact ⟨_, rfl, by simp [h]⟩

/-- **`>`** of IP addresses compares their hosts and ports. -/
theorem greater_ip {a b : SocketAddress} (ha : a.isUnixLocal = false) (hb : b.isUnixLocal = false) :
    ∃ r, a.greater b = .ok r ∧ (r = true ↔ b.ipKey < a.ipKey) := by
  obtain ⟨host, port, hhost, hport, hfamily, hkey, -⟩ := exists_host_port ha
  obtain ⟨host', port', hhost', hport', hfamily', hkey', -⟩ := exists_host_port hb
  have hgt := IpAddress.greater_iff host host'
  have hless := IpAddress.less_iff host host'
  have hip : ¬host.family.af = 1 := by cases host.family <;> decide
  have hkeys : b.ipKey < a.ipKey ↔ host'.addressKey < host.addressKey ∨
      (host'.addressKey = host.addressKey ∧ port' < port) := by
    rw [hkey, hkey', Prod.Lex.toLex_lt_toLex, UInt16.lt_iff_toNat_lt]
  rw [greater, hfamily, hfamily', hkeys, hhost, hhost', hport, hport']
  -- the families are compared before the hosts, in the order of the keys
  rcases lt_trichotomy host.addressKey host'.addressKey with hk | hk | hk
  · have hfalse : ¬(host'.addressKey < host.addressKey ∨
        (host'.addressKey = host.addressKey ∧ port' < port)) := by
      rintro (h | h)
      · exact hk.asymm h
      · exact hk.ne' h.1
    have hle := af_le_of_addressKey_le hk.le
    rw [if_neg (by omega)]
    by_cases haf : host.family.af < host'.family.af
    · rw [if_pos haf]
      exact ⟨false, rfl, iff_of_false (by simp) hfalse⟩
    · rw [if_neg haf, if_neg hip]
      simp only [bind, Except.bind]
      rw [if_neg fun h => hk.asymm (hgt.mp h), if_pos (hless.mpr hk)]
      exact ⟨false, rfl, iff_of_false (by simp) hfalse⟩
  · have hle := af_le_of_addressKey_le hk.le
    have hge := af_le_of_addressKey_le hk.ge
    rw [if_neg (by omega), if_neg (by omega), if_neg hip]
    simp only [bind, Except.bind]
    rw [if_neg fun h => (hgt.mp h).ne' hk, if_neg fun h => (hless.mp h).ne hk]
    exact ⟨decide (port' < port), rfl, by simp [hk]⟩
  · have hle := af_le_of_addressKey_le hk.le
    by_cases haf : host.family.af > host'.family.af
    · rw [if_pos haf]
      exact ⟨true, rfl, iff_of_true rfl (.inl hk)⟩
    · rw [if_neg haf, if_neg (by omega), if_neg hip]
      simp only [bind, Except.bind]
      rw [if_pos (hgt.mpr hk)]
      exact ⟨true, rfl, iff_of_true rfl (.inl hk)⟩

/-- IP addresses are compared by their hosts and ports. -/
theorem ordersBy_ip (hS : ∀ a ∈ S, a.isUnixLocal = false) : OrdersBy S ipKey := by
  intro a ha b hb
  exact ⟨equals_ip (hS a ha) (hS b hb), greater_ip (hS a ha) (hS b hb)⟩

/-- **What the comparison operators order**: the addresses of a set, exactly if they are all UNIX
addresses or all IP addresses.

Source: the comparison operators, `host` and `port` of `SocketAddress`. -/
theorem totallyOrdered_iff (S : Set SocketAddress) : TotallyOrdered S ↔
    (∀ a ∈ S, a.isUnixLocal = true) ∨ ∀ a ∈ S, a.isUnixLocal = false := by
  constructor
  · intro h
    by_contra hmixed
    push Not at hmixed
    obtain ⟨⟨a, ha, hip⟩, b, hb, hunix⟩ := hmixed
    -- an IP address on the left asks a UNIX address for its host
    obtain ⟨host, -, hhost, -, -, -, hequals⟩ := exists_host_port (by simpa using hip)
    obtain ⟨r, hr⟩ := h.returns a ha b hb equals (by simp [operators])
    cases b with
    | ipv4 s => exact hunix rfl
    | ipv6 s => exact hunix rfl
    | unixLocal p =>
        rw [hequals, hhost] at hr
        cases hr
  · rintro (h | h)
    · exact (ordersBy_unix h).totallyOrdered
    · exact (ordersBy_ip h).totallyOrdered

/-- Comparing 127.0.0.1:80 with the address of a UNIX socket throws. -/
theorem comparison_throws : ¬TotallyOrdered Set.univ := by
  intro h
  obtain ⟨r, hr⟩ := h.returns (.ipv4 ⟨htons 80, ⟨127, 0, 0, 1⟩⟩) trivial
    (.unixLocal (str "/tmp/local.sock")) trivial less (by simp [operators])
  cases hr

end SocketAddress

end SocialNetwork.Net
