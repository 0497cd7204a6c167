import SocialNetwork.Net.GroupText

/-!
# Addresses from text to socket and back

The way of a configured address through `SocketAddress`: parsed, stored in a `sockaddr`, handed out
by `host` and `port`, printed and parsed again. `host` of an IPv4 socket address reverses the four
bytes (the constructor of `IpAddress` from `sockaddr_in` applies `ntohl`, and every other member of
the class keeps the network order), so only palindromic addresses survive. An IPv6 address survives
if its text is `Plain`. Every other text, but for `::`, is handed to the resolver as the name of a
host, and the address survives if that is what the resolver answers (`firstAddress`).
-/

namespace SocialNetwork.Net

open Foundation Helpers

variable {R : Resolver}

/-! ## What is compared -/

/-- The configured text `a.b.c.d:p` gives a socket address with this host and port, is printed
again, and is what `http_start` binds. -/
def TextSurvives (R : Resolver) (a b c d : UInt8) (p : UInt16) : Prop :=
  let addr := dotted a b c d
  let text := addr ++ str ":" ++ decimal p.toNat
  ∃ sa ip host, SocketAddress.ofString R text = .ok sa ∧ IpAddress.ofString addr = some ip ∧
    sa.host = .ok host ∧ host.equals ip = true ∧ sa.port = .ok p ∧ sa.toString = text ∧
    httpStartBind R text = .ok (addr, p)

/-- The printed socket address is parsed to an equal one. -/
def ValueSurvives (R : Resolver) (sa : SocketAddress) : Prop :=
  ∃ sa', SocketAddress.ofString R sa.toString = .ok sa' ∧ sa'.equals sa = .ok true

/-- The address that a name stands for: the first one the resolver finds, in a stable order by
family. -/
def Resolver.firstAddress (R : Resolver) (name : Bytes) : Option IpAddress :=
  match Dns.hostByName R name with
  | .ok addresses =>
      (addresses.insertionSort fun ip₁ ip₂ => ip₁.family.af ≤ ip₂.family.af).head?
  | .error _ => none

/-- The groups of the address, in the order of the text. -/
def IpAddress.groups (ip : IpAddress) : List Nat := ip.words.map swap16

/-- The IPv6 addresses whose text stands for them. A text with a dotted tail, and one with a blank in
front of a digit, fits no format of `try_parse`: it stands for what the resolver finds. -/
def Printable (R : Resolver) (ip : IpAddress) : Prop :=
  if ip.hasIpv4Form then ip.byte 12 = 0 ∧ R.firstAddress ip.toString = some ip
  else Plain ip.groups ∨ R.firstAddress ip.toString = some ip

/-! ## Parsing host and port -/

/-- A decimal port is taken as it is. -/
theorem Dns.resolveServiceToPort_decimal (R : Resolver) (p : UInt16) :
    Dns.resolveServiceToPort R (decimal p.toNat) = .ok p := by
  have hp := p.toNat_lt
  simp only [Dns.resolveServiceToPort, tryParseUint_decimal (show p.toNat < 2 ^ 32 by omega)]
  rw [if_pos (by omega), UInt16.ofNat_toNat]

/-- A host without brackets and colons. -/
theorem SocketAddress.splitToHostAndPort_plain {host port : Bytes} (hhost : host ≠ [])
    (hport : port ≠ []) (hbracket : host.head? ≠ some (chr '[')) (hcolon : chr ':' ∉ host) :
    SocketAddress.splitToHostAndPort (host ++ str ":" ++ port) = .ok (host, port) := by
  have hspan : (host ++ chr ':' :: port).span (· ≠ chr ':') = (host, chr ':' :: port) :=
    span_append_cons (decide_ne_of_not_mem hcolon) (by simp)
  rw [show str ":" = [chr ':'] from rfl, List.append_assoc, List.singleton_append]
  cases host with
  | nil => exact absurd rfl hhost
  | cons c host =>
      have hc : c ≠ chr '[' := fun he => hbracket (by rw [he]; rfl)
      rw [List.cons_append] at hspan ⊢
      simp only [SocketAddress.splitToHostAndPort, hc, if_false, hspan]
      simp [hport]

/-- A host in brackets. -/
theorem SocketAddress.splitToHostAndPort_brackets {host port : Bytes} (hhost : host ≠ [])
    (hport : port ≠ []) (hbracket : chr ']' ∉ host) :
    SocketAddress.splitToHostAndPort (str "[" ++ host ++ str "]:" ++ port) = .ok (host, port) := by
  have hspan : (host ++ chr ']' :: chr ':' :: port).span (· ≠ chr ']') =
      (host, chr ']' :: chr ':' :: port) :=
    span_append_cons (decide_ne_of_not_mem hbracket) (by simp)
  have htext : str "[" ++ host ++ str "]:" ++ port =
      chr '[' :: (host ++ chr ']' :: chr ':' :: port) := by
    simp [str]
  rw [htext]
  simp only [SocketAddress.splitToHostAndPort, if_true, hspan]
  simp [hhost, hport]

/-- `SocketAddress` of a host in brackets and a decimal port. -/
theorem SocketAddress.ofString_brackets {host : Bytes} (hhost : host ≠ [])
    (hbracket : chr ']' ∉ host) (p : UInt16) :
    SocketAddress.ofString R (str "[" ++ host ++ str "]:" ++ decimal p.toNat) =
      SocketAddress.initByName R host p := by
  have hslash : (str "[" ++ host ++ str "]:" ++ decimal p.toNat).head? ≠ some (chr '/') := by
    simp only [str, List.append_assoc]
    exact fun h => absurd (Option.some.inj h) (by decide)
  rw [SocketAddress.ofString, if_neg hslash,
    splitToHostAndPort_brackets hhost (decimal_ne_nil _) hbracket]
  simp only [Dns.resolveServiceToPort_decimal]

/-- `init` keeps the port. -/
theorem SocketAddress.port_initByName {addr : Bytes} {p : UInt16} {sa : SocketAddress}
    (h : SocketAddress.initByName R addr p = .ok sa) : sa.port = .ok p := by
  have hinit : ∀ ip, (SocketAddress.init ip p).port = .ok p := fun ip => by
    unfold SocketAddress.init
    cases ip.family <;> simp only [SocketAddress.port, htons_htons]
  unfold SocketAddress.initByName at h
  split at h
  · obtain rfl := Except.ok.inj h
    exact hinit _
  · split at h
    · cases h
    · split at h
      · obtain rfl := Except.ok.inj h
        exact hinit _
      · cases h

/-- A name that has an address is resolved to the first one. -/
theorem SocketAddress.initByName_of_firstAddress {addr : Bytes} {p : UInt16} {ip : IpAddress}
    (hparse : IpAddress.tryParse addr = none) (h : R.firstAddress addr = some ip) :
    SocketAddress.initByName R addr p = .ok (SocketAddress.init ip p) := by
  rw [SocketAddress.initByName, hparse]
  unfold Resolver.firstAddress at h
  split at h
  · rename_i addresses haddresses
    obtain ⟨rest, hsort⟩ := List.head?_eq_some_iff.mp h
    simp only [haddresses, hsort]
  · cases h

/-- A name that has no address is an error. -/
theorem SocketAddress.initByName_of_firstAddress_none {addr : Bytes} {p : UInt16}
    (hparse : IpAddress.tryParse addr = none) (h : R.firstAddress addr = none) :
    ∃ e, SocketAddress.initByName R addr p = .error e := by
  rw [SocketAddress.initByName, hparse]
  unfold Resolver.firstAddress at h
  split at h
  · rename_i addresses haddresses
    simp only [haddresses, List.head?_eq_none_iff.mp h]
    exact ⟨_, rfl⟩
  · rename_i e he
    simp only [he]
    exact ⟨_, rfl⟩

/-- There is a first address exactly if there is any. -/
theorem Resolver.firstAddress_isSome_iff {name : Bytes} : (R.firstAddress name).isSome ↔
    ∃ addresses, Dns.hostByName R name = .ok addresses ∧ addresses ≠ [] := by
  unfold firstAddress
  cases Dns.hostByName R name with
  | error e => simp
  | ok addresses =>
      have hlength := List.length_insertionSort
        (fun ip₁ ip₂ : IpAddress => ip₁.family.af ≤ ip₂.family.af) addresses
      simp only [List.isSome_head?, Except.ok.injEq, exists_eq_left']
      rw [← List.length_pos_iff, hlength, List.length_pos_iff]

/-- A name is resolved to a socket address exactly if it has an address. -/
theorem SocketAddress.initByName_ok_iff {addr : Bytes} {p : UInt16}
    (hparse : IpAddress.tryParse addr = none) :
    (∃ sa, SocketAddress.initByName R addr p = .ok sa) ↔
      ∃ addresses, Dns.hostByName R addr = .ok addresses ∧ addresses ≠ [] := by
  rw [← Resolver.firstAddress_isSome_iff]
  cases hfirst : R.firstAddress addr with
  | none =>
      obtain ⟨e, he⟩ := initByName_of_firstAddress_none (p := p) hparse hfirst
      simp [he]
  | some ip => simp [initByName_of_firstAddress (p := p) hparse hfirst]

/-- The port of a socket address that is not a path. -/
theorem SocketAddress.exists_port {addr : Bytes} (hslash : addr.head? ≠ some (chr '/'))
    {sa : SocketAddress} (h : SocketAddress.ofString R addr = .ok sa) : ∃ p, sa.port = .ok p := by
  rw [SocketAddress.ofString, if_neg hslash] at h
  split at h
  · cases h
  · split at h
    · cases h
    · exact ⟨_, SocketAddress.port_initByName h⟩

/-- The port of a socket address made from a host without colons and a decimal port. -/
theorem SocketAddress.port_ofString {host : Bytes} {p : UInt16} (hhost : host ≠ [])
    (hhead : host.head? ≠ some (chr '[') ∧ host.head? ≠ some (chr '/')) (hcolon : chr ':' ∉ host)
    {sa : SocketAddress}
    (h : SocketAddress.ofString R (host ++ str ":" ++ decimal p.toNat) = .ok sa) :
    sa.port = .ok p := by
  have hslash : (host ++ str ":" ++ decimal p.toNat).head? ≠ some (chr '/') := by
    rw [List.append_assoc, List.head?_append_of_ne_nil _ hhost]
    exact hhead.2
  rw [SocketAddress.ofString, if_neg hslash,
    splitToHostAndPort_plain hhost (decimal_ne_nil _) hhead.1 hcolon] at h
  simp only [Dns.resolveServiceToPort_decimal] at h
  exact SocketAddress.port_initByName h

/-- `SocketAddress` of a dotted address and a decimal port. -/
theorem SocketAddress.ofString_dotted (a b c d : UInt8) (p : UInt16) :
    SocketAddress.ofString R (dotted a b c d ++ str ":" ++ decimal p.toNat) =
      .ok (.ipv4 ⟨htons p, ⟨a, b, c, d⟩⟩) := by
  have hhead : ∀ x, isDigit x = false → x ≠ chr '.' → (dotted a b c d).head? ≠ some x :=
    fun x hdigit hdot h => not_mem_dotted hdigit hdot (List.mem_of_head? h)
  have hslash : (dotted a b c d ++ str ":" ++ decimal p.toNat).head? ≠ some (chr '/') := by
    rw [List.append_assoc, List.head?_append_of_ne_nil _ (dotted_ne_nil a b c d)]
    exact hhead _ (by decide) (by decide)
  rw [SocketAddress.ofString, if_neg hslash,
    splitToHostAndPort_plain (dotted_ne_nil a b c d) (decimal_ne_nil _)
      (hhead _ (by decide) (by decide)) (not_mem_dotted (by decide) (by decide))]
  simp only [Dns.resolveServiceToPort_decimal, SocketAddress.initByName, IpAddress.tryParse_dotted]
  rw [SocketAddress.init]
  simp only [IpAddress.byte_toData _ _ (show 0 < 16 by norm_num),
    IpAddress.byte_toData _ _ (show 1 < 16 by norm_num),
    IpAddress.byte_toData _ _ (show 2 < 16 by norm_num),
    IpAddress.byte_toData _ _ (show 3 < 16 by norm_num)]
  rfl

/-- Two socket addresses with a host are equal if hosts and ports are. -/
theorem SocketAddress.equals_inet {lhs rsh : SocketAddress} {ip ip' : IpAddress} {p p' : UInt16}
    (hhost : lhs.host = .ok ip) (hhost' : rsh.host = .ok ip') (hport : lhs.port = .ok p)
    (hport' : rsh.port = .ok p') :
    lhs.equals rsh = .ok (ip.equals ip' && decide (p = p')) := by
  have hboth : lhs.equals rsh = (do
      let host ← lhs.host
      let rshHost ← rsh.host
      if host.equals rshHost then
        let port ← lhs.port
        let rshPort ← rsh.port
        return decide (port = rshPort)
      else
        return false) := by
    cases lhs with
    | unixLocal sunPath => cases hhost
    | ipv4 sockaddr => rfl
    | ipv6 sockaddr => rfl
  rw [hboth, hhost, hhost', hport, hport']
  simp only [bind, Except.bind, pure, Except.pure]
  cases ip.equals ip' <;> rfl

/-! ## IPv4 -/

/-- `host` of an IPv4 socket address: the bytes are reversed. -/
theorem SocketAddress.host_ipv4 (sockaddr : SockaddrIn) :
    (SocketAddress.ipv4 sockaddr).host = .ok ⟨.v4, toData [sockaddr.sinAddr.b₃,
      sockaddr.sinAddr.b₂, sockaddr.sinAddr.b₁, sockaddr.sinAddr.b₀]⟩ := by
  rw [SocketAddress.host, IpAddress.ofSockaddrIn_eq]

/-- Four bytes and their reverse. -/
theorem reverse_eq_iff {a b c d : UInt8} : [d, c, b, a] = [a, b, c, d] ↔ a = d ∧ b = c := by
  simp only [List.cons.injEq, and_true]
  constructor
  · rintro ⟨-, -, hbc, had⟩
    exact ⟨had, hbc⟩
  · rintro ⟨rfl, rfl⟩
    exact ⟨rfl, rfl, rfl, rfl⟩

/-- What `http_start` binds for a dotted address: the reversed one. -/
theorem httpStartBind_dotted (a b c d : UInt8) (p : UInt16) :
    httpStartBind R (dotted a b c d ++ str ":" ++ decimal p.toNat) = .ok (dotted d c b a, p) := by
  rw [httpStartBind, SocketAddress.ofString_dotted]
  simp only [bind, Except.bind, pure, Except.pure, SocketAddress.host, SocketAddress.port,
    htons_htons, IpAddress.ofSockaddrIn_eq, IpAddress.toString_v4]

/-- An IPv4 socket address is printed with its bytes reversed. -/
theorem SocketAddress.toString_ipv4 (sockaddr : SockaddrIn) :
    (SocketAddress.ipv4 sockaddr).toString =
      dotted sockaddr.sinAddr.b₃ sockaddr.sinAddr.b₂ sockaddr.sinAddr.b₁ sockaddr.sinAddr.b₀ ++
        str ":" ++ decimal (htons sockaddr.sinPort).toNat := by
  rw [SocketAddress.toString, IpAddress.ofSockaddrIn_eq, IpAddress.toString_v4]

/-- **The texts that survive are those of palindromic addresses.** -/
theorem textSurvives_iff (a b c d : UInt8) (p : UInt16) :
    TextSurvives R a b c d p ↔ a = d ∧ b = c := by
  constructor
  · rintro ⟨sa, ip, host, hsa, hip, hhost, heq, -⟩
    rw [SocketAddress.ofString_dotted] at hsa
    obtain rfl := Except.ok.inj hsa
    rw [IpAddress.ofString, IpAddress.tryParse_dotted] at hip
    obtain rfl := Option.some.inj hip
    obtain rfl := Except.ok.inj hhost
    rw [IpAddress.ofSockaddrIn_eq, IpAddress.equals_v4] at heq
    exact reverse_eq_iff.mp heq
  · rintro ⟨rfl, rfl⟩
    refine ⟨_, _, _, SocketAddress.ofString_dotted a b b a p, IpAddress.tryParse_dotted a b b a, rfl,
      ?_, ?_, ?_, httpStartBind_dotted a b b a p⟩
    · rw [IpAddress.ofSockaddrIn_eq, IpAddress.equals_v4]
    · simp only [SocketAddress.port, htons_htons]
    · simp only [SocketAddress.toString_ipv4, htons_htons]

/-- **The IPv4 values that survive are those with palindromic addresses.** -/
theorem valueSurvives_ipv4_iff (sockaddr : SockaddrIn) :
    ValueSurvives R (.ipv4 sockaddr) ↔
      sockaddr.sinAddr.b₀ = sockaddr.sinAddr.b₃ ∧ sockaddr.sinAddr.b₁ = sockaddr.sinAddr.b₂ := by
  rw [ValueSurvives, SocketAddress.toString_ipv4, SocketAddress.ofString_dotted]
  obtain ⟨sinPort, ⟨b₀, b₁, b₂, b₃⟩⟩ := sockaddr
  have hequals := SocketAddress.equals_inet
    (SocketAddress.host_ipv4 ⟨htons (htons sinPort), ⟨b₃, b₂, b₁, b₀⟩⟩)
    (SocketAddress.host_ipv4 ⟨sinPort, ⟨b₀, b₁, b₂, b₃⟩⟩) rfl rfl
  constructor
  · rintro ⟨sa, hsa, heq⟩
    obtain rfl := Except.ok.inj hsa
    rw [hequals, Except.ok.injEq, Bool.and_eq_true] at heq
    exact reverse_eq_iff.mp ((IpAddress.equals_v4 ..).mp heq.1).symm
  · intro h
    refine ⟨_, rfl, ?_⟩
    rw [hequals, Except.ok.injEq, Bool.and_eq_true]
    exact ⟨(IpAddress.equals_v4 ..).mpr (reverse_eq_iff.mpr h).symm, by simp⟩

/-! ## The text of an IPv6 address -/

/-- The byte `i` of an address. -/
theorem IpAddress.byte_eq_getElem (ip : IpAddress) {i : Nat} (h : i < 16) :
    ip.byte i = ip.data[i] := by
  simp [IpAddress.byte, h]

/-- Stored bytes give the address with these bytes. -/
theorem toData_eq_iff {bytes : Bytes} {v : Vector UInt8 16} :
    toData bytes = v ↔ ∀ i < 16, bytes.getD i 0 = (⟨.v6, v⟩ : IpAddress).byte i := by
  constructor
  · rintro rfl i hi
    rw [IpAddress.byte_toData _ _ hi]
  · intro h
    ext i hi
    have := h i hi
    rw [IpAddress.byte_eq_getElem _ hi] at this
    simpa [toData] using congrArg UInt8.toNat this

/-- An IPv6 address has eight groups. -/
theorem IpAddress.length_groups (ip : IpAddress) : ip.groups.length = 8 := by
  simp [IpAddress.groups, IpAddress.words]

/-- A word has 16 bits. -/
theorem IpAddress.word_lt (ip : IpAddress) (i : Nat) : ip.word i < 65536 := by
  have h := (ip.byte (2 * i)).toNat_lt
  have h' := (ip.byte (2 * i + 1)).toNat_lt
  unfold IpAddress.word
  omega

/-- A group has at most four hexadecimal digits. -/
theorem IpAddress.groups_lt (ip : IpAddress) {g : Nat} (h : g ∈ ip.groups) : g < 16 ^ 4 := by
  obtain ⟨w, -, rfl⟩ := List.mem_map.mp h
  exact swap16_lt

/-- The two bytes of a printed group. -/
theorem IpAddress.groupBytes_word (ip : IpAddress) (i : Nat) :
    groupBytes (swap16 (ip.word i)) = [ip.byte (2 * i), ip.byte (2 * i + 1)] := by
  have h := (ip.byte (2 * i)).toNat_lt
  have h' := (ip.byte (2 * i + 1)).toNat_lt
  have hswap : swap16 (ip.word i) = (ip.byte (2 * i)).toNat * 256 + (ip.byte (2 * i + 1)).toNat := by
    unfold swap16 IpAddress.word
    omega
  rw [groupBytes, hswap,
    show ((ip.byte (2 * i)).toNat * 256 + (ip.byte (2 * i + 1)).toNat) / 256 =
      (ip.byte (2 * i)).toNat by omega,
    show ((ip.byte (2 * i)).toNat * 256 + (ip.byte (2 * i + 1)).toNat) % 256 =
      (ip.byte (2 * i + 1)).toNat by omega, UInt8.ofNat_toNat, UInt8.ofNat_toNat]

/-- The bytes of the groups are those of the address. -/
theorem toData_groups (v : Vector UInt8 16) :
    toData ((⟨.v6, v⟩ : IpAddress).groups.flatMap groupBytes) = v := by
  rw [toData_eq_iff, IpAddress.groups, IpAddress.words, List.map_map, List.flatMap_map]
  simp only [Function.comp_apply, IpAddress.groupBytes_word]
  intro i hi
  interval_cases i <;> rfl

/-- The first three words, checked for zero. -/
theorem IpAddress.isIpv4Compatible_iff (v : Vector UInt8 16) :
    (⟨.v6, v⟩ : IpAddress).isIpv4Compatible = true ↔
      ∀ i < 12, (⟨.v6, v⟩ : IpAddress).byte i = 0 := by
  simp only [IpAddress.isIpv4Compatible, IpAddress.value, load32_and_mask, Bool.and_eq_true,
    decide_eq_true_eq]
  constructor
  · rintro ⟨⟨h₀, h₁⟩, h₂⟩ i hi
    obtain ⟨e₀, e₁, e₂, e₃⟩ := load32_eq_zero h₀
    obtain ⟨e₄, e₅, e₆, e₇⟩ := load32_eq_zero h₁
    obtain ⟨e₈, e₉, e₁₀, e₁₁⟩ := load32_eq_zero h₂
    interval_cases i <;> assumption
  · intro h
    refine ⟨⟨?_, ?_⟩, ?_⟩ <;> simp [h, load32]

/-- Where a dotted tail is printed the sixth word is zero: the test for a mapped address compares
the little-endian value, and finds `ffff` in the fifth word. -/
theorem IpAddress.word_five (v : Vector UInt8 16)
    (h : (⟨.v6, v⟩ : IpAddress).hasIpv4Form = true) : (⟨.v6, v⟩ : IpAddress).word 5 = 0 := by
  rw [IpAddress.hasIpv4Form, Bool.or_eq_true, Bool.and_eq_true] at h
  rcases h with ⟨h, -⟩ | h
  · rw [IpAddress.isIpv4Compatible_iff] at h
    simp [IpAddress.word, h]
  · simp only [IpAddress.isIpv4Mapped, IpAddress.value, load32_and_mask, Bool.and_eq_true,
      decide_eq_true_eq] at h
    have hword := h.2
    simp only [load32, IpAddress.word, Nat.reduceMul, Nat.reduceAdd] at hword ⊢
    omega

/-- The text of an address with a dotted tail. -/
theorem IpAddress.toString_ipv4Form (v : Vector UInt8 16)
    (h : (⟨.v6, v⟩ : IpAddress).hasIpv4Form = true) :
    (⟨.v6, v⟩ : IpAddress).toString = str "::" ++
      if (⟨.v6, v⟩ : IpAddress).byte 12 = 0 then
        dotted 0 ((⟨.v6, v⟩ : IpAddress).byte 13) ((⟨.v6, v⟩ : IpAddress).byte 14)
          ((⟨.v6, v⟩ : IpAddress).byte 15)
      else [] := by
  simp only [IpAddress.toString, h, if_true, IpAddress.word_five v h]
  congr 1
  split
  · rename_i hzero
    rw [hzero]
  · rfl

/-- The text of the other addresses. -/
theorem IpAddress.toString_groups (v : Vector UInt8 16)
    (h : (⟨.v6, v⟩ : IpAddress).hasIpv4Form = false) :
    (⟨.v6, v⟩ : IpAddress).toString = spelled (⟨.v6, v⟩ : IpAddress).groups := by
  have hwords : ∀ w ∈ (⟨.v6, v⟩ : IpAddress).words, w < 65536 := fun w hw => by
    obtain ⟨i, -, rfl⟩ := List.mem_map.mp hw
    exact IpAddress.word_lt _ i
  simp only [IpAddress.toString, h, Bool.false_eq_true, if_false]
  rw [groupsToString_false _ hwords _ _ (by simp [IpAddress.words])]
  rfl

/-- Characters that occur in no printed IPv6 address. -/
theorem IpAddress.not_mem_toString (v : Vector UInt8 16) {c : UInt8} (hblank : c ≠ chr ' ')
    (hcolon : c ≠ chr ':') (hdot : c ≠ chr '.') (hhex : ∀ d < 16, c ≠ hexByte d)
    (hdigit : isDigit c = false) : c ∉ (⟨.v6, v⟩ : IpAddress).toString := fun h => by
  cases hform : (⟨.v6, v⟩ : IpAddress).hasIpv4Form with
  | true =>
      rw [IpAddress.toString_ipv4Form v hform] at h
      rcases List.mem_append.mp h with h | h
      · exact hcolon (by simpa [str] using h)
      · split at h
        · exact not_mem_dotted hdigit hdot h
        · cases h
  | false =>
      rw [IpAddress.toString_groups v hform] at h
      rcases mem_spelled h with h | h | ⟨d, hd, h⟩
      · exact hblank h
      · exact hcolon h
      · exact hhex d hd h

/-- Some groups give some text. -/
theorem spelled_ne_nil {gs : List Nat} (h : gs ≠ []) : spelled gs ≠ [] := fun hnil => by
  have htrim := trim_spelled h
  rw [hnil] at htrim
  exact tight_ne_nil h htrim.symm

/-- An IPv6 address is not printed as nothing. -/
theorem IpAddress.toString_ne_nil (v : Vector UInt8 16) : (⟨.v6, v⟩ : IpAddress).toString ≠ [] := by
  cases hform : (⟨.v6, v⟩ : IpAddress).hasIpv4Form with
  | true => simp [IpAddress.toString_ipv4Form v hform, str]
  | false =>
      rw [IpAddress.toString_groups v hform]
      exact spelled_ne_nil (List.ne_nil_of_length_pos (by rw [IpAddress.length_groups]; omega))

/-! ## Resolving a printed text -/

/-- A host that is parsed as IPv6 makes an IPv6 socket address. -/
theorem SocketAddress.initByName_v6 {addr : Bytes} {v : Vector UInt8 16} (p : UInt16)
    (hparse : IpAddress.tryParse addr = some ⟨.v6, v⟩) :
    SocketAddress.initByName R addr p = .ok (.ipv6 ⟨htons p, v⟩) := by
  rw [SocketAddress.initByName, hparse]
  rfl

/-! ## IPv6 -/

/-- An IPv6 socket address is printed in brackets, with its port. -/
theorem SocketAddress.toString_ipv6 (sockaddr : SockaddrIn6) :
    (SocketAddress.ipv6 sockaddr).toString =
      str "[" ++ (⟨.v6, sockaddr.sin6Addr⟩ : IpAddress).toString ++ str "]:" ++
        decimal (htons sockaddr.sin6Port).toNat := rfl

/-- The printed value is parsed as its address in brackets. -/
theorem SocketAddress.ofString_toString_ipv6 (sin6Port : UInt16) (v : Vector UInt8 16) :
    SocketAddress.ofString R (SocketAddress.ipv6 ⟨sin6Port, v⟩).toString =
      SocketAddress.initByName R (⟨.v6, v⟩ : IpAddress).toString (htons sin6Port) := by
  rw [SocketAddress.toString_ipv6]
  exact SocketAddress.ofString_brackets (IpAddress.toString_ne_nil _)
    (IpAddress.not_mem_toString _ (by decide) (by decide) (by decide)
      (fun d hd => by interval_cases d <;> decide) (by decide)) _

/-- An IPv6 value survives if its text gives its address back. -/
theorem valueSurvives_ipv6_of_ok (sin6Port : UInt16) {v v' : Vector UInt8 16}
    (h : SocketAddress.initByName R (⟨.v6, v⟩ : IpAddress).toString (htons sin6Port) =
      .ok (.ipv6 ⟨htons (htons sin6Port), v'⟩)) :
    ValueSurvives R (.ipv6 ⟨sin6Port, v⟩) ↔ v' = v := by
  have hequals : (SocketAddress.ipv6 ⟨htons (htons sin6Port), v'⟩).equals (.ipv6 ⟨sin6Port, v⟩) =
      .ok ((⟨.v6, v'⟩ : IpAddress).equals ⟨.v6, v⟩ &&
        decide (htons (htons (htons sin6Port)) = htons sin6Port)) :=
    SocketAddress.equals_inet rfl rfl rfl rfl
  rw [ValueSurvives, SocketAddress.ofString_toString_ipv6, h]
  constructor
  · rintro ⟨sa, hsa, heq⟩
    obtain rfl := Except.ok.inj hsa
    rw [hequals, Except.ok.injEq, Bool.and_eq_true] at heq
    exact (IpAddress.equals_v6 ..).mp heq.1
  · intro heq
    refine ⟨_, rfl, ?_⟩
    rw [hequals, Except.ok.injEq, Bool.and_eq_true]
    exact ⟨(IpAddress.equals_v6 ..).mpr heq, by simp⟩

/-- `::` stands for the zero address. -/
theorem IpAddress.tryParse_double_colon :
    IpAddress.tryParse (str "::") = some ⟨.v6, toData (List.replicate 16 0)⟩ := by
  decide

/-- A text with a dotted tail after `::` fits both formats, and is not parsed. -/
theorem IpAddress.tryParse_dotted_tail (a b c d : UInt8) :
    IpAddress.tryParse (str "::" ++ dotted a b c d) = none := by
  have hcolon : chr ':' ∉ dotted a b c d := not_mem_dotted (by decide) (by decide)
  have hv4 : IpAddress.isV4Format (str "::" ++ dotted a b c d) = true := by
    simp [IpAddress.isV4Format, count_dot_dotted, show (str "::").count (chr '.') = 0 by decide]
  have hv6 : IpAddress.isV6Format (str "::" ++ dotted a b c d) = true := by
    have hinfix : str "::" <:+: str "::" ++ dotted a b c d := ⟨[], _, rfl⟩
    simp [IpAddress.isV6Format, List.count_eq_zero.mpr hcolon, hinfix,
      show (str "::").count (chr ':') = 2 by decide]
  simp [IpAddress.tryParse, IpAddress.tryFamily, hv4, hv6]

/-- A text that is not parsed gives its address back if that is the first one the resolver finds. -/
theorem valueSurvives_ipv6_of_name (sin6Port : UInt16) {v : Vector UInt8 16}
    (hparse : IpAddress.tryParse (⟨.v6, v⟩ : IpAddress).toString = none) :
    ValueSurvives R (.ipv6 ⟨sin6Port, v⟩) ↔
      R.firstAddress (⟨.v6, v⟩ : IpAddress).toString = some ⟨.v6, v⟩ := by
  cases hfirst : R.firstAddress (⟨.v6, v⟩ : IpAddress).toString with
  | none =>
      obtain ⟨e, he⟩ := SocketAddress.initByName_of_firstAddress_none (p := htons sin6Port) hparse
        hfirst
      refine iff_of_false ?_ (by simp)
      rintro ⟨sa, hsa, -⟩
      rw [SocketAddress.ofString_toString_ipv6, he] at hsa
      cases hsa
  | some ip =>
      have hinit := SocketAddress.initByName_of_firstAddress (p := htons sin6Port) hparse hfirst
      obtain ⟨family, data⟩ := ip
      cases family with
      | v4 =>
          -- an IPv4 socket address is not equal to an IPv6 one
          refine iff_of_false ?_ (by simp)
          rintro ⟨sa, hsa, heq⟩
          rw [SocketAddress.ofString_toString_ipv6, hinit] at hsa
          obtain rfl := Except.ok.inj hsa
          rw [SocketAddress.init, SocketAddress.equals_inet rfl rfl rfl rfl, Except.ok.injEq,
            Bool.and_eq_true] at heq
          exact absurd heq.1 (by simp [IpAddress.equals, IpAddress.ofSockaddrIn,
            IpAddress.ofSockaddrIn6])
      | v6 =>
          rw [valueSurvives_ipv6_of_ok sin6Port hinit]
          simp

/-- Addresses printed in groups survive if the text is plain, or if the resolver finds them. -/
theorem valueSurvives_groups (sin6Port : UInt16) (v : Vector UInt8 16)
    (hform : (⟨.v6, v⟩ : IpAddress).hasIpv4Form = false) :
    ValueSurvives R (.ipv6 ⟨sin6Port, v⟩) ↔ Plain (⟨.v6, v⟩ : IpAddress).groups ∨
      R.firstAddress (⟨.v6, v⟩ : IpAddress).toString = some ⟨.v6, v⟩ := by
  have htext := IpAddress.toString_groups v hform
  have hparse := IpAddress.tryParse_spelled (IpAddress.length_groups ⟨.v6, v⟩)
    fun g hg => IpAddress.groups_lt ⟨.v6, v⟩ hg
  by_cases hplain : Plain (⟨.v6, v⟩ : IpAddress).groups
  · rw [if_pos hplain, toData_groups, ← htext] at hparse
    rw [valueSurvives_ipv6_of_ok sin6Port (SocketAddress.initByName_v6 _ hparse)]
    exact iff_of_true rfl (.inl hplain)
  · rw [if_neg hplain, ← htext] at hparse
    rw [valueSurvives_ipv6_of_name sin6Port hparse, or_iff_right hplain]

/-- Addresses printed with a dotted tail survive if the resolver finds them. -/
theorem valueSurvives_dotted_tail (sin6Port : UInt16) (v : Vector UInt8 16)
    (hform : (⟨.v6, v⟩ : IpAddress).hasIpv4Form = true)
    (hbyte : (⟨.v6, v⟩ : IpAddress).byte 12 = 0) :
    ValueSurvives R (.ipv6 ⟨sin6Port, v⟩) ↔
      R.firstAddress (⟨.v6, v⟩ : IpAddress).toString = some ⟨.v6, v⟩ := by
  have htext := IpAddress.toString_ipv4Form v hform
  rw [if_pos hbyte] at htext
  have hparse := IpAddress.tryParse_dotted_tail 0 ((⟨.v6, v⟩ : IpAddress).byte 13)
    ((⟨.v6, v⟩ : IpAddress).byte 14) ((⟨.v6, v⟩ : IpAddress).byte 15)
  rw [← htext] at hparse
  exact valueSurvives_ipv6_of_name sin6Port hparse

/-- Where the tail is not printed, the text stands for the zero address. -/
theorem not_valueSurvives_double_colon (sin6Port : UInt16) (v : Vector UInt8 16)
    (hform : (⟨.v6, v⟩ : IpAddress).hasIpv4Form = true)
    (hbyte : (⟨.v6, v⟩ : IpAddress).byte 12 ≠ 0) : ¬ValueSurvives R (.ipv6 ⟨sin6Port, v⟩) := by
  have htext := IpAddress.toString_ipv4Form v hform
  rw [if_neg hbyte, List.append_nil] at htext
  have hparse := IpAddress.tryParse_double_colon
  rw [← htext] at hparse
  rw [valueSurvives_ipv6_of_ok sin6Port (SocketAddress.initByName_v6 _ hparse), toData_eq_iff]
  exact fun h => hbyte (h 12 (by norm_num)).symm

/-- **The IPv6 values that survive are the printable ones.** -/
theorem valueSurvives_ipv6_iff (sockaddr : SockaddrIn6) :
    ValueSurvives R (.ipv6 sockaddr) ↔ Printable R (.ofSockaddrIn6 sockaddr) := by
  obtain ⟨sin6Port, v⟩ := sockaddr
  change _ ↔ Printable R ⟨.v6, v⟩
  rw [Printable]
  split
  · rename_i hform
    by_cases hbyte : (⟨.v6, v⟩ : IpAddress).byte 12 = 0
    · simp only [valueSurvives_dotted_tail sin6Port v hform hbyte, hbyte, true_and]
    · simp only [not_valueSurvives_double_colon sin6Port v hform hbyte, hbyte, false_and]
  · rename_i hform
    exact valueSurvives_groups sin6Port v (by simpa using hform)

/-- Of the addresses printed in groups only the plain ones survive, if no address is found for a name
with a blank. -/
theorem valueSurvives_groups_iff_plain
    (hblank : ∀ name, chr ' ' ∈ name → R.firstAddress name = none) (sin6Port : UInt16)
    (v : Vector UInt8 16) (hform : (⟨.v6, v⟩ : IpAddress).hasIpv4Form = false) :
    ValueSurvives R (.ipv6 ⟨sin6Port, v⟩) ↔ Plain (⟨.v6, v⟩ : IpAddress).groups := by
  rw [valueSurvives_groups sin6Port v hform]
  refine or_iff_left_of_imp fun hfirst => ?_
  by_contra hplain
  have hmem : chr ' ' ∈ (⟨.v6, v⟩ : IpAddress).toString := by
    rw [IpAddress.toString_groups v hform]
    exact blank_mem_spelled hplain
  rw [hblank _ hmem] at hfirst
  cases hfirst

/-! ## Which addresses survive -/

/-- **Which addresses survive the way to the socket and back.** A configured IPv4 address is bound,
and an IPv4 value survives printing, exactly if its bytes read the same in both directions; an IPv6
value survives printing exactly if it is `Printable`.

Source: `SocketAddress::host`, the constructors of `IpAddress`, `App::http_start`. -/
theorem addresses_survive_iff (R : Resolver) :
    (∀ a b c d p, TextSurvives R a b c d p ↔ a = d ∧ b = c) ∧
    (∀ sockaddr, ValueSurvives R (.ipv4 sockaddr) ↔
      sockaddr.sinAddr.b₀ = sockaddr.sinAddr.b₃ ∧ sockaddr.sinAddr.b₁ = sockaddr.sinAddr.b₂) ∧
    ∀ sockaddr, ValueSurvives R (.ipv6 sockaddr) ↔ Printable R (.ofSockaddrIn6 sockaddr) :=
  ⟨textSurvives_iff, valueSurvives_ipv4_iff, valueSurvives_ipv6_iff⟩

/-- A resolver that knows the texts of IPv6 addresses and no names. -/
def numericResolver : Resolver where
  getaddrinfo s :=
    match inetPton6 s with
    | some bytes => .ok [.inet6 (toData bytes)]
    | none => .error .noname
  hErrno _ := .other
  gethostbyname _ := .error .hostNotFound
  getservbyname _ := none

/-- A resolver on a host without IPv6: it finds no address for such a text. -/
def ipv4Resolver : Resolver := { numericResolver with getaddrinfo _ := .error .other }

/-- The port 80 of `::1`, which is printed as `[::0.0.0.1]:80`. -/
def localHttp : SockaddrIn6 := ⟨htons 80, toData (List.replicate 15 0 ++ [1])⟩

/-- What the resolver finds for the text decides. -/
example : Printable numericResolver (.ofSockaddrIn6 localHttp) ∧
    ¬Printable ipv4Resolver (.ofSockaddrIn6 localHttp) := by
  rw [Printable, Printable]
  decide

/-- `10.0.0.10` is bound as configured; `[::1]:80` and `[1111:…:1111]:80` survive printing. -/
theorem addresses_survive_sample :
    TextSurvives numericResolver 10 0 0 10 8080 ∧
      ValueSurvives numericResolver (.ipv6 localHttp) ∧
      ValueSurvives numericResolver (.ipv6 ⟨htons 80, toData (List.replicate 16 0x11)⟩) := by
  have hiff := addresses_survive_iff numericResolver
  refine ⟨(hiff.1 10 0 0 10 8080).mpr (by decide), (hiff.2.2 _).mpr ?_, (hiff.2.2 _).mpr ?_⟩
  · rw [Printable, if_pos (by decide)]
    decide
  · rw [Printable, if_neg (by decide)]
    exact .inl (by decide)

/-- The configured `127.0.0.1:8080` is bound as `1.0.0.127`. -/
theorem listening_address_reversed :
    ¬TextSurvives numericResolver 127 0 0 1 8080 ∧
      httpStartBind numericResolver (dotted 127 0 0 1 ++ str ":" ++ decimal (8080 : UInt16).toNat) =
        .ok (dotted 1 0 0 127, 8080) :=
  ⟨fun h => absurd ((textSurvives_iff 127 0 0 1 8080).mp h) (by decide),
    httpStartBind_dotted 127 0 0 1 8080⟩

end SocialNetwork.Net
