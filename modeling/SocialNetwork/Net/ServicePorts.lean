import SocialNetwork.Helpers.Numbers
import SocialNetwork.Net.SocketAddress

/-!
# Port numbers of services

`Dns::resolve_service_to_port` takes a service that starts with a numeral for a port number, if
`try_parse_uint` gives one up to 65535, and else asks the service database. The numeral has been cut
to 32 bits by then, so that one outside of the range can pass for one inside
(`numbers_kept_iff`).
-/

namespace SocialNetwork.Net

open Foundation Helpers

/-- The same C library without any service. -/
def Resolver.withoutServices (R : Resolver) : Resolver := { R with getservbyname := fun _ => none }

/-- **A port that is not looked up** is what `try_parse_uint` makes of the service. -/
theorem resolveServiceToPort_eq_ok_iff {R : Resolver} {service : Bytes} {port : UInt16} :
    Dns.resolveServiceToPort R.withoutServices service = .ok port ↔
      ∃ x, signedNumeral 10 service = some x ∧ x.natAbs < 2 ^ 64 ∧ x % 2 ^ 32 ≤ 65535 ∧
        (port.toNat : Int) = x % 2 ^ 32 := by
  unfold Dns.resolveServiceToPort
  cases hparse : tryParseUint service with
  | none =>
      refine iff_of_false (fun h => by cases h) ?_
      rintro ⟨x, hx, hlt, -, -⟩
      have hsome : tryParseUint service = some (x % 2 ^ 32).toNat :=
        tryParseUint_eq_some_iff.mpr
          ⟨x, hx, hlt, Int.toNat_of_nonneg (Int.emod_nonneg x (by norm_num))⟩
      rw [hparse] at hsome
      cases hsome
  | some v =>
      obtain ⟨x, hx, hlt, hv⟩ := tryParseUint_eq_some_iff.mp hparse
      dsimp only
      simp only [hx, Option.some.injEq, exists_eq_left']
      split_ifs with hrange
      · have hport : (UInt16.ofNat v).toNat = v := toNat_port (by omega)
        rw [Except.ok.injEq, ← hv, ← UInt16.toNat_inj, hport]
        constructor
        · intro h
          exact ⟨hlt, by omega, by omega⟩
        · rintro ⟨-, -, h⟩
          omega
      · refine iff_of_false (fun h => by cases h) ?_
        rintro ⟨-, hle, -⟩
        omega

/-- A port that is not looked up is the numeral of the service, unless that one is out of range and
passes for a port number modulo `2 ^ 32`. -/
theorem servicePort_kept_iff (R : Resolver) (service : Bytes) :
    (∀ port, Dns.resolveServiceToPort R.withoutServices service = .ok port →
      ∃ x, signedNumeral 10 service = some x ∧ 0 ≤ x ∧ x ≤ 65535 ∧ (port.toNat : Int) = x) ↔
    ∀ x, signedNumeral 10 service = some x → x.natAbs < 2 ^ 64 → x % 2 ^ 32 ≤ 65535 →
      0 ≤ x ∧ x ≤ 65535 := by
  constructor
  · intro h x hx hlt hle
    have hport : (UInt16.ofNat (x % 2 ^ 32).toNat).toNat = (x % 2 ^ 32).toNat :=
      toNat_port (by omega)
    obtain ⟨y, hy, hnonneg, hfits, -⟩ := h (UInt16.ofNat (x % 2 ^ 32).toNat)
      (resolveServiceToPort_eq_ok_iff.mpr ⟨x, hx, hlt, hle, by omega⟩)
    rw [hx, Option.some.injEq] at hy
    rw [hy]
    exact ⟨hnonneg, hfits⟩
  · intro h port hport
    obtain ⟨x, hx, hlt, hle, heq⟩ := resolveServiceToPort_eq_ok_iff.mp hport
    obtain ⟨hnonneg, hfits⟩ := h x hx hlt hle
    exact ⟨x, hx, hnonneg, hfits, by omega⟩

/-- **Which numbers are kept.** The signed functions of `NumberParserHelpers` return the numeral of
the text. The unsigned ones, in all three bases, do exactly if the numeral, where its magnitude is
below `2 ^ 64`, is not negative and fits the result. The port of a service that is not looked up is
its numeral, exactly if no numeral outside of `0..65535` is congruent to a port number modulo
`2 ^ 32`.

Source: `helpers/number_parser.cpp`, `Dns::resolve_service_to_port`. -/
theorem numbers_kept_iff (s : Bytes) :
    (∀ v, tryParseInt s = some v → signedNumeral 10 s = some v) ∧
    (∀ v, tryParseInt64 s = some v → signedNumeral 10 s = some v) ∧
    ((∀ v : Nat, tryParseUint s = some v → signedNumeral 10 s = some (v : Int)) ↔
      Unwrapped 32 10 s) ∧
    ((∀ v : Nat, tryParseUint64 s = some v → signedNumeral 10 s = some (v : Int)) ↔
      Unwrapped 64 10 s) ∧
    ((∀ v : Nat, tryParseHex s = some v → signedNumeral 16 s = some (v : Int)) ↔
      Unwrapped 32 16 s) ∧
    ((∀ v : Nat, tryParseHex64 s = some v → signedNumeral 16 s = some (v : Int)) ↔
      Unwrapped 64 16 s) ∧
    ((∀ v : Nat, tryParseOct s = some v → signedNumeral 8 s = some (v : Int)) ↔
      Unwrapped 32 8 s) ∧
    ((∀ v : Nat, tryParseOct64 s = some v → signedNumeral 8 s = some (v : Int)) ↔
      Unwrapped 64 8 s) ∧
    ∀ R : Resolver, (∀ port, Dns.resolveServiceToPort R.withoutServices s = .ok port →
        ∃ x, signedNumeral 10 s = some x ∧ 0 ≤ x ∧ x ≤ 65535 ∧ (port.toNat : Int) = x) ↔
      ∀ x, signedNumeral 10 s = some x → x.natAbs < 2 ^ 64 → x % 2 ^ 32 ≤ 65535 →
        0 ≤ x ∧ x ≤ 65535 := by
  have hcut : ∀ base, (∀ v : Nat, castUint32 (stoul base s) = some v →
      signedNumeral base s = some (v : Int)) ↔ Unwrapped 32 base s := fun base =>
    unwrapped_iff (by norm_num)
  have hwide : ∀ base, (∀ v : Nat, stoull base s = some v →
      signedNumeral base s = some (v : Int)) ↔ Unwrapped 64 base s := fun base => by
    rw [← unwrapped_iff le_rfl, stoull_map]
  exact ⟨fun v h => (tryParseInt_eq_some_iff.mp h).1,
    fun v h => (signedConversion_eq_some_iff.mp h).1, hcut 10, hwide 10, hcut 16, hwide 16, hcut 8,
    hwide 8, fun R => servicePort_kept_iff R s⟩

/-- The numeral 2³² + 80 is read as 80, by `try_parse_uint` and as the port of a service; the numeral
-1 is read as the largest number of 64 bits. -/
theorem numbers_wrap :
    (tryParseUint (str "4294967376") = some 80 ∧
      signedNumeral 10 (str "4294967376") = some 4294967376) ∧
    (∀ R : Resolver, Dns.resolveServiceToPort R.withoutServices (str "4294967376") = .ok 80) ∧
    tryParseHex64 (str "-1") = some 18446744073709551615 ∧ signedNumeral 16 (str "-1") = some (-1) :=
  ⟨⟨by decide, by decide⟩, fun R => rfl, by decide, by decide⟩

end SocialNetwork.Net
