import SocialNetwork.App.Metrics
import SocialNetwork.Foundation.Utf8

/-!
# Which answers can be dumped

`dump` takes the texts of an answer only if they are UTF-8 (`Json.isUtf8`). ASCII is, so a UUID is and
so are the messages of the handlers; of the JSON values that the handlers make, each is if the texts put
into it are.
-/

namespace SocialNetwork.App

open Foundation Helpers Pool

/-! ## Texts in UTF-8 -/

/-- What `validateUTF8` computes is well-formedness. -/
theorem isUtf8_iff {s : Bytes} : isUtf8 s = true ↔ s.toByteArray.IsValidUTF8 :=
  ByteArray.validateUTF8_eq_true_iff

/-- ASCII is UTF-8. -/
theorem isUtf8_of_ascii {s : Bytes} (h : ∀ c ∈ s, c < 128) : isUtf8 s = true := by
  rw [isUtf8_iff]
  induction s with
  | nil => exact ByteArray.isValidUTF8_empty
  | cons c s ih =>
      have hchar : [c] = String.utf8EncodeChar (Char.ofNat c.toNat) :=
        forall_byte (p := fun c => c < 128 → [c] = String.utf8EncodeChar (Char.ofNat c.toNat))
          (by decide +kernel) c (h c List.mem_cons_self)
      have hone : ([c] : Bytes).toByteArray.IsValidUTF8 := by
        rw [hchar]
        exact Char.isValidUTF8_toByteArray_utf8EncodeChar
      have hrest := ih fun x hx => h x (List.mem_cons_of_mem _ hx)
      rw [← List.singleton_append, List.toByteArray_append]
      exact hone.append hrest

/-- The characters of a UUID. -/
theorem mem_of_matchGroups {ns : List Nat} {s : Bytes} (h : matchGroups ns s = true) {c : UInt8}
    (hc : c ∈ s) : isHexDigit c = true ∨ c = chr '-' := by
  induction ns generalizing s with
  | nil =>
      rw [matchGroups, List.isEmpty_iff] at h
      rw [h] at hc
      cases hc
  | cons n ns ih =>
      cases ns with
      | nil =>
          simp only [matchGroups, Bool.and_eq_true, List.all_eq_true] at h
          exact .inl (h.2 c hc)
      | cons m ns =>
          simp only [matchGroups, Bool.and_eq_true, List.all_eq_true, decide_eq_true_eq] at h
          obtain ⟨⟨⟨-, hgroup⟩, hdash⟩, hrest⟩ := h
          rw [← List.take_append_drop n s, List.mem_append] at hc
          rcases hc with hc | hc
          · exact .inl (hgroup c hc)
          · cases hdrop : s.drop n with
            | nil => rw [hdrop] at hc; cases hc
            | cons x rest =>
                rw [hdrop] at hdash hc
                rcases List.mem_cons.mp hc with rfl | hc
                · exact .inr (Option.some.inj hdash)
                · apply ih hrest
                  rwa [← List.drop_drop, hdrop, List.drop_one, List.tail_cons]

/-- A UUID is UTF-8. -/
theorem isUtf8_of_isValidUuid {id : Bytes} (h : isValidUuid id = true) : isUtf8 id = true := by
  have hall : ∀ c : UInt8, isHexDigit c = true ∨ c = chr '-' → c < 128 :=
    forall_byte (p := fun c => isHexDigit c = true ∨ c = chr '-' → c < 128) (by decide +kernel)
  exact isUtf8_of_ascii fun c hc => hall c (mem_of_matchGroups h hc)

/-! ## Texts of the answers -/

/-- The value of a profile, by its six texts. -/
theorem isUtf8_profileJson (id fname sname bdate bio city : Bytes) :
    (profileJson id fname sname bdate bio city).isUtf8 =
      (isUtf8 id && [fname, sname, bdate, bio, city].all isUtf8) := by
  have hkeys : ∀ key ∈ [str "id", str "first_name", str "second_name", str "birthdate",
      str "biography", str "city"], isUtf8 key = true := by
    decide
  simp only [List.forall_mem_cons] at hkeys
  obtain ⟨hid, hfirst, hsecond, hbirth, hbio, hcity, -⟩ := hkeys
  simp [profileJson, Json.isUtf8, Json.isUtf8Members, hid, hfirst, hsecond, hbirth, hbio, hcity]

/-- An array, by its elements. -/
theorem isUtf8Items_eq (items : List Json) : Json.isUtf8Items items = items.all Json.isUtf8 := by
  induction items with
  | nil => rfl
  | cons item items ih => rw [Json.isUtf8Items, ih, List.all_cons]

end SocialNetwork.App
