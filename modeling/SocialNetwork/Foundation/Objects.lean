import SocialNetwork.Foundation.Bytes

/-!
# Objects of a fixed size

An object is the list of its elements, and an access outside of it is a `Fault`. `memcpy` copies
element by element (`memcpy_eq`, `memcpy_write`), `cString` reads up to the terminating zero
(`cString_eq`), and `scan` is a loop with an iterator (`scan_append`). An iterator is an offset; the
lemmas put it at the end of a prefix of the object.
-/

namespace SocialNetwork.Foundation

/-- An access outside of an object. -/
inductive Fault
  | read
  | write
  deriving DecidableEq, Repr

namespace Object

variable {α : Type*}

/-- `object[i]`. -/
def load (object : List α) (i : Nat) : Except Fault α :=
  match object[i]? with
  | some c => .ok c
  | none => .error .read

/-- `object[i] = c`. -/
def store (object : List α) (i : Nat) (c : α) : Except Fault (List α) :=
  if i < object.length then .ok (object.set i c) else .error .write

/-- `memcpy(dest, src, n)`: `dest` afterwards. -/
def memcpy (dest src : List α) : Nat → Except Fault (List α)
  | 0 => .ok dest
  | n + 1 => do
      let dest ← memcpy dest src n
      store dest n (← load src n)

/-- The C string at the start of an object. -/
def cString : Bytes → Except Fault Bytes
  | [] => .error .read
  | c :: rest => if c = 0 then .ok [] else do return c :: (← cString rest)

/-- A byte that can be read lies in the object. -/
theorem lt_length_of_load {object : List α} {i : Nat} {c : α} (h : load object i = .ok c) :
    i < object.length := by
  by_contra hlt
  rw [load, List.getElem?_eq_none (not_lt.mp hlt)] at h
  cases h

/-- `while (it != end && p(*it)) out += *it++;`: the output and the iterator after the loop. -/
def scan (object : List α) (p : α → Bool) (out : List α) (it : Nat) :
    Except Fault (List α × Nat) :=
  if it = object.length then .ok (out, it)
  else
    match h : load object it with
    | .error f => .error f
    | .ok c => if p c then scan object p (out ++ [c]) (it + 1) else .ok (out, it)
termination_by object.length - it
decreasing_by
  have hlt := lt_length_of_load h
  omega

/-! ## Reading -/

@[simp]
theorem load_append (pre : List α) (c : α) (rest : List α) :
    load (pre ++ c :: rest) pre.length = .ok c := by
  simp [load]

theorem load_eq {object : List α} {i : Nat} (h : i < object.length) :
    load object i = .ok object[i] := by
  rw [load, List.getElem?_eq_getElem h]

/-- A C string can be read if there is a terminating zero. -/
theorem cString_eq (object : Bytes) :
    cString object = if 0 ∈ object then .ok (cStr object) else .error .read := by
  induction object with
  | nil => rfl
  | cons c rest ih =>
      by_cases hc : c = 0
      · simp [cString, cStr, hc]
      · have hmem : 0 ∈ c :: rest ↔ 0 ∈ rest := by simp [Ne.symm hc]
        have hstr : cStr (c :: rest) = c :: cStr rest := by simp [cStr, hc]
        rw [cString, if_neg hc, ih, hstr]
        simp only [hmem]
        split <;> rfl

/-- The loop eats the longest prefix of what is left that satisfies the condition. -/
theorem scan_append (p : α → Bool) (pre rest out : List α) :
    scan (pre ++ rest) p out pre.length =
      .ok (out ++ rest.takeWhile p, (pre ++ rest.takeWhile p).length) := by
  induction rest generalizing pre out with
  | nil => rw [scan, if_pos (by simp)]; simp
  | cons c rest ih =>
      have hne : pre.length ≠ (pre ++ c :: rest).length := by simp
      rw [scan, if_neg hne]
      split
      · next h => rw [load_append] at h; cases h
      · next h =>
          rw [load_append] at h
          obtain rfl := Except.ok.inj h
          by_cases hp : p c = true
          · have hnext := ih (pre ++ [c]) (out ++ [c])
            rw [List.append_assoc, List.singleton_append, List.length_append,
              List.length_singleton] at hnext
            rw [if_pos hp, hnext, List.takeWhile_cons_of_pos hp]
            simp
          · rw [if_neg hp, List.takeWhile_cons_of_neg hp]
            simp

/-! ## Writing -/

/-- `memcpy` between objects that are large enough. -/
theorem memcpy_eq {dest src : List α} {n : Nat} (hsrc : n ≤ src.length) (hdest : n ≤ dest.length) :
    memcpy dest src n = .ok (src.take n ++ dest.drop n) := by
  induction n with
  | zero => simp [memcpy]
  | succ n ih =>
      have hlen : (src.take n).length = n := List.length_take_of_le (by omega)
      have hset : (src.take n ++ dest.drop n).set n src[n] =
          src.take (n + 1) ++ dest.drop (n + 1) := by
        rw [List.set_append_right _ _ hlen.le, hlen, Nat.sub_self,
          List.drop_eq_getElem_cons (show n < dest.length by omega), List.set_cons_zero,
          ← List.take_concat_get' _ _ (show n < src.length by omega), List.append_assoc]
        rfl
      rw [memcpy, ih (by omega) (by omega)]
      simp only [bind, Except.bind, load_eq (show n < src.length by omega)]
      rw [store, if_pos (by simp; omega), hset]

/-- `memcpy` of more than the destination holds. -/
theorem memcpy_write {dest src : List α} {n : Nat} (hsrc : n ≤ src.length)
    (hdest : dest.length < n) : memcpy dest src n = .error .write := by
  induction n with
  | zero => omega
  | succ n ih =>
      rw [memcpy]
      rcases Nat.lt_or_ge dest.length n with hlt | hge
      · rw [ih (by omega) hlt]
        rfl
      · rw [memcpy_eq (by omega) hge]
        simp only [bind, Except.bind, load_eq (show n < src.length by omega)]
        rw [store, if_neg (by simp; omega)]

/-- `memcpy` of more than the source holds. -/
theorem memcpy_read {dest src : List α} {n : Nat} (hsrc : src.length < n) (hdest : n ≤ dest.length) :
    memcpy dest src n = .error .read := by
  induction n with
  | zero => omega
  | succ n ih =>
      rw [memcpy]
      rcases Nat.lt_or_ge src.length n with hlt | hge
      · rw [ih hlt (by omega)]
        rfl
      · have hload : load src n = .error .read := by
          rw [load, List.getElem?_eq_none (by omega)]
        rw [memcpy_eq hge (by omega)]
        simp only [bind, Except.bind, hload]

end Object

end SocialNetwork.Foundation
