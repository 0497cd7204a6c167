import Mathlib.Data.List.Basic
import Mathlib.Data.List.DropRight

/-!
# Paths

A path is a word of steps over a directory tree: some steps are idle, one goes up, any other step
descends to the name it is. A directory is the list of names that lead to it from the root, where a
step up stays.

A path is shortened on a stack: a step down is taken back by the step up that follows it. What stays
is a run of steps up and a run of names (`Canonical`), and it leads to the same place
(`walk_shorten`, from every directory if the leading steps up are kept, from the root if they are
dropped). A shortened path cannot be shortened any more (`shorten_canonical`), and it is empty
exactly if the path leads back to where it starts (`shorten_eq_nil_iff`, `shorten_eq_nil_iff_root`).
-/

namespace SocialNetwork.Foundation

variable {α : Type*} [DecidableEq α] (idle : α → Bool) (up : α)

/-! ## Walking -/

/-- One step. -/
def enter (dir : List α) (step : α) : List α :=
  if idle step then dir else if step = up then dir.dropLast else dir ++ [step]

/-- A path from a directory. -/
def walk (dir steps : List α) : List α := steps.foldl (enter idle up) dir

/-- No steps lead nowhere. -/
@[simp] theorem walk_nil (dir : List α) : walk idle up dir [] = dir := rfl

/-- The first step, then the others. -/
@[simp] theorem walk_cons (dir : List α) (step : α) (steps : List α) :
    walk idle up dir (step :: steps) = walk idle up (enter idle up dir step) steps := rfl

/-- Steps after steps. -/
@[simp] theorem walk_append (dir l r : List α) :
    walk idle up dir (l ++ r) = walk idle up (walk idle up dir l) r := List.foldl_append

variable {idle up}

/-- An idle step stays where it is. -/
theorem enter_idle {step : α} (h : idle step = true) (dir : List α) :
    enter idle up dir step = dir := if_pos h

/-- A step up leaves the last directory. -/
theorem enter_up (h : idle up = false) (dir : List α) : enter idle up dir up = dir.dropLast := by
  rw [enter, if_neg (by simp [h]), if_pos rfl]

/-- Any other step enters a directory. -/
theorem enter_name {step : α} (hidle : idle step = false) (hup : step ≠ up) (dir : List α) :
    enter idle up dir step = dir ++ [step] := by
  rw [enter, if_neg (by simp [hidle]), if_neg hup]

/-- Idle steps do not count. -/
theorem walk_filter {p : α → Bool} (h : ∀ step, p step = false → idle step = true)
    (dir steps : List α) : walk idle up dir (steps.filter p) = walk idle up dir steps := by
  induction steps generalizing dir with
  | nil => rfl
  | cons step steps ih =>
      cases hp : p step with
      | true => rw [List.filter_cons_of_pos hp, walk_cons, walk_cons, ih]
      | false =>
          rw [List.filter_cons_of_neg (by simp [hp]), walk_cons, enter_idle (h step hp), ih]

/-- Names are appended. -/
theorem walk_names {names : List α} (h : ∀ s ∈ names, idle s = false ∧ s ≠ up) (dir : List α) :
    walk idle up dir names = dir ++ names := by
  induction names generalizing dir with
  | nil => rw [walk_nil, List.append_nil]
  | cons s names ih =>
      obtain ⟨hidle, hup⟩ := h s List.mem_cons_self
      rw [walk_cons, enter_name hidle hup, ih fun x hx => h x (List.mem_cons_of_mem _ hx),
        List.append_assoc, List.singleton_append]

/-- A run of steps up from the root stays there. -/
theorem walk_replicate_root (h : idle up = false) (n : Nat) :
    walk idle up [] (List.replicate n up) = [] := by
  induction n with
  | zero => rfl
  | succ n ih => rw [List.replicate_succ, walk_cons, enter_up h, List.dropLast_nil, ih]

/-! ## Shortening -/

variable (idle up)

/-- One step meets the stack of the steps kept so far; with `keep`, a step up is kept where there is
nothing to take back. -/
def shortenStep (keep : Bool) (stack : List α) (step : α) : List α :=
  if step = up then
    if stack ≠ [] then
      if stack.getLast? = some up then stack ++ [step] else stack.dropLast
    else if keep then stack ++ [step] else stack
  else if idle step then stack else stack ++ [step]

/-- The steps of a path that stay. -/
def shorten (keep : Bool) (steps : List α) : List α := steps.foldl (shortenStep idle up keep) []

/-- A run of steps up, if there may be one, and a run of names. -/
def Canonical (keep : Bool) (steps : List α) : Prop :=
  ∃ n names, steps = List.replicate n up ++ names ∧ (keep = false → n = 0) ∧
    ∀ s ∈ names, idle s = false ∧ s ≠ up

variable {idle up} {keep : Bool} {stack steps : List α}

omit [DecidableEq α] in
/-- No steps are canonical. -/
theorem canonical_nil : Canonical idle up keep [] :=
  ⟨0, [], rfl, fun _ => rfl, fun _ h => by cases h⟩

/-- What one step does to a stack. -/
theorem Canonical.shortenStep_cases (h : Canonical idle up keep stack) (hup : idle up = false)
    (step : α) :
    (idle step = true ∧ shortenStep idle up keep stack step = stack) ∨
    (idle step = false ∧ step ≠ up ∧ shortenStep idle up keep stack step = stack ++ [step]) ∨
    (step = up ∧ ∃ kept s, stack = kept ++ [s] ∧ idle s = false ∧ s ≠ up ∧
      shortenStep idle up keep stack step = kept) ∨
    (step = up ∧ ∃ n, stack = List.replicate n up ∧ shortenStep idle up keep stack step =
      if keep then stack ++ [up] else stack) := by
  by_cases hstep : step = up
  · subst hstep
    obtain ⟨n, names, rfl, hkeep, hnames⟩ := h
    rcases List.eq_nil_or_concat names with rfl | ⟨names, s, rfl⟩
    · refine .inr (.inr (.inr ⟨rfl, n, List.append_nil _, ?_⟩))
      rw [List.append_nil, shortenStep, if_pos rfl]
      cases n with
      | zero => rw [List.replicate_zero, if_neg (by simp)]
      | succ n =>
          have hk : keep = true := by
            cases keep with
            | true => rfl
            | false => cases hkeep rfl
          rw [if_pos (by simp), if_pos (by rw [List.getLast?_replicate]; simp), if_pos hk]
    · obtain ⟨hidle, hne⟩ := hnames s (by simp)
      rw [List.concat_eq_append, ← List.append_assoc]
      refine .inr (.inr (.inl ⟨rfl, _, s, rfl, hidle, hne, ?_⟩))
      rw [shortenStep, if_pos rfl, if_pos (by simp), if_neg (by simpa using hne),
        List.dropLast_concat]
  · cases hidle : idle step with
    | true => exact .inl ⟨rfl, by rw [shortenStep, if_neg hstep, if_pos hidle]⟩
    | false =>
        exact .inr (.inl ⟨rfl, hstep, by rw [shortenStep, if_neg hstep, if_neg (by simp [hidle])]⟩)

/-- The stack stays canonical. -/
theorem Canonical.shortenStep (h : Canonical idle up keep stack) (hup : idle up = false)
    (step : α) : Canonical idle up keep (shortenStep idle up keep stack step) := by
  have hcases := h.shortenStep_cases hup step
  obtain ⟨n, names, hstack, hkeep, hnames⟩ := h
  rcases hcases with ⟨-, heq⟩ | ⟨hidle, hne, heq⟩ | ⟨-, kept, s, hkept, -, hne, heq⟩ |
    ⟨-, m, hm, heq⟩
  · rw [heq]
    exact ⟨n, names, hstack, hkeep, hnames⟩
  · rw [heq]
    refine ⟨n, names ++ [step], by rw [hstack, List.append_assoc], hkeep, fun x hx => ?_⟩
    rcases List.mem_append.mp hx with hx | hx
    · exact hnames x hx
    · rw [List.mem_singleton.mp hx]
      exact ⟨hidle, hne⟩
  · rw [heq]
    rcases List.eq_nil_or_concat names with rfl | ⟨names, x, rfl⟩
    · -- the last of a run of steps up is not a name
      have hs : s ∈ List.replicate n up := by
        rw [← List.append_nil (List.replicate n up), ← hstack, hkept]
        simp
      exact absurd (List.eq_of_mem_replicate hs) hne
    · rw [hkept, List.concat_eq_append, ← List.append_assoc] at hstack
      refine ⟨n, names, (List.append_inj' hstack rfl).1, hkeep, fun y hy => hnames y ?_⟩
      rw [List.concat_eq_append]
      exact List.mem_append_left _ hy
  · rw [heq]
    cases keep with
    | true =>
        have hrun : stack ++ [up] = List.replicate (m + 1) up ++ [] := by
          rw [hm, List.append_nil, List.replicate_succ']
        rw [if_pos rfl, hrun]
        exact ⟨m + 1, [], rfl, fun hk => (by cases hk), fun _ hx => (by cases hx)⟩
    | false =>
        rw [if_neg (by simp)]
        exact ⟨n, names, hstack, hkeep, hnames⟩

/-- **What stays is canonical.** -/
theorem canonical_shorten (hup : idle up = false) (keep : Bool) (steps : List α) :
    Canonical idle up keep (shorten idle up keep steps) := by
  have hloop : ∀ stack, Canonical idle up keep stack →
      Canonical idle up keep (steps.foldl (Foundation.shortenStep idle up keep) stack) := by
    induction steps with
    | nil => exact fun _ h => h
    | cons step steps ih => exact fun _ h => ih _ (h.shortenStep hup step)
  exact hloop [] canonical_nil

/-- A stack leads where the step leads, from every directory or at least from the root. -/
theorem Canonical.walk_shortenStep (h : Canonical idle up keep stack) (hup : idle up = false)
    {dir : List α} (hdir : keep = true ∨ dir = []) (step : α) :
    walk idle up dir (Foundation.shortenStep idle up keep stack step) =
      enter idle up (walk idle up dir stack) step := by
  rcases h.shortenStep_cases hup step with ⟨hidle, heq⟩ | ⟨-, -, heq⟩ |
    ⟨rfl, kept, s, rfl, hidle, hne, heq⟩ | ⟨rfl, n, rfl, heq⟩
  · rw [heq, enter_idle hidle]
  · rw [heq, walk_append]
    rfl
  · rw [heq, walk_append, walk_cons, walk_nil, enter_name hidle hne, enter_up hup,
      List.dropLast_concat]
  · rw [heq]
    rcases hdir with rfl | rfl
    · rw [if_pos rfl, walk_append]
      rfl
    · rw [walk_replicate_root hup, enter_up hup, List.dropLast_nil]
      split
      · rw [walk_append, walk_replicate_root hup, walk_cons, enter_up hup, walk_nil,
          List.dropLast_nil]
      · exact walk_replicate_root hup n

/-- **What stays leads to the same place.** -/
theorem walk_shorten (hup : idle up = false) {dir : List α} (hdir : keep = true ∨ dir = [])
    (steps : List α) : walk idle up dir (shorten idle up keep steps) = walk idle up dir steps := by
  have hloop : ∀ stack, Canonical idle up keep stack →
      walk idle up dir (steps.foldl (shortenStep idle up keep) stack) =
        walk idle up (walk idle up dir stack) steps := by
    induction steps with
    | nil => exact fun _ _ => rfl
    | cons step steps ih =>
        intro stack h
        rw [List.foldl_cons, ih _ (h.shortenStep hup step), h.walk_shortenStep hup hdir, walk_cons]
  exact hloop [] canonical_nil

/-- **A canonical path stays as it is.** -/
theorem shorten_canonical (h : Canonical idle up keep steps) :
    shorten idle up keep steps = steps := by
  obtain ⟨n, names, rfl, hkeep, hnames⟩ := h
  have hrun : shorten idle up keep (List.replicate n up) = List.replicate n up := by
    induction n with
    | zero => rfl
    | succ n ih =>
        have hk : keep = true := by
          cases keep with
          | true => rfl
          | false => cases hkeep rfl
        have hn := ih fun hkf => by rw [hk] at hkf; cases hkf
        rw [List.replicate_succ', shorten, List.foldl_append, ← shorten, hn]
        show shortenStep idle up keep _ up = _
        rw [shortenStep, if_pos rfl]
        cases n with
        | zero => rw [if_neg (by simp), if_pos hk]
        | succ n => rw [if_pos (by simp), if_pos (by rw [List.getLast?_replicate]; simp)]
  have hdown : ∀ stack, names.foldl (shortenStep idle up keep) stack = stack ++ names := by
    clear hrun
    induction names with
    | nil => exact fun stack => (List.append_nil stack).symm
    | cons s names ih =>
        intro stack
        obtain ⟨hidle, hne⟩ := hnames s List.mem_cons_self
        have hs : shortenStep idle up keep stack s = stack ++ [s] := by
          rw [shortenStep, if_neg hne, if_neg (by simp [hidle])]
        rw [List.foldl_cons, hs, ih fun x hx => hnames x (List.mem_cons_of_mem _ hx),
          List.append_assoc, List.singleton_append]
  rw [shorten, List.foldl_append, ← shorten, hrun, hdown]

/-- The steps that stay are steps of the path. -/
theorem mem_of_mem_shorten {step : α} (h : step ∈ shorten idle up keep steps) : step ∈ steps := by
  have hstep : ∀ stack s, step ∈ shortenStep idle up keep stack s → step ∈ stack ∨ step = s := by
    intro stack s h
    have happend : step ∈ stack ++ [s] → step ∈ stack ∨ step = s := by simp
    unfold shortenStep at h
    split_ifs at h
    · exact happend h
    · exact .inl (List.dropLast_subset stack h)
    · exact happend h
    · exact .inl h
    · exact .inl h
    · exact happend h
  have hloop : ∀ stack, step ∈ steps.foldl (shortenStep idle up keep) stack →
      step ∈ stack ∨ step ∈ steps := by
    clear h
    induction steps with
    | nil => exact fun _ h => .inl h
    | cons s steps ih =>
        intro stack h
        rcases ih _ h with h | h
        · rcases hstep stack s h with h | rfl
          · exact .inl h
          · exact .inr List.mem_cons_self
        · exact .inr (List.mem_cons_of_mem _ h)
  rcases hloop [] h with h | h
  · cases h
  · exact h

/-- Shortening twice. -/
theorem shorten_shorten (hup : idle up = false) (keep : Bool) (steps : List α) :
    shorten idle up keep (shorten idle up keep steps) = shorten idle up keep steps :=
  shorten_canonical (canonical_shorten hup keep steps)

/-- **A path that leads back from every directory** is shortened to nothing. -/
theorem shorten_eq_nil_iff (hup : idle up = false) (steps : List α) :
    shorten idle up true steps = [] ↔ ∀ dir, walk idle up dir steps = dir := by
  constructor
  · intro h dir
    rw [← walk_shorten hup (.inl rfl) steps, h, walk_nil]
  · intro h
    obtain ⟨n, names, heq, -, hnames⟩ := canonical_shorten hup true steps
    have hwalk : ∀ dir, walk idle up (walk idle up dir (List.replicate n up)) names = dir :=
      fun dir => by rw [← walk_append, ← heq, walk_shorten hup (.inl rfl), h]
    have hroot := hwalk []
    rw [walk_replicate_root hup, walk_names hnames, List.nil_append] at hroot
    cases n with
    | zero => rw [heq, hroot, List.replicate_zero, List.append_nil]
    | succ n =>
        -- from a directory below the root, a step up does not lead back
        have hbelow := hwalk [up]
        rw [hroot, walk_nil, List.replicate_succ, walk_cons, enter_up hup,
          List.dropLast_singleton, walk_replicate_root hup] at hbelow
        cases hbelow

/-- **A path that leads back from the root** is shortened to nothing there. -/
theorem shorten_eq_nil_iff_root (hup : idle up = false) (steps : List α) :
    shorten idle up false steps = [] ↔ walk idle up [] steps = [] := by
  have hdir : false = true ∨ ([] : List α) = [] := .inr rfl
  rw [← walk_shorten hup hdir steps]
  obtain ⟨n, names, heq, hkeep, hnames⟩ := canonical_shorten hup false steps
  obtain rfl := hkeep rfl
  rw [heq, List.replicate_zero, List.nil_append, walk_names hnames, List.nil_append]

end SocialNetwork.Foundation
