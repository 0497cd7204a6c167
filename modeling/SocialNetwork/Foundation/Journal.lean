import SocialNetwork.Foundation.Focus
import SocialNetwork.Foundation.Lifting
import Mathlib.Tactic.Abel

/-!
# Programs that note what they are answered

A program is made to issue a note right after each answer of a certain kind (`Program.noted`), and
otherwise goes on as before. Where many such programs share a world, an answer and its note are two
steps, and other programs may take theirs in between.

`Machine.noted` is the machine of such programs; its journal keeps what is due to be noted and what has
been. In every reachable configuration the two agree, but for the programs that stand before their note
(`noted_perm`): nothing is noted twice, and nothing is left out.
-/

namespace SocialNetwork.Foundation

/-! ## Programs -/

/-- The operations of a program that takes notes. -/
inductive Noted (E N : Type)
  | call (e : E)
  | note (n : N)

/-- What an operation gives back. -/
def Noted.Result {E : Type} (R : E → Type) (N : Type) : Noted E N → Type
  | .call e => R e
  | .note _ => Unit

section programs

variable {E : Type} {R : E → Type} {N α : Type} (kind : (e : E) → R e → Option N)

namespace Program

/-- `p`, with a note before it if one is due. -/
def afterNote (p : Program (Noted.Result R N) α) : Option N → Program (Noted.Result R N) α
  | none => p
  | some n => .op (.note n) fun _ => p

/-- `p`, with a note after each answer of the kind. -/
def noted : Program R α → Program (Noted.Result R N) α
  | .ret a => .ret a
  | .op e k => .op (.call e) fun r => (k r).noted.afterNote (kind e r)

/-- The note that a program stands before. -/
def pending : Program (Noted.Result R N) α → Option N
  | .op (.note n) _ => some n
  | _ => none

/-- The answers to the calls of `p`, and to its notes. -/
def noting (answer : (e : E) → R e) : (e : Noted E N) → Noted.Result R N e
  | .call e => answer e
  | .note _ => ()

/-- A program that takes notes ends as it does without. -/
@[simp] theorem eval_noted (answer : (e : E) → R e) (p : Program R α) :
    (p.noted kind).eval (noting answer) = p.eval answer := by
  induction p with
  | ret a => rfl
  | op e k ih =>
      simp only [noted, eval, noting]
      cases kind e (answer e) with
      | none => exact ih (answer e)
      | some n => exact ih (answer e)

theorem afterNote_bind {β : Type} (p : Program (Noted.Result R N) α) (n : Option N)
    (f : α → Program (Noted.Result R N) β) : (p.afterNote n).bind f = (p.bind f).afterNote n := by
  cases n with
  | none => rfl
  | some n => rfl

/-- A program takes its notes in each of its parts. -/
theorem noted_bind {β : Type} (p : Program R α) (f : α → Program R β) :
    (p.bind f).noted kind = (p.noted kind).bind fun a => (f a).noted kind := by
  induction p with
  | ret a => rfl
  | op e k ih =>
      refine congrArg (Program.op (Noted.call e)) (funext fun r => ?_)
      calc afterNote (((k r).bind f).noted kind) (kind e r)
          = afterNote (((k r).noted kind).bind fun a => (f a).noted kind) (kind e r) :=
            congrArg (afterNote · (kind e r)) (ih r)
        _ = (afterNote ((k r).noted kind) (kind e r)).bind fun a => (f a).noted kind :=
            (afterNote_bind _ _ _).symm

/-- None of the answers that a program gets is to be noted. -/
def Silent : Program R α → Prop
  | .ret _ => True
  | .op e k => ∀ r, kind e r = none ∧ (k r).Silent

/-- A program that has nothing to note only makes its calls. -/
theorem Silent.noted_eq {p : Program R α} (h : p.Silent kind) :
    p.noted kind = p.along Noted.call fun _ r => r := by
  induction p with
  | ret a => rfl
  | op e k ih =>
      refine congrArg (Program.op (Noted.call e)) (funext fun r => ?_)
      calc afterNote ((k r).noted kind) (kind e r)
          = afterNote ((k r).noted kind) none := congrArg (afterNote _) (h r).1
        _ = (k r).along Noted.call fun _ r => r := ih r (h r).2

/-- A program whose parts have nothing to note has nothing to note. -/
theorem Silent.bind {β : Type} {p : Program R α} {f : α → Program R β} (hp : p.Silent kind)
    (hf : ∀ a, (f a).Silent kind) : (p.bind f).Silent kind := by
  induction p with
  | ret a => exact hf a
  | op e k ih => exact fun r => ⟨(hp r).1, ih r (hp r).2⟩

/-- A program stands before its own calls, or before a note that the answer before it made due. -/
def TakesNotes (p : Program (Noted.Result R N) α) : Prop :=
  ∃ (p' : Program R α) (n : Option N), p = (p'.noted kind).afterNote n

theorem pending_afterNote (p : Program R α) (n : Option N) :
    ((p.noted kind).afterNote n).pending = n := by
  cases n with
  | none =>
      cases p with
      | ret a => rfl
      | op e k => rfl
  | some n => rfl

end Program

/-- `Program.noted`. -/
def Translation.noted : Translation R (Noted.Result R N) where
  map p := p.noted kind
  map_ret _ := rfl
  map_bind := Program.noted_bind kind

end programs

/-! ## A journal of the world -/

/-- A world, what is due to be noted in it, and what has been noted. -/
structure Journal (W N : Type) where
  world : W
  due : List N
  written : List N

section machines

variable {E : Type} {R : E → Type} {W C B Req N α : Type}

/-- The machine for programs that take notes: a note is written into the world. -/
def Machine.noted (M : Machine R W C B) (kind : (e : E) → R e → Option N) (write : N → W → W) :
    Machine (Noted.Result R N) (Journal W N) C B where
  start := ⟨M.start, [], []⟩
  perform i w
    | .call e, choice => (M.perform i w.world e choice).map fun (r, w') =>
        (r, ⟨w', w.due ++ (kind e r).toList, w.written⟩)
    | .note n, _ => some ((), ⟨write n w.world, w.due, w.written ++ [n]⟩)
  background w b := (M.background w.world b).map fun w' => { w with world := w' }

/-- The notes that programs stand before. -/
def Config.pending (c : Config (Noted.Result R N) W Req α) : List N :=
  c.procs.filterMap fun p => p.prog.pending

variable {M : Machine R W C B} {kind : (e : E) → R e → Option N} {write : N → W → W}

/-- One step: what becomes due, what is written, and the note that the program stands before. -/
theorem Machine.noted_step {i : Nat} {w w' : Journal W N} {e : Noted E N}
    {k : Noted.Result R N e → Program (Noted.Result R N) α} {choice : C} {r : Noted.Result R N e}
    (h : Program.TakesNotes kind (.op e k))
    (hperf : (M.noted kind write).perform i w e choice = some (r, w')) :
    Program.TakesNotes kind (k r) ∧ ∃ due written, w'.due = w.due ++ due ∧
      w'.written = w.written ++ written ∧
      due ++ (Program.pending (.op e k)).toList = written ++ (k r).pending.toList := by
  obtain ⟨p, n, hp⟩ := h
  cases n with
  | none =>
      cases p with
      | ret a => cases hp
      | op e' k' =>
          cases hp
          obtain ⟨⟨r', w''⟩, -, heq⟩ := Option.map_eq_some_iff.mp hperf
          cases heq
          refine ⟨⟨k' r, kind e' r, rfl⟩, (kind e' r).toList, [], rfl, (List.append_nil _).symm, ?_⟩
          rw [Program.pending_afterNote, List.nil_append]
          exact List.append_nil _
  | some n =>
      cases hp
      cases hperf
      refine ⟨⟨p, none, rfl⟩, [], [n], (List.append_nil _).symm, rfl, ?_⟩
      rw [show (p.noted kind).pending = none from Program.pending_afterNote kind p none]
      rfl

/-- The invariant of a run: programs take notes, and what is due is what has been noted and what
programs stand before. -/
structure Config.Journaled (kind : (e : E) → R e → Option N)
    (c : Config (Noted.Result R N) (Journal W N) Req α) : Prop where
  takesNotes : ∀ p ∈ c.procs, p.prog.TakesNotes kind
  perm : c.world.due.Perm (c.world.written ++ c.pending)

/-- A request arrives. -/
theorem Config.Journaled.spawn {c : Config (Noted.Result R N) (Journal W N) Req α}
    (h : c.Journaled kind) (q : Req) (before : List (Req × α)) (p : Program R α) :
    Config.Journaled kind (⟨c.world, c.procs ++ [⟨q, before, p.noted kind⟩]⟩ :
      Config (Noted.Result R N) (Journal W N) Req α) := by
  constructor
  · intro p' hp'
    rcases List.mem_append.mp hp' with hp' | hp'
    · exact h.takesNotes p' hp'
    · rw [List.mem_singleton.mp hp']
      exact ⟨p, none, rfl⟩
  · have hnew : (p.noted kind).pending = none := Program.pending_afterNote kind p none
    simpa [Config.pending, hnew] using h.perm

/-- A program takes a step. -/
theorem Config.Journaled.step {c : Config (Noted.Result R N) (Journal W N) Req α}
    (h : c.Journaled kind) {i : Nat} {q : Req} {before : List (Req × α)} {e : Noted E N}
    {k : Noted.Result R N e → Program (Noted.Result R N) α} {choice : C} {r : Noted.Result R N e}
    {w' : Journal W N} (hi : c.procs[i]? = some ⟨q, before, .op e k⟩)
    (hperf : (M.noted kind write).perform i c.world e choice = some (r, w')) :
    Config.Journaled kind (⟨w', c.procs.set i ⟨q, before, k r⟩⟩ :
      Config (Noted.Result R N) (Journal W N) Req α) := by
  obtain ⟨hnext, due, written, hdue, hwritten, hsame⟩ :=
    Machine.noted_step (h.takesNotes _ (List.mem_of_getElem? hi)) hperf
  constructor
  · intro p hp
    rcases List.mem_or_eq_of_mem_set hp with hp | rfl
    · exact h.takesNotes p hp
    · exact hnext
  · obtain ⟨others, hpending, hpending'⟩ :=
      exists_focus (fun p : Proc (Noted.Result R N) Req α => p.prog.pending) hi
    have hperm : (c.world.due : Multiset N) = c.world.written + (c.pending : Multiset N) :=
      Multiset.coe_eq_coe.mpr h.perm
    have hsame' : (due : Multiset N) + (Program.pending (.op e k)).toList =
        written + ((k r).pending.toList : Multiset N) := congrArg _ hsame
    refine Multiset.coe_eq_coe.mp ?_
    calc (w'.due : Multiset N)
        = c.world.due + due := by rw [hdue, Multiset.coe_add]
      _ = c.world.written + others + (due + (Program.pending (.op e k)).toList) := by
          rw [hperm, Config.pending, hpending]
          abel
      _ = c.world.written + others + (written + (k r).pending.toList) := by rw [hsame']
      _ = ((w'.written ++ _ : List N) : Multiset N) := by
          rw [← Multiset.coe_add, hwritten, ← Multiset.coe_add, Config.pending, hpending']
          abel

/-- **What is due is what has been noted and what programs stand before.** -/
theorem Machine.noted_perm {body : Req → Program R α}
    {c : Config (Noted.Result R N) (Journal W N) Req α}
    (hc : ((M.noted kind write).system fun q => (body q).noted kind).Reachable c) :
    c.world.due.Perm (c.world.written ++ c.pending) := by
  refine (System.Invariant.reachable (I := Config.Journaled kind) ⟨?_, ?_⟩ hc).perm
  · rintro _ rfl
    exact ⟨fun p hp => absurd hp List.not_mem_nil, .nil⟩
  · intro s a s' _ hs hstep
    change (M.noted kind write).next (fun q => (body q).noted kind) s a = some s' at hstep
    cases a with
    | spawn q =>
        cases hstep
        exact hs.spawn q _ (body q)
    | step i choice =>
        obtain ⟨q, before, e, k, r, w', hi, hperf, rfl⟩ := Machine.next_step hstep
        exact hs.step hi hperf
    | background b =>
        obtain ⟨w', hb, rfl⟩ := Option.map_eq_some_iff.mp hstep
        obtain ⟨w'', -, rfl⟩ := Option.map_eq_some_iff.mp hb
        exact ⟨hs.takesNotes, hs.perm⟩

/-- A program that has returned stands before no note. -/
theorem Config.pending_eq_nil {c : Config (Noted.Result R N) W Req α}
    (h : ∀ p ∈ c.procs, ∃ a, p.prog = .ret a) : c.pending = [] := by
  refine List.filterMap_eq_nil_iff.mpr fun p hp => ?_
  obtain ⟨a, ha⟩ := h p hp
  rw [ha]
  rfl

end machines

end SocialNetwork.Foundation
