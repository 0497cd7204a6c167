import SocialNetwork.Foundation.Runs
import Mathlib.Data.List.Infix

/-!
# Effectful programs that share a world

A `Program` is a tree: it has returned, or it issues one operation and goes on with the result.
A `Machine` says what an operation does to the shared world (`perform`, with a choice that resolves
what the outside decides) and what the world does by itself (`background`). `Machine.system` is the
transition system of any number of programs, one for each request that has arrived, whose
operations interleave in any order.

The logic is rely-guarantee. A `Discipline` is an invariant of the world (which may also speak of
the requests that have arrived) and, for each program, a preorder `rely` that every step of the
others respects. `wp` is the weakest precondition of one program under that interference, and
`Correct.reachable` turns the proofs about single programs into one about every reachable
configuration of the whole system.
-/

namespace SocialNetwork.Foundation

/-- A program that issues operations `e : E`, each answered by a value of `R e`. -/
inductive Program {E : Type} (R : E → Type) (α : Type) : Type
  | ret (a : α)
  | op (e : E) (k : R e → Program R α)

namespace Program

variable {E : Type} {R : E → Type} {α β : Type}

/-- Run `p`, then `f` on its value. -/
def bind (p : Program R α) (f : α → Program R β) : Program R β :=
  match p with
  | .ret a => f a
  | .op e k => .op e fun r => (k r).bind f

instance : Monad (Program R) where
  pure := .ret
  bind := .bind

/-- One operation. -/
def call (e : E) : Program R (R e) := .op e .ret

/-- `x`, with `cleanup` at the end whether `x` returned or threw: the destructor of a local
variable. -/
def andFinally {ε : Type} (x : ExceptT ε (Program R) α) (cleanup : Program R Unit) :
    ExceptT ε (Program R) α :=
  ExceptT.mk (x.run.bind fun r => cleanup.bind fun _ => .ret r)

/-! ### Programs with given answers -/

/-- The value of a program whose operations are answered in a given way. -/
def eval (answer : (e : E) → R e) : Program R α → α
  | .ret a => a
  | .op e k => (k (answer e)).eval answer

section eval

variable {ε : Type} (answer : (e : E) → R e)

/-- Two programs after one another, with given answers. -/
@[simp] theorem eval_bind (p : Program R α) (f : α → Program R β) :
    (p.bind f).eval answer = (f (p.eval answer)).eval answer := by
  induction p with
  | ret a => rfl
  | op e k ih => exact ih (answer e)

/-- The value of a program that may throw. -/
def evalE (x : ExceptT ε (Program R) α) : Except ε α := x.run.eval answer

/-- A program that may throw has the value of the program. -/
@[simp] theorem evalE_mk (p : Program R (Except ε α)) :
    evalE answer (ExceptT.mk p) = p.eval answer := rfl

/-- Two programs that may throw after one another: an exception of the first one is that of both. -/
@[simp] theorem evalE_bind (x : ExceptT ε (Program R) α) (f : α → ExceptT ε (Program R) β) :
    evalE answer (x >>= f) = (evalE answer x).bind fun a => evalE answer (f a) := by
  change (x.run.bind _).eval answer = _
  rw [eval_bind]
  unfold evalE
  cases x.run.eval answer <;> rfl

/-- A handler sees the exception of the program before it. -/
@[simp] theorem evalE_tryCatch (x : ExceptT ε (Program R) α)
    (handle : ε → ExceptT ε (Program R) α) :
    evalE answer (tryCatch x handle) = match evalE answer x with
      | .ok a => .ok a
      | .error e => evalE answer (handle e) := by
  change (x.run.bind _).eval answer = _
  rw [eval_bind]
  unfold evalE
  cases x.run.eval answer <;> rfl

/-- A destructor does not change the value. -/
@[simp] theorem evalE_andFinally (x : ExceptT ε (Program R) α) (cleanup : Program R Unit) :
    evalE answer (andFinally x cleanup) = evalE answer x := by
  rw [andFinally, evalE_mk, eval_bind, eval_bind]
  rfl

end eval

end Program

/-! ## Programs over one world -/

/-- What operations and the world itself do. -/
structure Machine {E : Type} (R : E → Type) (W C B : Type) where
  /-- The world before any request. -/
  start : W
  /-- What an operation of the `i`-th program does, when the outside makes the given choice;
  `none` if it cannot. -/
  perform : Nat → W → (e : E) → C → Option (R e × W)
  /-- What the world does by itself. -/
  background : W → B → Option W

/-- A request in progress: its program, and the requests that were answered before it arrived. -/
structure Proc {E : Type} (R : E → Type) (Req α : Type) where
  request : Req
  before : List (Req × α)
  prog : Program R α

/-- The world and the requests that have arrived so far, the `i`-th one at place `i`. -/
structure Config {E : Type} (R : E → Type) (W Req α : Type) where
  world : W
  procs : List (Proc R Req α)

/-- A request arrives, a program takes one step, or the world moves. -/
inductive Act (Req C B : Type)
  | spawn (q : Req)
  | step (i : Nat) (choice : C)
  | background (b : B)

section semantics

variable {E : Type} {R : E → Type} {W C B Req α : Type}

/-- The answer of a request that has one. -/
def Proc.answer (p : Proc R Req α) : Option (Req × α) :=
  match p.prog with
  | .ret a => some (p.request, a)
  | .op _ _ => none

/-- The requests answered so far. -/
def Config.answers (c : Config R W Req α) : List (Req × α) := c.procs.filterMap Proc.answer

/-- The requests that have arrived so far. -/
def Config.requests (c : Config R W Req α) : List Req := c.procs.map Proc.request

/-- One step of the whole system. -/
def Machine.next (M : Machine R W C B) (body : Req → Program R α) (c : Config R W Req α) :
    Act Req C B → Option (Config R W Req α)
  | .spawn q => some ⟨c.world, c.procs ++ [⟨q, c.answers, body q⟩]⟩
  | .step i choice =>
      match c.procs[i]? with
      | some ⟨q, before, .op e k⟩ =>
          (M.perform i c.world e choice).map fun (r, w) => ⟨w, c.procs.set i ⟨q, before, k r⟩⟩
      | _ => none
  | .background b => (M.background c.world b).map fun w => ⟨w, c.procs⟩

/-- A request that takes a step stands before an operation. -/
theorem Machine.next_step {M : Machine R W C B} {body : Req → Program R α} {c c' : Config R W Req α}
    {i : Nat} {choice : C} (h : M.next body c (.step i choice) = some c') :
    ∃ (q : Req) (before : List (Req × α)) (e : E) (k : R e → Program R α) (r : R e) (w' : W),
      c.procs[i]? = some ⟨q, before, .op e k⟩ ∧ M.perform i c.world e choice = some (r, w') ∧
        c' = ⟨w', c.procs.set i ⟨q, before, k r⟩⟩ := by
  simp only [Machine.next] at h
  split at h
  · rename_i q before e k hi
    obtain ⟨⟨r, w'⟩, hperf, rfl⟩ := Option.map_eq_some_iff.mp h
    exact ⟨q, before, e, k, r, w', hi, hperf, rfl⟩
  · cases h

/-- Any number of requests, each served by its program. -/
def Machine.system (M : Machine R W C B) (body : Req → Program R α) :
    System (Config R W Req α) (Act Req C B) :=
  System.ofNext (· = ⟨M.start, []⟩) (M.next body)

/-- If no operation blocks for good, every request in progress can be answered: its program is a
finite tree. -/
theorem Machine.answers (M : Machine R W C B) (body : Req → Program R α)
    (hM : ∀ i w e, ∃ choice r w', M.perform i w e choice = some (r, w')) {c : Config R W Req α}
    {i : Nat} {q : Req} {before : List (Req × α)} {prog : Program R α}
    (hi : c.procs[i]? = some ⟨q, before, prog⟩) :
    ∃ c' a, (M.system body).Leads c c' ∧ c'.procs[i]? = some ⟨q, before, .ret a⟩ := by
  induction prog generalizing c with
  | ret a => exact ⟨c, a, .refl, hi⟩
  | op e k ih =>
      obtain ⟨choice, r, w', hperf⟩ := hM i c.world e
      have hstep : M.next body c (.step i choice) =
          some ⟨w', c.procs.set i ⟨q, before, k r⟩⟩ := by
        simp only [Machine.next, hi, hperf, Option.map_some]
      have hlt : i < c.procs.length := (List.getElem?_eq_some_iff.mp hi).1
      obtain ⟨c', a, hleads, hc'⟩ := ih r (c := ⟨w', c.procs.set i ⟨q, before, k r⟩⟩)
        (List.getElem?_set_self hlt)
      exact ⟨c', a, .head ⟨_, hstep⟩ hleads, hc'⟩

/-- An invariant of the world alone. -/
theorem Machine.world_invariant {M : Machine R W C B} {body : Req → Program R α} {I : W → Prop}
    (hstart : I M.start)
    (hperform : ∀ i w e choice r w', I w → M.perform i w e choice = some (r, w') → I w')
    (hbackground : ∀ w b w', I w → M.background w b = some w' → I w')
    {c : Config R W Req α} (hc : (M.system body).Reachable c) : I c.world := by
  refine System.Invariant.reachable (S := M.system body) (I := fun s => I s.world) ⟨?_, ?_⟩ hc
  · rintro _ rfl
    exact hstart
  · intro s a s' _ hs hstep
    change M.next body s a = some s' at hstep
    cases a with
    | spawn q =>
        cases hstep
        exact hs
    | step i choice =>
        obtain ⟨q, before, e, k, r, w', -, hperf, rfl⟩ := Machine.next_step hstep
        exact hperform i _ e choice r w' hs hperf
    | background b =>
        obtain ⟨w', hb, rfl⟩ := Option.map_eq_some_iff.mp hstep
        exact hbackground _ b w' hs hb

end semantics

/-! ## Rely-guarantee reasoning -/

/-- An invariant of the world, given the requests that have arrived, and what each program may
rely on: how the others' steps can change the world. -/
structure Discipline (Req W : Type) where
  inv : List Req → W → Prop
  rely : Nat → W → W → Prop
  refl : ∀ i w, rely i w w
  trans : ∀ {i w w' w''}, rely i w w' → rely i w' w'' → rely i w w''

section logic

variable {E : Type} {R : E → Type} {W C B Req α β ε : Type}
variable (M : Machine R W C B) (G : Discipline Req W) (i : Nat)

/-- What the `i`-th program may find after the steps of others. -/
structure Discipline.Later (qs : List Req) (w : W) (qs' : List Req) (w' : W) : Prop where
  requests : qs <+: qs'
  world : G.rely i w w'
  inv : G.inv qs' w'

/-- An assertion that the steps of others keep. -/
def Discipline.Stable (P : List Req → W → Prop) : Prop :=
  ∀ ⦃qs w qs' w'⦄, G.Later i qs w qs' w' → P qs w → P qs' w'

/-- The weakest precondition of a program: whatever the others do before each of its operations,
the operation keeps the invariant and what the others rely on, and `Q` holds when it returns. -/
def wp (Q : α → List Req → W → Prop) : Program R α → List Req → W → Prop
  | .ret a, qs, w => Q a qs w
  | .op e k, qs, w =>
      ∀ qs' w', G.Later i qs w qs' w' → ∀ choice r w'', M.perform i w' e choice = some (r, w'') →
        G.inv qs' w'' ∧ (∀ j ≠ i, G.rely j w' w'') ∧ wp Q (k r) qs' w''

variable {M G i} {Q Q' : α → List Req → W → Prop} {qs qs' : List Req} {w w' : W}

/-- The steps of others may follow one another. -/
theorem Discipline.Later.trans {qs'' : List Req} {w'' : W} (h : G.Later i qs w qs' w')
    (h' : G.Later i qs' w' qs'' w'') : G.Later i qs w qs'' w'' where
  requests := h.requests.trans h'.requests
  world := G.trans h.world h'.world
  inv := h'.inv

/-- Two stable assertions are stable together. -/
theorem Discipline.Stable.and {P P' : List Req → W → Prop} (h : G.Stable i P)
    (h' : G.Stable i P') : G.Stable i fun qs w => P qs w ∧ P' qs w :=
  fun _ _ _ _ hl hp => ⟨h hl hp.1, h' hl hp.2⟩

/-- A stronger postcondition is enough. -/
theorem wp_mono {p : Program R α} (hQ : ∀ a qs w, Q a qs w → Q' a qs w) (h : wp M G i Q p qs w) :
    wp M G i Q' p qs w := by
  induction p generalizing qs w with
  | ret a => exact hQ a qs w h
  | op e k ih =>
      intro qs' w' hl choice r w'' hperf
      obtain ⟨hinv, hrely, hk⟩ := h qs' w' hl choice r w'' hperf
      exact ⟨hinv, hrely, ih r hk⟩

/-- What holds of a program still holds after steps of the others. -/
theorem wp_later {p : Program R α} (hQ : ∀ a, G.Stable i (Q a)) (hl : G.Later i qs w qs' w')
    (h : wp M G i Q p qs w) : wp M G i Q p qs' w' := by
  cases p with
  | ret a => exact hQ a hl h
  | op e k => exact fun qs'' w'' hl' => h qs'' w'' (hl.trans hl')

/-- Sequencing. -/
theorem wp_bind {Q : β → List Req → W → Prop} {p : Program R α} {f : α → Program R β}
    (h : wp M G i (fun a => wp M G i Q (f a)) p qs w) : wp M G i Q (p.bind f) qs w := by
  induction p generalizing qs w with
  | ret a => exact h
  | op e k ih =>
      intro qs' w' hl choice r w'' hperf
      obtain ⟨hinv, hrely, hk⟩ := h qs' w' hl choice r w'' hperf
      exact ⟨hinv, hrely, ih r hk⟩

/-- One operation, from a stable precondition. -/
theorem wp_call {e : E} {Q : R e → List Req → W → Prop} {P : List Req → W → Prop}
    (hP : G.Stable i P) (hpre : P qs w)
    (hstep : ∀ qs w choice r w', G.inv qs w → P qs w → M.perform i w e choice = some (r, w') →
      G.inv qs w' ∧ (∀ j ≠ i, G.rely j w w') ∧ Q r qs w') :
    wp M G i Q (Program.call e) qs w :=
  fun qs' w' hl choice r w'' hperf => hstep qs' w' choice r w'' hl.inv (hP hl hpre) hperf

/-! ### Programs that throw -/

/-- `Q` of a value, `X` of an exception. -/
def outcome (Q : α → List Req → W → Prop) (X : ε → List Req → W → Prop) :
    Except ε α → List Req → W → Prop
  | .ok a => Q a
  | .error e => X e

/-- What holds on both ways out. -/
theorem outcome_and {P : List Req → W → Prop} {Q : α → List Req → W → Prop}
    {X : ε → List Req → W → Prop} (result : Except ε α) (qs : List Req) (w : W) :
    outcome (fun a qs w => P qs w ∧ Q a qs w) (fun e qs w => P qs w ∧ X e qs w) result qs w ↔
      P qs w ∧ outcome Q X result qs w := by
  cases result with
  | ok a => exact Iff.rfl
  | error e => exact Iff.rfl

/-- The weakest precondition of a program that may throw: `Q` if it returns, `X` if it throws. -/
def wpE (M : Machine R W C B) (G : Discipline Req W) (i : Nat) (Q : α → List Req → W → Prop)
    (X : ε → List Req → W → Prop) (x : ExceptT ε (Program R) α) : List Req → W → Prop :=
  wp M G i (outcome Q X) x.run

variable {X X' : ε → List Req → W → Prop}

/-- Returning a value. -/
theorem wpE_pure {a : α} (h : Q a qs w) :
    wpE M G i Q X (pure a : ExceptT ε (Program R) α) qs w := h

/-- Throwing an exception. -/
theorem wpE_throw {e : ε} (h : X e qs w) :
    wpE M G i Q X (throw e : ExceptT ε (Program R) α) qs w := h

/-- Stronger postconditions are enough. -/
theorem wpE_mono {x : ExceptT ε (Program R) α} (hQ : ∀ a qs w, Q a qs w → Q' a qs w)
    (hX : ∀ e qs w, X e qs w → X' e qs w) (h : wpE M G i Q X x qs w) :
    wpE M G i Q' X' x qs w := by
  refine wp_mono (fun r qs w hr => ?_) h
  cases r with
  | ok a => exact hQ a qs w hr
  | error e => exact hX e qs w hr

/-- Sequencing. -/
theorem wpE_bind {Q : β → List Req → W → Prop} {x : ExceptT ε (Program R) α}
    {f : α → ExceptT ε (Program R) β} (h : wpE M G i (fun a => wpE M G i Q X (f a)) X x qs w) :
    wpE M G i Q X (x >>= f) qs w := by
  refine wp_bind (wp_mono (fun r qs w hr => ?_) h)
  cases r with
  | ok a => exact hr
  | error e => exact hr

/-- Catching: the handler has to give `Q` from what holds of the exception. -/
theorem wpE_tryCatch {x : ExceptT ε (Program R) α} {handle : ε → ExceptT ε (Program R) α}
    (h : wpE M G i Q (fun e => wpE M G i Q X (handle e)) x qs w) :
    wpE M G i Q X (tryCatch x handle) qs w := by
  refine wp_bind (wp_mono (fun r qs w hr => ?_) h)
  cases r with
  | ok a => exact hr
  | error e => exact hr

/-- A destructor that runs on both ways out. -/
theorem wpE_andFinally {x : ExceptT ε (Program R) α} {cleanup : Program R Unit}
    (hclean : ∀ r qs w, outcome Q' X' r qs w →
      wp M G i (fun _ => outcome Q X r) cleanup qs w)
    (h : wpE M G i Q' X' x qs w) : wpE M G i Q X (Program.andFinally x cleanup) qs w :=
  wp_bind (wp_mono (fun r qs w hr => wp_bind (hclean r qs w hr)) h)

/-! ### From one program to the system -/

/-- The answers in `before` satisfy their postconditions. -/
def Answered (post : Nat → Req → List (Req × α) → α → List Req → W → Prop)
    (before : List (Req × α)) (qs : List Req) (w : W) : Prop :=
  ∀ x ∈ before, ∃ j earlier, qs[j]? = some x.1 ∧ post j x.1 earlier x.2 qs w

/-- What has to be shown of a machine and the programs of its requests: the invariant holds at the
start and the world keeps it, and a program that starts meets its postcondition, given that the
programs which finished before met theirs. -/
structure Correct (M : Machine R W C B) (G : Discipline Req W) (body : Req → Program R α)
    (post : Nat → Req → List (Req × α) → α → List Req → W → Prop) : Prop where
  start : G.inv [] M.start
  background : ∀ {qs w b w'}, G.inv qs w → M.background w b = some w' →
    G.inv qs w' ∧ ∀ i, G.rely i w w'
  stable : ∀ i q before a, G.Stable i (post i q before a)
  spawn : ∀ {qs w before} (q : Req), G.inv qs w → Answered post before qs w →
    G.inv (qs ++ [q]) w ∧
      wp M G qs.length (post qs.length q before) (body q) (qs ++ [q]) w

/-- The invariant of the whole system: that of the world, and of each program that the rest of it
meets its postcondition. -/
structure Config.Good (M : Machine R W C B) (G : Discipline Req W)
    (post : Nat → Req → List (Req × α) → α → List Req → W → Prop) (c : Config R W Req α) :
    Prop where
  inv : G.inv c.requests c.world
  procs : ∀ i p, c.procs[i]? = some p →
    wp M G i (post i p.request p.before) p.prog c.requests c.world

variable {body : Req → Program R α}
  {post : Nat → Req → List (Req × α) → α → List Req → W → Prop} {c : Config R W Req α}

/-- The `i`-th request is that of the `i`-th program. -/
theorem Config.getElem?_requests (c : Config R W Req α) (i : Nat) :
    c.requests[i]? = c.procs[i]?.map Proc.request := by
  simp [Config.requests]

/-- An answered request meets its postcondition. -/
theorem Config.Good.met (h : c.Good M G post) {p : Proc R Req α} {a : α}
    (hp : c.procs[i]? = some p) (ha : p.prog = .ret a) :
    post i p.request p.before a c.requests c.world := by
  have hwp := h.procs i p hp
  rw [ha] at hwp
  exact hwp

/-- The answered requests have met their postconditions. -/
theorem Config.Good.answered (h : c.Good M G post) : Answered post c.answers c.requests c.world := by
  intro x hx
  obtain ⟨p, hp, hx⟩ := List.mem_filterMap.mp hx
  obtain ⟨j, hj⟩ := List.mem_iff_getElem?.mp hp
  obtain ⟨q, before, prog⟩ := p
  cases prog with
  | op e k => cases hx
  | ret a =>
      cases hx
      exact ⟨j, before, by rw [Config.getElem?_requests, hj]; rfl, h.met hj rfl⟩

/-- A request arrives. -/
theorem Config.Good.spawn (hc : Correct M G body post) (h : c.Good M G post) (q : Req) :
    Config.Good M G post (⟨c.world, c.procs ++ [⟨q, c.answers, body q⟩]⟩ : Config R W Req α) := by
  obtain ⟨hinv, hwp⟩ := hc.spawn q h.inv h.answered
  have hreq : (⟨c.world, c.procs ++ [⟨q, c.answers, body q⟩]⟩ : Config R W Req α).requests =
      c.requests ++ [q] := by
    simp [Config.requests]
  refine ⟨by rw [hreq]; exact hinv, fun j p hj => ?_⟩
  rw [hreq]
  simp only [List.getElem?_append] at hj
  split at hj
  · exact wp_later (hc.stable j p.request p.before)
      ⟨List.prefix_append _ _, G.refl _ _, hinv⟩ (h.procs j p hj)
  · have hj0 : j = c.procs.length := by
      have := (List.getElem?_eq_some_iff.mp hj).1
      simp only [List.length_singleton] at this
      omega
    subst hj0
    simp only [Nat.sub_self, List.getElem?_cons_zero, Option.some.injEq] at hj
    subst hj
    simpa [Config.requests] using hwp

/-- A program takes a step. -/
theorem Config.Good.step (hc : Correct M G body post) (h : c.Good M G post) {q : Req}
    {before : List (Req × α)} {e : E} {k : R e → Program R α} {choice : C} {r : R e} {w' : W}
    (hi : c.procs[i]? = some ⟨q, before, .op e k⟩)
    (hperf : M.perform i c.world e choice = some (r, w')) :
    Config.Good M G post (⟨w', c.procs.set i ⟨q, before, k r⟩⟩ : Config R W Req α) := by
  obtain ⟨hinv, hrely, hk⟩ := h.procs i _ hi _ _ ⟨List.prefix_rfl, G.refl _ _, h.inv⟩ _ _ _ hperf
  have hreq : (⟨w', c.procs.set i ⟨q, before, k r⟩⟩ : Config R W Req α).requests =
      c.requests := by
    apply List.ext_getElem?
    intro j
    simp only [Config.getElem?_requests, List.getElem?_set]
    split
    · subst j
      rw [hi]
      split
      · rfl
      · rename_i hlt
        exact absurd (List.getElem?_eq_some_iff.mp hi).1 hlt
    · rfl
  refine ⟨by rw [hreq]; exact hinv, fun j p hj => ?_⟩
  rw [hreq]
  simp only [List.getElem?_set] at hj
  split at hj
  · subst j
    split at hj
    · cases hj
      exact hk
    · cases hj
  · rename_i hne
    exact wp_later (hc.stable j p.request p.before)
      ⟨List.prefix_rfl, hrely j (Ne.symm hne), hinv⟩ (h.procs j p hj)

/-- The world moves. -/
theorem Config.Good.background (hc : Correct M G body post) (h : c.Good M G post) {b : B} {w' : W}
    (hb : M.background c.world b = some w') :
    Config.Good M G post (⟨w', c.procs⟩ : Config R W Req α) := by
  obtain ⟨hinv, hrely⟩ := hc.background h.inv hb
  exact ⟨hinv, fun j p hj => wp_later (hc.stable j p.request p.before)
    ⟨List.prefix_rfl, hrely j, hinv⟩ (h.procs j p hj)⟩

/-- Programs that are right one by one are right together, in every order of their operations. -/
theorem Correct.reachable (hc : Correct M G body post) (h : (M.system body).Reachable c) :
    c.Good M G post := by
  refine System.Invariant.reachable (S := M.system body) ⟨?_, ?_⟩ h
  · rintro _ rfl
    exact ⟨hc.start, fun i p hp => by cases hp⟩
  · intro s a s' _ hs hstep
    change M.next body s a = some s' at hstep
    cases a with
    | spawn q =>
        cases hstep
        exact hs.spawn hc q
    | step i choice =>
        obtain ⟨q, before, e, k, r, w', hi, hperf, rfl⟩ := Machine.next_step hstep
        exact hs.step hc hi hperf
    | background b =>
        obtain ⟨w', hb, rfl⟩ := Option.map_eq_some_iff.mp hstep
        exact hs.background hc hb

/-! ### What a request that does not move may rely on -/

variable {c' : Config R W Req α}

/-- A step of another is one that a program relies on. -/
theorem Config.Good.rely_next (hc : Correct M G body post) (h : c.Good M G post)
    {a : Act Req C B} (hstep : M.next body c a = some c') {j : Nat}
    (hj : ∀ choice, a ≠ .step j choice) : G.rely j c.world c'.world := by
  cases a with
  | spawn q =>
      cases hstep
      exact G.refl _ _
  | step i choice =>
      obtain ⟨q, before, e, k, r, w', hi, hperf, rfl⟩ := Machine.next_step hstep
      have hne : j ≠ i := fun hji => hj choice (hji ▸ rfl)
      exact (h.procs i _ hi _ _ ⟨List.prefix_rfl, G.refl _ _, h.inv⟩ _ _ _ hperf).2.1 j hne
  | background b =>
      obtain ⟨w', hb, rfl⟩ := Option.map_eq_some_iff.mp hstep
      exact (hc.background h.inv hb).2 j

/-- A step leaves the answered requests where they are. -/
theorem Machine.next_returned {M : Machine R W C B} {a : Act Req C B}
    (hstep : M.next body c a = some c') {j : Nat} {p : Proc R Req α} {x : α}
    (hp : c.procs[j]? = some p) (hx : p.prog = .ret x) :
    c'.procs[j]? = some p ∧ ∀ choice, a ≠ .step j choice := by
  cases a with
  | spawn q =>
      cases hstep
      refine ⟨?_, fun choice h => by cases h⟩
      rw [List.getElem?_append_left (List.getElem?_eq_some_iff.mp hp).1]
      exact hp
  | step i choice =>
      obtain ⟨q, before, e, k, r, w', hi, hperf, rfl⟩ := Machine.next_step hstep
      have hne : i ≠ j := by
        rintro rfl
        rw [hi] at hp
        cases hp
        cases hx
      refine ⟨(List.getElem?_set_ne hne).trans hp, fun choice h => ?_⟩
      cases h
      exact hne rfl
  | background b =>
      obtain ⟨w', hb, rfl⟩ := Option.map_eq_some_iff.mp hstep
      exact ⟨hp, fun choice h => by cases h⟩

/-- An answered request stays, and what it relied on holds for the rest of the run. -/
theorem Correct.returned (hc : Correct M G body post) (hr : (M.system body).Reachable c)
    (hl : (M.system body).Leads c c') {j : Nat} {p : Proc R Req α} {x : α}
    (hp : c.procs[j]? = some p) (hx : p.prog = .ret x) :
    c'.procs[j]? = some p ∧ G.rely j c.world c'.world := by
  refine System.Leads.invariant
    (I := fun s : Config R W Req α => s.procs[j]? = some p ∧ G.rely j c.world s.world)
    ?_ hl hr ⟨hp, G.refl _ _⟩
  rintro s a s' hs ⟨hsp, hrely⟩ hstep
  obtain ⟨hsp', hother⟩ := Machine.next_returned hstep hsp hx
  exact ⟨hsp', G.trans hrely ((hc.reachable hs).rely_next hc hstep hother)⟩

/-- Requests do not disappear. -/
theorem Machine.length_next {M : Machine R W C B} {a : Act Req C B}
    (hstep : M.next body c a = some c') : c.procs.length ≤ c'.procs.length := by
  cases a with
  | spawn q =>
      cases hstep
      simp
  | step i choice =>
      obtain ⟨q, before, e, k, r, w', -, -, rfl⟩ := Machine.next_step hstep
      simp
  | background b =>
      obtain ⟨w', hb, rfl⟩ := Option.map_eq_some_iff.mp hstep
      exact le_rfl

/-- What a request that has not arrived at the end of a run could have relied on. -/
theorem Correct.absent (hc : Correct M G body post) (hr : (M.system body).Reachable c)
    (hl : (M.system body).Leads c c') {j : Nat} (hj : c'.procs.length ≤ j) :
    G.rely j c.world c'.world := by
  refine System.Leads.invariant
    (I := fun s : Config R W Req α => s.procs.length ≤ j → G.rely j c.world s.world)
    ?_ hl hr (fun _ => G.refl _ _) hj
  intro s a s' hs hrely hstep hlen
  have hlen' := (Machine.length_next hstep).trans hlen
  refine G.trans (hrely hlen') ((hc.reachable hs).rely_next hc hstep ?_)
  rintro choice rfl
  change M.next body s (.step j choice) = some s' at hstep
  simp only [Machine.next, List.getElem?_eq_none hlen', reduceCtorEq] at hstep

end logic

end SocialNetwork.Foundation
