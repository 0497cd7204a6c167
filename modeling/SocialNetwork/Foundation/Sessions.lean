import SocialNetwork.Foundation.Lifting
import SocialNetwork.Foundation.Termination
import Mathlib.Order.Lattice.Nat

/-!
# Sessions

What one program may do with a shared resource in which order: a `Protocol` is an automaton over
operations, whose states are those of a session (no connection, a connection, a transaction on it),
and `Program.Keeps` says that a program keeps to it, makes at most `n` operations, and returns in a
state that its answer allows. This is a statement about a program alone, with one rule for each way
programs are put together.

`Tracks` says how the session of each request shows in the world. Then every request of a system is
in a session that shows (`inSession_reachable`), whatever the order of steps, and

* the steps of the requests that have arrived come to an end (`own_terminating`), and no request
  takes more than `bound` of them (`steps_le`);
* where they end, every request has its answer (`Config.answered_of_quiet`), and has left its session
  in a state that this answer allows (`InSession.ended`).
-/

namespace SocialNetwork.Foundation

section protocol

variable {E : Type} {R : E → Type} {S α β ε : Type}

/-- What a session allows in each of its states, and where the result of an operation leads. -/
structure Protocol (R : E → Type) (S : Type) where
  allowed : S → E → Prop
  next : S → (e : E) → R e → S

namespace Program

/-- The program makes at most `n` operations. -/
def Within : Program R α → Nat → Prop
  | .ret _, _ => True
  | .op _ k, n => 0 < n ∧ ∀ r, (k r).Within (n - 1)

/-- From the session state `s`, the program keeps to the protocol, makes at most `n` operations, and
returns in a state with `Q`. -/
def Keeps (P : Protocol R S) (Q : α → S → Prop) : Program R α → Nat → S → Prop
  | .ret a, _, s => Q a s
  | .op e k, n, s => 0 < n ∧ P.allowed s e ∧ ∀ r, (k r).Keeps P Q (n - 1) (P.next s e r)

variable {P : Protocol R S} {Q Q' : α → S → Prop} {n m : Nat} {s : S}

/-- A program that keeps to the protocol makes at most so many calls. -/
theorem Keeps.within {p : Program R α} (h : p.Keeps P Q n s) : p.Within n := by
  induction p generalizing n s with
  | ret a => trivial
  | op e k ih => exact ⟨h.1, fun r => ih r (h.2.2 r)⟩

/-- More operations and a weaker postcondition. -/
theorem Keeps.mono {p : Program R α} (h : p.Keeps P Q n s) (hn : n ≤ m)
    (hQ : ∀ a s, Q a s → Q' a s) : p.Keeps P Q' m s := by
  induction p generalizing n m s with
  | ret a => exact hQ a s h
  | op e k ih =>
      exact ⟨h.1.trans_le hn, h.2.1, fun r => ih r (h.2.2 r) (Nat.sub_le_sub_right hn 1)⟩

/-- One operation. -/
theorem keeps_call {e : E} {Q : R e → S → Prop} (he : P.allowed s e)
    (hQ : ∀ r, Q r (P.next s e r)) : (call e).Keeps P Q 1 s :=
  ⟨Nat.one_pos, he, hQ⟩

/-- Sequencing. -/
theorem Keeps.bind {Q : β → S → Prop} {p : Program R α} {f : α → Program R β}
    (h : p.Keeps P (fun a s => (f a).Keeps P Q m s) n s) : (p.bind f).Keeps P Q (n + m) s := by
  induction p generalizing n s with
  | ret a => exact Keeps.mono h (Nat.le_add_left m n) fun _ _ hq => hq
  | op e k ih =>
      obtain ⟨hn, he, hk⟩ := h
      refine ⟨by omega, he, fun r => ?_⟩
      rw [show n + m - 1 = n - 1 + m by omega]
      exact ih r (hk r)

/-- A program that runs on a machine with more operations. -/
theorem Keeps.along {E' : Type} {R' : E' → Type} {P' : Protocol R' S} {f : E → E'}
    {g : ∀ e, R' (f e) → R e} (hallowed : ∀ {s e}, P.allowed s e → P'.allowed s (f e))
    (hnext : ∀ {s e r}, P'.next s (f e) r = P.next s e (g e r)) {p : Program R α}
    (h : p.Keeps P Q n s) : (p.along f g).Keeps P' Q n s := by
  induction p generalizing n s with
  | ret a => exact h
  | op e k ih =>
      refine ⟨h.1, hallowed h.2.1, fun r => ?_⟩
      rw [hnext]
      exact ih _ (h.2.2 _)

/-! ### Programs that throw -/

/-- `Q` of a value, `X` of an exception. -/
def ends (Q : α → S → Prop) (X : ε → S → Prop) : Except ε α → S → Prop
  | .ok a, s => Q a s
  | .error e, s => X e s

/-- `Keeps` of a program that may throw: `Q` if it returns, `X` if it throws. -/
def KeepsE (P : Protocol R S) (Q : α → S → Prop) (X : ε → S → Prop)
    (x : ExceptT ε (Program R) α) (n : Nat) (s : S) : Prop :=
  x.run.Keeps P (ends Q X) n s

variable {X X' : ε → S → Prop}

/-- A weaker bound and weaker postconditions. -/
theorem keepsE_mono {x : ExceptT ε (Program R) α} (h : KeepsE P Q X x n s) (hn : n ≤ m)
    (hQ : ∀ a s, Q a s → Q' a s) (hX : ∀ e s, X e s → X' e s) : KeepsE P Q' X' x m s := by
  refine Keeps.mono h hn fun r s hr => ?_
  cases r with
  | ok a => exact hQ a s hr
  | error e => exact hX e s hr

/-- One operation that may throw. -/
theorem keepsE_call (e : E) (result : R e → Except ε α) (he : P.allowed s e)
    (hQ : ∀ r, ends Q X (result r) (P.next s e r)) :
    KeepsE P Q X (ExceptT.mk (.op e fun r => .ret (result r))) 1 s :=
  ⟨Nat.one_pos, he, hQ⟩

/-- Sequencing. -/
theorem keepsE_bind {Q : β → S → Prop} {x : ExceptT ε (Program R) α}
    {f : α → ExceptT ε (Program R) β} (h : KeepsE P (fun a s => KeepsE P Q X (f a) m s) X x n s) :
    KeepsE P Q X (x >>= f) (n + m) s := by
  refine Keeps.bind (Keeps.mono h le_rfl fun r s hr => ?_)
  cases r with
  | ok a => exact hr
  | error e => exact hr

/-- Catching. -/
theorem keepsE_tryCatch {x : ExceptT ε (Program R) α} {handle : ε → ExceptT ε (Program R) α}
    (h : KeepsE P Q (fun e s => KeepsE P Q X (handle e) m s) x n s) :
    KeepsE P Q X (tryCatch x handle) (n + m) s := by
  refine Keeps.bind (Keeps.mono h le_rfl fun r s hr => ?_)
  cases r with
  | ok a => exact hr
  | error e => exact hr

/-- A destructor that runs on both ways out. -/
theorem keepsE_andFinally {x : ExceptT ε (Program R) α} {cleanup : Program R Unit}
    (h : KeepsE P (fun a s => cleanup.Keeps P (fun _ => Q a) m s)
      (fun e s => cleanup.Keeps P (fun _ => X e) m s) x n s) :
    KeepsE P Q X (andFinally x cleanup) (n + m) s := by
  refine Keeps.bind (Keeps.mono h le_rfl fun r s hr => ?_)
  refine Keeps.mono (Keeps.bind (m := 0) (n := m) (Q := ends Q X) (P := P) ?_) le_rfl
    fun _ _ hq => hq
  cases r with
  | ok a => exact hr
  | error e => exact hr

/-! ### What is left of a program -/

/-- The number of operations a program may still make. -/
noncomputable def remaining (p : Program R α) : Nat := sInf {n | p.Within n}

/-- At most so many calls remain. -/
theorem remaining_le {p : Program R α} (h : p.Within n) : p.remaining ≤ n := Nat.sInf_le h

/-- No calls remain of a program that has returned. -/
@[simp] theorem remaining_ret (a : α) : (Program.ret a : Program R α).remaining = 0 :=
  Nat.le_zero.mp (remaining_le (n := 0) trivial)

/-- Every operation brings the end nearer. -/
theorem remaining_lt {e : E} {k : R e → Program R α} (h : (Program.op e k).Within n) (r : R e) :
    (k r).remaining < (Program.op e k).remaining := by
  have hmin : (Program.op e k).Within (Program.op e k).remaining :=
    Nat.sInf_mem (s := {n | (Program.op e k).Within n}) ⟨n, h⟩
  have hle := remaining_le (hmin.2 r)
  have hpos := hmin.1
  omega

end Program

end protocol

/-! ## Sessions of a system -/

section system

variable {E : Type} {R : E → Type} {S W C B Req α : Type}

/-- How the session of each request shows in the world: an operation that the session allows leads
to a world that shows the session after it, and the sessions of the others as before. -/
structure Tracks (M : Machine R W C B) (P : Protocol R S) (start : S) (shows : Nat → S → W → Prop) :
    Prop where
  start : ∀ i, shows i start M.start
  perform : ∀ {i s w e choice r w'}, shows i s w → P.allowed s e →
    M.perform i w e choice = some (r, w') →
      shows i (P.next s e r) w' ∧ ∀ j, j ≠ i → ∀ t, shows j t w → shows j t w'
  background : ∀ {w b w'}, M.background w b = some w' → ∀ i s, shows i s w → shows i s w'

/-- Every request is in a session that shows, and has at most `bound` operations left to make; those
that have not arrived are at the start. -/
structure Config.InSession (P : Protocol R S) (start : S) (shows : Nat → S → W → Prop)
    (Q : Req → α → S → Prop) (bound : Nat) (c : Config R W Req α) : Prop where
  procs : ∀ (i : Nat) p, c.procs[i]? = some p →
    ∃ s n, n ≤ bound ∧ shows i s c.world ∧ p.prog.Keeps P (Q p.request) n s
  absent : ∀ i, c.procs.length ≤ i → shows i start c.world

/-- A step of a request. -/
def Act.Own : Act Req C B → Prop
  | .step _ _ => True
  | _ => False

/-- The system in which only the requests that have arrived take steps. -/
def Machine.ownSteps (M : Machine R W C B) (body : Req → Program R α) :
    System (Config R W Req α) (Act Req C B) :=
  (M.system body).guarded fun _ a => a.Own

/-- What is left of all programs. -/
noncomputable def Config.remaining (c : Config R W Req α) : Nat :=
  (c.procs.map fun p => p.prog.remaining).sum

variable {M : Machine R W C B} {P : Protocol R S} {start : S} {shows : Nat → S → W → Prop}
  {body : Req → Program R α} {Q : Req → α → S → Prop} {bound : Nat} {c c' : Config R W Req α}

/-- Every step keeps all requests in session. -/
theorem Config.InSession.next (ht : Tracks M P start shows)
    (hbody : ∀ q, (body q).Keeps P (Q q) bound start) (h : c.InSession P start shows Q bound)
    {a : Act Req C B} (hstep : M.next body c a = some c') : c'.InSession P start shows Q bound := by
  cases a with
  | spawn q =>
      cases hstep
      refine ⟨fun i p hp => ?_, fun i hi => h.absent i ?_⟩
      · simp only [List.getElem?_append] at hp
        split at hp
        · exact h.procs i p hp
        · rename_i hi
          obtain rfl := List.mem_singleton.mp (List.mem_of_getElem? hp)
          exact ⟨start, bound, le_rfl, h.absent i (Nat.le_of_not_lt hi), hbody q⟩
      · exact (by simp : c.procs.length ≤ _).trans hi
  | step i choice =>
      obtain ⟨q, before, e, k, r, w', hi, hperf, rfl⟩ := Machine.next_step hstep
      obtain ⟨s, n, hn, hs, hpos, he, hk⟩ := h.procs i _ hi
      obtain ⟨hown, hother⟩ := ht.perform hs he hperf
      refine ⟨fun j p hp => ?_, fun j hj => ?_⟩
      · by_cases hji : i = j
        · subst hji
          rw [List.getElem?_set_self (List.getElem?_eq_some_iff.mp hi).1] at hp
          cases hp
          exact ⟨_, n - 1, (Nat.sub_le n 1).trans hn, hown, hk r⟩
        · rw [List.getElem?_set_ne hji] at hp
          obtain ⟨t, m, hm, ht', hkeeps⟩ := h.procs j p hp
          exact ⟨t, m, hm, hother j (Ne.symm hji) t ht', hkeeps⟩
      · rw [List.length_set] at hj
        have hlt := (List.getElem?_eq_some_iff.mp hi).1
        exact hother j (by omega) start (h.absent j hj)
  | background b =>
      obtain ⟨w', hb, rfl⟩ := Option.map_eq_some_iff.mp hstep
      refine ⟨fun i p hp => ?_, fun i hi => ht.background hb i start (h.absent i hi)⟩
      obtain ⟨s, n, hn, hs, hkeeps⟩ := h.procs i p hp
      exact ⟨s, n, hn, ht.background hb i s hs, hkeeps⟩

/-- Programs that keep to the protocol one by one keep to it together. -/
theorem inSession_reachable (ht : Tracks M P start shows)
    (hbody : ∀ q, (body q).Keeps P (Q q) bound start) (hc : (M.system body).Reachable c) :
    c.InSession P start shows Q bound := by
  refine System.Invariant.reachable (S := M.system body) ⟨?_, ?_⟩ hc
  · rintro _ rfl
    exact ⟨fun i p hp => (by cases hp), fun i _ => ht.start i⟩
  · intro s a s' _ hs hstep
    exact hs.next ht hbody hstep

/-- An answered request is in a state of its session that its answer allows. -/
theorem Config.InSession.ended (h : c.InSession P start shows Q bound) {i : Nat} {q : Req}
    {before : List (Req × α)} {a : α} (hp : c.procs[i]? = some ⟨q, before, .ret a⟩) :
    ∃ s, shows i s c.world ∧ Q q a s := by
  obtain ⟨s, n, -, hs, hq⟩ := h.procs i _ hp
  exact ⟨s, hs, hq⟩

/-! ### Requests come to an end -/

/-- Every step of a request leaves less to do. -/
theorem own_terminating (ht : Tracks M P start shows)
    (hbody : ∀ q, (body q).Keeps P (Q q) bound start) :
    (M.ownSteps body).Terminating (fun c => c.InSession P start shows Q bound)
      Config.remaining where
  keeps c a c' h hstep := h.next ht hbody hstep.2
  lowers c a c' h hstep := by
    obtain ⟨hown, hstep⟩ := hstep
    cases a with
    | spawn q => exact hown.elim
    | background b => exact hown.elim
    | step i choice =>
        obtain ⟨q, before, e, k, r, w', hi, -, rfl⟩ := Machine.next_step hstep
        obtain ⟨s, n, -, -, hkeeps⟩ := h.procs i _ hi
        have hlt := Program.remaining_lt hkeeps.within r
        have hsum := sum_map_set (fun p : Proc R Req α => p.prog.remaining) hi ⟨q, before, k r⟩
        dsimp only [Config.remaining] at hsum ⊢
        omega

/-- The number of steps that requests have taken so far. -/
def countOwn (k : Nat) (_ : Config R W Req α) (a : Act Req C B) (_ : Config R W Req α) : Nat :=
  match a with
  | .step _ _ => k + 1
  | _ => k

/-- **No request takes more than `bound` steps**, in whatever order requests arrive, take steps and
the world moves: the steps taken, and those left, are at most `bound` for each request. -/
theorem steps_le (ht : Tracks M P start shows) (hbody : ∀ q, (body q).Keeps P (Q q) bound start)
    {k : Nat} (hc : ((M.system body).withHistory 0 countOwn).Reachable (c, k)) :
    k + c.remaining ≤ bound * c.procs.length := by
  refine System.Invariant.reachable (S := (M.system body).withHistory 0 countOwn)
    (I := fun p => p.2 + p.1.remaining ≤ bound * p.1.procs.length) ⟨?_, ?_⟩ hc
  · rintro ⟨c, k⟩ ⟨rfl, rfl⟩
    simp [Config.remaining]
  · rintro ⟨c, k⟩ a ⟨c', k'⟩ hr hle ⟨hstep, hk⟩
    have hsession := inSession_reachable ht hbody hr.of_withHistory
    change M.next body c a = some c' at hstep
    dsimp only at hle hk ⊢
    subst hk
    cases a with
    | spawn q =>
        cases hstep
        have hq := Program.remaining_le (hbody q).within
        simp only [countOwn, Config.remaining, List.map_append, List.map_cons, List.map_nil,
          List.sum_append, List.sum_singleton, List.length_append, List.length_singleton,
          Nat.mul_add, Nat.mul_one] at hle ⊢
        omega
    | step i choice =>
        have hlt := (own_terminating ht hbody).lowers c (.step i choice) c' hsession
          ⟨trivial, hstep⟩
        obtain ⟨q, before, e, k, r, w', -, -, rfl⟩ := Machine.next_step hstep
        simp only [countOwn, List.length_set] at hle ⊢
        omega
    | background b =>
        obtain ⟨w', -, rfl⟩ := Option.map_eq_some_iff.mp hstep
        exact hle

/-- Where no request can take a step, all of them are answered. -/
theorem Config.answered_of_quiet
    (hM : ∀ i w e, ∃ choice r w', M.perform i w e choice = some (r, w'))
    (hq : (M.ownSteps body).Quiet c) {p : Proc R Req α} (hp : p ∈ c.procs) :
    ∃ a, p.prog = .ret a := by
  obtain ⟨i, hi⟩ := List.mem_iff_getElem?.mp hp
  obtain ⟨q, before, prog⟩ := p
  cases prog with
  | ret a => exact ⟨a, rfl⟩
  | op e k =>
      obtain ⟨choice, r, w', hperf⟩ := hM i c.world e
      have hstep : M.next body c (.step i choice) =
          some ⟨w', c.procs.set i ⟨q, before, k r⟩⟩ := by
        simp only [Machine.next, hi, hperf, Option.map_some]
      exact absurd ⟨trivial, hstep⟩ (hq (.step i choice) _)

end system

/-! ## What requests own -/

section owners

variable {α β : Type*}

/-- One of the first `n` places counts once. -/
theorem sum_range_indicator (k n : Nat) :
    ((List.range n).map fun i => if i = k then 1 else 0).sum = if k < n then 1 else 0 := by
  induction n with
  | zero => simp
  | succ n ih =>
      rw [List.range_succ, List.map_append, List.sum_append, ih, List.map_singleton,
        List.sum_singleton]
      split_ifs <;> omega

/-- A list, counted by the owners of its elements. -/
theorem length_eq_sum_owned {owner : α → Nat} {l : List α} {n : Nat} (h : ∀ a ∈ l, owner a < n) :
    l.length = ((List.range n).map fun i => (l.filter fun a => owner a = i).length).sum := by
  induction l with
  | nil => simp
  | cons a l ih =>
      have hone : ((List.range n).map fun i => if i = owner a then 1 else 0).sum = 1 := by
        rw [sum_range_indicator, if_pos (h a List.mem_cons_self)]
      have hcons : ∀ i, ((a :: l).filter fun a => owner a = i).length =
          (if i = owner a then 1 else 0) + (l.filter fun a => owner a = i).length := by
        intro i
        by_cases hi : i = owner a
        · simp [hi, Nat.add_comm]
        · simp [hi, Ne.symm hi]
      simp only [hcons, List.length_cons, List.sum_map_add, hone]
      rw [← ih fun a ha => h a (List.mem_cons_of_mem _ ha), Nat.add_comm]

variable {procs : List β} {f : Nat → Nat} {p q : β → Bool}

/-- Each of these owns something. -/
theorem countP_le_sum (h : ∀ (i : Nat) b, procs[i]? = some b → p b = true → 1 ≤ f i) :
    procs.countP p ≤ ((List.range procs.length).map f).sum := by
  induction procs using List.reverseRecOn with
  | nil => simp
  | append_singleton procs b ih =>
      have hlast := h procs.length b (by simp)
      have hrest := ih fun i b' hb => h i b' (by
        rw [List.getElem?_append_left (List.getElem?_eq_some_iff.mp hb).1]
        exact hb)
      simp only [List.countP_append, List.length_append, List.length_singleton, List.range_succ,
        List.map_append, List.sum_append, List.map_singleton, List.sum_singleton,
        List.countP_singleton]
      split
      · rename_i hb
        have := hlast hb
        omega
      · omega

/-- Only these own something, and no more than one thing each. -/
theorem sum_le_countP (h : ∀ (i : Nat) b, procs[i]? = some b →
      f i ≤ (if p b then 1 else 0) + if q b then 1 else 0) :
    ((List.range procs.length).map f).sum ≤ procs.countP p + procs.countP q := by
  induction procs using List.reverseRecOn with
  | nil => simp
  | append_singleton procs b ih =>
      have hlast := h procs.length b (by simp)
      have hrest := ih fun i b' hb => h i b' (by
        rw [List.getElem?_append_left (List.getElem?_eq_some_iff.mp hb).1]
        exact hb)
      simp only [List.countP_append, List.length_append, List.length_singleton, List.range_succ,
        List.map_append, List.sum_append, List.map_singleton, List.sum_singleton,
        List.countP_singleton]
      omega

end owners

end SocialNetwork.Foundation
