import SocialNetwork.Foundation.Program

/-!
# Programs over more operations

Programs that issue the operations `E` run on a machine with more operations, if each of theirs
stands for one of the machine. `Program.along` translates the program, and `Extends` says that the
larger machine does with the translated operation what the smaller one does with the original, and
that its requests, seen through `φ`, are the requests of the smaller one. Then `wp_along` carries
what was proved of the program on the smaller machine to the larger one, so that new kinds of
requests can join a system without a new proof for those already there.
-/

namespace SocialNetwork.Foundation

section lifting

variable {E E' : Type} {R : E → Type} {R' : E' → Type} {α W C B Req Req₀ : Type}

/-- The program with each operation `e` replaced by `f e`, and the answers translated back. -/
def Program.along (f : E → E') (g : ∀ e, R' (f e) → R e) : Program R α → Program R' α
  | .ret a => .ret a
  | .op e k => .op (f e) fun r => (k (g e r)).along f g

/-- A translated program goes on with the translation of the rest. -/
theorem Program.along_bind {β : Type} (f : E → E') (g : ∀ e, R' (f e) → R e) (p : Program R α)
    (q : α → Program R β) : (p.bind q).along f g = (p.along f g).bind fun a => (q a).along f g := by
  induction p with
  | ret a => rfl
  | op e k ih => exact congrArg _ (funext fun r => ih (g e r))

/-- A translated program ends as the program does with the answers translated back. -/
theorem Program.eval_along (f : E → E') (g : ∀ e, R' (f e) → R e) (answer : (e : E') → R' e)
    (p : Program R α) : (p.along f g).eval answer = p.eval fun e => g e (answer (f e)) := by
  induction p with
  | ret a => rfl
  | op e k ih => exact ih _

/-! ### Translations -/

/-- A translation of programs that goes part by part. -/
structure Translation (R : E → Type) (R' : E' → Type) where
  map : {α : Type} → Program R α → Program R' α
  map_ret : ∀ {α : Type} (a : α), map (.ret a) = .ret a
  map_bind : ∀ {α β : Type} (p : Program R α) (q : α → Program R β),
    map (p.bind q) = (map p).bind fun a => map (q a)

/-- `Program.along`. -/
def Translation.along (f : E → E') (g : ∀ e, R' (f e) → R e) : Translation R R' where
  map p := p.along f g
  map_ret _ := rfl
  map_bind := Program.along_bind f g

namespace Translation

variable {ε β : Type} (T : Translation R R')

/-- The translation of a program that may throw. -/
def mapE (x : ExceptT ε (Program R) α) : ExceptT ε (Program R') α := ExceptT.mk (T.map x.run)

/-- Returning a value. -/
theorem mapE_pure (a : α) :
    T.mapE (pure a : ExceptT ε (Program R) α) = pure a := T.map_ret _

/-- Throwing an exception. -/
theorem mapE_throw (e : ε) :
    T.mapE (throw e : ExceptT ε (Program R) α) = throw e := T.map_ret _

/-- One program after another. -/
theorem mapE_bind (x : ExceptT ε (Program R) α) (q : α → ExceptT ε (Program R) β) :
    T.mapE (x >>= q) = T.mapE x >>= fun a => T.mapE (q a) := by
  refine (T.map_bind x.run _).trans (congrArg (Program.bind _) (funext fun r => ?_))
  cases r with
  | ok a => rfl
  | error e => exact T.map_ret _

/-- A handler and the program before it. -/
theorem mapE_tryCatch (x : ExceptT ε (Program R) α) (handle : ε → ExceptT ε (Program R) α) :
    T.mapE (tryCatch x handle) = tryCatch (T.mapE x) fun e => T.mapE (handle e) := by
  refine (T.map_bind x.run _).trans (congrArg (Program.bind _) (funext fun r => ?_))
  cases r with
  | ok a => exact T.map_ret _
  | error e => rfl

/-- A destructor and the program before it. -/
theorem mapE_andFinally (x : ExceptT ε (Program R) α) (cleanup : Program R Unit) :
    T.mapE (Program.andFinally x cleanup) = Program.andFinally (T.mapE x) (T.map cleanup) := by
  refine (T.map_bind x.run _).trans (congrArg (Program.bind _) (funext fun r => ?_))
  refine (T.map_bind cleanup _).trans (congrArg (Program.bind _) (funext fun u => ?_))
  exact T.map_ret _

end Translation

/-! ### Larger machines -/

/-- The machine `M` with the discipline `G` does what `M₀` with `G₀` does, and perhaps more. -/
structure Extends (f : E → E') (g : ∀ e, R' (f e) → R e) (φ : Req → Req₀) (M₀ : Machine R W C B)
    (G₀ : Discipline Req₀ W) (M : Machine R' W C B) (G : Discipline Req W) : Prop where
  perform : ∀ {i w e choice r w'}, M.perform i w (f e) choice = some (r, w') →
    M₀.perform i w e choice = some (g e r, w')
  inv : ∀ {qs w}, G.inv qs w ↔ G₀.inv (qs.map φ) w
  rely : ∀ {i w w'}, G.rely i w w' ↔ G₀.rely i w w'

variable {f : E → E'} {g : ∀ e, R' (f e) → R e} {φ : Req → Req₀} {M₀ : Machine R W C B}
  {G₀ : Discipline Req₀ W} {M : Machine R' W C B} {G : Discipline Req W} {i : Nat}
  {qs qs' : List Req} {w w' : W}

/-- What others can do on the larger machine, they can do on the smaller one. -/
theorem Extends.later (h : Extends f g φ M₀ G₀ M G) (hl : G.Later i qs w qs' w') :
    G₀.Later i (qs.map φ) w (qs'.map φ) w' where
  requests := hl.requests.map φ
  world := h.rely.mp hl.world
  inv := h.inv.mp hl.inv

/-- An assertion that is stable on the smaller machine is stable on the larger one. -/
theorem Extends.stable (h : Extends f g φ M₀ G₀ M G) {P : List Req₀ → W → Prop}
    (hP : G₀.Stable i P) : G.Stable i fun qs w => P (qs.map φ) w :=
  fun _ _ _ _ hl hp => hP (h.later hl) hp

/-- **What was proved of a program on the smaller machine holds on the larger one.** -/
theorem wp_along (h : Extends f g φ M₀ G₀ M G) {Q : α → List Req₀ → W → Prop} {p : Program R α}
    (hp : wp M₀ G₀ i Q p (qs.map φ) w) :
    wp M G i (fun a qs w => Q a (qs.map φ) w) (p.along f g) qs w := by
  induction p generalizing qs w with
  | ret a => exact hp
  | op e k ih =>
      intro qs' w' hl choice r w'' hperf
      obtain ⟨hinv, hrely, hk⟩ := hp _ w' (h.later hl) choice _ w'' (h.perform hperf)
      exact ⟨h.inv.mpr hinv, fun j hj => h.rely.mpr (hrely j hj), ih _ hk⟩

end lifting

end SocialNetwork.Foundation
