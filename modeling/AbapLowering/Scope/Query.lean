import AbapLowering.Error

/-!
# Questions about positions

A question about a unit is answered in steps, each of which may need the innermost scope around some
position. `Query` keeps these steps apart from how they are answered, and there are two ways:
`Query.direct` walks the scope graph each time, and `Query.run` first tries the scope found last. The
latter remembers leaves only, since the stretch of any other scope also contains its children.
-/

namespace AbapLowering

/-- A question whose answer is an `α`. -/
inductive Query (α : Type) where
  | answer (a : α)
  | abort (why : Abort)
  /-- Find the innermost scope around a position, then go on. -/
  | locate (position : Position) (next : Option ScopeId → Query α)

namespace Query

variable {α β : Type}

/-- Answer one question after the other. -/
def andThen : Query α → (α → Query β) → Query β
  | .answer a, f => f a
  | .abort why, _ => .abort why
  | .locate position next, f => .locate position fun found => andThen (next found) f

instance : Monad Query where
  pure := .answer
  bind := andThen

/-- A walk through the scope graph as a question without further steps. -/
def ofWalk : Except GraphFault α → Query α
  | .ok a => .answer a
  | .error fault => .abort (.fault fault)

instance : MonadLift (Except GraphFault) Query := ⟨ofWalk⟩

/-- The innermost scope around a position. -/
def scopeAround (position : Position) : Query (Option ScopeId) :=
  .locate position .answer

@[simp] theorem pure_eq (a : α) : (pure a : Query α) = .answer a := rfl

@[simp] theorem answer_bind (a : α) (f : α → Query β) : .answer a >>= f = f a := rfl

@[simp] theorem abort_bind (why : Abort) (f : α → Query β) :
    .abort why >>= f = .abort why := rfl

/-- What follows a question waits for its answer. -/
@[simp] theorem locate_bind (position : Position) (next : Option ScopeId → Query α)
    (f : α → Query β) :
    .locate position next >>= f = .locate position fun found => next found >>= f := rfl

/-- Nothing is left to ask after the last answer. -/
theorem bind_answer (q : Query α) : q >>= .answer = q := by
  induction q with
  | answer a => rfl
  | abort why => rfl
  | locate position next ih => exact congrArg (locate position) (funext ih)

/-- Questions are asked one after the other. -/
theorem bind_assoc {γ : Type} (q : Query α) (f : α → Query β) (g : β → Query γ) :
    q >>= f >>= g = q >>= fun a => f a >>= g := by
  induction q with
  | answer a => rfl
  | abort why => rfl
  | locate position next ih => exact congrArg (locate position) (funext ih)

instance : LawfulMonad Query :=
  LawfulMonad.mk' Query bind_answer (fun _ _ => rfl) bind_assoc

end Query

/-- The leaf that was found last. -/
structure CacheSlot where
  coverage : Span
  scope : ScopeId
  deriving DecidableEq

namespace ScopeGraph

/-- What is remembered after a scope was found: the scope if it is a leaf, else nothing. -/
def slotFor (g : ScopeGraph) : Option ScopeId → Except GraphFault (Option CacheSlot)
  | none => .ok none
  | some id => do
    let s ← g.scope id
    return if s.isLeaf then some ⟨s.coverage, id⟩ else none

/-- The innermost scope of `file` around a position, and what is remembered after that. A position
that the remembered leaf covers is taken to lie in it. -/
def reuse (g : ScopeGraph) (file : String) (slot : Option CacheSlot) (position : Position) :
    Except GraphFault (Option ScopeId × Option CacheSlot) :=
  match slot.filter fun slot => slot.coverage.contains position with
  | some hit => .ok (some hit.scope, slot)
  | none => do
    let found ← g.locate position file
    return (found, ← g.slotFor found)

end ScopeGraph

namespace Query

variable {α : Type}

/-- Answer a question about `file`, walking the graph for every position. -/
def direct (g : ScopeGraph) (file : String) : Query α → Except Abort α
  | .answer a => .ok a
  | .abort why => .error why
  | .locate position next =>
    match g.locate position file with
    | .ok found => (next found).direct g file
    | .error fault => .error (.fault fault)

/-- Answer a question about `file` with the help of the leaf found last. -/
def run (g : ScopeGraph) (file : String) : Query α → EStateM Abort (Option CacheSlot) α
  | .answer a, slot => .ok a slot
  | .abort why, slot => .error why slot
  | .locate position next, slot =>
    match g.reuse file slot position with
    | .ok (found, slot) => (next found).run g file slot
    | .error fault => .error (.fault fault) slot

end Query

end AbapLowering
