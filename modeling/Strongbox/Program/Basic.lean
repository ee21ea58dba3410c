import Strongbox.Bytes
import Strongbox.Error
import Strongbox.Time.Instant
/-!
# Programs

What an operation does to the world is written as a program: a tree of requests to the outside,
each with a continuation for every possible answer. Storage, clock, random sources and locks are
all reached by requests and by nothing else, so a program says in which order an operation touches
them whatever they answer.

A `Handler` answers requests from a state; `run` is the run of one program alone. Programs that run
together are the subject of `Strongbox.Program.Together`.

## Main results

* `run_bind`: a run of two programs in a row is a run of the first and then of the second.
-/

namespace Strongbox

/-- The kinds of locks. Each kind has one lock for every identifier. -/
inductive LockKind where
  /-- Serializes rotations of one base. -/
  | rotation
  /-- Guards a key together with its metadata. -/
  | pair
  /-- Guards a key. -/
  | key
  /-- Guards the metadata of a key. -/
  | metadata
  /-- Guards a stored password hash. -/
  | credential
  deriving DecidableEq, Repr

/-- A lock. -/
structure Lock where
  kind : LockKind
  identifier : String
  deriving DecidableEq, Repr

/-- Where random bytes come from. -/
inductive RandomSource where
  /-- The source that new keys are drawn from. -/
  | keys
  /-- The source of salts, nonces, vectors and unique identifiers. -/
  | system
  deriving DecidableEq, Repr

/-- A request to the outside. -/
inductive Request where
  /-- Store data under an identifier, in place of any earlier data. -/
  | store (identifier : String) (data : Bytes)
  | retrieve (identifier : String)
  | delete (identifier : String)
  | contains (identifier : String)
  | list
  | now
  | draw (source : RandomSource) (size : Nat)
  | acquire (lock : Lock)
  | release (lock : Lock)
  deriving DecidableEq, Repr

/-- The answers to a request. -/
def Request.Response : Request → Type
  | .store _ _ => Except StorageError Unit
  | .retrieve _ => Except StorageError Bytes
  | .delete _ => Except StorageError Unit
  | .contains _ => Except StorageError Bool
  | .list => Except StorageError (List String)
  | .now => Time.Instant
  | .draw _ size => Except Error (Bytes.Sized size)
  | .acquire _ => Unit
  | .release _ => Unit

/-- A program with a result in `α`. -/
inductive Program (α : Type) : Type where
  | done (result : α)
  | ask (request : Request) (next : request.Response → Program α)

namespace Program

variable {α β γ σ : Type}

/-- Goes on with the result of a program, by the tree's recursion at `ask`. -/
def bind : Program α → (α → Program β) → Program β
  | done a, f => f a
  | ask r next, f => ask r fun x => (next x).bind f

instance : Monad Program where
  pure := done
  bind := bind

theorem bind_done (p : Program α) : p.bind done = p := by
  induction p with
  | done a => rfl
  | ask r next ih => simp only [bind, ih]

theorem bind_assoc (p : Program α) (f : α → Program β) (g : β → Program γ) :
    (p.bind f).bind g = p.bind fun a => (f a).bind g := by
  induction p with
  | done a => rfl
  | ask r next ih => simp only [bind, ih]

instance : LawfulMonad Program :=
  LawfulMonad.mk' Program (fun p => bind_done p) (fun _ _ => rfl) bind_assoc

/-- The program of a single request. -/
def request (r : Request) : Program r.Response := ask r done

/-! ## Runs -/

/-- How a state answers requests and changes with them. -/
abbrev Handler (σ : Type) := (r : Request) → σ → r.Response × σ

/-- The run of a program alone under `handler`: its result and the state after it. -/
def run (handler : Handler σ) : Program α → σ → α × σ
  | done a, s => (a, s)
  | ask r next, s =>
    let (x, s) := handler r s
    (next x).run handler s

theorem run_bind (handler : Handler σ) (p : Program α) (f : α → Program β) (s : σ) :
    (p.bind f).run handler s
      = (f (p.run handler s).1).run handler (p.run handler s).2 := by
  induction p generalizing s with
  | done a => rfl
  | ask r next ih => exact ih _ _

end Program

end Strongbox
