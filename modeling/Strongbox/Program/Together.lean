import Strongbox.Program.Basic
/-!
# Programs that run together

Several programs share a world and the locks. A step lets one of them make its next request. A
request for a lock that is held is not answered, so its program cannot step until the lock is given
back; every other request is answered at once. Nothing is said about whose turn it is: a run is any
sequence of steps.
-/

namespace Strongbox

/-- Programs that run together. -/
structure Together (σ α : Type) where
  world : σ
  held : List Lock
  tasks : List (Program α)

namespace Together

variable {σ α : Type}

/-- Programs that are about to start, with every lock free. -/
def start (world : σ) (tasks : List (Program α)) : Together σ α := ⟨world, [], tasks⟩

/-- One step of a single program: what is left of it, the world and the locks after it. -/
def stepTask? (handler : Program.Handler σ) (world : σ) (held : List Lock) :
    Program α → Option (Program α × σ × List Lock)
  | .done _ => none
  | .ask (.acquire lock) next =>
    if lock ∈ held then none else some (next (), world, lock :: held)
  | .ask (.release lock) next => some (next (), world, held.erase lock)
  | .ask r next =>
    let (x, world) := handler r world
    some (next x, world, held)

/-- The step of program number `i`, if it can step. -/
def step? (handler : Program.Handler σ) (s : Together σ α) (i : Nat) : Option (Together σ α) :=
  match s.tasks[i]? with
  | none => none
  | some task =>
    (stepTask? handler s.world s.held task).map fun (task, world, held) =>
      ⟨world, held, s.tasks.set i task⟩

/-- The results of the programs that are done. -/
def results (s : Together σ α) : List α :=
  s.tasks.filterMap fun
    | .done a => some a
    | .ask _ _ => none

/-- The run in which the programs step in the given `order`; who cannot step is passed over. -/
def run (handler : Program.Handler σ) (s : Together σ α) (order : List Nat) : Together σ α :=
  order.foldl (fun s i => (s.step? handler i).getD s) s

/-- The states that some sequence of steps, each by `step?`, leads to. -/
inductive Reaches (handler : Program.Handler σ) : Together σ α → Together σ α → Prop where
  | refl (s : Together σ α) : Reaches handler s s
  | step {s t u : Together σ α} (i : Nat) :
    Reaches handler s t → t.step? handler i = some u → Reaches handler s u

end Together

end Strongbox
