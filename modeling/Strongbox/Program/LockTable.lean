import Strongbox.Program.Basic
import Strongbox.Table
/-!
# Tables of locks

Each kind of lock has one lock for every identifier. Locks are made on demand and kept in a table;
whenever a call touches the table, the locks that no call refers to are forgotten first. A forgotten
lock never comes back: the next call for its identifier gets a new one.

A call is handed the lock of its identifier (`enter`) and then goes for it (`advance?`). It takes a
lock that nobody has asked for, and otherwise stands in line; a lock serves its line in the order of
arrival. A call ends (`leave`) when it gives the lock back, or when it gives up before it had it,
and whoever is the next in line may then take the lock. Between any two of these steps other calls
may go ahead.

A call is one request for one lock. Who asks for several locks makes several calls, and a call for
a lock that its own caller has elsewhere waits like any other.

## Main results

* `contains_enter`: after a call has touched the table, it knows the call's own identifier.
-/

namespace Strongbox

/-- How far a call has got. -/
inductive LockStage where
  /-- It was handed the lock and has not asked for it yet. -/
  | handed
  /-- It has asked for the lock and stands in line. -/
  | waiting
  | holding
  deriving DecidableEq, Repr

/-- A call that was handed a lock. -/
structure LockCall where
  caller : Nat
  identifier : String
  lock : Nat
  stage : LockStage
  deriving DecidableEq, Repr

/-- The call `c` with its lock if it is the caller's, and any other call as it is. -/
def LockCall.serve (caller : Nat) (c : LockCall) : LockCall :=
  if c.caller = caller then { c with stage := .holding } else c

@[simp] theorem LockCall.serve_caller (caller : Nat) (c : LockCall) :
    (c.serve caller).caller = c.caller := by
  unfold serve
  split <;> rfl

@[simp] theorem LockCall.serve_identifier (caller : Nat) (c : LockCall) :
    (c.serve caller).identifier = c.identifier := by
  unfold serve
  split <;> rfl

@[simp] theorem LockCall.serve_lock (caller : Nat) (c : LockCall) :
    (c.serve caller).lock = c.lock := by
  unfold serve
  split <;> rfl

/-- A table of locks and the calls that refer to them. Locks are numbered as they are made. -/
structure LockTable where
  /-- The lock of each identifier, as far as one is known. -/
  locks : Table Nat
  /-- The calls. Those that have asked for their locks are listed in the order in which they did. -/
  calls : List LockCall
  /-- The number of the next lock that is made. -/
  fresh : Nat

namespace LockTable

/-- No locks and no calls. -/
def empty : LockTable := ⟨Table.empty, [], 0⟩

/-- Whether a call refers to `lock`. -/
def isUsed (t : LockTable) (lock : Nat) : Bool := t.calls.any (·.lock == lock)

/-- The locks that calls refer to (`isUsed`), by identifier. -/
def usedLocks (t : LockTable) : Table Nat := t.locks.filter fun _ lock => t.isUsed lock

/-- Hands a call the lock of an identifier, after all locks but the `usedLocks` are forgotten. -/
def enter (t : LockTable) (caller : Nat) (identifier : String) : LockTable :=
  match t.usedLocks.get? identifier with
  | some lock => ⟨t.usedLocks, ⟨caller, identifier, lock, .handed⟩ :: t.calls, t.fresh⟩
  | none =>
    ⟨t.usedLocks.insert identifier t.fresh,
      ⟨caller, identifier, t.fresh, .handed⟩ :: t.calls, t.fresh + 1⟩

/-- The calls that have asked for a lock, in the order in which they asked. The first of them holds
the lock or may take it. -/
def line (t : LockTable) (lock : Nat) : List LockCall :=
  t.calls.filter fun c => c.lock == lock && c.stage != .handed

/-- The calls of all other callers. -/
def others (t : LockTable) (caller : Nat) : List LockCall := t.calls.filter (·.caller != caller)

/-- Lets a call go for its lock: it takes the lock if nobody has asked for it, and otherwise gets in
line; in line, it takes the lock when it is the first. `none` if there is nothing that it can do. -/
def advance? (t : LockTable) (caller : Nat) : Option LockTable := do
  let call ← t.calls.find? (·.caller == caller)
  match call.stage with
  | .handed =>
    let stage := if t.line call.lock = [] then .holding else .waiting
    some { t with calls := t.others caller ++ [{ call with stage }] }
  | .waiting =>
    if (t.line call.lock).head? = some call then
      some { t with calls := t.calls.map (LockCall.serve caller) }
    else none
  | .holding => none

/-- Ends a call, whether it holds its lock or still waits for it: the `others` stay. -/
def leave (t : LockTable) (caller : Nat) : LockTable := { t with calls := t.others caller }

/-- One step of some call. -/
inductive Step : LockTable → LockTable → Prop where
  | enter {t : LockTable} (caller : Nat) (identifier : String) :
    (∀ c ∈ t.calls, c.caller ≠ caller) → Step t (t.enter caller identifier)
  | advance {t u : LockTable} (caller : Nat) : t.advance? caller = some u → Step t u
  | leave {t : LockTable} (caller : Nat) : Step t (t.leave caller)

/-- The tables that each `Step` of calls leads to from `empty`. -/
inductive Reachable : LockTable → Prop where
  | empty : Reachable LockTable.empty
  | step {t u : LockTable} : Reachable t → Step t u → Reachable u

/-- After a call has touched the table, it knows the call's own identifier. -/
theorem contains_enter (t : LockTable) (caller : Nat) (identifier : String) :
    (t.enter caller identifier).locks.contains identifier = true := by
  unfold enter
  split
  · rename_i lock hlock
    show (t.usedLocks.get? identifier).isSome = true
    rw [hlock]
    rfl
  · show ((t.usedLocks.insert identifier t.fresh).get? identifier).isSome = true
    rw [Table.get?_insert, if_pos rfl]
    rfl

end LockTable

end Strongbox
