import Strongbox.Program.Together
import Strongbox.Proofs.Program.Surroundings
/-!
# Runs of programs that share a storage

A run of several programs is remembered step by step: whose turn it was, what was requested and
answered, and the storage before and after. What one step does is said once, without its handler
(`exists_of_step?`): the program whose turn it is makes its next request, which is served over the
storage as it then is, or fails without effect; a lock is granted if nobody holds it.

What a single program has got to see so far is its trace, and the trace says where the program is
(`Program.Takes`).

## Main results

* `Together.exists_of_step?`: what a step does.
* `Passes.takes`: each program is where its trace has led it.
* `Passes.of_reaches`, `Passes.reaches`: every run can be remembered, and nothing but runs are.
-/

namespace Strongbox

open Storage (Memory)

/-! ## Answers and traces -/

/-- What a request may be answered over some data, and the data after it. Over a reliable storage
nothing but the drawing of random bytes fails. -/
def Request.Answered (reliable : Prop) (r : Request) (x : r.Response) (d d' : Memory) : Prop :=
  r.Serves x d d' ∨ r.fails x = true ∧ d' = d ∧ (reliable → ∃ source size, r = .draw source size)

/-- Where a request has stored something, by its answer. -/
def Request.storedAt? : (r : Request) → r.Response → Option String
  | .store location _, .ok _ => some location
  | _, _ => none

/-- Requests with their answers. -/
abbrev Trace := List (Σ r : Request, r.Response)

namespace Program

variable {α β : Type}

/-- Where a program is led by a `Trace`: what is left of it after the answers. -/
inductive Takes : Program α → Trace → Program α → Prop where
  | nothing (p : Program α) : Takes p [] p
  | answer {r : Request} {next : r.Response → Program α} {x : r.Response} {rest : Trace}
      {q : Program α} : Takes (next x) rest q → Takes (.ask r next) (⟨r, x⟩ :: rest) q

theorem Takes.eq_of_nil {p q : Program α} (h : Takes p [] q) : q = p := by
  cases h
  rfl

theorem Takes.snoc {p q : Program α} {trace : Trace} {r : Request} {next : r.Response → Program α}
    (h : Takes p trace q) (hq : q = .ask r next) (x : r.Response) :
    Takes p (trace ++ [⟨r, x⟩]) (next x) := by
  induction h with
  | nothing p =>
    subst hq
    exact .answer (.nothing _)
  | answer _ ih => exact .answer (ih hq)

theorem Takes.append {p q q' : Program α} {trace rest : Trace} (h : Takes p trace q)
    (hrest : Takes q rest q') : Takes p (trace ++ rest) q' := by
  induction h with
  | nothing => exact hrest
  | answer _ ih => exact .answer (ih hrest)

/-- The last answer is one to what was left before it. -/
theorem Takes.exists_of_snoc {p q : Program α} {trace : Trace} {r : Request} {x : r.Response}
    (h : Takes p (trace ++ [⟨r, x⟩]) q) : ∃ next, Takes p trace (.ask r next) ∧ q = next x := by
  induction trace generalizing p with
  | nil =>
    cases h with
    | answer h => exact ⟨_, .nothing _, h.eq_of_nil⟩
  | cons answer trace ih =>
    cases h with
    | answer h =>
      obtain ⟨next, hnext, hq⟩ := ih h
      exact ⟨next, .answer hnext, hq⟩

/-- A trace that `Takes` two programs in a row takes the first only, or it leads the first to its
result and goes on with the second. -/
theorem Takes.of_bind {p : Program α} {f : α → Program β} {trace : Trace} {q : Program β}
    (h : Takes (p.bind f) trace q) :
    (∃ r next, Takes p trace (.ask r next) ∧ q = (Program.ask r next).bind f)
      ∨ ∃ first rest a, trace = first ++ rest ∧ Takes p first (.done a) ∧ Takes (f a) rest q := by
  induction p generalizing trace with
  | done a => exact .inr ⟨[], trace, a, rfl, .nothing _, h⟩
  | ask r next ih =>
    cases h with
    | nothing => exact .inl ⟨r, next, .nothing _, rfl⟩
    | answer h =>
      rcases ih _ h with ⟨r', next', htakes, hq⟩ | ⟨first, rest, a, rfl, hfirst, hrest⟩
      · exact .inl ⟨r', next', .answer htakes, hq⟩
      · exact .inr ⟨_ :: first, rest, a, rfl, .answer hfirst, hrest⟩

/-- The result of a program that is `done`. -/
def result? : Program α → Option α
  | .done a => some a
  | .ask _ _ => none

theorem eq_done_of_result? {p : Program α} {a : α} (h : p.result? = some a) : p = .done a := by
  cases p with
  | done b =>
    cases h
    rfl
  | ask r next => cases h

/-- Programs that are all `done` are their results. -/
theorem eq_map_done {tasks : List (Program α)} (h : tasks.all (·.result?.isSome) = true) :
    tasks = (tasks.filterMap result?).map .done := by
  induction tasks with
  | nil => rfl
  | cons p tasks ih =>
    rw [List.all_cons, Bool.and_eq_true] at h
    obtain ⟨a, ha⟩ := Option.isSome_iff_exists.1 h.1
    rw [List.filterMap_cons_some ha, List.map_cons, ← ih h.2, eq_done_of_result? ha]

end Program

/-! ## Steps -/

/-- The locks that are held after a request was answered. -/
def Request.heldAfter : Request → List Lock → List Lock
  | .acquire lock, held => lock :: held
  | .release lock, held => held.erase lock
  | .store _ _, held | .retrieve _, held | .delete _, held | .contains _, held | .list, held
  | .now, held | .draw _ _, held => held

namespace Together

/-- What `step?` does: the next request of a program is answered, and the other programs stay where
they are. Locks are not the handler's. -/
theorem exists_request_of_step? {σ α : Type} {handler : Program.Handler σ} {t u : Together σ α}
    {i : Nat} (h : t.step? handler i = some u) :
    ∃ r next, t.tasks[i]? = some (.ask r next)
      ∧ u.tasks = t.tasks.set i (next (handler r t.world).1)
      ∧ u.held = r.heldAfter t.held ∧ (∀ lock, r = .acquire lock → lock ∉ t.held)
      ∧ (u.world = (handler r t.world).2
        ∨ u.world = t.world ∧ ∃ lock, r = .acquire lock ∨ r = .release lock) := by
  rw [step?] at h
  rcases htask : t.tasks[i]? with _ | p
  · rw [htask] at h
    cases h
  · rw [htask] at h
    simp only [Option.map_eq_some_iff] at h
    obtain ⟨⟨task, world, held⟩, hstep, rfl⟩ := h
    cases p with
    | done a => cases hstep
    | ask r next =>
      refine ⟨r, next, rfl, ?_⟩
      cases r with
      | acquire lock =>
        rw [stepTask?] at hstep
        split at hstep
        · cases hstep
        · rename_i hfree
          cases hstep
          refine ⟨rfl, rfl, fun other hother => ?_, .inr ⟨rfl, lock, .inl rfl⟩⟩
          cases hother
          exact hfree
      | release lock =>
        cases hstep
        exact ⟨rfl, rfl, fun _ h => (by cases h), .inr ⟨rfl, lock, .inr rfl⟩⟩
      | store | retrieve | delete | contains | list | now | draw =>
        cases hstep
        exact ⟨rfl, rfl, fun _ h => (by cases h), .inl rfl⟩

/-- A program that is not `done` and cannot step waits for a lock. -/
theorem exists_lock_of_step?_eq_none {σ α : Type} {handler : Program.Handler σ}
    {t : Together σ α} {i : Nat} {r : Request} {next : r.Response → Program α}
    (htask : t.tasks[i]? = some (.ask r next)) (h : t.step? handler i = none) :
    ∃ lock, r = .acquire lock ∧ lock ∈ t.held := by
  rw [step?, htask] at h
  rw [Option.map_eq_none_iff] at h
  cases r with
  | acquire lock =>
    rw [stepTask?] at h
    split at h
    · exact ⟨lock, rfl, ‹_›⟩
    · cases h
  | store | retrieve | delete | contains | list | now | draw | release => cases h

variable {α : Type} {S : Surroundings} {t u : Together S.State α} {i : Nat}

/-- What `step?` does over a storage: the next request of a program is served from the data, or it
fails. -/
theorem exists_of_step? (h : t.step? S.answer i = some u) :
    ∃ r next, t.tasks[i]? = some (.ask r next)
      ∧ u.tasks = t.tasks.set i (next (S.answer r t.world).1)
      ∧ u.held = r.heldAfter t.held ∧ (∀ lock, r = .acquire lock → lock ∉ t.held)
      ∧ r.Answered S.IsReliable (S.answer r t.world).1 (S.data t.world) (S.data u.world) := by
  obtain ⟨r, next, htask, htasks, hheld, hfree, hworld⟩ := exists_request_of_step? h
  refine ⟨r, next, htask, htasks, hheld, hfree, ?_⟩
  rcases hworld with hworld | ⟨hworld, lock, rfl | rfl⟩
  · rw [hworld]
    rcases S.serves_or_fails r t.world with hserves | ⟨hfails, hdata⟩
    · exact .inl hserves
    · exact .inr ⟨hfails, hdata, fun hreliable => hreliable r t.world hfails⟩
  · rw [hworld]
    exact .inl (.acquired lock _)
  · rw [hworld]
    exact .inl (.released lock _)

/-- The run in a given order is a run. -/
theorem reaches_run {σ : Type} (handler : Program.Handler σ) (s : Together σ α) (order : List Nat) :
    Reaches handler s (s.run handler order) := by
  rw [run]
  have hfold : ∀ (order : List Nat) (t : Together σ α), Reaches handler s t →
      Reaches handler s (order.foldl (fun t i => (t.step? handler i).getD t) t) := by
    intro order
    induction order with
    | nil => exact fun _ h => h
    | cons i rest ih =>
      intro t h
      rw [List.foldl_cons]
      cases hstep : t.step? handler i with
      | none => exact ih t h
      | some u => exact ih u (.step i h hstep)
  exact hfold order s (.refl s)

end Together

/-! ## Histories -/

/-- A step that was made. -/
structure Event where
  task : Nat
  request : Request
  answer : request.Response
  /-- The storage as the request found it. -/
  before : Memory
  /-- The storage as the request left it. -/
  after : Memory

/-- The `Trace` of a program: what it has got to see, in order. Events are listed latest first. -/
def traceOf (i : Nat) : List Event → Trace
  | [] => []
  | e :: events =>
    if e.task = i then traceOf i events ++ [⟨e.request, e.answer⟩] else traceOf i events

/-- The runs from a start, with all their events, latest first. -/
inductive Passes (S : Surroundings) {α : Type} (s : Together S.State α) :
    List Event → Together S.State α → Prop where
  | start : Passes S s [] s
  | step {events : List Event} {t u : Together S.State α} {i : Nat} {r : Request}
      {next : r.Response → Program α} :
    Passes S s events t → t.tasks[i]? = some (.ask r next) → t.step? S.answer i = some u →
    Passes S s
      (⟨i, r, (S.answer r t.world).1, S.data t.world, S.data u.world⟩ :: events) u

namespace Passes

variable {α : Type} {S : Surroundings} {s t u : Together S.State α} {events : List Event}

theorem reaches (h : Passes S s events t) : Together.Reaches S.answer s t := by
  induction h with
  | start => exact .refl s
  | step _ _ hstep ih => exact .step _ ih hstep

/-- A step after a run that `Passes` some events is one more `Event`. -/
theorem exists_event (h : Passes S s events t) {i : Nat} (hstep : t.step? S.answer i = some u) :
    ∃ e : Event, e.task = i ∧ e.before = S.data t.world ∧ e.after = S.data u.world
      ∧ Passes S s (e :: events) u := by
  obtain ⟨r, next, htask, -⟩ := Together.exists_of_step? hstep
  exact ⟨_, rfl, rfl, rfl, .step h htask hstep⟩

/-- A run that `Passes` some events and goes on passes more of them, to its end. -/
theorem of_reaches (h : Passes S s events t) (hreaches : Together.Reaches S.answer t u) :
    ∃ later, Passes S s (later ++ events) u := by
  induction hreaches with
  | refl => exact ⟨[], h⟩
  | step i _ hstep ih =>
    obtain ⟨later, hlater⟩ := ih
    obtain ⟨e, -, -, -, hpasses⟩ := hlater.exists_event hstep
    exact ⟨e :: later, hpasses⟩

/-- Every earlier moment of a run was reached by the events up to it. -/
theorem exists_of_append {later : List Event} (h : Passes S s (later ++ events) u) :
    ∃ t, Passes S s events t ∧ Together.Reaches S.answer t u := by
  induction later generalizing u with
  | nil => exact ⟨u, h, .refl u⟩
  | cons e later ih =>
    cases h with
    | step hpasses htask hstep =>
      obtain ⟨t, ht, hreaches⟩ := ih hpasses
      exact ⟨t, ht, .step _ hreaches hstep⟩

/-- The programs that are left are as many as there were. -/
theorem length_tasks (h : Passes S s events t) : t.tasks.length = s.tasks.length := by
  induction h with
  | start => rfl
  | step _ _ hstep ih =>
    obtain ⟨r, next, -, htasks, -⟩ := Together.exists_of_step? hstep
    rw [htasks, List.length_set, ih]

/-- Each program is where `traceOf` the events has led it. -/
theorem takes (h : Passes S s events t) {i : Nat} {p : Program α} (hp : s.tasks[i]? = some p) :
    ∃ q, t.tasks[i]? = some q ∧ p.Takes (traceOf i events) q := by
  induction h with
  | start => exact ⟨p, hp, .nothing p⟩
  | @step events t u j r next _ htask hstep ih =>
    obtain ⟨q, hq, htakes⟩ := ih
    obtain ⟨r', next', htask', htasks, -⟩ := Together.exists_of_step? hstep
    rw [htask] at htask'
    cases htask'
    rw [htasks, traceOf]
    by_cases hij : j = i
    · subst hij
      rw [htask] at hq
      cases hq
      have hlt : j < t.tasks.length := (List.getElem?_eq_some_iff.1 htask).1
      rw [if_pos rfl, List.getElem?_set_self hlt]
      exact ⟨_, rfl, htakes.snoc rfl _⟩
    · rw [if_neg hij, List.getElem?_set_ne hij]
      exact ⟨q, hq, htakes⟩

end Passes

end Strongbox
