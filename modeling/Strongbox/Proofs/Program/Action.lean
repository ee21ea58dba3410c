import Strongbox.Program.Action
import Strongbox.World
/-!
# Runs of actions

What an action gives when it runs alone, and what is left of the state. A run of two actions in a
row is taken apart by `perform_bind`, and one that has a result by `exists_of_perform_bind`.

## Main results

* `perform_bind`: the second action runs where the first has a result.
* `perform_withLock`, `perform_attempt`: what a lock and a caught halt do to a run.
* `clock_perform`: no action moves the clock.
-/

namespace Strongbox.Action

variable {α β σ : Type} (handler : Program.Handler σ)

/-- The outcome of an action that runs alone, and the state after it. -/
def perform (action : Action α) (s : σ) : Outcome α × σ := Program.run handler action.run s

theorem perform_bind (action : Action α) (next : α → Action β) (s : σ) :
    perform handler (action >>= next) s
      = match perform handler action s with
        | (.ok a, s) => perform handler (next a) s
        | (.error halt, s) => (.error halt, s) := by
  have hrun : (action >>= next).run = action.run.bind (ExceptT.bindCont next) := rfl
  rw [perform, hrun, Program.run_bind, perform]
  rcases Program.run handler action.run s with ⟨_ | a, s⟩ <;> rfl

/-- A run of two actions has a result if both have one. -/
theorem perform_bind_of_ok {action : Action α} {s s' : σ} {a : α} (next : α → Action β)
    (h : perform handler action s = (.ok a, s')) :
    perform handler (action >>= next) s = perform handler (next a) s' := by
  rw [perform_bind, h]

/-- A run of two actions that has a result takes both to one. -/
theorem exists_of_perform_bind_eq {action : Action α} {next : α → Action β} {s t : σ} {b : β}
    (h : perform handler (action >>= next) s = (.ok b, t)) :
    ∃ a s', perform handler action s = (.ok a, s') ∧ perform handler (next a) s' = (.ok b, t) := by
  rw [perform_bind] at h
  rcases haction : perform handler action s with ⟨_ | a, s'⟩
  · rw [haction] at h
    cases h
  · rw [haction] at h
    exact ⟨a, s', rfl, h⟩

theorem exists_of_perform_bind {action : Action α} {next : α → Action β} {s : σ} {b : β}
    (h : (perform handler (action >>= next) s).1 = .ok b) :
    ∃ a s', perform handler action s = (.ok a, s') ∧ (perform handler (next a) s').1 = .ok b := by
  obtain ⟨a, s', haction, hnext⟩ := exists_of_perform_bind_eq handler (Prod.ext h rfl)
  exact ⟨a, s', haction, congrArg Prod.fst hnext⟩

@[simp] theorem perform_ofOutcome (o : Outcome α) (s : σ) :
    perform handler (ofOutcome o) s = (o, s) := rfl

@[simp] theorem perform_ofExcept (e : Except Error α) (s : σ) :
    perform handler (ofExcept e) s = (Outcome.ofExcept e, s) := rfl

@[simp] theorem perform_ask (r : Request) (s : σ) :
    perform handler (ask r) s = (.ok (handler r s).1, (handler r s).2) := rfl

/-- A halt that `attempt` catches is a result. -/
@[simp] theorem perform_attempt (action : Action α) (s : σ) :
    perform handler (attempt action) s
      = (.ok (perform handler action s).1, (perform handler action s).2) := by
  have hrun : (attempt action).run
      = action.run.bind fun outcome => Program.done (.ok outcome) := rfl
  rw [perform, hrun, Program.run_bind]
  rfl

/-- An action `withLock` runs between the acquisition and the release of the lock. -/
theorem perform_withLock (lock : Lock) (action : Action α) (s : σ) :
    perform handler (withLock lock action) s
      = ((perform handler action (handler (.acquire lock) s).2).1,
        (handler (.release lock) (perform handler action (handler (.acquire lock) s).2).2).2) := by
  have hrun : (withLock lock action).run = Program.ask (.acquire lock) fun _ =>
      action.run.bind fun outcome =>
        Program.ask (.release lock) fun _ => Program.done outcome := rfl
  rw [perform, hrun]
  simp only [Program.run, Program.run_bind]
  rfl

/-! ## Runs in a world -/

/-- No request moves the clock. -/
theorem clock_answer (r : Request) (w : World) : (World.answer r w).2.clock = w.clock := by
  cases r with
  | store identifier data =>
    simp only [World.answer, World.store]
    split <;> try rfl
    split <;> rfl
  | retrieve identifier =>
    simp only [World.answer, World.retrieve]
    split <;> rfl
  | delete identifier =>
    simp only [World.answer, World.delete]
    split <;> try rfl
    split <;> rfl
  | contains identifier =>
    simp only [World.answer, World.contains, World.retrieve]
    rcases hstorage : w.storage with _ | _ | storage
    · rfl
    · rfl
    · rcases hanswer : storage.guarded .retrieve identifier fun m => (m.retrieve identifier, m)
        with ⟨_ | _, _⟩ <;> simp [hanswer]
  | list =>
    simp only [World.answer, World.list]
    split <;> rfl
  | now => rfl
  | draw source size =>
    simp only [World.answer, World.draw]
    split <;> rfl
  | acquire lock => rfl
  | release lock => rfl

private theorem clock_run (p : Program α) (w : World) :
    (p.run World.answer w).2.clock = w.clock := by
  induction p generalizing w with
  | done a => rfl
  | ask r next ih =>
    rw [Program.run, ih, clock_answer]

/-- No action moves the clock. -/
theorem clock_perform (action : Action α) (w : World) :
    (perform World.answer action w).2.clock = w.clock := clock_run action.run w

@[simp] theorem perform_now (w : World) : perform World.answer now w = (.ok w.clock, w) := rfl

/-- The `system` source never fails. -/
@[simp] theorem perform_draw_system (size : Nat) (w : World) :
    perform World.answer (draw .system size) w
      = (.ok (w.entropy.draw size).1, { w with entropy := (w.entropy.draw size).2 }) := by
  rw [draw, perform_bind, perform_ask]
  rfl

end Strongbox.Action
