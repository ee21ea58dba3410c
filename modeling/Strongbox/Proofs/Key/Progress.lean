import Strongbox.Proofs.Program.Progress
import Strongbox.Proofs.Storage.Separation
/-!
# Work on keys never comes to a stop

Up to three locks are held at once: that of a turn, inside it that of a pair, and inside that the
lock of one of its halves. Nobody takes them in another order, whatever fails and also when a
creation is undone, so whatever is done with keys at the same time, somebody can go on.

## Main results

* `Task.climbs`: every task takes locks in this order, and gives them back.
* `exists_step_of_tasks`: tasks that run together never come to a stop.
-/

namespace Strongbox.Key

namespace Task

theorem climbs (t : Task) : t.action.Climbs depth 0 := t.works.climbs

/-- A `Task` as a program among others. Its result says which task it is of. -/
def program (t : Task) : Program (Σ t : Task, Outcome t.Result) :=
  t.action.run.bind fun outcome => .done ⟨t, outcome⟩

theorem climbs_program (t : Task) : t.program.Climbs depth [] [] :=
  (t.climbs [] fun _ h => absurd h List.not_mem_nil).bind fun _ => rfl

end Task

/-- Tasks of any number and kind run `Together` on one set of services, and each of their requests
may be answered in any way, also by failing. Wherever they get, if one of them is not done, one of
them can make its next step. -/
theorem exists_step_of_tasks {σ : Type} (handler : Program.Handler σ) (world : σ)
    (tasks : List Task) {t : Together σ (Σ t : Task, Outcome t.Result)}
    (hreaches : Together.Reaches handler (.start world (tasks.map Task.program)) t)
    {p : Program (Σ t : Task, Outcome t.Result)} (hp : p ∈ t.tasks)
    (hunfinished : p.result? = none) : ∃ i u, t.step? handler i = some u := by
  refine Together.exists_step_of_climbs depth_le (fun p hp => ?_) hreaches hp hunfinished
  obtain ⟨task, -, rfl⟩ := List.mem_map.1 hp
  exact task.climbs_program

/-! ### A creation that is undone -/

/-- A key is generated, stored and deleted, where there is no room for its metadata. -/
def rivals : List Task :=
  [.operation (.create mailKey), .storeKey "mail_v1" [1], .operation (.delete "mail_v1")]

/-- The metadata could not be written. Before the generated key is taken back, its lock goes to the
other key. -/
def undoing : Together World.surroundings.State (Σ t : Task, Outcome t.Result) :=
  (Together.start withoutRoom (rivals.map Task.program)).run World.surroundings.answer
    (List.replicate 10 0 ++ [1])

/-- Generation and deletion wait, but not in vain. -/
theorem undoing_goes_on :
    (undoing.step? World.surroundings.answer 0).isNone = true
      ∧ (undoing.step? World.surroundings.answer 2).isNone = true
      ∧ ∃ i u, undoing.step? World.surroundings.answer i = some u := by
  have hwaiting : (undoing.step? World.surroundings.answer 0).isNone = true
      ∧ (undoing.step? World.surroundings.answer 2).isNone = true
      ∧ (undoing.tasks.all fun p => p.result?.isNone) = true
      ∧ undoing.tasks.length = 3 := by decide +kernel
  obtain ⟨hgeneration, hdeletion, hunfinished, hlength⟩ := hwaiting
  have hmem : undoing.tasks[0] ∈ undoing.tasks := List.getElem_mem _
  exact ⟨hgeneration, hdeletion, exists_step_of_tasks World.surroundings.answer withoutRoom rivals
    (Together.reaches_run _ _ _) hmem
    (Option.isNone_iff_eq_none.1 (List.all_eq_true.1 hunfinished _ hmem))⟩

end Strongbox.Key
