import Strongbox.Proofs.Program.History
/-!
# What a run was answered

The runs over a storage leave open what the clock shows and what is drawn at random. To say where a
time or a name in a result has come from, a run is looked at together with its answers: `answers`
has the requests of a run with what each was answered, in order, and `RunsUnder` has the runs over a
storage in which every answer is an allowed one. A run in surroundings is such a run with its own
answers allowed (`runsUnder_perform`).

## Main results

* `runsUnder_perform`: the run of an action, as one in which it gets its answers.
* `StandsAt.eq_of_readsClock`: what is read from a clock that stands still.
-/

namespace Strongbox

open Storage (Memory)

/-- The answers that a run may get. -/
abbrev Allowance := (r : Request) → r.Response → Prop

/-! ## Programs -/

namespace Program

variable {α β σ : Type} {allowed : Allowance} {d d' : Memory} {failed : List Request}

/-- The requests in the run of a program with their answers, in order. -/
def answers (handler : Handler σ) : Program α → σ → Trace
  | .done _, _ => []
  | .ask r next, s =>
    ⟨r, (handler r s).1⟩ :: (next (handler r s).1).answers handler (handler r s).2

/-- The runs of a program over a storage in which it gets allowed answers only. -/
inductive RunsUnder (allowed : Allowance) :
    Program α → Memory → α → Memory → List Request → Prop where
  | done (a : α) (d : Memory) : RunsUnder allowed (.done a) d a d []
  | served {r : Request} {next : r.Response → Program α} {x : r.Response} {d d₁ d' : Memory}
      {a : α} {failed : List Request} :
    allowed r x → r.Serves x d d₁ → RunsUnder allowed (next x) d₁ a d' failed →
    RunsUnder allowed (.ask r next) d a d' failed
  | failed {r : Request} {next : r.Response → Program α} {x : r.Response} {d d' : Memory} {a : α}
      {failed : List Request} :
    allowed r x → r.fails x = true → RunsUnder allowed (next x) d a d' failed →
    RunsUnder allowed (.ask r next) d a d' (r :: failed)

theorem RunsUnder.runs {p : Program α} {a : α} (h : RunsUnder allowed p d a d' failed) :
    p.Runs d a d' failed := by
  induction h with
  | done a d => exact .done a d
  | served _ hserves _ ih => exact .served hserves ih
  | failed _ hfails _ ih => exact .failed hfails ih

/-- Each of the `Runs` of a program is one under an allowance of all answers. -/
theorem Runs.runsUnder {p : Program α} {a : α} (h : p.Runs d a d' failed) :
    RunsUnder (fun _ _ => True) p d a d' failed := by
  induction h with
  | done a d => exact .done a d
  | served hserves _ ih => exact .served trivial hserves ih
  | failed hfails _ ih => exact .failed trivial hfails ih

/-- If two programs in a row get allowed answers only, so does each of them: `RunsUnder` comes apart
as `Runs` does. -/
theorem RunsUnder.of_bind {p : Program α} {f : α → Program β} {b : β}
    (h : RunsUnder allowed (p.bind f) d b d' failed) :
    ∃ a d₁ before after, RunsUnder allowed p d a d₁ before
      ∧ RunsUnder allowed (f a) d₁ b d' after ∧ failed = before ++ after := by
  induction p generalizing d failed with
  | done a => exact ⟨a, d, [], failed, .done a d, h, rfl⟩
  | ask r next ih =>
    cases h with
    | served hallowed hserves hrest =>
      obtain ⟨a, d₂, before, after, hp, hf, rfl⟩ := ih _ hrest
      exact ⟨a, d₂, before, after, .served hallowed hserves hp, hf, rfl⟩
    | failed hallowed hfails hrest =>
      obtain ⟨a, d₂, before, after, hp, hf, rfl⟩ := ih _ hrest
      exact ⟨a, d₂, r :: before, after, .failed hallowed hfails hp, hf, rfl⟩

end Program

/-! ## Actions -/

namespace Action

variable {α β : Type} {allowed : Allowance} {d d' : Memory} {failed : List Request}
  {outcome : Outcome β}

/-- The runs of an action in which it gets allowed answers only. -/
abbrev RunsUnder (allowed : Allowance) (action : Action α) (d : Memory) (outcome : Outcome α)
    (d' : Memory) (failed : List Request) : Prop :=
  Program.RunsUnder allowed action.run d outcome d' failed

theorem runsUnder_bind {action : Action α} {next : α → Action β}
    (h : (action >>= next).RunsUnder allowed d outcome d' failed) :
    (∃ a d₁ before after, action.RunsUnder allowed d (.ok a) d₁ before
        ∧ (next a).RunsUnder allowed d₁ outcome d' after ∧ failed = before ++ after)
      ∨ ∃ halt, action.RunsUnder allowed d (.error halt) d' failed ∧ outcome = .error halt := by
  have hrun : (action >>= next).run = action.run.bind (ExceptT.bindCont next) := rfl
  rw [RunsUnder, hrun] at h
  obtain ⟨halt | a, d₁, before, after, haction, hnext, rfl⟩ := h.of_bind
  · cases hnext
    exact .inr ⟨halt, by rwa [List.append_nil], rfl⟩
  · exact .inl ⟨a, d₁, before, after, haction, hnext, rfl⟩

theorem runsUnder_ofExcept_bind {e : Except Error α} {next : α → Action β}
    (h : (ofExcept e >>= next).RunsUnder allowed d outcome d' failed) :
    (∃ a, e = .ok a ∧ (next a).RunsUnder allowed d outcome d' failed)
      ∨ ∃ error, e = .error error ∧ outcome = .error (.failed error) ∧ d' = d ∧ failed = [] := by
  cases e with
  | ok a => exact .inl ⟨a, rfl, h⟩
  | error error =>
    cases h
    exact .inr ⟨error, rfl, rfl, rfl, rfl⟩

/-- What runs under a lock gets its answers between those of the lock. -/
theorem runsUnder_withLock {lock : Lock} {action : Action β}
    (h : (withLock lock action).RunsUnder allowed d outcome d' failed) :
    action.RunsUnder allowed d outcome d' failed := by
  have hrun : (withLock lock action).run = Program.ask (.acquire lock) fun _ =>
      action.run.bind fun outcome =>
        Program.ask (.release lock) fun _ => Program.done outcome := rfl
  rw [RunsUnder, hrun] at h
  cases h with
  | served _ hacquired hrest =>
    cases hacquired
    obtain ⟨o, d₁, before, after, haction, hrelease, rfl⟩ := hrest.of_bind
    cases hrelease with
    | served _ hreleased hend =>
      cases hreleased
      cases hend
      rwa [List.append_nil]
    | failed _ hfails => cases hfails
  | failed _ hfails => cases hfails

/-- An action after a request runs on an answer that is `allowed`. -/
theorem runsUnder_ask_bind {r : Request} {next : r.Response → Action β}
    (h : (ask r >>= next).RunsUnder allowed d outcome d' failed) :
    (∃ x d₁, allowed r x ∧ r.Serves x d d₁ ∧ (next x).RunsUnder allowed d₁ outcome d' failed)
      ∨ ∃ x rest, allowed r x ∧ r.fails x = true ∧ (next x).RunsUnder allowed d outcome d' rest
        ∧ failed = r :: rest := by
  have hrun : (ask r >>= next).run = Program.ask r fun x => (next x).run := rfl
  rw [RunsUnder, hrun] at h
  cases h with
  | served hallowed hserves hrest => exact .inl ⟨_, _, hallowed, hserves, hrest⟩
  | failed hallowed hfails hrest => exact .inr ⟨_, _, hallowed, hfails, hrest, rfl⟩

theorem runsUnder_now_bind {next : Time.Instant → Action β}
    (h : (now >>= next).RunsUnder allowed d outcome d' failed) :
    ∃ t, allowed .now t ∧ (next t).RunsUnder allowed d outcome d' failed := by
  rcases runsUnder_ask_bind h with ⟨t, d₁, hallowed, hserves, h⟩ | ⟨_, _, -, hfails, -⟩
  · cases hserves
    exact ⟨t, hallowed, h⟩
  · cases hfails

/-- After `draw`, an action runs on what was drawn, unless the draw fails. -/
theorem runsUnder_draw_bind {source : RandomSource} {size : Nat}
    {next : Bytes.Sized size → Action β}
    (h : (draw source size >>= next).RunsUnder allowed d outcome d' failed) :
    (∃ bytes, allowed (.draw source size) (.ok bytes)
        ∧ (next bytes).RunsUnder allowed d outcome d' failed)
      ∨ d' = d ∧ failed = [.draw source size] := by
  rw [draw, bind_assoc] at h
  rcases runsUnder_ask_bind h with ⟨x, d₁, hallowed, hserves, h⟩ | ⟨x, rest, -, hfails, h, rfl⟩
  · cases hserves
    exact .inl ⟨_, hallowed, h⟩
  · rcases x with e | bytes
    · cases h
      exact .inr ⟨rfl, rfl⟩
    · cases hfails

end Action

/-! ## Runs in surroundings -/

namespace Surroundings

variable (S : Surroundings) {α : Type}

/-- The requests of an action as it was performed, with their answers. -/
def answers (action : Action α) (s : S.State) : Trace := action.run.answers S.answer s

/-- The action read this time from the clock. -/
def ReadsClock (action : Action α) (s : S.State) (t : Time.Instant) : Prop :=
  ⟨.now, t⟩ ∈ S.answers action s

/-- The action drew these bytes. -/
def Draws (action : Action α) (s : S.State) (source : RandomSource) {size : Nat}
    (bytes : Bytes.Sized size) : Prop :=
  ⟨.draw source size, .ok bytes⟩ ∈ S.answers action s

private theorem runsUnder_run {allowed : Allowance} (p : Program α) (s : S.State)
    (hallowed : ∀ answer ∈ p.answers S.answer s, allowed answer.1 answer.2) :
    p.RunsUnder allowed (S.data s) (p.run S.answer s).1 (S.data (p.run S.answer s).2)
      (p.failures S.answer s) := by
  induction p generalizing s with
  | done a => exact .done a (S.data s)
  | ask r next ih =>
    obtain ⟨hfirst, hlater⟩ := List.forall_mem_cons.1 hallowed
    have hrest := ih (S.answer r s).1 (S.answer r s).2 hlater
    rw [Program.failures]
    rcases S.serves_or_fails r s with hserves | ⟨hfails, hdata⟩
    · rw [if_neg hserves.not_fails]
      exact .served hfirst hserves hrest
    · rw [if_pos hfails]
      rw [hdata] at hrest
      exact .failed hfirst hfails hrest

/-- The run of an action in `Surroundings` is one in which it gets the `answers` that it got. -/
theorem runsUnder_perform (action : Action α) (s : S.State) :
    action.RunsUnder (fun r x => ⟨r, x⟩ ∈ S.answers action s) (S.data s) (S.perform action s).1
      (S.data (S.perform action s).2) (S.failures action s) :=
  S.runsUnder_run action.run s fun _ h => h

variable {S} {now t : Time.Instant} {s : S.State}

private theorem StandsAt.now_of_mem_answers (h : S.StandsAt now s) {p : Program α} {u : S.State}
    (hleads : S.Leads s u) (ht : ⟨.now, t⟩ ∈ p.answers S.answer u) : t = now := by
  induction p generalizing u with
  | done a => cases ht
  | ask r next ih =>
    rcases List.mem_cons.1 ht with hfirst | hlater
    · cases hfirst
      exact h u hleads
    · exact ih _ (hleads.step r) hlater

/-- What an action `ReadsClock` for is this instant, where the clock `StandsAt` it. -/
theorem StandsAt.eq_of_readsClock (h : S.StandsAt now s) {action : Action α}
    (ht : S.ReadsClock action s t) : t = now :=
  h.now_of_mem_answers .refl ht

end Surroundings

end Strongbox
