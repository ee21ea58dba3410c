import Strongbox.Program.Action
import Strongbox.Storage.Memory
/-!
# Runs over a storage that may fail

What a program does to a storage is said here without a handler. A storage serves a request from the
data it holds (`Request.Serves`), or fails and leaves them alone; which of the two happens, what the
clock shows and what is drawn at random is left open. `Program.Runs` has every run that comes of
this, with the result, the data before and after, and the requests that failed on the way. So what
holds of these runs holds over every storage, however and whenever it fails.

That there are no data under an identifier is an answer, not a failure.

The runs of an action are taken apart from its shape: `runs_bind_iff`, `runs_withLock_iff` and
`runs_attempt_iff` for the parts it is built from, and one lemma for each request.

## Main results

* `runs_bind_iff`: the runs of two actions in a row.
* `Runs.data_eq`: a program that only reads leaves the data alone.
-/

namespace Strongbox

open Storage (Memory)

namespace Request

/-- Whether an answer says that the request failed. -/
def fails : (r : Request) → r.Response → Bool
  | .store _ _, .error _ => true
  | .retrieve _, .error e => !e.isNotFound
  | .delete _, .error e => !e.isNotFound
  | .contains _, .error _ => true
  | .list, .error _ => true
  | .draw _ _, .error (.randomGenerationFailed _) => true
  | _, _ => false

/-- What a request that does not fail is answered over some data, and the data after it. -/
inductive Serves : (r : Request) → r.Response → Memory → Memory → Prop where
  | stored (identifier : String) (content : Bytes) (d : Memory) :
    Serves (.store identifier content) (.ok ()) d (d.insert identifier content)
  | retrieved {identifier : String} {content : Bytes} {d : Memory} :
    d.get? identifier = some content → Serves (.retrieve identifier) (.ok content) d d
  | nothingRetrieved {identifier : String} {d : Memory} (name : String) :
    d.get? identifier = none → Serves (.retrieve identifier) (.error (.notFound name)) d d
  | deleted {identifier : String} {d : Memory} :
    d.contains identifier = true → Serves (.delete identifier) (.ok ()) d (d.erase identifier)
  | nothingDeleted {identifier : String} {d : Memory} (name : String) :
    d.contains identifier = false → Serves (.delete identifier) (.error (.notFound name)) d d
  | contains (identifier : String) (d : Memory) :
    Serves (.contains identifier) (.ok (d.contains identifier)) d d
  /-- Identifiers are listed in any order. -/
  | listed {identifiers : List String} {d : Memory} :
    identifiers.Perm d.keys → Serves .list (.ok identifiers) d d
  | now (t : Time.Instant) (d : Memory) : Serves .now t d d
  | drawn {size : Nat} (source : RandomSource) (bytes : Bytes.Sized size) (d : Memory) :
    Serves (.draw source size) (.ok bytes) d d
  | acquired (lock : Lock) (d : Memory) : Serves (.acquire lock) () d d
  | released (lock : Lock) (d : Memory) : Serves (.release lock) () d d

theorem Serves.not_fails {r : Request} {x : r.Response} {d d' : Memory} (h : r.Serves x d d') :
    ¬ r.fails x = true := by
  cases h <;> exact Bool.false_ne_true

/-- The requests that leave a storage alone. -/
def IsRead : Request → Prop
  | .store _ _ | .delete _ => False
  | .retrieve _ | .contains _ | .list | .now | .draw _ _ | .acquire _ | .release _ => True

theorem Serves.data_eq {r : Request} {x : r.Response} {d d' : Memory} (h : r.Serves x d d')
    (hread : r.IsRead) : d' = d := by
  cases h <;> first | rfl | cases hread

end Request

namespace Program

variable {α β : Type} {allowed : Request → Prop}

/-- The runs of a program: from data to a result and data, with the requests that failed. -/
inductive Runs : Program α → Memory → α → Memory → List Request → Prop where
  | done (a : α) (d : Memory) : Runs (.done a) d a d []
  | served {r : Request} {next : r.Response → Program α} {x : r.Response} {d d₁ d' : Memory}
      {a : α} {failed : List Request} :
    r.Serves x d d₁ → Runs (next x) d₁ a d' failed → Runs (.ask r next) d a d' failed
  | failed {r : Request} {next : r.Response → Program α} {x : r.Response} {d d' : Memory} {a : α}
      {failed : List Request} :
    r.fails x = true → Runs (next x) d a d' failed → Runs (.ask r next) d a d' (r :: failed)

theorem runs_done_iff {a b : α} {d d' : Memory} {failed : List Request} :
    Runs (.done a) d b d' failed ↔ b = a ∧ d' = d ∧ failed = [] := by
  constructor
  · intro h
    cases h
    exact ⟨rfl, rfl, rfl⟩
  · rintro ⟨rfl, rfl, rfl⟩
    exact .done b d'

theorem runs_ask_iff {r : Request} {next : r.Response → Program α} {a : α} {d d' : Memory}
    {failed : List Request} :
    Runs (.ask r next) d a d' failed
      ↔ (∃ x d₁, r.Serves x d d₁ ∧ Runs (next x) d₁ a d' failed)
        ∨ ∃ x rest, r.fails x = true ∧ Runs (next x) d a d' rest ∧ failed = r :: rest := by
  constructor
  · intro h
    cases h with
    | served hserves hnext => exact .inl ⟨_, _, hserves, hnext⟩
    | failed hfails hnext => exact .inr ⟨_, _, hfails, hnext, rfl⟩
  · rintro (⟨x, d₁, hserves, hnext⟩ | ⟨x, rest, hfails, hnext, rfl⟩)
    · exact .served hserves hnext
    · exact .failed hfails hnext

/-- The runs of two programs in a row: `bind` runs the second from where the first has left the
data. -/
theorem runs_bind_iff {p : Program α} {f : α → Program β} {b : β} {d d' : Memory}
    {failed : List Request} :
    Runs (p.bind f) d b d' failed
      ↔ ∃ a d₁ before after, Runs p d a d₁ before ∧ Runs (f a) d₁ b d' after
          ∧ failed = before ++ after := by
  induction p generalizing d failed with
  | done a =>
    constructor
    · intro h
      exact ⟨a, d, [], failed, .done a d, h, rfl⟩
    · rintro ⟨a', d₁, before, after, hp, hf, rfl⟩
      obtain ⟨rfl, rfl, rfl⟩ := runs_done_iff.1 hp
      exact hf
  | ask r next ih =>
    rw [bind, runs_ask_iff]
    constructor
    · rintro (⟨x, d₁, hserves, h⟩ | ⟨x, rest, hfails, h, rfl⟩)
      · obtain ⟨a, d₂, before, after, hp, hf, rfl⟩ := (ih x).1 h
        exact ⟨a, d₂, before, after, .served hserves hp, hf, rfl⟩
      · obtain ⟨a, d₂, before, after, hp, hf, rfl⟩ := (ih x).1 h
        exact ⟨a, d₂, r :: before, after, .failed hfails hp, hf, rfl⟩
    · rintro ⟨a, d₂, before, after, hp, hf, rfl⟩
      rcases runs_ask_iff.1 hp with ⟨x, d₁, hserves, hrest⟩ | ⟨x, rest, hfails, hrest, rfl⟩
      · exact .inl ⟨x, d₁, hserves, (ih x).2 ⟨a, d₂, before, after, hrest, hf, rfl⟩⟩
      · exact .inr ⟨x, rest ++ after, hfails, (ih x).2 ⟨a, d₂, rest, after, hrest, hf, rfl⟩, rfl⟩

/-! ## Programs that ask only so much -/

/-- The program makes none but the allowed requests, whatever it is answered. -/
def Asks (allowed : Request → Prop) : Program α → Prop
  | .done _ => True
  | .ask r next => allowed r ∧ ∀ x, Asks allowed (next x)

theorem Asks.bind {p : Program α} {f : α → Program β} (hp : p.Asks allowed)
    (hf : ∀ a, (f a).Asks allowed) : (p.bind f).Asks allowed := by
  induction p with
  | done a => exact hf a
  | ask r next ih => exact ⟨hp.1, fun x => ih x (hp.2 x)⟩

/-- A program that `Asks` for reads only leaves the data alone. -/
theorem Runs.data_eq {p : Program α} {d d' : Memory} {a : α} {failed : List Request}
    (h : p.Runs d a d' failed) (hread : p.Asks Request.IsRead) : d' = d := by
  induction h with
  | done a d => rfl
  | served hserves _ ih =>
    rw [ih (hread.2 _), hserves.data_eq hread.1]
  | failed _ _ ih => exact ih (hread.2 _)

end Program

namespace Action

variable {α β : Type} {d d' : Memory} {failed : List Request}

/-- The runs of an action. -/
abbrev Runs (action : Action α) (d : Memory) (outcome : Outcome α) (d' : Memory)
    (failed : List Request) : Prop :=
  Program.Runs action.run d outcome d' failed

/-- The action makes none but the allowed requests. -/
abbrev Asks (allowed : Request → Prop) (action : Action α) : Prop := action.run.Asks allowed

/-! ## Actions made of others -/

@[simp] theorem runs_ofOutcome_iff {o outcome : Outcome α} :
    (ofOutcome o).Runs d outcome d' failed ↔ outcome = o ∧ d' = d ∧ failed = [] :=
  Program.runs_done_iff

@[simp] theorem runs_pure_iff {a : α} {outcome : Outcome α} :
    (pure a : Action α).Runs d outcome d' failed ↔ outcome = .ok a ∧ d' = d ∧ failed = [] :=
  Program.runs_done_iff

@[simp] theorem runs_ofExcept_iff {e : Except Error α} {outcome : Outcome α} :
    (ofExcept e).Runs d outcome d' failed
      ↔ outcome = Outcome.ofExcept e ∧ d' = d ∧ failed = [] :=
  Program.runs_done_iff

@[simp] theorem runs_fail_iff {e : Error} {outcome : Outcome α} :
    (fail e : Action α).Runs d outcome d' failed
      ↔ outcome = .error (.failed e) ∧ d' = d ∧ failed = [] :=
  Program.runs_done_iff

/-- The second of two actions runs where the first has a result. -/
theorem runs_bind_iff {action : Action α} {next : α → Action β} {outcome : Outcome β} :
    (action >>= next).Runs d outcome d' failed
      ↔ (∃ a d₁ before after, action.Runs d (.ok a) d₁ before
          ∧ (next a).Runs d₁ outcome d' after ∧ failed = before ++ after)
        ∨ ∃ halt, action.Runs d (.error halt) d' failed ∧ outcome = .error halt := by
  have hrun : (action >>= next).run = action.run.bind (ExceptT.bindCont next) := rfl
  rw [Runs, hrun, Program.runs_bind_iff]
  constructor
  · rintro ⟨halt | a, d₁, before, after, haction, hnext, rfl⟩
    · obtain ⟨rfl, rfl, rfl⟩ := Program.runs_done_iff.1 hnext
      exact .inr ⟨halt, by rwa [List.append_nil], rfl⟩
    · exact .inl ⟨a, d₁, before, after, haction, hnext, rfl⟩
  · rintro (⟨a, d₁, before, after, haction, hnext, rfl⟩ | ⟨halt, haction, rfl⟩)
    · exact ⟨.ok a, d₁, before, after, haction, hnext, rfl⟩
    · exact ⟨.error halt, d', failed, [], haction, .done _ _, (List.append_nil _).symm⟩

/-- An action after a check runs where `ofExcept` passes it. -/
theorem runs_ofExcept_bind_iff {e : Except Error α} {next : α → Action β} {outcome : Outcome β} :
    (ofExcept e >>= next).Runs d outcome d' failed
      ↔ (∃ a, e = .ok a ∧ (next a).Runs d outcome d' failed)
        ∨ ∃ error, e = .error error ∧ outcome = .error (.failed error) ∧ d' = d ∧ failed = [] := by
  cases e with
  | ok a =>
    have hrun : (ofExcept (.ok a) >>= next).run = (next a).run := rfl
    rw [Runs, hrun]
    simp
  | error error =>
    have hrun : (ofExcept (.error error) >>= next).run
        = Program.done (.error (.failed error)) := rfl
    rw [Runs, hrun, Program.runs_done_iff]
    simp

theorem runs_fail_bind_iff {e : Error} {next : α → Action β} {outcome : Outcome β} :
    ((fail e : Action α) >>= next).Runs d outcome d' failed
      ↔ outcome = .error (.failed e) ∧ d' = d ∧ failed = [] :=
  Program.runs_done_iff

/-- An action after a request runs on each answer that the storage `Serves`, and after each failure.
-/
theorem runs_ask_bind_iff {r : Request} {next : r.Response → Action β} {outcome : Outcome β} :
    (ask r >>= next).Runs d outcome d' failed
      ↔ (∃ x d₁, r.Serves x d d₁ ∧ (next x).Runs d₁ outcome d' failed)
        ∨ ∃ x rest, r.fails x = true ∧ (next x).Runs d outcome d' rest ∧ failed = r :: rest :=
  Program.runs_ask_iff

/-- A halt that `attempt` catches is a result. -/
theorem runs_attempt_iff {action : Action α} {outcome : Outcome (Outcome α)} :
    (attempt action).Runs d outcome d' failed
      ↔ ∃ o, outcome = .ok o ∧ action.Runs d o d' failed := by
  have hrun : (attempt action).run
      = action.run.bind fun o => Program.done (.ok o) := rfl
  rw [Runs, hrun, Program.runs_bind_iff]
  constructor
  · rintro ⟨o, d₁, before, after, haction, h, rfl⟩
    obtain ⟨rfl, rfl, rfl⟩ := Program.runs_done_iff.1 h
    exact ⟨o, rfl, by rwa [List.append_nil]⟩
  · rintro ⟨o, rfl, haction⟩
    exact ⟨o, d', failed, [], haction, .done _ _, (List.append_nil _).symm⟩

/-- Taking and giving back a lock `withLock` neither fails nor changes the data. -/
theorem runs_withLock_iff {lock : Lock} {action : Action α} {outcome : Outcome α} :
    (withLock lock action).Runs d outcome d' failed ↔ action.Runs d outcome d' failed := by
  have hrun : (withLock lock action).run = Program.ask (.acquire lock) fun _ =>
      action.run.bind fun outcome =>
        Program.ask (.release lock) fun _ => Program.done outcome := rfl
  rw [Runs, hrun, Program.runs_ask_iff]
  constructor
  · rintro (⟨_, _, hserves, h⟩ | ⟨_, _, hfails, _⟩)
    · cases hserves
      obtain ⟨o, d₁, before, after, haction, hrelease, rfl⟩ := Program.runs_bind_iff.1 h
      rcases Program.runs_ask_iff.1 hrelease with ⟨_, _, hserves, h⟩ | ⟨_, _, hfails, _⟩
      · cases hserves
        obtain ⟨rfl, rfl, rfl⟩ := Program.runs_done_iff.1 h
        rwa [List.append_nil]
      · cases hfails
    · cases hfails
  · intro haction
    refine .inl ⟨(), d, .acquired lock d, Program.runs_bind_iff.2 ?_⟩
    exact ⟨outcome, d', failed, [], haction, .served (.released lock d') (.done _ _),
      (List.append_nil _).symm⟩

/-! ## After a request -/

theorem runs_store {identifier : String} {content : Bytes} {outcome : Outcome Unit}
    (h : (store identifier content).Runs d outcome d' failed) :
    (outcome = .ok () ∧ d' = d.insert identifier content ∧ failed = [])
      ∨ (∃ e, outcome = .error (.failed (.storage e))) ∧ d' = d
        ∧ failed = [.store identifier content] := by
  rcases runs_ask_bind_iff.1 h with ⟨x, d₁, hserves, h⟩ | ⟨x, rest, hfails, h, rfl⟩
  · cases hserves
    obtain ⟨rfl, rfl, rfl⟩ := runs_pure_iff.1 h
    exact .inl ⟨rfl, rfl, rfl⟩
  · rcases x with e | u
    · obtain ⟨rfl, rfl, rfl⟩ := runs_fail_iff.1 h
      exact .inr ⟨⟨e, rfl⟩, rfl, rfl⟩
    · cases hfails

variable {outcome : Outcome β}

/-- After `retrieve?`, an action runs on what there is, unless the retrieval fails. -/
theorem runs_retrieve?_bind {identifier : String} {next : Option Bytes → Action β}
    (h : (retrieve? identifier >>= next).Runs d outcome d' failed) :
    (next (d.get? identifier)).Runs d outcome d' failed
      ∨ (∃ e, outcome = .error (.failed (.storage e))) ∧ d' = d
        ∧ failed = [.retrieve identifier] := by
  rw [retrieve?, bind_assoc] at h
  rcases runs_ask_bind_iff.1 h with ⟨x, d₁, hserves, h⟩ | ⟨x, rest, hfails, h, rfl⟩
  · cases hserves with
    | retrieved hget =>
      rw [hget]
      exact .inl h
    | nothingRetrieved name hget =>
      rw [hget]
      exact .inl h
  · rcases x with e | content
    · cases e with
      | notFound name => cases hfails
      | _ =>
        obtain ⟨rfl, rfl, rfl⟩ := runs_fail_bind_iff.1 h
        exact .inr ⟨⟨_, rfl⟩, rfl, rfl⟩
    · cases hfails

/-- Deleting what is not there changes nothing. -/
theorem erase_of_not_contains {m : Memory} {identifier : String}
    (h : m.contains identifier = false) : m.erase identifier = m := by
  refine Table.ext_get? fun k => ?_
  rw [Table.get?_erase]
  by_cases hk : k = identifier
  · subst hk
    rw [if_pos rfl]
    exact (Option.not_isSome_iff_eq_none.1 (Bool.not_eq_true _ ▸ h)).symm
  · rw [if_neg hk]

/-- After `deleteIfPresent`, an action runs over what is left, unless the deletion fails. -/
theorem runs_deleteIfPresent_bind {identifier : String} {next : Bool → Action β}
    (h : (deleteIfPresent identifier >>= next).Runs d outcome d' failed) :
    (next (d.contains identifier)).Runs (d.erase identifier) outcome d' failed
      ∨ (∃ e, outcome = .error (.failed (.storage e))) ∧ d' = d
        ∧ failed = [.delete identifier] := by
  rw [deleteIfPresent, bind_assoc] at h
  rcases runs_ask_bind_iff.1 h with ⟨x, d₁, hserves, h⟩ | ⟨x, rest, hfails, h, rfl⟩
  · cases hserves with
    | deleted hcontains =>
      rw [hcontains]
      exact .inl h
    | nothingDeleted name hcontains =>
      rw [hcontains, erase_of_not_contains hcontains]
      exact .inl h
  · rcases x with e | u
    · cases e with
      | notFound name => cases hfails
      | _ =>
        obtain ⟨rfl, rfl, rfl⟩ := runs_fail_bind_iff.1 h
        exact .inr ⟨⟨_, rfl⟩, rfl, rfl⟩
    · cases hfails

theorem runs_contains_bind {identifier : String} {next : Bool → Action β}
    (h : (contains identifier >>= next).Runs d outcome d' failed) :
    (next (d.contains identifier)).Runs d outcome d' failed
      ∨ (∃ e, outcome = .error (.failed (.storage e))) ∧ d' = d
        ∧ failed = [.contains identifier] := by
  rw [contains, bind_assoc] at h
  rcases runs_ask_bind_iff.1 h with ⟨x, d₁, hserves, h⟩ | ⟨x, rest, hfails, h, rfl⟩
  · cases hserves
    exact .inl h
  · rcases x with e | answer
    · obtain ⟨rfl, rfl, rfl⟩ := runs_fail_bind_iff.1 h
      exact .inr ⟨⟨e, rfl⟩, rfl, rfl⟩
    · cases hfails

/-- After `identifiers`, an action runs on all keys in some order, unless the listing fails. -/
theorem runs_identifiers_bind {next : List String → Action β}
    (h : (identifiers >>= next).Runs d outcome d' failed) :
    (∃ found, found.Perm d.keys ∧ (next found).Runs d outcome d' failed)
      ∨ (∃ e, outcome = .error (.failed (.storage e))) ∧ d' = d ∧ failed = [.list] := by
  rw [identifiers, bind_assoc] at h
  rcases runs_ask_bind_iff.1 h with ⟨x, d₁, hserves, h⟩ | ⟨x, rest, hfails, h, rfl⟩
  · cases hserves with
    | listed hperm => exact .inl ⟨_, hperm, h⟩
  · rcases x with e | found
    · obtain ⟨rfl, rfl, rfl⟩ := runs_fail_bind_iff.1 h
      exact .inr ⟨⟨e, rfl⟩, rfl, rfl⟩
    · cases hfails

theorem runs_now_bind {next : Time.Instant → Action β}
    (h : (now >>= next).Runs d outcome d' failed) : ∃ t, (next t).Runs d outcome d' failed := by
  rcases runs_ask_bind_iff.1 h with ⟨t, d₁, hserves, h⟩ | ⟨_, _, hfails, _⟩
  · cases hserves
    exact ⟨t, h⟩
  · cases hfails

/-- After `draw`, an action runs on what is drawn, unless the draw fails. -/
theorem runs_draw_bind {source : RandomSource} {size : Nat} {next : Bytes.Sized size → Action β}
    (h : (draw source size >>= next).Runs d outcome d' failed) :
    (∃ bytes, (next bytes).Runs d outcome d' failed)
      ∨ (∃ cause, outcome = .error (.failed (.randomGenerationFailed cause))) ∧ d' = d
        ∧ failed = [.draw source size] := by
  rw [draw, bind_assoc] at h
  rcases runs_ask_bind_iff.1 h with ⟨x, d₁, hserves, h⟩ | ⟨x, rest, hfails, h, rfl⟩
  · cases hserves
    exact .inl ⟨_, h⟩
  · rcases x with e | bytes
    · cases e with
      | randomGenerationFailed cause =>
        obtain ⟨rfl, rfl, rfl⟩ := runs_fail_bind_iff.1 h
        exact .inr ⟨⟨cause, rfl⟩, rfl, rfl⟩
      | _ => cases hfails
    · cases hfails

/-! ## Actions that ask only so much -/

section Asks

variable {allowed : Request → Prop}

theorem asks_ofOutcome (o : Outcome α) : (ofOutcome o).Asks allowed := trivial

theorem asks_bind {action : Action α} {next : α → Action β} (haction : action.Asks allowed)
    (hnext : ∀ a, (next a).Asks allowed) : (action >>= next).Asks allowed := by
  have hrun : (action >>= next).run = action.run.bind (ExceptT.bindCont next) := rfl
  rw [Asks, hrun]
  refine Program.Asks.bind haction fun outcome => ?_
  cases outcome with
  | error halt => trivial
  | ok a => exact hnext a

theorem asks_ask {r : Request} (h : allowed r) : (ask r).Asks allowed := ⟨h, fun _ => trivial⟩

theorem asks_attempt {action : Action α} (haction : action.Asks allowed) :
    (attempt action).Asks allowed :=
  Program.Asks.bind haction fun _ => trivial

theorem asks_withLock {lock : Lock} {action : Action α} (hacquire : allowed (.acquire lock))
    (hrelease : allowed (.release lock)) (haction : action.Asks allowed) :
    (withLock lock action).Asks allowed := by
  have hrun : (withLock lock action).run = Program.ask (.acquire lock) fun _ =>
      action.run.bind fun outcome =>
        Program.ask (.release lock) fun _ => Program.done outcome := rfl
  rw [Asks, hrun]
  exact ⟨hacquire, fun _ => Program.Asks.bind haction fun _ => ⟨hrelease, fun _ => trivial⟩⟩

theorem asks_draw {source : RandomSource} {size : Nat} (h : allowed (.draw source size)) :
    (draw source size).Asks allowed := by
  refine ⟨h, fun answer => ?_⟩
  cases answer <;> trivial

end Asks

end Action

end Strongbox
