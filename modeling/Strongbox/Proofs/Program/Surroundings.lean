import Strongbox.Proofs.Program.Action
import Strongbox.Proofs.Program.Runs
/-!
# Surroundings

What a program runs in: a handler whose storage serves every request or fails without effect. The
states are those of the handler, so clock, random sources and the next failures may be anything that
it makes of them.

A run of a program in surroundings is one of the runs over their storage (`runs_perform`), so
everything that is said of `Action.Runs` is said of them. Worlds are surroundings, as long as their
storage is in memory and calls that are made to fail do not claim that there are no data.

Nothing is said about the clock of surroundings. Where two questions are to be answered at one
instant, the clock is taken to stand still (`StandsAt`), as that of a world does.

## Main results

* `runs_perform`: the run of an action in surroundings, as a run over their storage.
* `StandsAt.perform_bind_now`: what is answered from the time, while the clock stands still.
-/

namespace Strongbox

open Storage (Memory)

/-- The requests that failed in the run of a program, in order. -/
def Program.failures {σ α : Type} (handler : Program.Handler σ) : Program α → σ → List Request
  | .done _, _ => []
  | .ask r next, s =>
    let rest := (next (handler r s).1).failures handler (handler r s).2
    if r.fails (handler r s).1 then r :: rest else rest

theorem Program.failures_bind {σ α β : Type} (handler : Program.Handler σ) (p : Program α)
    (f : α → Program β) (s : σ) :
    (p.bind f).failures handler s
      = p.failures handler s ++ (f (p.run handler s).1).failures handler (p.run handler s).2 := by
  induction p generalizing s with
  | done a => rfl
  | ask r next ih =>
    simp only [bind, failures, ih]
    by_cases hfails : r.fails (handler r s).1 = true
    · rw [if_pos hfails, if_pos hfails]
      rfl
    · rw [if_neg hfails, if_neg hfails]
      rfl

/-- Surroundings of programs. -/
structure Surroundings where
  State : Type
  answer : Program.Handler State
  /-- What the storage holds. -/
  data : State → Memory
  /-- A request is served from the data, or it fails and leaves them alone. -/
  serves_or_fails : ∀ r s,
    r.Serves (answer r s).1 (data s) (data (answer r s).2)
      ∨ r.fails (answer r s).1 = true ∧ data (answer r s).2 = data s

namespace Surroundings

variable (S : Surroundings) {α : Type}

/-- The outcome of an action and the state after it. -/
def perform (action : Action α) (s : S.State) : Outcome α × S.State :=
  Action.perform S.answer action s

/-- The requests that failed as an action was performed. -/
def failures (action : Action α) (s : S.State) : List Request :=
  Program.failures S.answer action.run s

/-- In these surroundings nothing but the drawing of random bytes ever fails. -/
def IsReliable : Prop :=
  ∀ (r : Request) (s : S.State), r.fails (S.answer r s).1 = true →
    ∃ source size, r = .draw source size

theorem runs_run (p : Program α) (s : S.State) :
    p.Runs (S.data s) (p.run S.answer s).1 (S.data (p.run S.answer s).2)
      (p.failures S.answer s) := by
  induction p generalizing s with
  | done a => exact .done a (S.data s)
  | ask r next ih =>
    have hrest := ih (S.answer r s).1 (S.answer r s).2
    rw [Program.failures]
    rcases S.serves_or_fails r s with hserves | ⟨hfails, hdata⟩
    · by_cases hfails : r.fails (S.answer r s).1 = true
      · exact absurd hfails hserves.not_fails
      · rw [if_neg hfails]
        exact .served hserves hrest
    · rw [if_pos hfails]
      rw [hdata] at hrest
      exact .failed hfails hrest

/-- The run of an action in surroundings is one of its `Runs` over their storage. -/
theorem runs_perform (action : Action α) (s : S.State) :
    action.Runs (S.data s) (S.perform action s).1 (S.data (S.perform action s).2)
      (S.failures action s) :=
  S.runs_run action.run s

theorem runs_of_perform_eq {S : Surroundings} {action : Action α} {s t : S.State}
    {outcome : Outcome α} (h : S.perform action s = (outcome, t)) :
    action.Runs (S.data s) outcome (S.data t) (S.failures action s) := by
  have hrun := S.runs_perform action s
  rwa [h] at hrun

/-- What fails in the first of two actions and what fails in the second are the `failures` of both.
-/
theorem failures_bind_of_ok {β : Type} {action : Action α} {s s' : S.State} {a : α}
    (h : S.perform action s = (.ok a, s')) (next : α → Action β) :
    S.failures (action >>= next) s = S.failures action s ++ S.failures (next a) s' := by
  have hrun : (action >>= next).run = action.run.bind (ExceptT.bindCont next) := rfl
  have hperform : Program.run S.answer action.run s = (.ok a, s') := h
  rw [failures, hrun, Program.failures_bind, hperform]
  rfl

theorem mem_failures_bind {β : Type} {action : Action α} {next : α → Action β} {s : S.State}
    {r : Request} (h : r ∈ S.failures action s) : r ∈ S.failures (action >>= next) s := by
  have hrun : (action >>= next).run = action.run.bind (ExceptT.bindCont next) := rfl
  rw [failures, hrun, Program.failures_bind]
  exact List.mem_append_left _ h

variable {S}

/-- If nothing fails in two actions, nothing fails in the first. -/
theorem failures_eq_nil_of_bind {β : Type} {action : Action α} {next : α → Action β} {s : S.State}
    (h : S.failures (action >>= next) s = []) : S.failures action s = [] := by
  refine List.eq_nil_iff_forall_not_mem.2 fun r hr => ?_
  have hmem : r ∈ S.failures (action >>= next) s := S.mem_failures_bind hr
  rw [h] at hmem
  cases hmem

theorem IsReliable.draw_of_mem_failures (h : S.IsReliable) {p : Program α} {s : S.State}
    {r : Request} (hr : r ∈ p.failures S.answer s) : ∃ source size, r = .draw source size := by
  induction p generalizing s with
  | done a => cases hr
  | ask r' next ih =>
    rw [Program.failures] at hr
    by_cases hfails : r'.fails (S.answer r' s).1 = true
    · rw [if_pos hfails] at hr
      rcases List.mem_cons.1 hr with rfl | hr
      · exact h r s hfails
      · exact ih _ hr
    · rw [if_neg hfails] at hr
      exact ih _ hr

end Surroundings

/-! ## Clocks that stand still -/

namespace Surroundings

variable {S : Surroundings} {α β : Type} {now : Time.Instant} {s t : S.State}

/-- The states that requests lead to from a state. -/
inductive Leads (S : Surroundings) (s : S.State) : S.State → Prop where
  | refl : Leads S s s
  | step {t : S.State} (r : Request) : Leads S s t → Leads S s (S.answer r t).2

/-- The clock shows this instant, and goes on to do so whatever is requested. -/
def StandsAt (S : Surroundings) (now : Time.Instant) (s : S.State) : Prop :=
  ∀ t, S.Leads s t → (S.answer .now t).1 = now

theorem Leads.run (h : S.Leads s t) (p : Program α) : S.Leads s (p.run S.answer t).2 := by
  induction p generalizing t with
  | done a => exact h
  | ask r next ih => exact ih _ (h.step r)

theorem Leads.trans {u : S.State} (h : S.Leads s t) (h' : S.Leads t u) : S.Leads s u := by
  induction h' with
  | refl => exact h
  | step r _ ih => exact ih.step r

theorem StandsAt.perform (h : S.StandsAt now s) (action : Action α) :
    S.StandsAt now (S.perform action s).2 :=
  fun t ht => h t ((Leads.refl.run action.run).trans ht)

theorem StandsAt.of_perform_eq {action : Action α} {outcome : Outcome α} {t : S.State}
    (h : S.StandsAt now s) (hperform : S.perform action s = (outcome, t)) : S.StandsAt now t := by
  have hstands := h.perform action
  rwa [hperform] at hstands

theorem StandsAt.perform_now_bind (h : S.StandsAt now s) (next : Time.Instant → Action β) :
    S.perform (Action.now >>= next) s = S.perform (next now) (S.answer .now s).2 := by
  rw [← h s .refl]
  rfl

/-- What is answered from a result and the time is answered from the result and the instant that the
clock `StandsAt`. -/
theorem StandsAt.perform_bind_now (h : S.StandsAt now s) (action : Action α)
    (answer : α → Time.Instant → Outcome β) :
    (S.perform (action >>= fun a => Action.now >>= fun t => Action.ofOutcome (answer a t)) s).1
      = (S.perform action s).1 >>= fun a => answer a now := by
  have hstands := h.perform action
  rw [Surroundings.perform, Action.perform_bind]
  rcases hperform : S.perform action s with ⟨halt | a, s'⟩
  · change Action.perform S.answer action s = _ at hperform
    rw [hperform]
    rfl
  · rw [hperform] at hstands
    change Action.perform S.answer action s = _ at hperform
    rw [hperform]
    exact congrArg Prod.fst
      (hstands.perform_now_bind fun t => Action.ofOutcome (answer a t))

end Surroundings

/-! ## Worlds as surroundings -/

namespace Storage

/-- The rule does not make calls claim that there are no data. -/
def Rule.IsHonest (r : Rule) : Prop := r.error.isNotFound = false

theorem useRule_isHonest {call : Call} {identifier : String} {rules rest : List Rule}
    {error : Option StorageError} (h : useRule call identifier rules = (error, rest))
    (hrules : ∀ rule ∈ rules, rule.IsHonest) :
    (∀ e, error = some e → e.isNotFound = false) ∧ ∀ rule ∈ rest, rule.IsHonest := by
  induction rules generalizing error rest with
  | nil =>
    cases h
    exact ⟨fun e he => absurd he (by simp), hrules⟩
  | cons rule rules ih =>
    obtain ⟨hrule, hothers⟩ := List.forall_mem_cons.1 hrules
    rw [useRule] at h
    split at h
    · cases h
      refine ⟨fun e he => ?_, List.forall_mem_cons.2 ⟨hrule, hothers⟩⟩
      cases he
      exact hrule
    · rcases huse : useRule call identifier rules with ⟨error', rest'⟩
      rw [huse] at h
      cases h
      obtain ⟨herror, hrest⟩ := ih huse hothers
      exact ⟨herror, List.forall_mem_cons.2 ⟨hrule, hrest⟩⟩

/-- A call under honest rules is made, or it fails by one of them and changes nothing: the cases of
`guarded`. -/
private theorem Failing.guarded_eq {α : Type} {f : Failing}
    (hrules : ∀ rule ∈ f.rules, rule.IsHonest) (call : Call) (identifier : String)
    (serve : Memory → Except StorageError α × Memory) :
    ∃ rules, (∀ rule ∈ rules, rule.IsHonest)
      ∧ ((∃ e, e.isNotFound = false
          ∧ f.guarded call identifier serve = (.error e, ⟨f.memory, rules⟩))
        ∨ f.guarded call identifier serve = ((serve f.memory).1, ⟨(serve f.memory).2, rules⟩)) := by
  rw [guarded]
  rcases huse : useRule call identifier f.rules with ⟨_ | e, rules⟩
  · exact ⟨rules, (useRule_isHonest huse hrules).2, .inr rfl⟩
  · obtain ⟨herror, hrest⟩ := useRule_isHonest huse hrules
    exact ⟨rules, hrest, .inl ⟨e, herror e rfl, rfl⟩⟩

end Storage

namespace World

/-- What the storage holds. -/
def data (w : World) : Memory :=
  match w.storage with
  | .memory m => m
  | .failing s => s.memory
  | .vault _ => Table.empty

/-- The storage is in memory, perhaps behind rules that make calls fail with some other error than
that there are no data. -/
def IsHonest (w : World) : Prop :=
  match w.storage with
  | .memory _ => True
  | .failing s => ∀ rule ∈ s.rules, rule.IsHonest
  | .vault _ => False

/-- The storage is in memory and no call is made to fail. -/
def IsPlain (w : World) : Prop := ∃ m, w.storage = .memory m

variable {w : World}

/-- A memory `Serves` retrievals. -/
theorem serves_retrieve (m : Memory) (identifier : String) :
    (Request.retrieve identifier).Serves (m.retrieve identifier) m m := by
  rw [Memory.retrieve]
  cases hget : m.get? identifier with
  | none => exact .nothingRetrieved identifier hget
  | some content => exact .retrieved hget

/-- A memory `Serves` deletions. -/
theorem serves_deleteFrom (m : Memory) (identifier : String) :
    (Request.delete identifier).Serves (deleteFrom identifier m).1 m
      (deleteFrom identifier m).2 := by
  rw [deleteFrom, Memory.delete]
  cases hcontains : m.contains identifier with
  | true => exact .deleted hcontains
  | false => exact .nothingDeleted identifier hcontains

/-- A request to a world that `IsPlain` is served, unless random bytes cannot be drawn. -/
theorem serves_of_plain {m : Memory} (hstorage : w.storage = .memory m) (r : Request) :
    (r.Serves (World.answer r w).1 w.data (World.answer r w).2.data
        ∨ (r.fails (World.answer r w).1 = true ∧ (World.answer r w).2.data = w.data)
          ∧ ∃ source size, r = .draw source size)
      ∧ (World.answer r w).2.IsPlain := by
  have hdata : w.data = m := by rw [data, hstorage]
  rw [hdata]
  cases r with
  | store identifier content =>
    simp only [answer, store, hstorage]
    exact ⟨.inl (.stored identifier content m), _, rfl⟩
  | retrieve identifier =>
    simp only [answer, retrieve, hstorage]
    rw [hdata]
    exact ⟨.inl (serves_retrieve m identifier), m, hstorage⟩
  | delete identifier =>
    simp only [answer, delete, hstorage]
    exact ⟨.inl (serves_deleteFrom m identifier), _, rfl⟩
  | contains identifier =>
    simp only [answer, contains, hstorage]
    rw [hdata]
    exact ⟨.inl (.contains identifier m), m, hstorage⟩
  | list =>
    simp only [answer, list, hstorage]
    rw [hdata]
    exact ⟨.inl (.listed (.refl _)), m, hstorage⟩
  | now => exact ⟨.inl (hdata ▸ .now w.clock w.data), m, hstorage⟩
  | draw source size =>
    simp only [answer, draw]
    split
    · exact ⟨.inr ⟨⟨rfl, hdata⟩, source, size, rfl⟩, m, hstorage⟩
    · exact ⟨.inl (hdata ▸ .drawn source _ w.data), m, hstorage⟩
  | acquire lock => exact ⟨.inl (hdata ▸ .acquired lock w.data), m, hstorage⟩
  | release lock => exact ⟨.inl (hdata ▸ .released lock w.data), m, hstorage⟩

/-- Whether there are data, by the answer to a retrieval. -/
def presence : Except StorageError Bytes → Except StorageError Bool
  | .ok _ => .ok true
  | .error e => if e.isNotFound then .ok false else .error e

/-- A memory `Serves` questions for data by retrievals. -/
private theorem serves_presence (m : Memory) (identifier : String) :
    (Request.contains identifier).Serves (presence (m.retrieve identifier)) m m := by
  have hserves := Request.Serves.contains identifier m
  rw [Table.contains] at hserves
  rw [Memory.retrieve]
  cases hget : m.get? identifier with
  | none =>
    rw [hget] at hserves
    exact hserves
  | some content =>
    rw [hget] at hserves
    exact hserves

/-- A request answered from a `guarded` call is served or fails without effect, if the call serves
it and the errors of honest rules are failures of it. -/
theorem serves_of_guarded {α : Type} {f : Storage.Failing} (r : Request)
    (hrules : ∀ rule ∈ f.rules, rule.IsHonest) (call : Storage.Call) (identifier : String)
    (serve : Memory → Except StorageError α × Memory)
    (respond : Except StorageError α → r.Response)
    (hserves : r.Serves (respond (serve f.memory).1) f.memory (serve f.memory).2)
    (hfails : ∀ e, e.isNotFound = false → r.fails (respond (.error e)) = true) :
    (r.Serves (respond (f.guarded call identifier serve).1) f.memory
        (f.guarded call identifier serve).2.memory
      ∨ r.fails (respond (f.guarded call identifier serve).1) = true
        ∧ (f.guarded call identifier serve).2.memory = f.memory)
      ∧ ∀ rule ∈ (f.guarded call identifier serve).2.rules, rule.IsHonest := by
  obtain ⟨rules, hrest, ⟨e, he, hanswer⟩ | hanswer⟩ :=
    Storage.Failing.guarded_eq hrules call identifier serve
  · rw [hanswer]
    exact ⟨.inr ⟨hfails e he, rfl⟩, hrest⟩
  · rw [hanswer]
    exact ⟨.inl hserves, hrest⟩

/-- A request to a world that `IsHonest` is served or fails without effect. -/
private theorem serves_of_failing {f : Storage.Failing} (hstorage : w.storage = .failing f)
    (hrules : ∀ rule ∈ f.rules, rule.IsHonest) (r : Request) :
    (r.Serves (World.answer r w).1 w.data (World.answer r w).2.data
        ∨ r.fails (World.answer r w).1 = true ∧ (World.answer r w).2.data = w.data)
      ∧ (World.answer r w).2.IsHonest := by
  have hdata : w.data = f.memory := by rw [data, hstorage]
  have hhonest : w.IsHonest := by
    rw [IsHonest, hstorage]
    exact hrules
  rw [hdata]
  cases r with
  | store identifier content =>
    simp only [answer, store, hstorage]
    exact serves_of_guarded (.store identifier content) hrules .store identifier
      (fun m => (.ok (), m.insert identifier content)) id
      (.stored identifier content f.memory) fun _ _ => rfl
  | retrieve identifier =>
    simp only [answer, retrieve, hstorage]
    exact serves_of_guarded (.retrieve identifier) hrules .retrieve identifier
      (fun m => (m.retrieve identifier, m)) id (serves_retrieve f.memory identifier)
      fun e he => by simp [Request.fails, he]
  | delete identifier =>
    simp only [answer, delete, hstorage]
    exact serves_of_guarded (.delete identifier) hrules .delete identifier
      (deleteFrom identifier) id (serves_deleteFrom f.memory identifier)
      fun e he => by simp [Request.fails, he]
  | contains identifier =>
    have hguarded := serves_of_guarded (.contains identifier) hrules .retrieve identifier
      (fun m => (m.retrieve identifier, m)) presence (serves_presence f.memory identifier)
      fun e he => by simp [Request.fails, presence, he]
    simp only [answer, contains, retrieve, hstorage]
    revert hguarded
    rcases f.guarded .retrieve identifier fun m => (m.retrieve identifier, m) with ⟨_ | _, _⟩
    · exact id
    · exact id
  | list =>
    simp only [answer, list, hstorage]
    exact serves_of_guarded .list hrules .list "" (fun m => (.ok m.keys, m)) id
      (.listed (.refl _)) fun _ _ => rfl
  | now => exact ⟨.inl (hdata ▸ .now w.clock w.data), hhonest⟩
  | draw source size =>
    simp only [answer, draw]
    split
    · exact ⟨.inr ⟨rfl, hdata⟩, hhonest⟩
    · exact ⟨.inl (hdata ▸ .drawn source _ w.data), hhonest⟩
  | acquire lock => exact ⟨.inl (hdata ▸ .acquired lock w.data), hhonest⟩
  | release lock => exact ⟨.inl (hdata ▸ .released lock w.data), hhonest⟩

theorem IsPlain.isHonest (h : w.IsPlain) : w.IsHonest := by
  obtain ⟨m, hstorage⟩ := h
  rw [IsHonest, hstorage]
  trivial

theorem serves_or_fails (h : w.IsHonest) (r : Request) :
    (r.Serves (World.answer r w).1 w.data (World.answer r w).2.data
        ∨ r.fails (World.answer r w).1 = true ∧ (World.answer r w).2.data = w.data)
      ∧ (World.answer r w).2.IsHonest := by
  rw [IsHonest] at h
  split at h
  · rename_i m hstorage
    obtain ⟨hserves | ⟨hfails, -⟩, hplain⟩ := serves_of_plain hstorage r
    · exact ⟨.inl hserves, hplain.isHonest⟩
    · exact ⟨.inr hfails, hplain.isHonest⟩
  · rename_i f hstorage
    exact serves_of_failing hstorage h r
  · cases h

/-- Worlds that are honest, as `Surroundings`. -/
def surroundings : Surroundings where
  State := { w : World // w.IsHonest }
  answer r w := ((World.answer r w.1).1, ⟨(World.answer r w.1).2, (serves_or_fails w.2 r).2⟩)
  data w := w.1.data
  serves_or_fails r w := (serves_or_fails w.2 r).1

/-- Worlds that are plain, as `Surroundings`. -/
def plainSurroundings : Surroundings where
  State := { w : World // w.IsPlain }
  answer r w :=
    ((World.answer r w.1).1,
      ⟨(World.answer r w.1).2, (serves_of_plain w.2.choose_spec r).2⟩)
  data w := w.1.data
  serves_or_fails r w := (serves_or_fails w.2.isHonest r).1

theorem isReliable_plainSurroundings : plainSurroundings.IsReliable := by
  intro r w hfails
  rcases (serves_of_plain w.2.choose_spec r).1 with hserves | ⟨-, hdraw⟩
  · exact absurd hfails hserves.not_fails
  · exact hdraw

/-- No request makes a draw fail: `failingDraws` stays at nothing. -/
private theorem failingDraws_answer {m : Memory} (hstorage : w.storage = .memory m)
    (h : w.failingDraws = 0) (r : Request) : (World.answer r w).2.failingDraws = 0 := by
  cases r <;> simp [answer, store, retrieve, delete, contains, list, draw, hstorage, h]

/-- Nothing fails in a plain world with no draw that is to fail. -/
theorem failures_eq_nil {α : Type} {w : plainSurroundings.State} (h : w.1.failingDraws = 0)
    (action : Action α) : plainSurroundings.failures action w = [] := by
  have hprogram : ∀ (p : Program (Outcome α)) (w : plainSurroundings.State),
      w.1.failingDraws = 0 → p.failures plainSurroundings.answer w = [] := by
    intro p
    induction p with
    | done a => exact fun _ _ => rfl
    | ask r next ih =>
      intro w h
      have hserved : ¬ r.fails (plainSurroundings.answer r w).1 = true := by
        intro hfails
        obtain ⟨source, size, rfl⟩ := isReliable_plainSurroundings r w hfails
        have hdrawn : (World.answer (.draw source size) w.1).1
            = .ok (w.1.entropy.draw size).1 := by
          rw [answer, draw, if_neg (by omega)]
        change Request.fails (.draw source size) (World.answer (.draw source size) w.1).1 = true
          at hfails
        rw [hdrawn] at hfails
        cases hfails
      rw [Program.failures, if_neg hserved]
      exact ih _ _ (failingDraws_answer w.2.choose_spec h r)
  exact hprogram action.run w h

/-- The clock of a plain world `StandsAt` what it shows. -/
theorem standsAt_clock (w : plainSurroundings.State) :
    plainSurroundings.StandsAt w.1.clock w := by
  intro t ht
  show t.1.clock = w.1.clock
  induction ht with
  | refl => rfl
  | step r _ ih => exact (Action.clock_answer r _).trans ih

end World

end Strongbox
