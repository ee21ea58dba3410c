import Mathlib.Logic.Function.Basic
import Strongbox.Proofs.Program.History
/-!
# Programs that keep to a discipline

Programs that share a storage get along because each keeps to rules: it makes no request that its
own standing does not allow, and in return it may rely on something of the storage. A standing is
what is remembered of the steps that the program itself has made (`Discipline.after`); nothing that
the others do is part of it.

Whether a program keeps to its rules is settled by the program alone (`Program.Follows`): at each
request, whatever the answer is, as long as the storage is as it relies on. That the storage is so
is the other half. It is an invariant of the whole run, and is kept if each allowed step of each
program keeps it (`Passes.maintains`).

## Main results

* `Passes.maintains`: an invariant that gives what programs rely on, and that their allowed steps
  keep, holds in every run, and every program still keeps to its rules.
* `Program.follows_of_steady`: a program that only reads what stays as it is has an outcome that it
  has alone.
-/

namespace Strongbox

open Storage (Memory)

/-- Rules for a program, as far as its standing goes. -/
structure Discipline (L : Type) where
  /-- Nothing but the drawing of random bytes fails. -/
  reliable : Prop
  /-- The requests that may be made. -/
  Allows : L → Request → Prop
  /-- What may be relied on. -/
  Rely : L → Memory → Prop
  /-- The standing after a request was answered, with the storage as it is then. -/
  after : L → (r : Request) → r.Response → Memory → L

variable {L α β : Type} {D : Discipline L}

namespace Program

variable {Q R : L → α → Prop}

/-- The program makes none but requests that `Allows` permits, as long as it may `Rely` on the data,
and ends as `Q` says. -/
def Follows (D : Discipline L) (Q : L → α → Prop) : L → Program α → Prop
  | l, .done a => Q l a
  | l, .ask r next =>
    D.Allows l r ∧ ∀ x d d', r.Answered D.reliable x d d' → D.Rely l d →
      Follows D Q (D.after l r x d') (next x)

theorem Follows.bind {p : Program α} {f : α → Program β} {Q : L → β → Prop} {l : L}
    (hp : p.Follows D R l) (hf : ∀ l a, R l a → (f a).Follows D Q l) :
    (p.bind f).Follows D Q l := by
  induction p generalizing l with
  | done a => exact hf l a hp
  | ask r next ih =>
    exact ⟨hp.1, fun x d d' hanswered hrely => ih x (hp.2 x d d' hanswered hrely)⟩

theorem Follows.mono {p : Program α} {l : L} (hp : p.Follows D R l) (h : ∀ l a, R l a → Q l a) :
    p.Follows D Q l := by
  have hbind := hp.bind (f := done) (Q := Q) h
  rwa [bind_done] at hbind

/-- A program keeps its standing that `Asks` only what does not change it. -/
theorem Asks.follows {p : Program α} {l : L} {allowed : Request → Prop} (hp : p.Asks allowed)
    (hallows : ∀ r, allowed r → D.Allows l r) (hafter : ∀ r x d, allowed r → D.after l r x d = l) :
    p.Follows D (fun l' _ => l' = l) l := by
  induction p with
  | done a => rfl
  | ask r next ih =>
    refine ⟨hallows r hp.1, fun x d d' _ _ => ?_⟩
    rw [hafter r x d' hp.1]
    exact ih x (hp.2 x)

/-- What a program reads stays as it is while the program has its standing. Then it keeps that
standing, and its outcome is one that it has alone, over any data that look the same. -/
theorem follows_of_steady {p : Program α} {l : L} {allowed : Request → Prop} {Same : Memory → Prop}
    (hp : p.Asks allowed) (hallows : ∀ r, allowed r → D.Allows l r)
    (hafter : ∀ r x d, allowed r → D.after l r x d = l) (hrely : ∀ d, D.Rely l d → Same d)
    (hserves : ∀ r x d d', allowed r → r.Serves x d d' → Same d →
      ∀ d₁, Same d₁ → r.Serves x d₁ d₁) :
    p.Follows D (fun l' a => l' = l ∧ ∀ d, Same d → ∃ failed, p.Runs d a d failed
      ∧ (D.reliable → ∀ r ∈ failed, ∃ source size, r = .draw source size)) l := by
  induction p with
  | done a => exact ⟨rfl, fun d _ => ⟨[], .done a d, fun _ _ h => absurd h List.not_mem_nil⟩⟩
  | ask r next ih =>
    refine ⟨hallows r hp.1, fun x d d' hanswered hd => ?_⟩
    rw [hafter r x d' hp.1]
    refine (ih x (hp.2 x)).mono fun l' a ⟨hl, hruns⟩ => ⟨hl, fun d₁ hd₁ => ?_⟩
    obtain ⟨failed, hrun, hfailed⟩ := hruns d₁ hd₁
    rcases hanswered with hserved | ⟨hfails, -, hdraw⟩
    · exact ⟨failed, .served (hserves r x d d' hp.1 hserved (hrely d hd) d₁ hd₁) hrun, hfailed⟩
    · exact ⟨r :: failed, .failed hfails hrun,
        fun hreliable => List.forall_mem_cons.2 ⟨hdraw hreliable, hfailed hreliable⟩⟩

end Program

/-! ## Actions -/

namespace Action

/-- The action keeps to the `Discipline` and ends as `Q` says. -/
abbrev Follows (D : Discipline L) (Q : L → Outcome α → Prop) (l : L) (action : Action α) : Prop :=
  action.run.Follows D Q l

variable {l : L} {Q : L → Outcome β → Prop}

theorem follows_bind {action : Action α} {next : α → Action β} {R : L → Outcome α → Prop}
    (haction : action.Follows D R l) (hnext : ∀ l a, R l (.ok a) → (next a).Follows D Q l)
    (hhalt : ∀ l halt, R l (.error halt) → Q l (.error halt)) :
    (action >>= next).Follows D Q l := by
  have hrun : (action >>= next).run = action.run.bind (ExceptT.bindCont next) := rfl
  rw [Follows, hrun]
  refine haction.bind fun l' outcome h => ?_
  cases outcome with
  | error halt => exact hhalt l' halt h
  | ok a => exact hnext l' a h

theorem follows_ofExcept_bind {e : Except Error α} {next : α → Action β}
    (hok : ∀ a, e = .ok a → (next a).Follows D Q l)
    (herror : ∀ error, e = .error error → Q l (.error (.failed error))) :
    (ofExcept e >>= next).Follows D Q l := by
  cases e with
  | ok a => exact hok a rfl
  | error error => exact herror error rfl

/-- A halt that `attempt` catches is a result. -/
theorem follows_attempt_bind {action : Action α} {next : Outcome α → Action β}
    {R : L → Outcome α → Prop} (haction : action.Follows D R l)
    (hnext : ∀ l o, R l o → (next o).Follows D Q l) :
    (attempt action >>= next).Follows D Q l := by
  have hrun : (attempt action >>= next).run = action.run.bind fun o => (next o).run := by
    have hattempt : (attempt action).run = action.run.bind fun o => Program.done (.ok o) := rfl
    have hbind : (attempt action >>= next).run
        = (attempt action).run.bind (ExceptT.bindCont next) := rfl
    rw [hbind, hattempt, Program.bind_assoc]
    rfl
  rw [Follows, hrun]
  exact haction.bind hnext

/-- An action `withLock` keeps to the rules while the lock is held, and may then give it back. -/
theorem follows_withLock {lock : Lock} {action : Action β} {R : L → Outcome β → Prop}
    (hacquire : D.Allows l (.acquire lock))
    (haction : ∀ d, D.Rely l d → action.Follows D R (D.after l (.acquire lock) () d))
    (hrelease : ∀ l o, R l o → D.Allows l (.release lock)
      ∧ ∀ d, D.Rely l d → Q (D.after l (.release lock) () d) o) :
    (withLock lock action).Follows D Q l := by
  have hrun : (withLock lock action).run = Program.ask (.acquire lock) fun _ =>
      action.run.bind fun o => Program.ask (.release lock) fun _ => Program.done o := rfl
  rw [Follows, hrun]
  refine ⟨hacquire, fun x d d' hanswered hrely => ?_⟩
  rcases hanswered with hserves | ⟨hfails, -⟩
  · cases hserves
    refine (haction _ hrely).bind fun l' o h => ?_
    obtain ⟨hallows, hend⟩ := hrelease l' o h
    refine ⟨hallows, fun x d d' hanswered hrely => ?_⟩
    rcases hanswered with hserves | ⟨hfails, -⟩
    · cases hserves
      exact hend _ hrely
    · cases hfails
  · cases hfails

theorem follows_ask_bind {r : Request} {next : r.Response → Action β} (hallows : D.Allows l r)
    (hserved : ∀ x d d', r.Serves x d d' → D.Rely l d → (next x).Follows D Q (D.after l r x d'))
    (hfailed : ∀ x d, r.fails x = true → (D.reliable → ∃ source size, r = .draw source size) →
      D.Rely l d → (next x).Follows D Q (D.after l r x d)) :
    (ask r >>= next).Follows D Q l := by
  refine ⟨hallows, fun x d d' hanswered hrely => ?_⟩
  rcases hanswered with hserves | ⟨hfails, rfl, hdraw⟩
  · exact hserved x d d' hserves hrely
  · exact hfailed x d' hfails hdraw hrely

/-! ## After a request -/

theorem follows_store {identifier : String} {content : Bytes} {Q : L → Outcome Unit → Prop}
    (hallows : D.Allows l (.store identifier content))
    (hstored : ∀ d, D.Rely l d →
      Q (D.after l (.store identifier content) (.ok ()) (d.insert identifier content)) (.ok ()))
    (hfailed : ¬ D.reliable → ∀ e d, D.Rely l d →
      Q (D.after l (.store identifier content) (.error e) d) (.error (.failed (.storage e)))) :
    (store identifier content).Follows D Q l := by
  refine follows_ask_bind hallows (fun x d d' hserves hrely => ?_) fun x d hfails hdraw hrely => ?_
  · cases hserves
    exact hstored d hrely
  · rcases x with e | u
    · refine hfailed (fun hreliable => ?_) e d hrely
      obtain ⟨source, size, hr⟩ := hdraw hreliable
      cases hr
    · cases hfails

theorem follows_contains_bind {identifier : String} {next : Bool → Action β}
    (hallows : D.Allows l (.contains identifier))
    (hnext : ∀ d, D.Rely l d → (next (d.contains identifier)).Follows D Q
      (D.after l (.contains identifier) (.ok (d.contains identifier)) d))
    (hfailed : ∀ e d, D.Rely l d →
      Q (D.after l (.contains identifier) (.error e) d) (.error (.failed (.storage e)))) :
    (contains identifier >>= next).Follows D Q l := by
  rw [contains, bind_assoc]
  refine follows_ask_bind hallows (fun x d d' hserves hrely => ?_) fun x d hfails _ hrely => ?_
  · cases hserves
    exact hnext d hrely
  · rcases x with e | answer
    · exact hfailed e d hrely
    · cases hfails

theorem follows_deleteIfPresent {identifier : String} {Q : L → Outcome Bool → Prop}
    (hallows : D.Allows l (.delete identifier))
    (hdeleted : ∀ d, D.Rely l d →
      Q (D.after l (.delete identifier) (.ok ()) (d.erase identifier)) (.ok true))
    (habsent : ∀ name d, D.Rely l d → d.contains identifier = false →
      Q (D.after l (.delete identifier) (.error (.notFound name)) d) (.ok false))
    (hfailed : ¬ D.reliable → ∀ e d, D.Rely l d →
      Q (D.after l (.delete identifier) (.error e) d) (.error (.failed (.storage e)))) :
    (deleteIfPresent identifier).Follows D Q l := by
  refine follows_ask_bind hallows (fun x d d' hserves hrely => ?_) fun x d hfails hdraw hrely => ?_
  · cases hserves with
    | deleted hcontains => exact hdeleted d hrely
    | nothingDeleted name hcontains => exact habsent name d hrely hcontains
  · have hunreliable : ¬ D.reliable := by
      intro hreliable
      obtain ⟨source, size, hr⟩ := hdraw hreliable
      cases hr
    rcases x with e | u
    · cases e with
      | notFound name => cases hfails
      | _ => exact hfailed hunreliable _ d hrely
    · cases hfails

theorem follows_identifiers_bind {next : List String → Action β} (hallows : D.Allows l .list)
    (hnext : ∀ found d, found.Perm d.keys → D.Rely l d → (next found).Follows D Q
      (D.after l .list (.ok found) d))
    (hfailed : ∀ e d, D.Rely l d →
      Q (D.after l .list (.error e) d) (.error (.failed (.storage e)))) :
    (identifiers >>= next).Follows D Q l := by
  rw [identifiers, bind_assoc]
  refine follows_ask_bind hallows (fun x d d' hserves hrely => ?_) fun x d hfails _ hrely => ?_
  · cases hserves with
    | listed hperm => exact hnext _ d hperm hrely
  · rcases x with e | found
    · exact hfailed e d hrely
    · cases hfails

theorem follows_now_bind {next : Time.Instant → Action β} (hallows : D.Allows l .now)
    (hnext : ∀ t d, D.Rely l d → (next t).Follows D Q (D.after l .now t d)) :
    (now >>= next).Follows D Q l := by
  refine follows_ask_bind hallows (fun x d d' hserves hrely => ?_) fun x d hfails _ _ => ?_
  · cases hserves
    exact hnext _ _ hrely
  · cases hfails

theorem follows_draw_bind {source : RandomSource} {size : Nat} {next : Bytes.Sized size → Action β}
    (hallows : D.Allows l (.draw source size))
    (hnext : ∀ bytes d, D.Rely l d → (next bytes).Follows D Q
      (D.after l (.draw source size) (.ok bytes) d))
    (hfailed : ∀ e d, D.Rely l d →
      Q (D.after l (.draw source size) (.error e) d) (.error (.failed e))) :
    (draw source size >>= next).Follows D Q l := by
  rw [draw, bind_assoc]
  refine follows_ask_bind hallows (fun x d d' hserves hrely => ?_) fun x d hfails _ hrely => ?_
  · cases hserves
    exact hnext _ _ hrely
  · rcases x with e | bytes
    · exact hfailed e d hrely
    · cases hfails

end Action

/-! ## Locks that are held alone -/

/-- Whoever has a lock of some sort holds it, and nobody else does. -/
structure HeldAlone (lock : Nat → Option Lock) (held : List Lock) : Prop where
  mem : ∀ {i k}, lock i = some k → k ∈ held
  alone : ∀ {i j k}, lock i = some k → lock j = some k → i = j

namespace HeldAlone

variable {lock lock' : Nat → Option Lock} {held held' : List Lock} {i : Nat} {k : Lock}

theorem take (h : HeldAlone lock held) (hfree : k ∉ held) (hself : lock' i = some k)
    (hothers : ∀ j, j ≠ i → lock' j = lock j) : HeldAlone lock' (k :: held) := by
  have hcases : ∀ {j k'}, lock' j = some k' → j = i ∧ k' = k ∨ lock j = some k' ∧ k' ≠ k := by
    intro j k' hj
    by_cases hji : j = i
    · subst hji
      rw [hself] at hj
      exact .inl ⟨rfl, (Option.some.inj hj).symm⟩
    · rw [hothers j hji] at hj
      refine .inr ⟨hj, fun hk => hfree ?_⟩
      rw [← hk]
      exact h.mem hj
  refine ⟨fun hj => ?_, fun hj hj' => ?_⟩
  · rcases hcases hj with ⟨-, rfl⟩ | ⟨hj, -⟩
    · exact List.mem_cons_self
    · exact List.mem_cons_of_mem _ (h.mem hj)
  · rcases hcases hj with ⟨rfl, rfl⟩ | ⟨hj, hne⟩
    · rcases hcases hj' with ⟨rfl, -⟩ | ⟨-, hne⟩
      · rfl
      · exact absurd rfl hne
    · rcases hcases hj' with ⟨-, rfl⟩ | ⟨hj', -⟩
      · exact absurd rfl hne
      · exact h.alone hj hj'

theorem give (h : HeldAlone lock held) (hold : lock i = some k) (hself : lock' i = none)
    (hothers : ∀ j, j ≠ i → lock' j = lock j) : HeldAlone lock' (held.erase k) := by
  have hcases : ∀ {j k'}, lock' j = some k' → j ≠ i ∧ lock j = some k' := by
    intro j k' hj
    have hji : j ≠ i := by
      rintro rfl
      rw [hself] at hj
      cases hj
    exact ⟨hji, (hothers j hji).symm.trans hj⟩
  refine ⟨fun hj => ?_, fun hj hj' => h.alone (hcases hj).2 (hcases hj').2⟩
  obtain ⟨hji, hj⟩ := hcases hj
  refine (List.mem_erase_of_ne ?_).2 (h.mem hj)
  rintro rfl
  exact hji (h.alone hj hold)

theorem keep (h : HeldAlone lock held) (hsame : ∀ j, lock' j = lock j)
    (hheld : ∀ j k, lock j = some k → k ∈ held → k ∈ held') : HeldAlone lock' held' := by
  refine ⟨fun {j k} hj => ?_, fun {j j' k} hj hj' => ?_⟩
  · rw [hsame] at hj
    exact hheld j k hj (h.mem hj)
  · rw [hsame] at hj hj'
    exact h.alone hj hj'

end HeldAlone

/-! ## Runs -/

/-- The standing of a program after some events. -/
def Discipline.standing (D : Discipline L) (start : L) (i : Nat) : List Event → L
  | [] => start
  | e :: events =>
    if e.task = i then D.after (D.standing start i events) e.request e.answer e.after
    else D.standing start i events

/-- A step changes the standing of the program that has made it. -/
theorem Discipline.standing_cons (D : Discipline L) (start : L) (e : Event) (events : List Event) :
    (fun i => D.standing start i (e :: events))
      = Function.update (fun i => D.standing start i events) e.task
          (D.after (D.standing start e.task events) e.request e.answer e.after) := by
  funext i
  rw [standing]
  by_cases hi : e.task = i
  · subst hi
    rw [if_pos rfl, Function.update_self]
  · rw [if_neg hi, Function.update_of_ne (Ne.symm hi)]

/-- What a step leaves alone for its program, it leaves alone for all. -/
theorem update_same {β : Type} {l : Nat → L} {i : Nat} {l' : L} (f : L → β) (h : f l' = f (l i))
    (j : Nat) : f (Function.update l i l' j) = f (l j) := by
  by_cases hji : j = i
  · subst hji
    rw [Function.update_self, h]
  · rw [Function.update_of_ne hji]

/-- Who has not been among the programs has made no step: its `standing` is that at the start. -/
theorem Passes.standing_of_none {S : Surroundings} {s t : Together S.State α} {events : List Event}
    {start : L} {i : Nat} (h : Passes S s events t) (hnone : t.tasks[i]? = none) :
    D.standing start i events = start := by
  induction h with
  | start => rfl
  | @step events t u j r next hpasses htask hstep ih =>
    have hlength : u.tasks.length = t.tasks.length := by
      rw [(hpasses.step htask hstep).length_tasks, hpasses.length_tasks]
    rw [List.getElem?_eq_none_iff, hlength, ← List.getElem?_eq_none_iff] at hnone
    have hij : j ≠ i := by
      rintro rfl
      rw [hnone] at htask
      cases htask
    rw [Discipline.standing, if_neg hij]
    exact ih hnone

/-- A program that `Follows` the rules does so where its trace leads it, if what it relies on has
always held. -/
theorem Passes.follows {S : Surroundings} {s t : Together S.State α} {events : List Event}
    {start : L} {i : Nat} {p q : Program β} {Q : L → β → Prop} (h : Passes S s events t)
    (hreliable : D.reliable = S.IsReliable)
    (hrely : ∀ earlier t', Passes S s earlier t' →
      D.Rely (D.standing start i earlier) (S.data t'.world))
    (hp : p.Follows D Q start) (htakes : p.Takes (traceOf i events) q) :
    q.Follows D Q (D.standing start i events) := by
  induction h generalizing q with
  | start =>
    rw [htakes.eq_of_nil]
    exact hp
  | @step events t u j r next hpasses htask hstep ih =>
    rw [traceOf] at htakes
    rw [Discipline.standing]
    by_cases hij : j = i
    · rw [if_pos hij] at htakes ⊢
      obtain ⟨next', hbefore, rfl⟩ := htakes.exists_of_snoc
      obtain ⟨r', next'', htask', -, -, -, hanswered⟩ := Together.exists_of_step? hstep
      rw [htask] at htask'
      cases htask'
      rw [← hreliable] at hanswered
      exact (ih hbefore).2 _ _ _ hanswered (hrely events t hpasses)
    · rw [if_neg hij] at htakes ⊢
      exact ih htakes

/-- An invariant that gives each program what it may `Rely` on, and that the allowed steps keep,
holds in every run, and each program still `Follows` its rules. -/
theorem Passes.maintains {S : Surroundings} {s t : Together S.State α} {events : List Event}
    {D : Nat → Discipline L} {l : L} {Q : Nat → L → α → Prop}
    {I : List Event → Together S.State α → Prop} (h : Passes S s events t)
    (hreliable : ∀ i, (D i).reliable = S.IsReliable)
    (hfollows : ∀ i (p : Program α), s.tasks[i]? = some p → p.Follows (D i) (Q i) l)
    (hstart : I [] s)
    (hrely : ∀ events t, I events t →
      ∀ i, (D i).Rely ((D i).standing l i events) (S.data t.world))
    (hkept : ∀ events t u i r next, I events t → t.tasks[i]? = some (.ask r next) →
      (D i).Allows ((D i).standing l i events) r → t.step? S.answer i = some u →
      I (⟨i, r, (S.answer r t.world).1, S.data t.world, S.data u.world⟩ :: events) u) :
    I events t
      ∧ ∀ i (p : Program α), t.tasks[i]? = some p →
          p.Follows (D i) (Q i) ((D i).standing l i events) := by
  induction h with
  | start => exact ⟨hstart, hfollows⟩
  | @step events t u j r next _ htask hstep ih =>
    obtain ⟨hinv, hfollowed⟩ := ih
    have hask := hfollowed j _ htask
    refine ⟨hkept events t u j r next hinv htask hask.1 hstep, fun i p hp => ?_⟩
    obtain ⟨r', next', htask', htasks, -, -, hanswered⟩ := Together.exists_of_step? hstep
    rw [htask] at htask'
    cases htask'
    rw [htasks] at hp
    rw [Discipline.standing]
    by_cases hij : j = i
    · subst hij
      have hlt : j < t.tasks.length := (List.getElem?_eq_some_iff.1 htask).1
      rw [List.getElem?_set_self hlt] at hp
      cases hp
      rw [if_pos rfl]
      rw [← hreliable j] at hanswered
      exact hask.2 _ _ _ hanswered (hrely events t hinv j)
    · rw [List.getElem?_set_ne hij] at hp
      rw [if_neg hij]
      exact hfollowed i p hp

end Strongbox
