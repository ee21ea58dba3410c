import Mathlib.Data.List.Perm.Basic
import Mathlib.Data.List.Nodup
import Strongbox.Proofs.Program.Discipline
/-!
# Programs that could as well run one after another

Places in the storage are guarded by locks. A program that works on one place takes the lock of it,
reads there, and writes there at most once; after that, and once it has given the lock back, it asks
nothing that depends on the storage. A program may also look at a single place without its lock, if
that is all it does.

Such a program is settled by one of its requests: by its write, by the look, or else by giving the
lock back. Up to that request nobody else has written to its place since it has taken the lock, so
all that it has seen is so over the storage as it is then; after it, nothing that the others do
matters. In the order in which they are settled, the programs could therefore have run one after
another, each alone, on the answers that it has got, and left the same data.

## Main results

* `Serialized.step`: a step that the rules allow keeps what is known of such a run.
* `Passes.exists_oneByOne`: programs that ran together could have run one after another.
* `Passes.runsAs_of_change`: whatever is changed, is changed as by a program that runs alone just
  then.
-/

namespace Strongbox

open Storage (Memory)

/-! ## Running alone on given answers -/

/-- The answers of a `Trace` are such as its requests get over some data, one after another. -/
inductive Trace.Over (reliable : Prop) : Trace → Memory → Memory → Prop where
  | nil (d : Memory) : Over reliable [] d d
  | cons {r : Request} {x : r.Response} {rest : Trace} {d d₁ d' : Memory} :
    r.Answered reliable x d d₁ → Over reliable rest d₁ d' → Over reliable (⟨r, x⟩ :: rest) d d'

namespace Trace.Over

variable {reliable : Prop} {trace rest : Trace} {d d₁ d' : Memory}

theorem append (h : trace.Over reliable d d₁) (hrest : rest.Over reliable d₁ d') :
    Trace.Over reliable (trace ++ rest) d d' := by
  induction h with
  | nil => exact hrest
  | cons hanswered _ ih => exact .cons hanswered (ih hrest)

theorem snoc {r : Request} {x : r.Response} (h : trace.Over reliable d d₁)
    (hanswered : r.Answered reliable x d₁ d') : Trace.Over reliable (trace ++ [⟨r, x⟩]) d d' :=
  h.append (.cons hanswered (.nil d'))

end Trace.Over

namespace Program

variable {α : Type} {reliable : Prop}

/-- The program runs alone over some data, on the answers of a `Trace`. -/
structure RunsAs (reliable : Prop) (p : Program α) (trace : Trace) (d : Memory) (a : α)
    (d' : Memory) : Prop where
  takes : p.Takes trace (.done a)
  answered : trace.Over reliable d d'

theorem RunsAs.runs {p : Program α} {trace : Trace} {a : α} {d d' : Memory}
    (h : p.RunsAs reliable trace d a d') : ∃ failed, p.Runs d a d' failed := by
  obtain ⟨htakes, hover⟩ := h
  induction hover generalizing p with
  | nil d =>
    rw [← htakes.eq_of_nil]
    exact ⟨[], .done a d⟩
  | cons hanswered _ ih =>
    cases htakes with
    | answer htakes =>
      obtain ⟨failed, hruns⟩ := ih htakes
      rcases hanswered with hserves | ⟨hfails, rfl, -⟩
      · exact ⟨failed, .served hserves hruns⟩
      · exact ⟨_, .failed hfails hruns⟩

end Program

/-! ## One after another -/

/-- Steps of the data, one for each number, in an order of them. -/
inductive InTurn (Step : Nat → Memory → Memory → Prop) : List Nat → Memory → Memory → Prop where
  | nil (d : Memory) : InTurn Step [] d d
  | cons {i : Nat} {rest : List Nat} {d d₁ d' : Memory} :
    Step i d d₁ → InTurn Step rest d₁ d' → InTurn Step (i :: rest) d d'

namespace InTurn

variable {Step Step' : Nat → Memory → Memory → Prop} {order rest : List Nat} {d d₁ d' : Memory}

theorem append (h : InTurn Step order d d₁) (hrest : InTurn Step rest d₁ d') :
    InTurn Step (order ++ rest) d d' := by
  induction h with
  | nil => exact hrest
  | cons hstep _ ih => exact .cons hstep (ih hrest)

theorem exists_of_append (h : InTurn Step (order ++ rest) d d') :
    ∃ d₁, InTurn Step order d d₁ ∧ InTurn Step rest d₁ d' := by
  induction order generalizing d with
  | nil => exact ⟨d, .nil d, h⟩
  | cons i order ih =>
    cases h with
    | cons hstep h =>
      obtain ⟨d₁, horder, hrest⟩ := ih h
      exact ⟨d₁, .cons hstep horder, hrest⟩

/-- What every step keeps is so at the end of steps that are taken `InTurn`. -/
theorem keeps {P : Memory → Prop} (h : InTurn Step order d d')
    (hkept : ∀ i ∈ order, ∀ d d', Step i d d' → P d → P d') (hd : P d) : P d' := by
  induction h with
  | nil => exact hd
  | cons hstep _ ih =>
    exact ih (fun i hi => hkept i (List.mem_cons_of_mem _ hi))
      (hkept _ List.mem_cons_self _ _ hstep hd)

theorem mono (h : InTurn Step order d d')
    (hstep : ∀ i ∈ order, ∀ d d', Step i d d' → Step' i d d') : InTurn Step' order d d' := by
  induction h with
  | nil d => exact .nil d
  | cons hfirst _ ih =>
    exact .cons (hstep _ List.mem_cons_self _ _ hfirst)
      (ih fun i hi => hstep i (List.mem_cons_of_mem _ hi))

/-- Steps that change nothing can be made in any order. -/
theorem still (h : ∀ i ∈ order, Step i d d) : InTurn Step order d d := by
  induction order with
  | nil => exact .nil d
  | cons i rest ih =>
    exact .cons (h i List.mem_cons_self) (ih fun j hj => h j (List.mem_cons_of_mem _ hj))

end InTurn

/-- Programs run one after another in an `order`, each alone, on the answers of its trace, and with
the `results` that are given. -/
def OneByOne {α : Type} (reliable : Prop) (tasks : List (Program α)) (results : List α)
    (trace : Nat → Trace) (order : List Nat) (d d' : Memory) : Prop :=
  InTurn (fun i d d' => ∃ p a, tasks[i]? = some p ∧ results[i]? = some a
    ∧ p.RunsAs reliable (trace i) d a d') order d d'

/-! ## Rules for one place -/

/-- Which place in the storage a lock guards. -/
structure Guarding where
  place? : Lock → Option String
  /-- Every place has one lock. -/
  inj : ∀ {a b : Lock} {place : String}, place? a = some place → place? b = some place → a = b

/-- How far a program has got with its place. -/
inductive Phase where
  | before
  /-- It holds the lock of the place and has only read there. -/
  | reading (lock : Lock) (place : String)
  /-- It will ask nothing more that depends on the storage. -/
  | settled (lock : Option Lock)

namespace Phase

/-- The lock that is held in a `Phase`. -/
def lock? : Phase → Option Lock
  | before => none
  | reading lock _ => some lock
  | settled lock => lock

def IsSettled : Phase → Prop
  | settled _ => True
  | before | reading _ _ => False

/-- A program that keeps to the rules ends in a `Phase` without a lock. -/
def IsEnd {α : Type} (l : Phase) (_ : α) : Prop := l.lock? = none

end Phase

namespace Guarding

variable (G : Guarding)

/-- The `Phase` after a request. -/
def next : Phase → Request → Phase
  | .before, .acquire lock =>
    match G.place? lock with
    | some place => .reading lock place
    | none => .before
  | .before, .contains _ => .settled none
  | .reading lock _, .store _ _ | .reading lock _, .delete _ => .settled (some lock)
  | .reading _ _, .release _ | .settled _, .release _ => .settled none
  | phase, _ => phase

/-- The requests that may be made in a `Phase`. -/
inductive Allowed : Phase → Request → Prop where
  | now (phase : Phase) : Allowed phase .now
  | draw (phase : Phase) (source : RandomSource) (size : Nat) : Allowed phase (.draw source size)
  | acquire {lock : Lock} {place : String} : G.place? lock = some place →
    Allowed .before (.acquire lock)
  | look (place : String) : Allowed .before (.contains place)
  | contains (lock : Lock) (place : String) : Allowed (.reading lock place) (.contains place)
  | retrieve (lock : Lock) (place : String) : Allowed (.reading lock place) (.retrieve place)
  | store (lock : Lock) (place : String) (content : Bytes) :
    Allowed (.reading lock place) (.store place content)
  | delete (lock : Lock) (place : String) : Allowed (.reading lock place) (.delete place)
  | release (lock : Lock) (place : String) : Allowed (.reading lock place) (.release lock)
  | giveBack (lock : Lock) : Allowed (.settled (some lock)) (.release lock)

/-- The `Discipline` for programs that work on one place. -/
def rules (reliable : Prop) : Discipline Phase where
  reliable := reliable
  Allows := G.Allowed
  Rely _ _ := True
  after phase r _ _ := G.next phase r

end Guarding

/-! ## Actions under the rules -/

/-- The request has nothing to do with the storage or with locks. -/
def Request.IsApart : Request → Prop
  | .now | .draw _ _ => True
  | .store _ _ | .retrieve _ | .delete _ | .contains _ | .list | .acquire _ | .release _ => False

/-- The request sees no more of the storage than a place, and has nothing to do with locks. -/
def Request.LooksAt (place : String) : Request → Prop
  | .now | .draw _ _ => True
  | .retrieve location | .contains location => location = place
  | .store _ _ | .delete _ | .list | .acquire _ | .release _ => False

namespace Action

variable {α β : Type} {G : Guarding} {reliable : Prop} {lock : Lock} {place : String}

theorem follows_apart {action : Action α} (h : action.Asks Request.IsApart) (l : Phase) :
    action.Follows (G.rules reliable) (fun l' _ => l' = l) l := by
  refine Program.Asks.follows h (fun r hr => ?_) fun r x d hr => ?_
  · cases r with
    | now => exact .now l
    | draw source size => exact .draw l source size
    | _ => exact hr.elim
  · cases r with
    | now | draw => cases l <;> rfl
    | _ => exact hr.elim

/-- Who only asks what `LooksAt` the place goes on `reading` it as before. -/
theorem follows_looking_bind {action : Action α} {next : α → Action β}
    (h : action.Asks (Request.LooksAt place))
    (hnext : ∀ a, (next a).Follows (G.rules reliable) (fun l _ => l.lock? = some lock)
      (.reading lock place)) :
    (action >>= next).Follows (G.rules reliable) (fun l _ => l.lock? = some lock)
      (.reading lock place) := by
  have haction : action.Follows (G.rules reliable) (fun l _ => l = .reading lock place)
      (.reading lock place) := by
    refine Program.Asks.follows h (fun r hr => ?_) fun r x d hr => ?_
    · cases r with
      | now => exact .now _
      | draw source size => exact .draw _ source size
      | retrieve location =>
        obtain rfl : location = place := hr
        exact .retrieve lock location
      | contains location =>
        obtain rfl : location = place := hr
        exact .contains lock location
      | _ => exact hr.elim
    · cases r with
      | now | draw | retrieve | contains => rfl
      | _ => exact hr.elim
  refine follows_bind haction (fun l a hl => ?_) fun l halt hl => ?_
  · subst hl
    exact hnext a
  · subst hl
    rfl

theorem follows_storing (content : Bytes) :
    (store place content).Follows (G.rules reliable) (fun l _ => l.lock? = some lock)
      (.reading lock place) :=
  follows_store (.store lock place content) (fun _ _ => rfl) fun _ _ _ _ => rfl

theorem follows_deleting :
    (delete place).Follows (G.rules reliable) (fun l _ => l.lock? = some lock)
      (.reading lock place) := by
  refine ⟨.delete lock place, fun x _ _ _ _ => ?_⟩
  cases x <;> rfl

/-- Who only looks needs no lock: `contains` keeps to the rules from `before` on. -/
theorem follows_look (place : String) :
    (contains place).Follows (G.rules reliable) Phase.IsEnd .before := by
  refine ⟨.look place, fun x _ _ _ _ => ?_⟩
  cases x <;> rfl

/-- What is done at a place under its lock keeps to the `rules`, and the lock is given back. -/
theorem follows_guarded {action : Action α} (hplace : G.place? lock = some place)
    (h : action.Follows (G.rules reliable) (fun l _ => l.lock? = some lock)
      (.reading lock place)) :
    (withLock lock action).Follows (G.rules reliable) Phase.IsEnd .before := by
  refine follows_withLock (R := fun l _ => l.lock? = some lock) (.acquire hplace) (fun _ _ => ?_)
    fun l o hlock => ?_
  · show Action.Follows _ _ (G.next .before (.acquire lock)) _
    rw [Guarding.next, hplace]
    exact h
  · cases l with
    | before => cases hlock
    | reading other place =>
      cases hlock
      exact ⟨.release lock place, fun _ _ => rfl⟩
    | settled other =>
      obtain rfl : other = some lock := hlock
      exact ⟨.giveBack lock, fun _ _ => rfl⟩

end Action

/-! ## What one request does -/

namespace Request

variable {reliable : Prop} {r : Request} {x : r.Response} {place : String} {d d' : Memory}

/-- The clock, the drawing of random bytes and locks are answered alike over all data. -/
theorem Answered.of_neutral (h : r.Answered reliable x d d')
    (hneutral : r = .now ∨ (∃ source size, r = .draw source size)
      ∨ ∃ lock, r = .acquire lock ∨ r = .release lock) :
    d' = d ∧ ∀ d₁, r.Answered reliable x d₁ d₁ := by
  rcases h with hserves | ⟨hfails, rfl, hdraw⟩
  · rcases hneutral with rfl | ⟨source, size, rfl⟩ | ⟨lock, rfl | rfl⟩ <;> cases hserves
    · exact ⟨rfl, fun d₁ => .inl (.now _ d₁)⟩
    · exact ⟨rfl, fun d₁ => .inl (.drawn _ _ d₁)⟩
    · exact ⟨rfl, fun d₁ => .inl (.acquired _ d₁)⟩
    · exact ⟨rfl, fun d₁ => .inl (.released _ d₁)⟩
  · exact ⟨rfl, fun d₁ => .inr ⟨hfails, rfl, hdraw⟩⟩

/-- What is read at a place is answered alike over all data that are the same there. -/
theorem Answered.of_read (h : r.Answered reliable x d d')
    (hread : r = .contains place ∨ r = .retrieve place) :
    d' = d ∧ ∀ d₁ : Memory, d₁.get? place = d.get? place → r.Answered reliable x d₁ d₁ := by
  rcases h with hserves | ⟨hfails, rfl, hdraw⟩
  · rcases hread with rfl | rfl
    · cases hserves
      refine ⟨rfl, fun d₁ hsame => .inl ?_⟩
      have hcontains : d.contains place = d₁.contains place := by
        unfold Table.contains
        rw [hsame]
      rw [hcontains]
      exact .contains place d₁
    · cases hserves with
      | retrieved hget => exact ⟨rfl, fun d₁ hsame => .inl (.retrieved (hsame.trans hget))⟩
      | nothingRetrieved name hget =>
        exact ⟨rfl, fun d₁ hsame => .inl (.nothingRetrieved name (hsame.trans hget))⟩
  · exact ⟨rfl, fun d₁ _ => .inr ⟨hfails, rfl, hdraw⟩⟩

/-- What is written at a place changes no other: the data there are still what `get?` finds. -/
theorem Answered.get?_eq_of_write (h : r.Answered reliable x d d')
    (hwrite : (∃ content, r = .store place content) ∨ r = .delete place) {other : String}
    (hne : other ≠ place) : d'.get? other = d.get? other := by
  rcases h with hserves | ⟨-, rfl, -⟩
  · rcases hwrite with ⟨content, rfl⟩ | rfl
    · cases hserves
      rw [Table.get?_insert, if_neg hne]
    · cases hserves with
      | deleted => rw [Table.get?_erase, if_neg hne]
      | nothingDeleted => rfl
  · rfl

end Request

/-! ## The invariant -/

/-- How far a program has got, and what it has got to see. -/
structure Progress where
  phase : Phase
  trace : Trace

/-- Until a program `IsSettled`, what it has seen is so over the data that there are now, and over
all that are the same at its place. -/
def Progress.Fits (G : Guarding) (reliable : Prop) (d : Memory) (c : Progress) : Prop :=
  match c.phase with
  | .before => ∀ d₁, c.trace.Over reliable d₁ d₁
  | .reading lock place => G.place? lock = some place
      ∧ ∀ d₁ : Memory, d₁.get? place = d.get? place → c.trace.Over reliable d₁ d₁
  | .settled _ => True

/-- Of what a program has seen that `IsSettled` nothing is asked any more. -/
theorem Progress.fits_of_isSettled {G : Guarding} {reliable : Prop} {d : Memory} {l : Phase}
    {trace : Trace} (h : l.IsSettled) : Fits G reliable d ⟨l, trace⟩ := by
  cases l with
  | settled => trivial
  | before | reading => exact h.elim

/-- What is known of a run of programs that keep to the rules. The programs that are settled could
have run `InTurn`, from the data at the `start` to those that there are now. -/
structure Serialized (G : Guarding) (reliable : Prop) (start : Memory) (c : Nat → Progress)
    (order : List Nat) (held : List Lock) (d : Memory) : Prop where
  locks : HeldAlone (fun i => (c i).phase.lock?) held
  fits : ∀ i, (c i).Fits G reliable d
  nodup : order.Nodup
  mem_order : ∀ i, i ∈ order ↔ (c i).phase.IsSettled
  inTurn : InTurn (fun i => (c i).trace.Over reliable) order start d

namespace Serialized

variable {G : Guarding} {reliable : Prop} {start d d' : Memory} {c : Nat → Progress}
  {order : List Nat} {held held' : List Lock} {i : Nat} {l l' : Phase} {trace trace' : Trace}

theorem refl (G : Guarding) (reliable : Prop) (d : Memory) :
    Serialized G reliable d (fun _ => ⟨.before, []⟩) [] [] d :=
  ⟨⟨fun h => (by cases h), fun h => (by cases h)⟩, fun _ d₁ => .nil d₁, List.nodup_nil,
    fun _ => ⟨fun h => absurd h List.not_mem_nil, False.elim⟩, .nil d⟩

/-! ### What becomes of the order -/

section Order

variable (h : Serialized G reliable start c order held d) (hc : c i = ⟨l, trace⟩)

include h hc

theorem not_mem_order (hopen : ¬ l.IsSettled) : i ∉ order := by
  intro hi
  have hsettled := (h.mem_order i).1 hi
  rw [hc] at hsettled
  exact hopen hsettled

/-- Who is not among the settled has no part in the order. -/
theorem inTurn_update (hopen : ¬ l.IsSettled) :
    InTurn (fun j => (Function.update c i ⟨l', trace'⟩ j).trace.Over reliable) order start d := by
  refine h.inTurn.mono fun j hj d d' hover => ?_
  have hji : j ≠ i := by
    rintro rfl
    exact h.not_mem_order hc hopen hj
  rw [Function.update_of_ne hji]
  exact hover

/-- A program that is not settled goes on, and what it has seen by then still `Fits`. -/
theorem step_see (hopen : ¬ l.IsSettled) (hopen' : ¬ l'.IsSettled)
    (hlocks : HeldAlone (fun j => (Function.update c i ⟨l', trace'⟩ j).phase.lock?) held')
    (hfits : Progress.Fits G reliable d ⟨l', trace'⟩) :
    Serialized G reliable start (Function.update c i ⟨l', trace'⟩) order held' d := by
  refine ⟨hlocks, ?_, h.nodup, ?_, h.inTurn_update hc hopen⟩
  · exact (Function.forall_update_iff c fun _ c => c.Fits G reliable d).2
      ⟨hfits, fun j _ => h.fits j⟩
  · exact (Function.forall_update_iff c fun j c => j ∈ order ↔ c.phase.IsSettled).2
      ⟨iff_of_false (h.not_mem_order hc hopen) hopen', fun j _ => h.mem_order j⟩

/-- A program is settled, the last of them so far. -/
theorem step_settle (hopen : ¬ l.IsSettled) (hsettled : l'.IsSettled)
    (hlocks : HeldAlone (fun j => (Function.update c i ⟨l', trace'⟩ j).phase.lock?) held')
    (hothers : ∀ j, j ≠ i → (c j).Fits G reliable d') (hover : trace'.Over reliable d d') :
    Serialized G reliable start (Function.update c i ⟨l', trace'⟩) (order ++ [i]) held' d' := by
  have hnot := h.not_mem_order hc hopen
  have hfits : Progress.Fits G reliable d' ⟨l', trace'⟩ := Progress.fits_of_isSettled hsettled
  refine ⟨hlocks, ?_, ?_, ?_, (h.inTurn_update hc hopen).append (.cons ?_ (.nil d'))⟩
  · exact (Function.forall_update_iff c fun _ c => c.Fits G reliable d').2 ⟨hfits, hothers⟩
  · refine List.nodup_append.2 ⟨h.nodup, List.nodup_singleton i, fun j hj k hk => ?_⟩
    rw [List.mem_singleton.1 hk]
    rintro rfl
    exact hnot hj
  · refine (Function.forall_update_iff c fun j c => j ∈ order ++ [i] ↔ c.phase.IsSettled).2
      ⟨iff_of_true (List.mem_append_right _ (List.mem_singleton.2 rfl)) hsettled, fun j hji => ?_⟩
    rw [List.mem_append, List.mem_singleton, or_iff_left hji]
    exact h.mem_order j
  · rw [Function.update_self]
    exact hover

/-- A program that is settled goes on, whatever the data. -/
theorem step_rest (hsettled : l.IsSettled) (hsettled' : l'.IsSettled)
    (hlocks : HeldAlone (fun j => (Function.update c i ⟨l', trace'⟩ j).phase.lock?) held')
    (hover : ∀ d d', trace.Over reliable d d' → trace'.Over reliable d d') :
    Serialized G reliable start (Function.update c i ⟨l', trace'⟩) order held' d := by
  have hmem : i ∈ order := (h.mem_order i).2 (by rw [hc]; exact hsettled)
  have hfits : Progress.Fits G reliable d ⟨l', trace'⟩ := Progress.fits_of_isSettled hsettled'
  refine ⟨hlocks, ?_, h.nodup, ?_, h.inTurn.mono ?_⟩
  · exact (Function.forall_update_iff c fun _ c => c.Fits G reliable d).2
      ⟨hfits, fun j _ => h.fits j⟩
  · exact (Function.forall_update_iff c fun j c => j ∈ order ↔ c.phase.IsSettled).2
      ⟨iff_of_true hmem hsettled', fun j _ => h.mem_order j⟩
  · have hall := (Function.forall_update_iff c (a := i) (b := ⟨l', trace'⟩) fun j c' =>
      ∀ d d', (c j).trace.Over reliable d d' → c'.trace.Over reliable d d').2
        ⟨by rw [hc]; exact hover, fun _ _ _ _ h => h⟩
    exact fun j _ => hall j

/-! ### What becomes of the locks -/

/-- Neither `lock?` of the program nor the locks that are held change. -/
theorem locks_keep (hsame : l'.lock? = l.lock?) :
    HeldAlone (fun j => (Function.update c i ⟨l', trace'⟩ j).phase.lock?) held := by
  refine h.locks.keep (update_same (fun c : Progress => c.phase.lock?) ?_) fun _ _ _ hmem => hmem
  rw [hc]
  exact hsame

omit hc in
private theorem locks_take {lock : Lock} (hfree : lock ∉ held) (hlock : l'.lock? = some lock) :
    HeldAlone (fun j => (Function.update c i ⟨l', trace'⟩ j).phase.lock?) (lock :: held) := by
  refine h.locks.take (i := i) hfree ?_ fun j hji => ?_
  · rw [Function.update_self, hlock]
  · rw [Function.update_of_ne hji]

theorem locks_give {lock : Lock} (hlock : l.lock? = some lock) (hnone : l'.lock? = none) :
    HeldAlone (fun j => (Function.update c i ⟨l', trace'⟩ j).phase.lock?) (held.erase lock) := by
  refine h.locks.give (i := i) (by rw [hc]; exact hlock) ?_ fun j hji => ?_
  · rw [Function.update_self, hnone]
  · rw [Function.update_of_ne hji]

/-- What is written at the place of one program is at the place of no other. -/
theorem fits_of_write {lock : Lock} {place : String} (hl : l = .reading lock place)
    (hwrite : ∀ other, other ≠ place → d'.get? other = d.get? other) (j : Nat) (hji : j ≠ i) :
    (c j).Fits G reliable d' := by
  subst hl
  have hfits := h.fits j
  have hfits' := h.fits i
  rw [hc] at hfits'
  unfold Progress.Fits at hfits ⊢
  cases hj : (c j).phase with
  | before =>
    rw [hj] at hfits
    exact hfits
  | settled lock => trivial
  | reading other place' =>
    rw [hj] at hfits
    refine ⟨hfits.1, ?_⟩
    rw [hwrite place' ?_]
    · exact hfits.2
    · rintro rfl
      obtain rfl := G.inj hfits.1 hfits'.1
      have halone := @h.locks.alone j i other
      rw [hj, hc] at halone
      exact hji (halone rfl rfl)

end Order

/-! ### Steps -/

variable {r : Request} {x : r.Response}

/-- A step that the rules allow keeps a run `Serialized`. -/
theorem step (h : Serialized G reliable start c order held d) (hc : c i = ⟨l, trace⟩)
    (hallowed : G.Allowed l r) (hfree : ∀ lock, r = .acquire lock → lock ∉ held)
    (hanswered : r.Answered reliable x d d') :
    ∃ order', Serialized G reliable start
      (Function.update c i ⟨G.next l r, trace ++ [⟨r, x⟩]⟩) order' (r.heldAfter held) d' := by
  have hfits := h.fits i
  rw [hc] at hfits
  cases hallowed with
  | now | draw =>
    obtain ⟨rfl, hall⟩ := hanswered.of_neutral (by simp)
    cases l with
    | before =>
      exact ⟨order, h.step_see hc id id (h.locks_keep hc rfl) fun d₁ => (hfits d₁).snoc (hall d₁)⟩
    | reading lock place =>
      exact ⟨order, h.step_see hc id id (h.locks_keep hc rfl)
        ⟨hfits.1, fun d₁ hd₁ => (hfits.2 d₁ hd₁).snoc (hall d₁)⟩⟩
    | settled lock =>
      exact ⟨order, h.step_rest hc trivial trivial (h.locks_keep hc rfl)
        fun _ d' hover => hover.snoc (hall d')⟩
  | @acquire lock place hplace =>
    obtain ⟨rfl, hall⟩ := hanswered.of_neutral (by simp)
    have hnext : G.next .before (.acquire lock) = .reading lock place := by
      rw [Guarding.next, hplace]
    rw [hnext]
    exact ⟨order, h.step_see hc id id (h.locks_take (hfree lock rfl) rfl)
      ⟨hplace, fun d₁ _ => (hfits d₁).snoc (hall d₁)⟩⟩
  | look place =>
    obtain ⟨rfl, -⟩ := hanswered.of_read (.inl rfl)
    exact ⟨order ++ [i], h.step_settle hc id trivial (h.locks_keep hc rfl) (fun j _ => h.fits j)
      ((hfits d').snoc hanswered)⟩
  | contains lock place =>
    obtain ⟨rfl, halike⟩ := hanswered.of_read (.inl rfl)
    exact ⟨order, h.step_see hc id id (h.locks_keep hc rfl)
      ⟨hfits.1, fun d₁ hd₁ => (hfits.2 d₁ hd₁).snoc (halike d₁ hd₁)⟩⟩
  | retrieve lock place =>
    obtain ⟨rfl, halike⟩ := hanswered.of_read (.inr rfl)
    exact ⟨order, h.step_see hc id id (h.locks_keep hc rfl)
      ⟨hfits.1, fun d₁ hd₁ => (hfits.2 d₁ hd₁).snoc (halike d₁ hd₁)⟩⟩
  | store lock place content =>
    have hwrite : ∀ other, other ≠ place → d'.get? other = d.get? other :=
      fun _ => hanswered.get?_eq_of_write (.inl ⟨content, rfl⟩)
    exact ⟨order ++ [i], h.step_settle hc id trivial (h.locks_keep hc rfl)
      (h.fits_of_write hc rfl hwrite) ((hfits.2 d rfl).snoc hanswered)⟩
  | delete lock place =>
    have hwrite : ∀ other, other ≠ place → d'.get? other = d.get? other :=
      fun _ => hanswered.get?_eq_of_write (.inr rfl)
    exact ⟨order ++ [i], h.step_settle hc id trivial (h.locks_keep hc rfl)
      (h.fits_of_write hc rfl hwrite) ((hfits.2 d rfl).snoc hanswered)⟩
  | release lock place =>
    obtain ⟨rfl, -⟩ := hanswered.of_neutral (by simp)
    exact ⟨order ++ [i], h.step_settle hc id trivial (h.locks_give hc rfl rfl)
      (fun j _ => h.fits j) ((hfits.2 d' rfl).snoc hanswered)⟩
  | giveBack lock =>
    obtain ⟨rfl, hall⟩ := hanswered.of_neutral (by simp)
    exact ⟨order, h.step_rest hc trivial trivial (h.locks_give hc rfl rfl)
      fun _ d' hover => hover.snoc (hall d')⟩

/-- Who changes the data has seen nothing that is not so, and is settled by that. -/
private theorem over_of_change (h : Serialized G reliable start c order held d)
    (hallowed : G.Allowed (c i).phase r) (hanswered : r.Answered reliable x d d')
    (hchanged : d' ≠ d) :
    (c i).trace.Over reliable d d ∧ (G.next (c i).phase r).IsSettled := by
  have hfits := h.fits i
  unfold Progress.Fits at hfits
  generalize (c i).phase = l at hallowed hfits
  cases hallowed with
  | store | delete => exact ⟨hfits.2 d rfl, trivial⟩
  | now | draw | acquire | release | giveBack =>
    exact absurd (hanswered.of_neutral (by simp)).1 hchanged
  | look place | contains lock place => exact absurd (hanswered.of_read (.inl rfl)).1 hchanged
  | retrieve lock place => exact absurd (hanswered.of_read (.inr rfl)).1 hchanged

end Serialized

/-! ## Runs -/

/-- Some numbers below a bound, and then the others. -/
private theorem perm_range_of_nodup {order : List Nat} {n : Nat} (hnodup : order.Nodup)
    (hlt : ∀ i ∈ order, i < n) :
    (order ++ (List.range n).filter fun i => i ∉ order).Perm (List.range n) := by
  refine (List.perm_ext_iff_of_nodup ?_ List.nodup_range).2 fun i => ?_
  · refine List.nodup_append.2 ⟨hnodup, List.nodup_range.filter _, fun i hi j hj => ?_⟩
    rintro rfl
    exact of_decide_eq_true (List.mem_filter.1 hj).2 hi
  · rw [List.mem_append, List.mem_filter, List.mem_range, decide_eq_true_iff]
    constructor
    · rintro (hi | ⟨hi, -⟩)
      · exact hlt i hi
      · exact hi
    · intro hi
      by_cases hmem : i ∈ order
      · exact .inl hmem
      · exact .inr ⟨hi, hmem⟩

/-- How far a program has got after some events: its `Phase` and its `Trace`. -/
def progressOf (G : Guarding) (reliable : Prop) (events : List Event) (i : Nat) : Progress :=
  ⟨(G.rules reliable).standing .before i events, traceOf i events⟩

private theorem progressOf_cons (G : Guarding) (reliable : Prop) (e : Event) (events : List Event) :
    progressOf G reliable (e :: events)
      = Function.update (progressOf G reliable events) e.task
          ⟨G.next (progressOf G reliable events e.task).phase e.request,
            (progressOf G reliable events e.task).trace ++ [⟨e.request, e.answer⟩]⟩ := by
  funext i
  rw [progressOf, Discipline.standing, traceOf]
  by_cases hi : e.task = i
  · subst hi
    rw [if_pos rfl, if_pos rfl, Function.update_self]
    rfl
  · rw [if_neg hi, if_neg hi, Function.update_of_ne (Ne.symm hi)]
    rfl

/-- From where a program `IsSettled` it can come to its end over any data, and leaves them alone. -/
private theorem Program.Follows.exists_rest {α : Type} {G : Guarding} {reliable : Prop}
    {Q : Phase → α → Prop} {p : Program α} {l : Phase} (h : p.Follows (G.rules reliable) Q l)
    (hsettled : l.IsSettled) (d : Memory) : ∃ trace a, p.RunsAs reliable trace d a d := by
  induction p generalizing l with
  | done a => exact ⟨[], a, .nothing _, .nil d⟩
  | ask r next ih =>
    have hgo : ∀ x, r.Answered reliable x d d → (G.next l r).IsSettled →
        ∃ trace a, (Program.ask r next).RunsAs reliable trace d a d := by
      intro x hanswered hnext
      obtain ⟨trace, a, htakes, hover⟩ := ih x (h.2 x d d hanswered trivial) hnext
      exact ⟨_, a, .answer htakes, .cons hanswered hover⟩
    obtain ⟨hallowed, -⟩ := h
    cases l with
    | before | reading => exact hsettled.elim
    | settled lock =>
      cases hallowed with
      | now => exact hgo Time.Instant.epoch (.inl (.now _ d)) trivial
      | draw _ source size =>
        exact hgo (.ok ⟨List.replicate size 0, List.length_replicate⟩) (.inl (.drawn _ _ d)) trivial
      | giveBack lock => exact hgo () (.inl (.released lock d)) trivial

/-- Programs that keep to the rules are about to run together. -/
structure IsGuarded {α : Type} {S : Surroundings} (G : Guarding) (s : Together S.State α) :
    Prop where
  free : s.held = []
  follows : ∀ (i : Nat) (p : Program α), s.tasks[i]? = some p →
    p.Follows (G.rules S.IsReliable) Phase.IsEnd .before

namespace Passes

variable {α : Type} {S : Surroundings} {G : Guarding} {s t : Together S.State α}
  {events : List Event}

theorem serialized (h : Passes S s events t) (hguarded : IsGuarded G s) :
    (∃ order, Serialized G S.IsReliable (S.data s.world) (progressOf G S.IsReliable events) order
        t.held (S.data t.world))
      ∧ ∀ (i : Nat) (p : Program α), t.tasks[i]? = some p →
          p.Follows (G.rules S.IsReliable) Phase.IsEnd
            (progressOf G S.IsReliable events i).phase := by
  refine h.maintains (D := fun _ => G.rules S.IsReliable) (l := .before)
    (Q := fun _ => Phase.IsEnd) (I := fun events t => ∃ order, Serialized G S.IsReliable
      (S.data s.world) (progressOf G S.IsReliable events) order t.held (S.data t.world))
    (fun _ => rfl) hguarded.follows ⟨[], ?_⟩ (fun _ _ _ _ => trivial)
    fun events t u i r next hinv htask hallowed hstep => ?_
  · rw [hguarded.free]
    exact Serialized.refl G S.IsReliable (S.data s.world)
  · obtain ⟨order, hserialized⟩ := hinv
    obtain ⟨r', next', htask', -, hheld, hfree, hanswered⟩ := Together.exists_of_step? hstep
    rw [htask] at htask'
    cases htask'
    rw [progressOf_cons, hheld]
    exact hserialized.step rfl hallowed hfree hanswered

/-- Only programs that there are get settled. -/
private theorem lt_of_isSettled (h : Passes S s events t) {i : Nat}
    (hsettled : (progressOf G S.IsReliable events i).phase.IsSettled) : i < s.tasks.length := by
  by_contra hge
  have hnone : t.tasks[i]? = none := by
    rw [List.getElem?_eq_none_iff, h.length_tasks]
    exact Nat.not_lt.1 hge
  rw [progressOf, h.standing_of_none hnone] at hsettled
  exact hsettled

/-- A program that is done and was never settled has seen nothing of the storage. -/
private theorem over_of_done (h : Passes S s events t) (hguarded : IsGuarded G s) {i : Nat} {a : α}
    (hdone : t.tasks[i]? = some (.done a))
    (hopen : ¬ (progressOf G S.IsReliable events i).phase.IsSettled) (d : Memory) :
    (traceOf i events).Over S.IsReliable d d := by
  obtain ⟨⟨order, hserialized⟩, hfollows⟩ := h.serialized hguarded
  have hend : (progressOf G S.IsReliable events i).phase.lock? = none := hfollows i _ hdone
  have hfits := hserialized.fits i
  unfold Progress.Fits at hfits
  cases hphase : (progressOf G S.IsReliable events i).phase with
  | before =>
    rw [hphase] at hfits
    exact hfits d
  | reading lock place =>
    rw [hphase] at hend
    cases hend
  | settled lock =>
    rw [hphase] at hopen
    exact absurd trivial hopen

/-- Programs that ran together could have run `OneByOne`, with the same results, on the same
answers, and they would have left the same data. -/
theorem exists_oneByOne (h : Passes S s events t) (hguarded : IsGuarded G s) {results : List α}
    (hdone : t.tasks = results.map .done) :
    ∃ order : List Nat, order.Perm (List.range s.tasks.length)
      ∧ OneByOne S.IsReliable s.tasks results (fun i => traceOf i events) order (S.data s.world)
        (S.data t.world) := by
  obtain ⟨⟨order, hserialized⟩, -⟩ := h.serialized hguarded
  have hresult : ∀ i, i < s.tasks.length →
      ∃ a, results[i]? = some a ∧ t.tasks[i]? = some (.done a) := by
    intro i hi
    rw [← h.length_tasks, hdone, List.length_map] at hi
    refine ⟨results[i], List.getElem?_eq_getElem hi, ?_⟩
    rw [hdone, List.getElem?_map, List.getElem?_eq_getElem hi]
    rfl
  -- those that were never settled can run at the end
  let rest := (List.range s.tasks.length).filter fun i => i ∉ order
  have hrest : InTurn (fun i => (traceOf i events).Over S.IsReliable) rest (S.data t.world)
      (S.data t.world) := by
    refine .still fun i hi => ?_
    obtain ⟨hi, hnot⟩ := List.mem_filter.1 hi
    obtain ⟨a, -, ha⟩ := hresult i (List.mem_range.1 hi)
    exact h.over_of_done hguarded ha
      (fun hsettled => of_decide_eq_true hnot ((hserialized.mem_order i).2 hsettled)) _
  have hperm : (order ++ rest).Perm (List.range s.tasks.length) :=
    perm_range_of_nodup hserialized.nodup fun i hi =>
      h.lt_of_isSettled ((hserialized.mem_order i).1 hi)
  refine ⟨order ++ rest, hperm, (hserialized.inTurn.append hrest).mono fun i hi d d' hover => ?_⟩
  have hi : i < s.tasks.length := List.mem_range.1 (hperm.mem_iff.1 hi)
  obtain ⟨q, hq, htakes⟩ := h.takes (List.getElem?_eq_getElem hi)
  obtain ⟨a, ha, hdone⟩ := hresult i hi
  cases hq.symm.trans hdone
  exact ⟨s.tasks[i], a, List.getElem?_eq_getElem hi, ha, htakes, hover⟩

/-- Whatever is changed in a run, is changed as by a program that runs alone just then: as the data
are before the change, it could run from its start, and leave them as they are after the change. -/
theorem runsAs_of_change (h : Passes S s events t) (hguarded : IsGuarded G s) {e : Event}
    (he : e ∈ events) (hchanged : e.after ≠ e.before) :
    ∃ p trace a, s.tasks[e.task]? = some p
      ∧ p.RunsAs S.IsReliable trace e.before a e.after := by
  obtain ⟨later, earlier, rfl⟩ := List.append_of_mem he
  obtain ⟨v, hv, -⟩ := h.exists_of_append
  cases hv with
  | @step _ u v i r next hpasses htask hstep =>
    obtain ⟨⟨order, hserialized⟩, hfollows⟩ := hpasses.serialized hguarded
    obtain ⟨r', next', htask', -, -, -, hanswered⟩ := Together.exists_of_step? hstep
    rw [htask] at htask'
    cases htask'
    obtain ⟨hallowed, hnext⟩ := hfollows i _ htask
    obtain ⟨hover, hsettled⟩ := hserialized.over_of_change hallowed hanswered hchanged
    obtain ⟨rest, a, htakes, hrest⟩ :=
      (hnext _ _ _ hanswered trivial).exists_rest hsettled (S.data v.world)
    have hi : i < s.tasks.length :=
      hpasses.length_tasks ▸ (List.getElem?_eq_some_iff.1 htask).1
    obtain ⟨q, hq, hled⟩ := hpasses.takes (List.getElem?_eq_getElem hi)
    cases htask.symm.trans hq
    exact ⟨s.tasks[i], _, a, List.getElem?_eq_getElem hi, (hled.snoc rfl _).append htakes,
      (hover.snoc hanswered).append hrest⟩

end Passes

end Strongbox
