import Strongbox.Proofs.Program.History
/-!
# Programs that never wait for each other

A program waits for nothing but locks, so programs that run together can come to a stop only if each
of them waits for a lock that another one holds. They do not if locks are ranked and every program
takes them upwards: who waits for a lock then waits for one who holds it, and that one, if it waits
too, waits for a lock of a higher rank. With finitely many ranks somebody can step.

Nothing is asked of the answers to requests. What a program does about its locks is to be in order
after every answer there can be.

## Main results

* `Action.climbs_withLock`: an action under a lock is in order if the action ranks above the lock.
* `Together.exists_step_of_climbs`: programs that take locks upwards never come to a stop.
-/

namespace Strongbox

namespace Program

variable {α β : Type} {rank : Lock → Nat} {kept between held : List Lock}

/-- From the locks it holds the program goes on to take locks upwards only, gives back only what it
holds, and ends with the locks that it should be left with. -/
def Climbs (rank : Lock → Nat) (kept : List Lock) : List Lock → Program α → Prop
  | held, .done _ => held = kept
  | held, .ask r next =>
    (∀ lock, r = .acquire lock → ∀ other ∈ held, rank other < rank lock)
      ∧ (∀ lock, r = .release lock → lock ∈ held)
      ∧ ∀ x, Climbs rank kept (r.heldAfter held) (next x)

theorem Climbs.bind {p : Program α} {f : α → Program β} (hp : p.Climbs rank between held)
    (hf : ∀ a, (f a).Climbs rank kept between) : (p.bind f).Climbs rank kept held := by
  induction p generalizing held with
  | done a =>
    obtain rfl : held = between := hp
    exact hf a
  | ask r next ih => exact ⟨hp.1, hp.2.1, fun x => ih x (hp.2.2 x)⟩

end Program

/-! ## Actions -/

namespace Action

variable {α β : Type} {rank : Lock → Nat} {n : Nat}

/-- With any locks of lower ranks held, the action takes locks upwards, from rank `n` on, and gives
all of them back. -/
def Climbs (rank : Lock → Nat) (n : Nat) (action : Action α) : Prop :=
  ∀ held : List Lock, (∀ lock ∈ held, rank lock < n) → action.run.Climbs rank held held

theorem climbs_ofOutcome (o : Outcome α) : (ofOutcome o).Climbs rank n := fun _ _ => rfl

theorem climbs_bind {action : Action α} {next : α → Action β} (haction : action.Climbs rank n)
    (hnext : ∀ a, (next a).Climbs rank n) : (action >>= next).Climbs rank n := by
  intro held hheld
  have hrun : (action >>= next).run = action.run.bind (ExceptT.bindCont next) := rfl
  rw [hrun]
  refine (haction held hheld).bind fun outcome => ?_
  cases outcome with
  | ok a => exact hnext a held hheld
  | error halt => rfl

theorem climbs_attempt {action : Action α} (haction : action.Climbs rank n) :
    (attempt action).Climbs rank n :=
  fun held hheld => (haction held hheld).bind fun _ => rfl

/-- An action that `Climbs` from above a lock can be done under it. -/
theorem climbs_withLock {lock : Lock} {action : Action α} (hlock : n ≤ rank lock)
    (haction : action.Climbs rank (rank lock + 1)) : (withLock lock action).Climbs rank n := by
  intro held hheld
  have hbelow : ∀ other ∈ held, rank other < rank lock := fun other hother =>
    Nat.lt_of_lt_of_le (hheld other hother) hlock
  refine ⟨fun other hother => ?_, fun _ h => (by cases h), fun _ => ?_⟩
  · cases hother
    exact hbelow
  · refine (haction (lock :: held) fun other hother => ?_).bind fun o =>
      ⟨fun _ h => (by cases h), fun other hother => ?_, fun _ => ?_⟩
    · rcases List.mem_cons.1 hother with rfl | hother
      · exact Nat.lt_succ_self _
      · exact Nat.lt_succ_of_lt (hbelow other hother)
    · cases hother
      exact List.mem_cons_self
    · exact List.erase_cons_head lock held

/-- Requests other than for locks change nothing about locks. -/
theorem climbs_ask {r : Request} (hacquire : ∀ lock, r ≠ .acquire lock)
    (hrelease : ∀ lock, r ≠ .release lock) : (ask r).Climbs rank n := by
  refine fun held _ => ⟨fun lock h => absurd h (hacquire lock),
    fun lock h => absurd h (hrelease lock), fun _ => ?_⟩
  cases r with
  | acquire lock => exact absurd rfl (hacquire lock)
  | release lock => exact absurd rfl (hrelease lock)
  | _ => rfl

end Action

/-! ## Programs that run together -/

namespace Together

variable {σ α : Type} {handler : Program.Handler σ} {rank : Lock → Nat} {s t u : Together σ α}
  {own : Nat → List Lock}

/-- Each program goes upwards from the locks of its own, and no other locks are held. -/
structure IsOrdered (rank : Lock → Nat) (own : Nat → List Lock) (t : Together σ α) : Prop where
  climbs : ∀ {i} {p : Program α}, t.tasks[i]? = some p → p.Climbs rank [] (own i)
  owned : ∀ lock ∈ t.held, ∃ (i : Nat) (p : Program α), t.tasks[i]? = some p ∧ lock ∈ own i
  nodup : t.held.Nodup

private theorem isOrdered_start {world : σ} {tasks : List (Program α)}
    (h : ∀ p ∈ tasks, p.Climbs rank [] []) : (start world tasks).IsOrdered rank fun _ => [] :=
  ⟨fun hp => h _ (List.mem_of_getElem? hp), fun _ h => absurd h List.not_mem_nil, List.nodup_nil⟩

private theorem nodup_heldAfter {r : Request} {held : List Lock} (h : held.Nodup)
    (hfree : ∀ lock, r = .acquire lock → lock ∉ held) : (r.heldAfter held).Nodup := by
  cases r with
  | acquire lock => exact List.nodup_cons.2 ⟨hfree lock rfl, h⟩
  | release lock => exact h.erase lock
  | _ => exact h

/-- A lock that is held after a request was held before or is the one that was taken, and it was not
given back. -/
private theorem mem_heldAfter {r : Request} {held : List Lock} {lock : Lock} (h : held.Nodup)
    (hmem : lock ∈ r.heldAfter held) :
    r = .acquire lock ∨ lock ∈ held ∧ r ≠ .release lock := by
  cases r with
  | acquire other =>
    rcases List.mem_cons.1 hmem with rfl | hmem
    · exact .inl rfl
    · exact .inr ⟨hmem, Request.noConfusion⟩
  | release other =>
    obtain ⟨hne, hmem⟩ := (h.mem_erase_iff).1 hmem
    exact .inr ⟨hmem, fun heq => hne (by cases heq; rfl)⟩
  | _ => exact .inr ⟨hmem, Request.noConfusion⟩

private theorem mem_heldAfter_of_mem {r : Request} {held : List Lock} {lock : Lock}
    (hmem : lock ∈ held) (hrelease : r ≠ .release lock) : lock ∈ r.heldAfter held := by
  cases r with
  | acquire other => exact List.mem_cons_of_mem _ hmem
  | release other =>
    refine (List.mem_erase_of_ne ?_).2 hmem
    rintro rfl
    exact hrelease rfl
  | _ => exact hmem

/-- A step keeps the programs in order: `IsOrdered` holds with the locks that they own then. -/
theorem IsOrdered.step (h : t.IsOrdered rank own) {i : Nat} (hstep : t.step? handler i = some u) :
    ∃ own', u.IsOrdered rank own' := by
  obtain ⟨r, next, htask, htasks, hheld, hfree, -⟩ := exists_request_of_step? hstep
  have hlt : i < t.tasks.length := (List.getElem?_eq_some_iff.1 htask).1
  have hself : u.tasks[i]? = some (next (handler r t.world).1) := by
    rw [htasks, List.getElem?_set_self hlt]
  have hother : ∀ j, j ≠ i → u.tasks[j]? = t.tasks[j]? := by
    intro j hji
    rw [htasks, List.getElem?_set_ne hji.symm]
  refine ⟨fun j => if j = i then r.heldAfter (own i) else own j, fun {j p} hp => ?_,
    fun lock hlock => ?_, ?_⟩
  · by_cases hji : j = i
    · subst hji
      rw [if_pos rfl]
      cases hself.symm.trans hp
      exact (h.climbs htask).2.2 _
    · rw [if_neg hji]
      exact h.climbs ((hother j hji).symm.trans hp)
  · rw [hheld] at hlock
    rcases mem_heldAfter h.nodup hlock with rfl | ⟨hlock, hrelease⟩
    · exact ⟨i, _, hself, by rw [if_pos rfl]; exact List.mem_cons_self⟩
    · obtain ⟨j, p, hp, hown⟩ := h.owned lock hlock
      by_cases hji : j = i
      · subst hji
        exact ⟨j, _, hself, by rw [if_pos rfl]; exact mem_heldAfter_of_mem hown hrelease⟩
      · exact ⟨j, p, (hother j hji).trans hp, by rw [if_neg hji]; exact hown⟩
  · rw [hheld]
    exact nodup_heldAfter h.nodup hfree

/-- Programs that take locks upwards are in order wherever a run `Reaches`. -/
theorem Reaches.isOrdered (h : Reaches handler s t) (hstart : s.IsOrdered rank own) :
    ∃ own', t.IsOrdered rank own' := by
  induction h with
  | refl => exact ⟨own, hstart⟩
  | step i _ hstep ih =>
    obtain ⟨own', hordered⟩ := ih
    exact hordered.step hstep

/-- Who waits for a lock waits for one who can step, or who waits for a lock of a higher rank. So
the fewer ranks there are above the lock, the sooner somebody is found who can step. -/
theorem IsOrdered.exists_step_of_waiting (h : t.IsOrdered rank own) {top : Nat}
    (htop : ∀ lock, rank lock ≤ top) (ranks : Nat) {i : Nat} {lock : Lock}
    {next : (Request.acquire lock).Response → Program α}
    (htask : t.tasks[i]? = some (.ask (.acquire lock) next)) (hranks : top < rank lock + ranks) :
    ∃ j u, t.step? handler j = some u := by
  induction ranks generalizing i lock with
  | zero => exact absurd (htop lock) (Nat.not_le.2 hranks)
  | succ ranks ih =>
    rcases hstep : t.step? handler i with _ | u
    · obtain ⟨_, hlock, hheld⟩ := exists_lock_of_step?_eq_none htask hstep
      cases hlock
      obtain ⟨j, p, hp, hown⟩ := h.owned lock hheld
      cases p with
      | done a =>
        have hnone : own j = [] := h.climbs hp
        rw [hnone] at hown
        cases hown
      | ask r next' =>
        rcases hstep' : t.step? handler j with _ | u
        · obtain ⟨lock', rfl, -⟩ := exists_lock_of_step?_eq_none hp hstep'
          have hhigher : rank lock < rank lock' := (h.climbs hp).1 lock' rfl lock hown
          exact ih hp (by omega)
        · exact ⟨j, u, hstep'⟩
    · exact ⟨i, u, hstep⟩

/-- Programs in order can `step?` as long as one of them is not done. -/
theorem IsOrdered.exists_step (h : t.IsOrdered rank own) {top : Nat}
    (htop : ∀ lock, rank lock ≤ top) {p : Program α} (hp : p ∈ t.tasks)
    (hunfinished : p.result? = none) :
    ∃ j u, t.step? handler j = some u := by
  obtain ⟨i, hi⟩ := List.getElem?_of_mem hp
  cases p with
  | done a => cases hunfinished
  | ask r next =>
    rcases hstep : t.step? handler i with _ | u
    · obtain ⟨lock, rfl, -⟩ := exists_lock_of_step?_eq_none hi hstep
      exact h.exists_step_of_waiting htop (top + 1) hi (by omega)
    · exact ⟨i, u, hstep⟩

/-- Programs each of which `Climbs` never come to a stop before all of them are done. -/
theorem exists_step_of_climbs {world : σ} {tasks : List (Program α)} {top : Nat}
    (htop : ∀ lock, rank lock ≤ top) (hclimbs : ∀ p ∈ tasks, p.Climbs rank [] [])
    (hreaches : Reaches handler (start world tasks) t) {p : Program α} (hp : p ∈ t.tasks)
    (hunfinished : p.result? = none) : ∃ j u, t.step? handler j = some u := by
  obtain ⟨own, hordered⟩ := hreaches.isOrdered (isOrdered_start hclimbs)
  exact hordered.exists_step htop hp hunfinished

end Together

end Strongbox
