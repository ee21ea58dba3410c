import Mathlib.Data.List.Nodup
import Strongbox.Program.LockTable
/-!
# Locks by identifier exclude

Calls for one identifier get in each other's way only if they were handed the same lock. That they
are is not plain: a lock that nobody refers to is forgotten, and the next call for its identifier is
handed a new one. What carries the argument is that the table knows, at all times, the lock of every
call there is (`IsSound.known`). A lock is forgotten only when no call refers to it, so no call is
left that the next one could miss, and a new lock has a number that no lock had before.

The rest is about one lock: who holds it is the first in its line (`IsSound.first`).

So a table of locks is as good as one lock for every identifier, which is what programs that run
together are given (`Strongbox.Program.Together`).

## Main results

* `Reachable.isSound`: every step of every call keeps the table sound.
* `locks_exclude`: no identifier is held twice, a call waits only for another call of its
  identifier, and after a call has touched the table it has exactly the identifiers of the calls.
-/

namespace Strongbox

namespace LockTable

variable {t u : LockTable} {c d : LockCall} {caller lock : Nat} {identifier : String}

/-! ## What steps do -/

theorem mem_line_iff : c ∈ t.line lock ↔ c ∈ t.calls ∧ c.lock = lock ∧ c.stage ≠ .handed := by
  simp [line]

theorem mem_others_iff : c ∈ t.others caller ↔ c ∈ t.calls ∧ c.caller ≠ caller := by
  simp [others]

/-- The locks in `usedLocks` are those of calls. -/
theorem get?_usedLocks_eq_some_iff :
    t.usedLocks.get? identifier = some lock
      ↔ t.locks.get? identifier = some lock ∧ ∃ c ∈ t.calls, c.lock = lock := by
  simp [usedLocks, isUsed, Option.filter_eq_some_iff]

/-- A call that touches the table with `enter` is handed the lock that is left for its identifier,
or a `fresh` one if none is left. -/
theorem enter_cases (t : LockTable) (caller : Nat) (identifier : String) :
    (∃ lock, t.usedLocks.get? identifier = some lock
      ∧ t.enter caller identifier
        = ⟨t.usedLocks, ⟨caller, identifier, lock, .handed⟩ :: t.calls, t.fresh⟩)
    ∨ (t.usedLocks.get? identifier = none
      ∧ t.enter caller identifier
        = ⟨t.usedLocks.insert identifier t.fresh,
            ⟨caller, identifier, t.fresh, .handed⟩ :: t.calls, t.fresh + 1⟩) := by
  unfold enter
  cases t.usedLocks.get? identifier with
  | some lock => exact .inl ⟨lock, rfl, rfl⟩
  | none => exact .inr ⟨rfl, rfl⟩

/-- A call that goes for its lock with `advance?` asks for it, or is the first in line and takes it.
-/
private theorem advance?_cases (h : t.advance? caller = some u) :
    ∃ c ∈ t.calls, c.caller = caller ∧
      ((c.stage = .handed
        ∧ u = { t with
            calls := t.others caller
              ++ [{ c with stage := if t.line c.lock = [] then .holding else .waiting }] })
      ∨ (c.stage = .waiting ∧ (t.line c.lock).head? = some c
        ∧ u = { t with calls := t.calls.map (LockCall.serve caller) })) := by
  unfold advance? at h
  obtain ⟨c, hfound, h⟩ := Option.bind_eq_some_iff.1 h
  have hcaller : c.caller = caller := by simpa using List.find?_some hfound
  refine ⟨c, List.mem_of_find?_eq_some hfound, hcaller, ?_⟩
  cases hstage : c.stage with
  | handed =>
    rw [hstage] at h
    exact .inl ⟨rfl, (Option.some.inj h).symm⟩
  | waiting =>
    simp only [hstage] at h
    split at h
    · rename_i hfirst
      exact .inr ⟨rfl, hfirst, (Option.some.inj h).symm⟩
    · cases h
  | holding =>
    rw [hstage] at h
    cases h

/-! ## The invariant -/

/-- What holds of a table and its calls at all times. -/
structure IsSound (t : LockTable) : Prop where
  /-- A caller has one call. -/
  distinct : (t.calls.map (·.caller)).Nodup
  /-- The lock that a call was handed is still the one of its identifier. -/
  known : ∀ c ∈ t.calls, t.locks.get? c.identifier = some c.lock
  /-- No lock is that of two identifiers. -/
  apart : ∀ i j lock, t.locks.get? i = some lock → t.locks.get? j = some lock → i = j
  /-- The number of the next lock has not been given away. -/
  below : ∀ i lock, t.locks.get? i = some lock → lock < t.fresh
  /-- Who holds a lock is the first of those who asked for it. -/
  first : ∀ c ∈ t.calls, c.stage = .holding → (t.line c.lock).head? = some c

private theorem isSound_empty : empty.IsSound := by
  constructor <;> simp [empty]

namespace IsSound

theorem eq_of_caller (h : t.IsSound) (hc : c ∈ t.calls) (hd : d ∈ t.calls)
    (hsame : c.caller = d.caller) : c = d :=
  List.inj_on_of_nodup_map h.distinct hc hd hsame

/-- Calls have one lock if and only if they have one identifier. -/
theorem lock_eq_iff (h : t.IsSound) (hc : c ∈ t.calls) (hd : d ∈ t.calls) :
    c.lock = d.lock ↔ c.identifier = d.identifier := by
  have hknownc := h.known c hc
  have hknownd := h.known d hd
  constructor
  · intro hlock
    rw [hlock] at hknownc
    exact h.apart _ _ _ hknownc hknownd
  · intro hidentifier
    rw [hidentifier, hknownd] at hknownc
    exact (Option.some.inj hknownc).symm

/-! ### Touching the table -/

/-- Forgetting all but the `usedLocks` keeps a table sound: no call loses its lock. -/
theorem forget (h : t.IsSound) : IsSound ⟨t.usedLocks, t.calls, t.fresh⟩ where
  distinct := h.distinct
  known c hc := get?_usedLocks_eq_some_iff.2 ⟨h.known c hc, c, hc, rfl⟩
  apart i j lock hi hj :=
    h.apart i j lock (get?_usedLocks_eq_some_iff.1 hi).1 (get?_usedLocks_eq_some_iff.1 hj).1
  below i lock hi := h.below i lock (get?_usedLocks_eq_some_iff.1 hi).1
  first := h.first

/-- A `fresh` lock for an identifier without one keeps a table sound. -/
theorem make (h : t.IsSound) (hnone : t.locks.get? identifier = none) :
    IsSound ⟨t.locks.insert identifier t.fresh, t.calls, t.fresh + 1⟩ where
  distinct := h.distinct
  known c hc := by
    have hknown := h.known c hc
    have hother : c.identifier ≠ identifier := by
      intro hsame
      rw [hsame, hnone] at hknown
      cases hknown
    rw [Table.get?_insert, if_neg hother, hknown]
  apart i j lock hi hj := by
    rw [Table.get?_insert] at hi hj
    -- an old lock has a smaller number than the new one
    have hold : ∀ k, t.locks.get? k ≠ some t.fresh := fun k hk => by
      have := h.below k t.fresh hk
      omega
    split at hi <;> split at hj
    · simp_all
    · rw [← Option.some.inj hi] at hj
      exact absurd hj (hold j)
    · rw [← Option.some.inj hj] at hi
      exact absurd hi (hold i)
    · exact h.apart i j lock hi hj
  below i lock hi := by
    rw [Table.get?_insert] at hi
    show lock < t.fresh + 1
    split at hi
    · have := Option.some.inj hi
      omega
    · have := h.below i lock hi
      omega
  first := h.first

/-- A further call that is handed the lock of its identifier keeps a table sound. -/
theorem hand (h : t.IsSound) (hnew : ∀ c ∈ t.calls, c.caller ≠ caller)
    (hlock : t.locks.get? identifier = some lock) :
    IsSound ⟨t.locks, ⟨caller, identifier, lock, .handed⟩ :: t.calls, t.fresh⟩ where
  distinct := by
    rw [List.map_cons, List.nodup_cons]
    refine ⟨?_, h.distinct⟩
    simpa using hnew
  known c hc := by
    rcases List.mem_cons.1 hc with rfl | hc
    · exact hlock
    · exact h.known c hc
  apart := h.apart
  below := h.below
  first c hc hholding := by
    rcases List.mem_cons.1 hc with rfl | hc
    · cases hholding
    · have hfirst := h.first c hc hholding
      simpa [line] using hfirst

theorem enter (h : t.IsSound) (hnew : ∀ c ∈ t.calls, c.caller ≠ caller) (identifier : String) :
    (t.enter caller identifier).IsSound := by
  rcases enter_cases t caller identifier with ⟨lock, hlock, henter⟩ | ⟨hnone, henter⟩
  · rw [henter]
    exact h.forget.hand hnew hlock
  · rw [henter]
    apply (h.forget.make hnone).hand hnew
    rw [Table.get?_insert, if_pos rfl]

/-! ### Going for the lock -/

/-- A call that asks for its lock comes last in the `line`, and no other line changes. -/
theorem line_ask (h : t.IsSound) (hc : c ∈ t.calls) (hhanded : c.stage = .handed)
    {stage : LockStage} (hstage : stage ≠ .handed) (lock : Nat) :
    ({ t with calls := t.others c.caller ++ [{ c with stage }] } : LockTable).line lock
      = t.line lock ++ if c.lock = lock then [{ c with stage }] else [] := by
  have hothers : (t.others c.caller).filter (fun d => d.lock == lock && d.stage != .handed)
      = t.line lock := by
    rw [others, line, List.filter_filter]
    apply List.filter_congr
    intro d hd
    by_cases hsame : d.caller = c.caller
    · simp [h.eq_of_caller hd hc hsame, hhanded]
    · simp [hsame]
  rw [line, List.filter_append, hothers, List.filter_cons, List.filter_nil]
  simp [hstage]

/-- A call that asks for its lock, and takes it if nobody else has asked, keeps a table sound. -/
theorem ask (h : t.IsSound) (hc : c ∈ t.calls) (hhanded : c.stage = .handed) :
    IsSound { t with
      calls := t.others c.caller
        ++ [{ c with stage := if t.line c.lock = [] then .holding else .waiting }] } := by
  have hstage : (if t.line c.lock = [] then LockStage.holding else .waiting) ≠ .handed := by
    split <;> decide
  constructor
  case distinct =>
    have hothers : ((t.others c.caller).map (·.caller)).Nodup :=
      h.distinct.sublist (List.filter_sublist.map _)
    rw [List.map_append, List.nodup_append]
    refine ⟨hothers, List.nodup_singleton _, ?_⟩
    intro a ha b hb
    obtain ⟨d, hd, rfl⟩ := List.mem_map.1 ha
    obtain rfl := List.mem_singleton.1 hb
    exact (mem_others_iff.1 hd).2
  case known =>
    intro d hd
    rcases List.mem_append.1 hd with hd | hd
    · exact h.known d (mem_others_iff.1 hd).1
    · obtain rfl := List.mem_singleton.1 hd
      exact h.known c hc
  case apart => exact h.apart
  case below => exact h.below
  case first =>
    intro d hd hholding
    rw [h.line_ask hc hhanded hstage, List.head?_append]
    rcases List.mem_append.1 hd with hd | hd
    · rw [h.first d (mem_others_iff.1 hd).1 hholding]
      rfl
    · obtain rfl := List.mem_singleton.1 hd
      -- the lock was taken at once, so nobody stood in line
      have hempty : t.line c.lock = [] := by
        by_contra hline
        simp [hline] at hholding
      simp [hempty]

/-- In its `line` a call has the same place after it has taken its lock. -/
theorem line_serve (h : t.IsSound) (hc : c ∈ t.calls) (hwaiting : c.stage = .waiting) (lock : Nat) :
    ({ t with calls := t.calls.map (LockCall.serve c.caller) } : LockTable).line lock
      = (t.line lock).map (LockCall.serve c.caller) := by
  rw [line, line, List.filter_map]
  congr 1
  apply List.filter_congr
  intro d hd
  by_cases hsame : d.caller = c.caller
  · obtain rfl := h.eq_of_caller hd hc hsame
    rw [Bool.eq_iff_iff]
    simp [LockCall.serve, hwaiting]
  · simp [LockCall.serve, hsame]

/-- The first in a line taking the lock keeps a table sound. -/
theorem take (h : t.IsSound) (hc : c ∈ t.calls) (hwaiting : c.stage = .waiting)
    (hfirst : (t.line c.lock).head? = some c) :
    IsSound { t with calls := t.calls.map (LockCall.serve c.caller) } where
  distinct := by
    rw [List.map_map]
    simpa [Function.comp_def] using h.distinct
  known d hd := by
    obtain ⟨e, he, rfl⟩ := List.mem_map.1 hd
    simpa using h.known e he
  apart := h.apart
  below := h.below
  first d hd hholding := by
    obtain ⟨e, he, rfl⟩ := List.mem_map.1 hd
    have hhead : (t.line e.lock).head? = some e := by
      by_cases hsame : e.caller = c.caller
      · rw [h.eq_of_caller he hc hsame]
        exact hfirst
      · rw [LockCall.serve, if_neg hsame] at hholding
        exact h.first e he hholding
    rw [h.line_serve hc hwaiting, LockCall.serve_lock, List.head?_map, hhead]
    rfl

theorem advance (h : t.IsSound) (hstep : t.advance? caller = some u) : u.IsSound := by
  obtain ⟨c, hc, rfl, ⟨hhanded, rfl⟩ | ⟨hwaiting, hfirst, rfl⟩⟩ := advance?_cases hstep
  · exact h.ask hc hhanded
  · exact h.take hc hwaiting hfirst

/-! ### Leaving -/

/-- When a call leaves, each `line` closes up. -/
theorem line_leave (caller lock : Nat) :
    (t.leave caller).line lock = (t.line lock).filter (·.caller != caller) := by
  simp only [line, leave, others, List.filter_filter]
  apply List.filter_congr
  intro d _
  exact Bool.and_comm _ _

theorem leave (h : t.IsSound) (caller : Nat) : (t.leave caller).IsSound where
  distinct := h.distinct.sublist (List.filter_sublist.map _)
  known c hc := h.known c (mem_others_iff.1 hc).1
  apart := h.apart
  below := h.below
  first c hc hholding := by
    obtain ⟨hc, hstays⟩ := mem_others_iff.1 hc
    have hhead := h.first c hc hholding
    rw [line_leave]
    cases hline : t.line c.lock with
    | nil =>
      rw [hline] at hhead
      cases hhead
    | cons d rest =>
      rw [hline] at hhead
      obtain rfl := Option.some.inj hhead
      simp [hstays]

theorem step (h : t.IsSound) (hstep : Step t u) : u.IsSound := by
  cases hstep with
  | enter caller identifier hnew => exact h.enter hnew identifier
  | advance caller hstep => exact h.advance hstep
  | leave caller => exact h.leave caller

end IsSound

theorem Reachable.isSound (h : t.Reachable) : t.IsSound := by
  induction h with
  | empty => exact isSound_empty
  | step _ hstep ih => exact ih.step hstep

/-! ## What soundness gives -/

namespace IsSound

/-- Two calls do not hold locks for one identifier. -/
private theorem eq_of_holding (h : t.IsSound) (hc : c ∈ t.calls) (hd : d ∈ t.calls)
    (hsame : c.identifier = d.identifier) (hcholds : c.stage = .holding)
    (hdholds : d.stage = .holding) : c = d := by
  have hcfirst := h.first c hc hcholds
  have hdfirst := h.first d hd hdholds
  rw [(h.lock_eq_iff hc hd).2 hsame, hdfirst] at hcfirst
  exact (Option.some.inj hcfirst).symm

private theorem find?_caller (h : t.IsSound) (hc : c ∈ t.calls) :
    t.calls.find? (·.caller == c.caller) = some c := by
  cases hfound : t.calls.find? (·.caller == c.caller) with
  | none =>
    have hother := List.find?_eq_none.1 hfound c hc
    simp at hother
  | some d =>
    have hsame : d.caller = c.caller := by simpa using List.find?_some hfound
    rw [h.eq_of_caller (List.mem_of_find?_eq_some hfound) hc hsame]

/-- Only a call that is `waiting` behind others can do nothing to get its lock. -/
private theorem waiting_of_advance? (h : t.IsSound) (hc : c ∈ t.calls) (hstage : c.stage ≠ .holding)
    (hstuck : t.advance? c.caller = none) :
    c.stage = .waiting ∧ (t.line c.lock).head? ≠ some c := by
  simp only [advance?, h.find?_caller hc, Option.bind_eq_bind, Option.bind_some] at hstuck
  cases hasked : c.stage with
  | handed =>
    rw [hasked] at hstuck
    cases hstuck
  | waiting =>
    refine ⟨rfl, fun hfirst => ?_⟩
    simp [hasked, hfirst] at hstuck
  | holding => exact absurd hasked hstage

/-- Who can do nothing to get a lock waits for another call that has asked for it. -/
private theorem exists_ahead (h : t.IsSound) (hc : c ∈ t.calls) (hstage : c.stage ≠ .holding)
    (hstuck : t.advance? c.caller = none) :
    ∃ d ∈ t.calls, d.caller ≠ c.caller ∧ d.identifier = c.identifier
      ∧ (d.stage = .holding ∨ d.stage = .waiting) := by
  obtain ⟨hwaiting, hbehind⟩ := h.waiting_of_advance? hc hstage hstuck
  have hinline : c ∈ t.line c.lock := mem_line_iff.2 ⟨hc, rfl, by simp [hwaiting]⟩
  cases hline : t.line c.lock with
  | nil =>
    rw [hline] at hinline
    cases hinline
  | cons d rest =>
    have hd : d ∈ t.line c.lock := by simp [hline]
    obtain ⟨hdcall, hlock, hasked⟩ := mem_line_iff.1 hd
    refine ⟨d, hdcall, fun hsame => ?_, (h.lock_eq_iff hdcall hc).1 hlock, ?_⟩
    · apply hbehind
      rw [hline, h.eq_of_caller hdcall hc hsame]
      rfl
    · cases hstage : d.stage with
      | handed => exact absurd hstage hasked
      | waiting => exact .inr rfl
      | holding => exact .inl rfl

/-- The identifiers of `usedLocks` are those of the calls. -/
theorem contains_usedLocks_iff (h : t.IsSound) :
    t.usedLocks.contains identifier = true ↔ ∃ c ∈ t.calls, c.identifier = identifier := by
  rw [Table.contains, Option.isSome_iff_exists]
  constructor
  · rintro ⟨lock, hlock⟩
    obtain ⟨hlock, c, hc, rfl⟩ := get?_usedLocks_eq_some_iff.1 hlock
    exact ⟨c, hc, h.apart _ _ _ (h.known c hc) hlock⟩
  · rintro ⟨c, hc, rfl⟩
    exact ⟨c.lock, h.forget.known c hc⟩

/-- A call that has touched a table with `enter` leaves in it the identifiers of the calls. -/
private theorem contains_enter_iff (h : t.IsSound) (i : String) :
    (t.enter caller identifier).locks.contains i = true
      ↔ ∃ c ∈ (t.enter caller identifier).calls, c.identifier = i := by
  rcases enter_cases t caller identifier with ⟨lock, hlock, henter⟩ | ⟨-, henter⟩
  · rw [henter]
    show t.usedLocks.contains i = true ↔ _
    have hown : t.usedLocks.contains identifier = true := by simp [Table.contains, hlock]
    rw [h.contains_usedLocks_iff, List.exists_mem_cons_iff]
    constructor
    · exact .inr
    · rintro (rfl | hi)
      · exact h.contains_usedLocks_iff.1 hown
      · exact hi
  · rw [henter, List.exists_mem_cons_iff, ← h.contains_usedLocks_iff]
    simp only [Table.contains, Table.get?_insert]
    by_cases hown : i = identifier
    · simp [hown]
    · simp [hown, Ne.symm hown]

end IsSound

/-- Locks by identifier exclude, in any `Reachable` table: no two calls hold locks for one
identifier; a call that is not `holding` yet and can do nothing to get its lock waits for another
call that holds or waits for the lock of the same identifier; and after one more call has touched
the table with `enter`, the table has its identifier and those of the other calls, and no others. -/
theorem locks_exclude (h : t.Reachable) :
    (∀ c ∈ t.calls, ∀ d ∈ t.calls, c.identifier = d.identifier →
      c.stage = .holding → d.stage = .holding → c = d)
    ∧ (∀ c ∈ t.calls, c.stage ≠ .holding → t.advance? c.caller = none →
      ∃ d ∈ t.calls, d.caller ≠ c.caller ∧ d.identifier = c.identifier
        ∧ (d.stage = .holding ∨ d.stage = .waiting))
    ∧ ∀ caller identifier,
      identifier ∈ (t.enter caller identifier).locks.keys
      ∧ ∀ i, i ∈ (t.enter caller identifier).locks.keys
        ↔ ∃ c ∈ (t.enter caller identifier).calls, c.identifier = i := by
  have hsound := h.isSound
  refine ⟨?_, ?_, ?_⟩
  · intro c hc d hd hsame hcholds hdholds
    exact hsound.eq_of_holding hc hd hsame hcholds hdholds
  · intro c hc hstage hstuck
    exact hsound.exists_ahead hc hstage hstuck
  · intro caller identifier
    refine ⟨Table.mem_keys_iff.2 (contains_enter t caller identifier), fun i => ?_⟩
    rw [Table.mem_keys_iff]
    exact hsound.contains_enter_iff i

/-- One call holds the lock of `a` and another waits for it. It is the second lock of `a`: the first
was forgotten when `b` was asked for, for which there is no call any more. -/
def renewed : LockTable where
  locks := (Table.empty.insert "b" 1).insert "a" 2
  calls := [⟨2, "a", 2, .holding⟩, ⟨3, "a", 2, .waiting⟩]
  fresh := 3

theorem reachable_renewed : renewed.Reachable := by
  have hfirst : Reachable ⟨Table.empty.insert "a" 0, [⟨0, "a", 0, .holding⟩], 1⟩ :=
    (Reachable.empty.step (.enter 0 "a" (by decide))).step (.advance 0 rfl)
  have hforgotten : Reachable ⟨Table.empty.insert "b" 1, [⟨1, "b", 1, .handed⟩], 2⟩ :=
    (hfirst.step (.leave 0)).step (.enter 1 "b" (by decide))
  have hmade : Reachable
      ⟨renewed.locks, [⟨1, "b", 1, .handed⟩, ⟨2, "a", 2, .holding⟩], 3⟩ :=
    (hforgotten.step (.enter 2 "a" (by decide))).step (.advance 2 rfl)
  have hwaiting : Reachable
      ⟨renewed.locks, [⟨1, "b", 1, .handed⟩, ⟨2, "a", 2, .holding⟩, ⟨3, "a", 2, .waiting⟩], 3⟩ :=
    (hmade.step (.enter 3 "a" (by decide))).step (.advance 3 rfl)
  exact hwaiting.step (.leave 1)

/-- The table `renewed`: call 2 alone holds the lock of `a`, call 3 waits for it, and `b` is not in
the table any more after one more call has touched it. -/
theorem renewed_excludes :
    renewed.Reachable
    ∧ (∀ c ∈ renewed.calls, c.identifier = "a" → c.stage = .holding → c = ⟨2, "a", 2, .holding⟩)
    ∧ renewed.advance? 3 = none
    ∧ (∃ d ∈ renewed.calls, d.caller ≠ 3 ∧ d.identifier = "a"
      ∧ (d.stage = .holding ∨ d.stage = .waiting))
    ∧ "b" ∈ renewed.locks.keys
    ∧ "b" ∉ (renewed.enter 4 "c").locks.keys := by
  obtain ⟨halone, hwaits, htable⟩ := locks_exclude reachable_renewed
  refine ⟨reachable_renewed, ?_, rfl, ?_, by decide, ?_⟩
  · intro c hc ha hholding
    exact halone c hc ⟨2, "a", 2, .holding⟩ (by decide) ha hholding rfl
  · exact hwaits ⟨3, "a", 2, .waiting⟩ (by decide) (by decide) rfl
  · rw [(htable 4 "c").2]
    decide

end LockTable

end Strongbox
