import Strongbox.Proofs.Program.Confined
import Strongbox.Proofs.Program.Progress
import Strongbox.Proofs.Program.Runs
/-!
# What actions are composed of

An action is put together from outcomes, single requests, listings, attempts, other actions in a row
and actions under a lock. `Action.Composed` says this of it, and says of the parts which requests
are made, in which region of the storage their data lie, and in which order locks are taken.

The operations are gone through once, to see that they are `Composed` in some way. What holds of all
that is composed so is then proved by induction on `Composed`: such an action makes none but the
allowed requests, is confined to the region, and takes its locks upwards. A property that is to be
added later takes one more induction here, and nothing about the operations.

## Main results

* `Composed.asks`: the requests of an action.
* `Composed.confined`: what it sees and touches of the storage.
* `Composed.climbs`: the order of its locks.
-/

namespace Strongbox

/-- The request is neither for a lock nor for all the identifiers there are. -/
def Request.IsSingle : Request → Prop
  | .list | .acquire _ | .release _ => False
  | .store _ _ | .retrieve _ | .delete _ | .contains _ | .now | .draw _ _ => True

namespace Action

/-- How an action is composed. It makes only `allowed` requests, none of them about data outside the
`region`, sees of a listing no more than what there is in the region, and takes locks upwards by
their `rank`, from a rank on. -/
inductive Composed (allowed : Request → Prop) (region : String → Bool) (rank : Lock → Nat) :
    Nat → {α : Type} → Action α → Prop where
  | ofOutcome {n : Nat} {α : Type} (o : Outcome α) :
    Composed allowed region rank n (Action.ofOutcome o)
  | ask {n : Nat} {r : Request} : allowed r → r.IsSingle → r.IsWithin region →
    Composed allowed region rank n (Action.ask r)
  | listing {n : Nat} {α : Type} {f : List String → α} : allowed .list →
    (∀ a b : List String, (a.filter region).Perm (b.filter region) → f a = f b) →
    Composed allowed region rank n (Action.identifiers >>= fun found => pure (f found))
  | bind {n : Nat} {α β : Type} {action : Action α} {next : α → Action β} :
    Composed allowed region rank n action → (∀ a, Composed allowed region rank n (next a)) →
    Composed allowed region rank n (action >>= next)
  | attempt {n : Nat} {α : Type} {action : Action α} : Composed allowed region rank n action →
    Composed allowed region rank n (Action.attempt action)
  | withLock {n : Nat} {α : Type} {lock : Lock} {action : Action α} :
    allowed (.acquire lock) → allowed (.release lock) → n ≤ rank lock →
    Composed allowed region rank (rank lock + 1) action →
    Composed allowed region rank n (Action.withLock lock action)

variable {allowed other : Request → Prop} {region : String → Bool} {rank : Lock → Nat} {n m : Nat}
  {α β : Type} {action : Action α} {identifier : String}

/-! ## What holds of composed actions -/

namespace Composed

/-- An action that is `Composed` stays so where more requests are allowed and where fewer locks are
held. -/
theorem mono (h : Composed allowed region rank n action) (hallowed : ∀ r, allowed r → other r)
    (hle : m ≤ n) : Composed other region rank m action := by
  induction h generalizing m with
  | ofOutcome o => exact .ofOutcome o
  | ask hask hsingle hwithin => exact .ask (hallowed _ hask) hsingle hwithin
  | listing hlist hsees => exact .listing (hallowed _ hlist) hsees
  | bind _ _ ih ihnext => exact .bind (ih hle) fun a => ihnext a hle
  | attempt _ ih => exact .attempt (ih hle)
  | withLock hacquire hrelease hrank _ ih =>
    exact .withLock (hallowed _ hacquire) (hallowed _ hrelease) (Nat.le_trans hle hrank)
      (ih (Nat.le_refl _))

/-- A `Composed` action makes none but the `allowed` requests. -/
theorem asks (h : Composed allowed region rank n action) : action.Asks allowed := by
  induction h with
  | ofOutcome o => exact asks_ofOutcome o
  | ask hask _ _ => exact asks_ask hask
  | listing hlist _ =>
    refine asks_bind (asks_bind (asks_ask hlist) fun answer => ?_) fun _ => asks_ofOutcome _
    cases answer <;> exact asks_ofOutcome _
  | bind _ _ ih ihnext => exact asks_bind ih ihnext
  | attempt _ ih => exact asks_attempt ih
  | withLock hacquire hrelease _ _ ih => exact asks_withLock hacquire hrelease ih

/-- A `Composed` action sees and touches nothing outside the `region`. -/
theorem confined (h : Composed allowed region rank n action) : action.Confined region := by
  induction h with
  | ofOutcome o => exact confined_ofOutcome o
  | ask _ hsingle hwithin =>
    exact confined_ask (fun hlist => by rw [hlist] at hsingle; exact hsingle) hwithin
  | listing _ hsees => exact confined_identifiers_bind hsees
  | bind _ _ ih ihnext => exact confined_bind ih ihnext
  | attempt _ ih => exact confined_attempt ih
  | withLock _ _ _ _ ih => exact confined_withLock _ ih

/-- A `Composed` action takes locks upwards and gives them back. -/
theorem climbs (h : Composed allowed region rank n action) : action.Climbs rank n := by
  induction h with
  | ofOutcome o => exact climbs_ofOutcome o
  | ask _ hsingle _ =>
    exact climbs_ask (fun lock hlock => by rw [hlock] at hsingle; exact hsingle)
      fun lock hlock => by rw [hlock] at hsingle; exact hsingle
  | listing _ _ =>
    refine climbs_bind (climbs_bind (climbs_ask (fun _ => Request.noConfusion)
      fun _ => Request.noConfusion) fun answer => ?_) fun _ => climbs_ofOutcome _
    cases answer <;> exact climbs_ofOutcome _
  | bind _ _ ih ihnext => exact climbs_bind ih ihnext
  | attempt _ ih => exact climbs_attempt ih
  | withLock _ _ hrank _ ih => exact climbs_withLock hrank ih

end Composed

/-! ## The parts of operations -/

theorem composed_pure (a : α) : Composed allowed region rank n (pure a : Action α) :=
  .ofOutcome (.ok a)

theorem composed_ofStorage (answer : Except StorageError α) :
    Composed allowed region rank n (ofStorage answer) := by
  cases answer <;> exact .ofOutcome _

theorem composed_store {data : Bytes} (hallowed : allowed (.store identifier data))
    (h : region identifier = true) : Composed allowed region rank n (store identifier data) :=
  .bind (.ask hallowed trivial (Request.isWithin_of_subject rfl h)) composed_ofStorage

theorem composed_contains (hallowed : allowed (.contains identifier))
    (h : region identifier = true) : Composed allowed region rank n (contains identifier) :=
  .bind (.ask hallowed trivial (Request.isWithin_of_subject rfl h)) composed_ofStorage

theorem composed_delete (hallowed : allowed (.delete identifier)) (h : region identifier = true) :
    Composed allowed region rank n (delete identifier) :=
  .bind (.ask hallowed trivial (Request.isWithin_of_subject rfl h)) composed_ofStorage

theorem composed_retrieve? (hallowed : allowed (.retrieve identifier))
    (h : region identifier = true) : Composed allowed region rank n (retrieve? identifier) := by
  refine .bind (.ask hallowed trivial (Request.isWithin_of_subject rfl h)) fun answer => ?_
  rcases answer with e | data
  · cases e <;> exact .ofOutcome _
  · exact composed_pure _

theorem composed_deleteIfPresent (hallowed : allowed (.delete identifier))
    (h : region identifier = true) :
    Composed allowed region rank n (deleteIfPresent identifier) := by
  refine .bind (.ask hallowed trivial (Request.isWithin_of_subject rfl h)) fun answer => ?_
  rcases answer with e | done
  · cases e <;> exact .ofOutcome _
  · exact composed_pure _

theorem composed_now (hallowed : allowed .now) : Composed allowed region rank n now :=
  .ask hallowed trivial (Request.isWithin_of_no_subject rfl)

theorem composed_draw {source : RandomSource} {size : Nat}
    (hallowed : allowed (.draw source size)) :
    Composed allowed region rank n (draw source size) := by
  refine .bind (.ask hallowed trivial (Request.isWithin_of_no_subject rfl)) fun answer => ?_
  cases answer <;> exact .ofOutcome _

theorem composed_drawChosen {source : RandomSource} {size : Nat}
    (hallowed : allowed (.draw source size)) :
    Composed allowed region rank n (drawChosen source size) := by
  rw [drawChosen]
  split
  · exact .ofOutcome _
  · exact composed_draw hallowed

end Action

end Strongbox
