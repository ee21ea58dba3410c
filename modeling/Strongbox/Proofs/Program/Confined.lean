import Strongbox.Proofs.Program.Action
import Strongbox.Proofs.Storage.Interchange
/-!
# Programs confined to a region

A region is a set of storage locations. A program is *confined* to it if it stores, retrieves,
deletes and asks for nothing outside, and if what it makes of a listing depends on the locations of
the region alone, in whatever order they are listed.

A confined program can neither see nor touch what is outside its region: run over all data or over
the part in the region only, it has the same result, and it leaves the rest as it was. What it meets
besides the data are its `Circumstances`: what the clock shows, what is drawn at random and which
calls to the storage fail, each by the number of the request.

## Main results

* `Confined.bind`: programs in a row are confined if each is.
* `run_part`: a confined program sees its part of the data only.
* `part_run`: it leaves every other part alone.
-/

namespace Strongbox

open Storage (Memory)

/-! ## Parts of the data -/

namespace Table

variable {α : Type} {d : Table α} {region : String → Bool} {location : String} {content : α}

/-- The entries in a region. -/
def part (d : Table α) (region : String → Bool) : Table α :=
  d.filter fun location _ => region location

theorem get?_part (h : region location = true) :
    (d.part region).get? location = d.get? location := by
  rw [part, get?_filter]
  cases d.get? location <;> simp [Option.filter, h]

theorem get?_part_of_outside (h : region location = false) :
    (d.part region).get? location = none := by
  rw [part, get?_filter]
  cases d.get? location <;> simp [Option.filter, h]

theorem contains_part (h : region location = true) :
    (d.part region).contains location = d.contains location := by
  rw [contains, get?_part h, contains]

private theorem part_insert (h : region location = true) :
    (d.insert location content).part region = (d.part region).insert location content := by
  refine ext_get? fun k => ?_
  by_cases hk : region k = true
  · rw [get?_part hk, get?_insert, get?_insert, get?_part hk]
  · rw [Bool.not_eq_true] at hk
    have hne : k ≠ location := fun e => Bool.false_ne_true (hk.symm.trans (e ▸ h))
    rw [get?_part_of_outside hk, get?_insert, if_neg hne, get?_part_of_outside hk]

private theorem part_erase :
    (d.erase location).part region = (d.part region).erase location := by
  refine ext_get? fun k => ?_
  by_cases hk : region k = true
  · rw [get?_part hk, get?_erase, get?_erase, get?_part hk]
  · rw [Bool.not_eq_true] at hk
    rw [get?_part_of_outside hk, get?_erase, get?_part_of_outside hk, ite_self]

/-- What differs at one location outside a region only has the same `part` in it. -/
theorem part_eq_of_outside {d' : Table α} (h : region location = false)
    (hsame : ∀ k, k ≠ location → d'.get? k = d.get? k) : d'.part region = d.part region := by
  refine ext_get? fun k => ?_
  by_cases hk : region k = true
  · have hne : k ≠ location := fun e => Bool.false_ne_true (h.symm.trans (e ▸ hk))
    rw [get?_part hk, get?_part hk, hsame k hne]
  · rw [Bool.not_eq_true] at hk
    rw [get?_part_of_outside hk, get?_part_of_outside hk]

private theorem part_insert_outside (h : region location = false) :
    (d.insert location content).part region = d.part region :=
  part_eq_of_outside h fun k hne => by rw [get?_insert, if_neg hne]

private theorem part_erase_outside (h : region location = false) :
    (d.erase location).part region = d.part region :=
  part_eq_of_outside h fun k hne => by rw [get?_erase, if_neg hne]

private theorem keys_part : (d.part region).keys = d.keys.filter region := by
  rw [part, keys, keys, filter, List.filter_map]
  rfl

end Table

/-- The location begins so. -/
def Storage.beginsWith (start location : String) : Bool :=
  start.toList.isPrefixOf location.toList

theorem beginsWith_append (start rest : String) :
    Storage.beginsWith start (start ++ rest) = true := by
  rw [Storage.beginsWith, String.toList_append]
  exact List.isPrefixOf_iff_prefix.2 (List.prefix_append _ _)

/-! ## Circumstances -/

/-- What a program meets besides the data. -/
structure Circumstances where
  clock : Nat → Time.Instant
  draw : Nat → (source : RandomSource) → (size : Nat) → Except Error (Bytes.Sized size)
  /-- The call to the storage fails. -/
  fault : Nat → Request → Option StorageError
  /-- Identifiers are listed in any order. -/
  listing : Memory → List String
  listing_perm : ∀ d, (listing d).Perm d.keys

namespace Circumstances

variable (c : Circumstances)

/-- The answer of a storage in memory to a call, unless it fails, and the data after it. -/
def served (n : Nat) (r : Request) {α : Type} (answer : Except StorageError α × Memory)
    (d : Memory) : Except StorageError α × Memory :=
  match c.fault n r with
  | some e => (.error e, d)
  | none => answer

/-- The answer to request number `n`, and the data after it. -/
def respond (n : Nat) : (r : Request) → Memory → r.Response × Memory
  | .store identifier content, d =>
    c.served n (.store identifier content) (.ok (), d.insert identifier content) d
  | .retrieve identifier, d =>
    c.served n (.retrieve identifier) (d.retrieve identifier, d) d
  | .delete identifier, d => c.served n (.delete identifier) (World.deleteFrom identifier d) d
  | .contains identifier, d =>
    c.served n (.contains identifier) (.ok (d.contains identifier), d) d
  | .list, d => c.served n .list (.ok (c.listing d), d) d
  | .now, d => (c.clock n, d)
  | .draw source size, d => (c.draw n source size, d)
  | .acquire _, d => ((), d)
  | .release _, d => ((), d)

/-- Answers requests by `respond`, and counts them. -/
def answer : Program.Handler (Memory × Nat) := fun r s =>
  ((c.respond s.2 r s.1).1, ((c.respond s.2 r s.1).2, s.2 + 1))

end Circumstances

/-! ## Confinement -/

/-- The request is about nothing outside the region. -/
def Request.IsWithin (region : String → Bool) (r : Request) : Prop :=
  ∀ identifier, r.subject? = some identifier → region identifier = true

theorem Request.isWithin_of_subject {region : String → Bool} {r : Request} {identifier : String}
    (hsubject : r.subject? = some identifier) (h : region identifier = true) :
    r.IsWithin region := by
  intro other hother
  cases hsubject.symm.trans hother
  exact h

theorem Request.isWithin_of_no_subject {region : String → Bool} {r : Request}
    (hsubject : r.subject? = none) : r.IsWithin region := by
  intro identifier hidentifier
  cases hsubject.symm.trans hidentifier

/-- What follows a listing is the same for all listings that have the same locations of the
`region`. -/
def Request.SeesOnly (region : String → Bool) {α : Type} :
    (r : Request) → (r.Response → Program α) → Prop
  | .list, next => ∀ a b : List String, (a.filter region).Perm (b.filter region) →
    next (.ok a) = next (.ok b)
  | _, _ => True

namespace Program

variable {α β : Type} {region other : String → Bool} {c : Circumstances}

/-- The program asks for nothing but what `IsWithin` the region, and `SeesOnly` the region of a
listing. -/
def Confined (region : String → Bool) : Program α → Prop
  | .done _ => True
  | .ask r next => r.IsWithin region ∧ r.SeesOnly region next ∧ ∀ x, Confined region (next x)

theorem Confined.bind {p : Program α} {f : α → Program β} (hp : p.Confined region)
    (hf : ∀ a, (f a).Confined region) : (p.bind f).Confined region := by
  induction p with
  | done a => exact hf a
  | ask r next ih =>
    obtain ⟨hwithin, hsees, hnext⟩ := hp
    refine ⟨hwithin, ?_, fun x => ih x (hnext x)⟩
    cases r with
    | list =>
      intro a b hperm
      show (next (.ok a)).bind f = (next (.ok b)).bind f
      rw [hsees a b hperm]
    | _ => trivial

/-! ### Runs of confined programs -/

variable {d : Memory} {n : Nat}

/-- Over its `part` of the data a program goes on as over all of them. -/
private theorem respond_part {r : Request} {next : r.Response → Program α}
    (hwithin : r.IsWithin region) (hsees : r.SeesOnly region next) :
    next (c.respond n r (d.part region)).1 = next (c.respond n r d).1
      ∧ (c.respond n r (d.part region)).2 = (c.respond n r d).2.part region := by
  cases r with
  | store identifier content =>
    simp only [Circumstances.respond, Circumstances.served]
    cases c.fault n (.store identifier content) with
    | none => exact ⟨rfl, (Table.part_insert (hwithin identifier rfl)).symm⟩
    | some e => exact ⟨rfl, rfl⟩
  | retrieve identifier =>
    simp only [Circumstances.respond, Circumstances.served, Memory.retrieve,
      Table.get?_part (hwithin identifier rfl)]
    cases c.fault n (.retrieve identifier) <;> exact ⟨rfl, rfl⟩
  | delete identifier =>
    simp only [Circumstances.respond, Circumstances.served, World.deleteFrom, Memory.delete,
      Table.contains_part (hwithin identifier rfl)]
    cases c.fault n (.delete identifier) with
    | none =>
      cases d.contains identifier with
      | true => exact ⟨rfl, Table.part_erase.symm⟩
      | false => exact ⟨rfl, rfl⟩
    | some e => exact ⟨rfl, rfl⟩
  | contains identifier =>
    simp only [Circumstances.respond, Circumstances.served,
      Table.contains_part (hwithin identifier rfl)]
    cases c.fault n (.contains identifier) <;> exact ⟨rfl, rfl⟩
  | list =>
    simp only [Circumstances.respond, Circumstances.served]
    cases c.fault n .list with
    | none =>
      refine ⟨hsees _ _ ?_, rfl⟩
      -- both listings have the locations of the region, in some order
      have hpart := (c.listing_perm (d.part region)).filter region
      rw [Table.keys_part, List.filter_filter] at hpart
      simp only [Bool.and_self] at hpart
      exact hpart.trans ((c.listing_perm d).filter region).symm
    | some e => exact ⟨rfl, rfl⟩
  | now | draw source size | acquire lock | release lock => exact ⟨rfl, rfl⟩

/-- A `Confined` program sees its `part` of the data only. -/
theorem run_part {p : Program α} (hp : p.Confined region) :
    p.run c.answer (d.part region, n)
      = ((p.run c.answer (d, n)).1,
        ((p.run c.answer (d, n)).2.1.part region, (p.run c.answer (d, n)).2.2)) := by
  induction p generalizing d n with
  | done a => rfl
  | ask r next ih =>
    obtain ⟨hwithin, hsees, hnext⟩ := hp
    obtain ⟨hsame, hdata⟩ := respond_part (c := c) (n := n) (d := d) hwithin hsees
    simp only [run, Circumstances.answer]
    rw [hsame, hdata]
    exact ih _ (hnext _)

private theorem part_respond {r : Request} (hwithin : r.IsWithin region)
    (hother : ∀ location, region location = true → other location = false) :
    (c.respond n r d).2.part other = d.part other := by
  cases r with
  | store identifier content =>
    simp only [Circumstances.respond, Circumstances.served]
    cases c.fault n (.store identifier content) with
    | none => exact Table.part_insert_outside (hother _ (hwithin identifier rfl))
    | some e => rfl
  | delete identifier =>
    simp only [Circumstances.respond, Circumstances.served, World.deleteFrom, Memory.delete]
    cases c.fault n (.delete identifier) with
    | none =>
      cases d.contains identifier with
      | true => exact Table.part_erase_outside (hother _ (hwithin identifier rfl))
      | false => rfl
    | some e => rfl
  | retrieve identifier =>
    simp only [Circumstances.respond, Circumstances.served]
    cases c.fault n (.retrieve identifier) <;> rfl
  | contains identifier =>
    simp only [Circumstances.respond, Circumstances.served]
    cases c.fault n (.contains identifier) <;> rfl
  | list =>
    simp only [Circumstances.respond, Circumstances.served]
    cases c.fault n .list <;> rfl
  | now | draw source size | acquire lock | release lock => rfl

/-- A `Confined` program leaves every other `part` of the data alone. -/
theorem part_run {p : Program α} (hp : p.Confined region)
    (hother : ∀ location, region location = true → other location = false) :
    (p.run c.answer (d, n)).2.1.part other = d.part other := by
  induction p generalizing d n with
  | done a => rfl
  | ask r next ih =>
    obtain ⟨hwithin, -, hnext⟩ := hp
    simp only [run, Circumstances.answer]
    rw [ih _ (hnext _), part_respond hwithin hother]

end Program

namespace Action

variable {α β : Type} {region : String → Bool}

/-- The action sees and touches nothing outside the region. -/
abbrev Confined (region : String → Bool) (action : Action α) : Prop := action.run.Confined region

/-- Data that have the same `part` in the region are all the same to a `Confined` action. -/
theorem perform_eq_of_part {c : Circumstances} {action : Action α} {d d' : Memory} {n : Nat}
    (haction : action.Confined region) (hpart : d.part region = d'.part region) :
    (perform c.answer action (d, n)).1 = (perform c.answer action (d', n)).1
      ∧ (perform c.answer action (d, n)).2.1.part region
        = (perform c.answer action (d', n)).2.1.part region := by
  have hd := Program.run_part (c := c) (d := d) (n := n) haction
  have hd' := Program.run_part (c := c) (d := d') (n := n) haction
  rw [hpart, hd'] at hd
  obtain ⟨houtcome, hdata⟩ := Prod.ext_iff.1 hd
  exact ⟨houtcome.symm, (congrArg Prod.fst hdata).symm⟩

/-! ## Confined actions -/

theorem confined_ofOutcome (o : Outcome α) : (ofOutcome o).Confined region := trivial

theorem confined_bind {action : Action α} {next : α → Action β} (haction : action.Confined region)
    (hnext : ∀ a, (next a).Confined region) : (action >>= next).Confined region := by
  have hrun : (action >>= next).run = action.run.bind (ExceptT.bindCont next) := rfl
  rw [Confined, hrun]
  refine haction.bind fun outcome => ?_
  cases outcome with
  | ok a => exact hnext a
  | error halt => trivial

theorem confined_attempt {action : Action α} (haction : action.Confined region) :
    (attempt action).Confined region :=
  haction.bind fun _ => trivial

/-- Locks are in no region, so an action is `Confined` under a lock as it is without. -/
theorem confined_withLock (lock : Lock) {action : Action α} (haction : action.Confined region) :
    (withLock lock action).Confined region :=
  ⟨Request.isWithin_of_no_subject rfl, trivial, fun _ => haction.bind fun _ =>
    ⟨Request.isWithin_of_no_subject rfl, trivial, fun _ => trivial⟩⟩

theorem confined_ask {r : Request} (hlist : r ≠ .list) (hwithin : r.IsWithin region) :
    (ask r).Confined region := by
  refine ⟨hwithin, ?_, fun _ => trivial⟩
  cases r with
  | list => exact absurd rfl hlist
  | _ => trivial

/-- What is made of the locations of the region alone is `Confined` to it. -/
theorem confined_identifiers_bind {f : List String → β}
    (hf : ∀ a b : List String, (a.filter region).Perm (b.filter region) → f a = f b) :
    (identifiers >>= fun found => pure (f found) : Action β).Confined region := by
  refine ⟨Request.isWithin_of_no_subject rfl, fun a b hperm => ?_, fun answer => ?_⟩
  · show Program.done (Except.ok (f a)) = Program.done (Except.ok (f b))
    rw [hf a b hperm]
  · cases answer <;> trivial

end Action

end Strongbox
