import Strongbox.Proofs.Rotation.Tally
/-!
# Versions are never shared

Rotations, generations and imports run together, and each of their requests is a step that may stand
between any two of the others. What they do to each other is nothing: no two of them end with one
identifier, every key is written where there was none, and no pair is ever changed. Rotations by
themselves make the versions of each base one after the other.

This holds over a storage that fails as well, except that a version is then skipped by the results
if neither its record can be written nor its key taken back. The key stays, and the rotations after
it go on from its version.

## Main results

* `creations_together`: creations that run together, from start to end.
-/

namespace Strongbox.Rotation

open Key
open Storage (Memory)

/-- Creations that are about to run together. -/
def startOf {σ : Type} (s : σ) (cs : List Creation) : Together σ (Outcome String) :=
  .start s (cs.map fun c => c.action.run)

variable {S : Surroundings} {cs : List Creation} {s : S.State}
  {t : Together S.State (Outcome String)} {events : List Event} {i : Nat}

theorem start_creations (cs : List Creation) (hwhole : HasWholePairs (S.data s)) :
    Start S (fun i => .create ((cs[i]?).getD (.rotate ""))) (fun _ => Mints .start)
      (startOf s cs) := by
  refine ⟨fun i p hp => ?_, rfl, hwhole⟩
  obtain ⟨c, hc, rfl⟩ := Option.map_eq_some_iff.1 (List.getElem?_map.symm.trans hp)
  rw [hc]
  exact c.follows rfl rfl

theorem made_of_done {op : Nat → Operation} (h : Start S op (fun _ => Mints .start) (startOf s cs))
    (hpasses : Passes S (startOf s cs) events t) {identifier : String}
    (hdone : t.tasks[i]? = some (.done (.ok identifier))) :
    (standingOf i events).made = [identifier] :=
  (show Mints _ _ _ from (exclusive_of_passes h hpasses).2 i _ hdone).made identifier rfl

/-- Where nothing fails, who `HasWritten` a key and is done has its identifier as the result. -/
private theorem done_of_hasWritten {op : Nat → Operation}
    (h : Start S op (fun _ => Mints .start) (startOf s cs))
    (hpasses : Passes S (startOf s cs) events t) {identifier : String}
    (hdone : ∀ p ∈ t.tasks, ∃ outcome, p = .done outcome)
    (hwritten : (standingOf i events).HasWritten identifier) :
    t.tasks[i]? = some (.done (.ok identifier)) := by
  cases htask : t.tasks[i]? with
  | none =>
    rw [standingOf_of_none hpasses htask] at hwritten
    rcases hwritten with hmem | ⟨c, hc, -⟩
    · cases hmem
    · cases hc
  | some p =>
    obtain ⟨outcome, rfl⟩ := hdone p (List.mem_of_getElem? htask)
    have hmints : Mints .start (standingOf i events) outcome :=
      (exclusive_of_passes h hpasses).2 i _ htask
    rcases hwritten with hmem | ⟨c, hc, -⟩
    · cases outcome with
      | ok made =>
        rw [hmints.made made rfl] at hmem
        rw [List.mem_singleton.1 hmem]
      | error halt =>
        rw [hmints.undone halt rfl] at hmem
        cases hmem
    · rw [hmints.custody] at hc
      cases hc

/-- What rotations have made by themselves: of each base the versions after the highest one, as many
as were counted. Each result is one of them and, if nothing fails, at the end each of them is a
result. -/
structure Consecutive (S : Surroundings) (olds : List String) (s : S.State)
    (t : Together S.State (Outcome String)) (count : String → Nat) : Prop where
  keys : ∀ identifier, (S.data t.world).contains (Material.location identifier) = true
    ↔ (S.data s).contains (Material.location identifier) = true ∨ IsNew (S.data s) count identifier
  bases : ∀ base, 0 < count base →
    ∃ old ∈ olds, ∃ current, VersionedId.parse old = .ok current ∧ current.base = base
  results : ∀ (i : Nat) old identifier, olds[i]? = some old →
    t.tasks[i]? = some (.done (.ok identifier)) → IsVersionOf old (S.data s) count identifier
  complete : S.IsReliable → (∀ p ∈ t.tasks, ∃ outcome, p = .done outcome) →
    ∀ identifier, IsNew (S.data s) count identifier →
      ∃ i : Nat, t.tasks[i]? = some (.done (.ok identifier))

theorem consecutive_of_passes {olds : List String} (hwhole : HasWholePairs (S.data s))
    (hpasses : Passes S (startOf s (olds.map .rotate)) events t) :
    ∃ count, Consecutive S olds s t count := by
  have hstart : Start S (fun i => .create (.rotate ((olds[i]?).getD ""))) (fun _ => Mints .start)
      (startOf s (olds.map .rotate)) := by
    have hops : ∀ i : Nat, ((olds.map Creation.rotate)[i]?).getD (Creation.rotate "")
        = .rotate ((olds[i]?).getD "") := by
      intro i
      rw [List.getElem?_map]
      cases olds[i]? <;> rfl
    have h := start_creations (olds.map .rotate) hwhole
    simp only [hops] at h
    exact h
  obtain ⟨count, htally⟩ := tally_of_passes hstart hpasses
  refine ⟨count, htally.keys, fun base hpositive => ?_, fun i old identifier hold hdone => ?_,
    fun hreliable hdone identifier hnew => ?_⟩
  · obtain ⟨i, current, hparse, hbase⟩ := htally.rotated base hpositive
    cases hold : olds[i]? with
    | none =>
      rw [hold] at hparse
      cases hparse
    | some old =>
      rw [hold] at hparse
      exact ⟨old, List.mem_of_getElem? hold, current, hparse, hbase⟩
  · have hmem : identifier ∈ (standingOf i events).made := by
      rw [made_of_done hstart hpasses hdone]
      exact List.mem_singleton_self identifier
    have hversion := (htally.each i).made hmem
    rwa [hold] at hversion
  · obtain ⟨i, hwritten⟩ := htally.complete hreliable identifier hnew
    exact ⟨i, done_of_hasWritten hstart hpasses hdone hwritten⟩

/-- Creations that run together, in any order of their steps. No two of them have one result. What
is a result was written where there was nothing (`WroteUnused`), and is there. Whatever is about to
be written to is not in use, and whole pairs stay as they are. Rotations by themselves make
`Consecutive` versions. -/
theorem creations_together (S : Surroundings) (cs : List Creation) (s : S.State)
    (hwhole : HasWholePairs (S.data s)) {t : Together S.State (Outcome String)}
    (hreaches : Together.Reaches S.answer (startOf s cs) t) :
    (∀ (i j : Nat) (a b : String), i ≠ j → t.tasks[i]? = some (.done (.ok a)) →
        t.tasks[j]? = some (.done (.ok b)) → a ≠ b)
      ∧ (∀ (i : Nat) (identifier : String), t.tasks[i]? = some (.done (.ok identifier)) →
          WroteUnused S (startOf s cs) t i identifier
            ∧ (View.of (S.data t.world) identifier).IsWhole)
      ∧ (∀ (i : Nat) (location : String) (content : Bytes) next,
          t.tasks[i]? = some (.ask (.store location content) next) →
          (S.data t.world).get? location = none
            ∧ ∀ identifier, location = Material.location identifier →
                View.of (S.data t.world) identifier = ⟨none, none⟩)
      ∧ (∀ u identifier, Together.Reaches S.answer t u →
          (View.of (S.data t.world) identifier).IsWhole →
          View.of (S.data u.world) identifier = View.of (S.data t.world) identifier)
      ∧ ∀ olds : List String, cs = olds.map .rotate → ∃ count, Consecutive S olds s t count := by
  have hstart := start_creations cs hwhole
  obtain ⟨events, hpasses⟩ := Passes.start.of_reaches hreaches
  rw [List.append_nil] at hpasses
  obtain ⟨hexclusive, hfollows⟩ := exclusive_of_passes hstart hpasses
  have hmade := made_of_passes hstart hpasses
  refine ⟨fun i j a b hij ha hb => ?_, fun i identifier hdone => ?_,
    fun i location content next htask => ?_, fun u identifier hlater hview => ?_,
    fun olds hcs => ?_⟩
  · rintro rfl
    apply hij
    have hmem : a ∈ (standingOf i events).made := by
      rw [made_of_done hstart hpasses ha]
      exact List.mem_singleton_self a
    have hmem' : a ∈ (standingOf j events).made := by
      rw [made_of_done hstart hpasses hb]
      exact List.mem_singleton_self a
    exact hmade.once hmem hmem'
  · have hmem : identifier ∈ (standingOf i events).made := by
      rw [made_of_done hstart hpasses hdone]
      exact List.mem_singleton_self identifier
    exact ⟨wroteUnused_of_passes hstart hpasses (.inl hmem), hmade.whole hmem⟩
  · exact hexclusive.unused_of_store (hfollows i _ htask).1
  · exact view_eq_of_reaches hstart hpasses hlater hview
  · subst hcs
    exact consecutive_of_passes hwhole hpasses

/-- A world with one key, the first version for mail. -/
def mailWorld : World.plainSurroundings.State :=
  after World.plainSurroundings [.create mailKey] keylessWorld

/-- Two rotations of the key. -/
def rotations : List Creation := ["mail_v1", "mail_v1"].map .rotate

/-- The rotations after they have taken 22 steps each by turns, as far as they could step. -/
def rotated : Together World.plainSurroundings.State (Outcome String) :=
  (startOf mailWorld rotations).run World.plainSurroundings.answer
    (List.replicate 22 [0, 1]).flatten

/-- One of the rotations has made the second version, while the other has waited for its turn. -/
theorem mail_rotated_by_turns :
    HasWholePairs (World.plainSurroundings.data mailWorld)
      ∧ Together.Reaches World.plainSurroundings.answer (startOf mailWorld rotations) rotated
      ∧ rotated.tasks[0]? = some (.done (.ok "mail_v2"))
      ∧ rotated.held = [Rotation.lock "mail"]
      ∧ WroteUnused World.plainSurroundings (startOf mailWorld rotations) rotated 0 "mail_v2"
      ∧ ∃ count, Consecutive World.plainSurroundings ["mail_v1", "mail_v1"] mailWorld rotated
          count := by
  have hwhole : HasWholePairs (World.plainSurroundings.data mailWorld) :=
    hasWholePairs_after World.isReliable_plainSurroundings _ rfl
  have hreaches : Together.Reaches World.plainSurroundings.answer (startOf mailWorld rotations)
      rotated := Together.reaches_run _ _ _
  have hdone : rotated.tasks[0]? = some (.done (.ok "mail_v2")) := by
    have hresult : (rotated.tasks[0]?).bind Program.result? = some (.ok "mail_v2") := by
      decide +kernel
    obtain ⟨p, hp, hresult⟩ := Option.bind_eq_some_iff.1 hresult
    rw [hp, Program.eq_done_of_result? hresult]
  have hheld : rotated.held = [Rotation.lock "mail"] := by decide +kernel
  obtain ⟨-, hresults, -, -, hrotations⟩ :=
    creations_together World.plainSurroundings rotations mailWorld hwhole hreaches
  exact ⟨hwhole, hreaches, hdone, hheld, (hresults 0 "mail_v2" hdone).1, hrotations _ rfl⟩

end Strongbox.Rotation
