import Mathlib.Control.Monad.Basic
import Strongbox.Key.Manager
import Strongbox.Proofs.Key.Pair
import Strongbox.Proofs.Time.Instant
import Strongbox.Rotation.Service
/-!
# Whole or not at all

Keys are created in five ways, which all draw a key, or are given one, and make a pair of it. What
a creation writes is said by `Creation.Makes`, and what can come of it by `Creation.Effect`: the
pair is made, or nothing is changed, or the key is left behind because both the metadata could not
be written and the key not be removed again. The last takes two failures.

A deletion has no such second chance. If the deletion of the metadata fails, the key is gone and
the metadata stay.

## Main results

* `Creation.effect_of_runs`: what can come of a creation.
* `creation_allOrNothing`: with at most one failure, a creation happens as a whole or not at all.
* `delete_allOrNothing_iff`: when a deletion does.
-/

namespace Strongbox.Key

open Rotation (successor mint versionsOf latest)
open Storage (Memory)

variable {d d' : Memory} {failed : List Request}

/-! ## Creations -/

/-- The ways in which a key comes to be. -/
inductive Creation where
  | generate (purpose : String) (algorithm : Cipher.Algorithm) (attributes : Table String)
  | generateUnique (purpose : String) (algorithm : Cipher.Algorithm) (attributes : Table String)
  | importKey (key : Bytes) (m : Metadata)
  | rotate (identifier : String)
  | rotateUnique (identifier : String)

namespace Creation

/-- What is done, with the identifier of the new key. -/
def action : Creation → Action String
  | generate purpose algorithm attributes => Manager.generate purpose algorithm attributes
  | generateUnique purpose algorithm attributes =>
    Manager.generateUnique purpose algorithm attributes
  | importKey key m => do
    Manager.importKey key m
    pure m.id
  | rotate identifier => Rotation.rotate identifier
  | rotateUnique identifier => Rotation.rotateUnique identifier

/-- The key and the metadata that a creation writes, over the data it starts from. -/
inductive Makes (d : Memory) : Creation → Bytes → Metadata → Prop where
  | generated {purpose : String} {algorithm : Cipher.Algorithm} {attributes : Table String}
      {key : Bytes} (createdAt : Time.Instant) :
    key.length = algorithm.keySize →
    Makes d (.generate purpose algorithm attributes) key
      (.ofKey (VersionedId.text ⟨purpose, 1⟩) algorithm purpose createdAt attributes)
  | generatedUnique {purpose : String} {algorithm : Cipher.Algorithm} {attributes : Table String}
      {key : Bytes} (unique : Bytes.Sized 16) (createdAt : Time.Instant) :
    key.length = algorithm.keySize →
    Makes d (.generateUnique purpose algorithm attributes) key
      (.ofKey (purpose ++ "_" ++ Text.unique unique) algorithm purpose createdAt attributes)
  | imported {key : Bytes} {m : Metadata} :
    Manager.checkImport key m = .ok () → Makes d (.importKey key m) key m
  /-- The version is the one after the highest that is listed. -/
  | rotated {identifier : String} {oldKey key : Bytes} {old : Metadata} {current next : VersionedId}
      {found : List String} (createdAt : Time.Instant) :
    Pair.Loaded identifier d (.ok (oldKey, old)) [] → key.length = oldKey.length →
    VersionedId.parse identifier = .ok current → found.Perm d.keys →
    VersionedId.next ⟨current.base, latest current.version (versionsOf current.base
      (Material.identifiersUnder Material.locationStart found))⟩ = .ok next →
    Makes d (.rotate identifier) key (successor old next.text createdAt)
  | rotatedUnique {identifier : String} {oldKey key : Bytes} {old : Metadata}
      (unique : Bytes.Sized 16) (createdAt : Time.Instant) :
    Pair.Loaded identifier d (.ok (oldKey, old)) [] → key.length = oldKey.length →
    Makes d (.rotateUnique identifier) key
      (successor old (Rotation.tagOf old.purpose ++ "_" ++ Text.unique unique) createdAt)

/-- What can come of a `Creation`. -/
inductive Effect (c : Creation) (d : Memory) :
    Outcome String → Memory → List Request → Prop where
  | made {key : Bytes} {m : Metadata} : c.Makes d key m → IsIdentifier m.id →
    d.get? (Material.location m.id) = none → Effect c d (.ok m.id) (Pair.added d key m) []
  | refused {halt : Halt} {failed : List Request} : Effect c d (.error halt) d failed
  | stranded {halt : Halt} {key : Bytes} {m : Metadata} : c.Makes d key m →
    d.get? (Material.location m.id) = none →
    Effect c d (.error halt) (d.insert (Material.location m.id) key)
      [.store (Catalogue.location m.id) m.write, .delete (Material.location m.id)]

/-- The last step of every creation: the pair is made by `Pair.create` and its identifier handed
out. -/
theorem Effect.of_create {c : Creation} {key : Bytes} {m : Metadata} {outcome : Outcome String}
    (hmakes : c.Makes d key m)
    (hrun : (do Pair.create key m; pure m.id : Action String).Runs d outcome d' failed) :
    c.Effect d outcome d' failed := by
  rcases Action.runs_bind_iff.1 hrun with
    ⟨_, d₁, before, after, hcreate, hend, rfl⟩ | ⟨halt, hcreate, rfl⟩
  · obtain ⟨rfl, rfl, rfl⟩ := Action.runs_pure_iff.1 hend
    cases Pair.runs_create hcreate with
    | made hname hnew => exact .made hmakes hname hnew
  · cases Pair.runs_create hcreate with
    | refused => exact .refused
    | stranded hnew => exact .stranded hmakes hnew

theorem Effect.of_generateAs {c : Creation} {identifier purpose : String}
    {algorithm : Cipher.Algorithm} {attributes : Table String} {outcome : Outcome String}
    (hmakes : ∀ (key : Bytes) (createdAt : Time.Instant), key.length = algorithm.keySize →
      c.Makes d key (.ofKey identifier algorithm purpose createdAt attributes))
    (hrun : (Manager.generateAs identifier purpose algorithm attributes).Runs d outcome d' failed) :
    c.Effect d outcome d' failed := by
  rcases Action.runs_ofExcept_bind_iff.1 hrun with ⟨_, -, hrest⟩ | ⟨e, -, rfl, rfl, rfl⟩
  · rcases Action.runs_draw_bind hrest with ⟨key, hnow⟩ | ⟨⟨cause, rfl⟩, rfl, -⟩
    · obtain ⟨createdAt, hcreate⟩ := Action.runs_now_bind hnow
      exact .of_create (hmakes key createdAt key.2) hcreate
    · exact .refused
  · exact .refused

theorem Effect.of_mint {c : Creation} {oldKey : Bytes} {old : Metadata} {id : String}
    {outcome : Outcome String}
    (hmakes : ∀ (key : Bytes) (createdAt : Time.Instant), key.length = oldKey.length →
      c.Makes d key (successor old id createdAt))
    (hrun : (do mint oldKey old id; pure id : Action String).Runs d outcome d' failed) :
    c.Effect d outcome d' failed := by
  rw [mint, bind_assoc] at hrun
  rcases Action.runs_draw_bind hrun with ⟨key, hrest⟩ | ⟨⟨cause, rfl⟩, rfl, -⟩
  · rw [bind_assoc] at hrest
    obtain ⟨createdAt, hcreate⟩ := Action.runs_now_bind hrest
    exact .of_create (hmakes key createdAt key.2) hcreate
  · exact .refused

/-- After the `storedVersions` of a base are listed, an action runs on them. -/
theorem runs_storedVersions_bind {α : Type} {base : String} {next : List VersionedId → Action α}
    {outcome : Outcome α}
    (hrun : (Rotation.storedVersions base >>= next).Runs d outcome d' failed) :
    (∃ found, found.Perm d.keys
        ∧ (next (versionsOf base (Material.identifiersUnder Material.locationStart found))).Runs d
          outcome d' failed)
      ∨ (∃ e, outcome = .error (.failed (.storage e))) ∧ d' = d ∧ failed = [.list] := by
  rw [Rotation.storedVersions, Material.identifiers, bind_assoc, bind_assoc] at hrun
  exact Action.runs_identifiers_bind hrun

theorem effect_of_runs_rotate {identifier : String} {outcome : Outcome String}
    (hrun : (Rotation.rotate identifier).Runs d outcome d' failed) :
    (rotate identifier).Effect d outcome d' failed := by
  rcases Pair.runs_load_bind hrun with
    ⟨oldKey, old, hloaded, hrest⟩ | ⟨⟨halt, rfl, -⟩, rfl⟩
  · rcases Action.runs_ofExcept_bind_iff.1 hrest with
      ⟨current, hcurrent, hlocked⟩ | ⟨e, -, rfl, rfl, rfl⟩
    · rcases runs_storedVersions_bind (Action.runs_withLock_iff.1 hlocked) with
        ⟨found, hfound, hversion⟩ | ⟨⟨e, rfl⟩, rfl, -⟩
      · rcases Action.runs_ofExcept_bind_iff.1 hversion with
          ⟨next, hnext, hchecked⟩ | ⟨e, -, rfl, rfl, rfl⟩
        · rcases Action.runs_ofExcept_bind_iff.1 hchecked with
            ⟨_, -, hmint⟩ | ⟨e, -, rfl, rfl, rfl⟩
          · refine .of_mint (fun key createdAt hlength => ?_) hmint
            exact .rotated createdAt hloaded hlength hcurrent hfound hnext
          · exact .refused
        · exact .refused
      · exact .refused
    · exact .refused
  · exact .refused

theorem effect_of_runs_rotateUnique {identifier : String} {outcome : Outcome String}
    (hrun : (Rotation.rotateUnique identifier).Runs d outcome d' failed) :
    (rotateUnique identifier).Effect d outcome d' failed := by
  rcases Pair.runs_load_bind hrun with
    ⟨oldKey, old, hloaded, hrest⟩ | ⟨⟨halt, rfl, -⟩, rfl⟩
  · rcases Action.runs_draw_bind hrest with ⟨unique, hchecked⟩ | ⟨⟨cause, rfl⟩, rfl, -⟩
    · rcases Action.runs_ofExcept_bind_iff.1 hchecked with ⟨_, -, hmint⟩ | ⟨e, -, rfl, rfl, rfl⟩
      · refine .of_mint (fun key createdAt hlength => ?_) hmint
        exact .rotatedUnique unique createdAt hloaded hlength
      · exact .refused
    · exact .refused
  · exact .refused

/-- Every run of a creation has one of the cases of `Effect`. -/
theorem effect_of_runs {c : Creation} {outcome : Outcome String}
    (hrun : c.action.Runs d outcome d' failed) : c.Effect d outcome d' failed := by
  cases c with
  | generate purpose algorithm attributes =>
    exact .of_generateAs (fun _ createdAt hlength => .generated createdAt hlength) hrun
  | generateUnique purpose algorithm attributes =>
    rcases Action.runs_draw_bind hrun with ⟨unique, hgenerate⟩ | ⟨⟨cause, rfl⟩, rfl, -⟩
    · refine .of_generateAs (fun _ createdAt hlength => ?_) hgenerate
      exact .generatedUnique unique createdAt hlength
    · exact .refused
  | importKey key m =>
    rw [action, Manager.importKey, bind_assoc] at hrun
    rcases Action.runs_ofExcept_bind_iff.1 hrun with ⟨_, hchecked, hcreate⟩ | ⟨e, -, rfl, rfl, rfl⟩
    · exact .of_create (.imported hchecked) hcreate
    · exact .refused
  | rotate identifier => exact effect_of_runs_rotate hrun
  | rotateUnique identifier => exact effect_of_runs_rotateUnique hrun

end Creation

/-- With at most one request among its `failures`, a creation writes a pair under an identifier that
had no key, or it changes nothing. -/
theorem creation_allOrNothing (S : Surroundings) (c : Creation) (s : S.State)
    (hfailures : (S.failures c.action s).length ≤ 1) :
    match (S.perform c.action s).1 with
    | .ok identifier => (S.data s).get? (Material.location identifier) = none
        ∧ ∃ key m, c.Makes (S.data s) key m ∧ m.id = identifier
          ∧ S.data (S.perform c.action s).2 = Pair.added (S.data s) key m
    | .error _ => S.data (S.perform c.action s).2 = S.data s := by
  have heffect := Creation.effect_of_runs (S.runs_perform c.action s)
  generalize S.failures c.action s = failed at hfailures heffect
  generalize S.data (S.perform c.action s).2 = after at heffect ⊢
  generalize (S.perform c.action s).1 = outcome at heffect ⊢
  cases heffect with
  | made hmakes hname hnew => exact ⟨hnew, _, _, hmakes, rfl, rfl⟩
  | refused => rfl
  | stranded hmakes hnew => exact absurd hfailures (Nat.not_succ_le_self 1)

/-- Noon on 1 January 2026. -/
def noon : Time.Instant := .ofSecond 1767268800 (by decide)

/-- A storage that fails by a rule, a clock and a tape of zeros. -/
def failingWorld (memory : Memory) (rule : Storage.Rule) : World where
  storage := .failing ⟨memory, [rule]⟩
  clock := noon
  entropy := ⟨fun _ => 0, 0⟩
  failingDraws := 0

theorem failingWorld_isHonest {memory : Memory} {rule : Storage.Rule} (h : rule.IsHonest) :
    (failingWorld memory rule).IsHonest := by
  intro other hother
  obtain rfl := List.mem_singleton.1 hother
  exact h

/-- A storage without keys that cannot store the metadata of the next one. -/
def withoutRoom : World.surroundings.State :=
  ⟨failingWorld Table.empty ⟨.store, Catalogue.locationStart, .unavailable "no room", 1⟩,
    failingWorld_isHonest rfl⟩

/-- A key for mail. -/
def mailKey : Creation := .generate "mail" .aesGcm Table.empty

/-- The key of `mailKey` is removed again where its metadata cannot be stored. -/
theorem mailKey_undone_withoutRoom :
    (World.surroundings.failures mailKey.action withoutRoom).length = 1
      ∧ (World.surroundings.perform mailKey.action withoutRoom).1
        = .error (.failed (.storage (.unavailable "no room")))
      ∧ World.surroundings.data (World.surroundings.perform mailKey.action withoutRoom).2
        = Table.empty := by
  have hfailures : (World.surroundings.failures mailKey.action withoutRoom).length = 1 := by
    decide +kernel
  have houtcome : (World.surroundings.perform mailKey.action withoutRoom).1
      = .error (.failed (.storage (.unavailable "no room"))) := by decide +kernel
  have hwhole :=
    creation_allOrNothing World.surroundings mailKey withoutRoom (Nat.le_of_eq hfailures)
  rw [houtcome] at hwhole
  exact ⟨hfailures, houtcome, hwhole⟩

/-! ## Deletions -/

/-- A deletion touches no other entry. It removes both halves of a pair or, with an error, neither,
unless the deletion of the record at `Catalogue.location` fails under an identifier that has a key.
-/
theorem delete_allOrNothing_iff (S : Surroundings) (identifier : String) (s : S.State) :
    let after := S.data (S.perform (Pair.delete identifier) s).2
    (∀ location, location ≠ Material.location identifier →
        location ≠ Catalogue.location identifier → after.get? location = (S.data s).get? location)
      ∧ ((match (S.perform (Pair.delete identifier) s).1 with
          | .ok _ => after.get? (Material.location identifier) = none
              ∧ after.get? (Catalogue.location identifier) = none
          | .error _ =>
            after.get? (Material.location identifier)
                = (S.data s).get? (Material.location identifier)
              ∧ after.get? (Catalogue.location identifier)
                = (S.data s).get? (Catalogue.location identifier))
        ↔ ¬ (.delete (Catalogue.location identifier) ∈ S.failures (Pair.delete identifier) s
            ∧ (S.data s).contains (Material.location identifier) = true)) := by
  have hdeleted := Pair.runs_delete (S.runs_perform (Pair.delete identifier) s)
  generalize S.failures (Pair.delete identifier) s = failed at hdeleted ⊢
  generalize S.data (S.perform (Pair.delete identifier) s).2 = after at hdeleted ⊢
  generalize (S.perform (Pair.delete identifier) s).1 = outcome at hdeleted ⊢
  cases hdeleted with
  | deleted hname =>
    refine ⟨fun location hkey hmetadata => ?_, ?_⟩
    · simp [Pair.removed, hkey, hmetadata]
    · simp [Pair.removed]
  | unnamed => simp
  | absent hnoKey hnoMetadata => simp
  | keyFailed => simp
  | metadataFailed =>
    refine ⟨fun location hkey hmetadata => ?_, ?_⟩
    · simp [hkey]
    · cases hkey : (S.data s).get? (Material.location identifier) <;>
        simp [Table.contains, hkey]

/-- A pair in a storage that cannot delete its metadata for now. -/
def stuckMetadata : World.surroundings.State :=
  ⟨failingWorld (((Table.empty : Memory).insert (Material.location "mail_v1") [1]).insert
      (Catalogue.location "mail_v1") [2])
    ⟨.delete, Catalogue.locationStart, .unavailable "no answer", 1⟩, failingWorld_isHonest rfl⟩

/-- One failure during `Pair.delete`, and half of the pair is left. -/
theorem stuckMetadata_halfDeleted :
    let after := World.surroundings.perform (Pair.delete "mail_v1") stuckMetadata
    World.surroundings.failures (Pair.delete "mail_v1") stuckMetadata
        = [.delete (Catalogue.location "mail_v1")]
      ∧ after.1 = .error (.failed (.storage (.unavailable "no answer")))
      ∧ (World.surroundings.data stuckMetadata).get? (Material.location "mail_v1") = some [1]
      ∧ (World.surroundings.data after.2).get? (Material.location "mail_v1") = none
      ∧ (World.surroundings.data after.2).get? (Catalogue.location "mail_v1") = some [2] := by
  decide +kernel

end Strongbox.Key
