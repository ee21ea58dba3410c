import Strongbox.Proofs.Key.Atomicity
import Strongbox.Proofs.Key.Composition
/-!
# What can be done with keys

Keys are created and deleted, data are encrypted and decrypted under them, and questions are
answered about them. All operations keep to the region of keys and take locks in order
(`Operation.works`). Only creations and deletions change what is stored, as is said by `Change`.

Calls follow one another in surroundings (`after`), each from the state that the one before it has
left, whether that succeeded or not.

## Main results

* `change_of_runs`: what an operation does to the data.
* `Manager.runs_encrypt`, `Manager.runs_decrypt`: what comes of encrypting and decrypting.
-/

namespace Strongbox.Key

open Storage (Memory)

variable {d d' : Memory} {failed : List Request} {identifier : String}

/-! ## Operations -/

/-- The operations on keys. -/
inductive Operation where
  | create (c : Creation)
  | delete (identifier : String)
  | encrypt (identifier : String) (plaintext : Bytes) (aad : Option Bytes)
  | decrypt (identifier : String) (blob : Bytes) (aad : Option Bytes)
  | key (identifier : String)
  | metadata (identifier : String)
  | catalogue
  | shouldRotate (policy : Rotation.Policy) (identifier : String)
  | timeUntil (policy : Rotation.Policy) (identifier : String)
  | due (policy : Rotation.Policy)
  | summary (policy : Rotation.Policy) (identifier : String)
  | summaries (policy : Rotation.Policy)
  | versions (base : String)

namespace Operation

/-- What an operation has as its result. -/
def Result : Operation → Type
  | create _ => String
  | delete _ => Unit
  | encrypt _ _ _ | decrypt _ _ _ => Bytes
  | key _ => Option Bytes
  | metadata _ => Option Metadata
  | catalogue => List Metadata
  | shouldRotate _ _ => Bool
  | timeUntil _ _ => Option Nat
  | due _ | versions _ => List String
  | summary _ _ => Rotation.Summary
  | summaries _ => List Rotation.Summary

/-- What is done. -/
def action : (o : Operation) → Action o.Result
  | create c => c.action
  | delete identifier => Pair.delete identifier
  | encrypt identifier plaintext aad => Manager.encrypt identifier plaintext aad
  | decrypt identifier blob aad => Manager.decrypt identifier blob aad
  | key identifier => Material.get? identifier
  | metadata identifier => Catalogue.get? identifier
  | catalogue => Catalogue.all
  | shouldRotate policy identifier => Rotation.shouldRotate policy identifier
  | timeUntil policy identifier => Rotation.timeUntil policy identifier
  | due policy => Rotation.due policy
  | summary policy identifier => Rotation.summary policy identifier
  | summaries policy => Rotation.summaries policy
  | versions base => Rotation.versions base

end Operation

/-- The state after some operations, one after another. -/
def after (S : Surroundings) : List Operation → S.State → S.State
  | [], s => s
  | o :: rest, s => after S rest (S.perform o.action s).2

/-! ## What operations do to the data -/

theorem Creation.works (c : Creation) : Works 0 c.action := by
  cases c with
  | generate purpose algorithm attributes =>
    exact (Manager.works_generateAs _ _ _ _).mono (Nat.zero_le 1)
  | generateUnique purpose algorithm attributes =>
    exact .bind (Action.composed_draw trivial) fun _ =>
      (Manager.works_generateAs _ _ _ _).mono (Nat.zero_le 1)
  | importKey key m =>
    exact .bind (.bind (.ofOutcome _) fun _ => (Pair.works_create key m).mono (Nat.zero_le 1))
      fun _ => .ofOutcome _
  | rotate identifier => exact Rotation.works_rotate identifier
  | rotateUnique identifier => exact (Rotation.works_rotateUnique identifier).mono (Nat.zero_le 1)

/-- Creations and deletions apart, every operation `Inspects` only. -/
theorem Operation.inspects (o : Operation) :
    (∃ c, o = .create c) ∨ (∃ identifier, o = .delete identifier) ∨ Inspects 0 o.action := by
  cases o with
  | create c => exact .inl ⟨c, rfl⟩
  | delete identifier => exact .inr (.inl ⟨identifier, rfl⟩)
  | encrypt identifier plaintext aad =>
    exact .inr (.inr ((Manager.inspects_encrypt _ _ _).mono (Nat.zero_le 1)))
  | decrypt identifier blob aad =>
    exact .inr (.inr ((Manager.inspects_decrypt _ _ _).mono (Nat.zero_le 1)))
  | key identifier => exact .inr (.inr ((Material.looksUp_get? _).inspects (Nat.zero_le 2)))
  | metadata identifier => exact .inr (.inr ((Catalogue.looksUp_get? _).inspects (Nat.zero_le 2)))
  | catalogue => exact .inr (.inr (Catalogue.inspects_all.mono (Nat.zero_le 2)))
  | shouldRotate policy identifier | timeUntil policy identifier | summary policy identifier =>
    exact .inr (.inr (.bind ((Rotation.inspects_metadataOf _).mono (Nat.zero_le 2)) fun _ =>
      .bind (Action.composed_now trivial) fun _ => .ofOutcome _))
  | due policy => exact .inr (.inr ((Rotation.inspects_due policy).mono (Nat.zero_le 2)))
  | summaries policy =>
    exact .inr (.inr (.bind (Action.composed_now trivial) fun _ =>
      .bind (Catalogue.inspects_all.mono (Nat.zero_le 2)) fun _ => .ofOutcome _))
  | versions base =>
    exact .inr (.inr (.bind ((Rotation.inspects_storedVersions base).mono (Nat.zero_le 2))
      fun _ => .ofOutcome _))

theorem Operation.works (o : Operation) : Works 0 o.action := by
  rcases o.inspects with ⟨c, rfl⟩ | ⟨identifier, rfl⟩ | hinspects
  · exact c.works
  · exact (Pair.works_delete identifier).mono (Nat.zero_le 1)
  · exact hinspects.works (Nat.le_refl 0)

/-- What an `Operation` does to the data. -/
inductive Change (d : Memory) : Operation → Memory → List Request → Prop where
  | nothing {o : Operation} {failed : List Request} : Change d o d failed
  | creation {c : Creation} {outcome : Outcome String} {d' : Memory} {failed : List Request} :
    c.Effect d outcome d' failed → Change d (.create c) d' failed
  | deletion {identifier : String} {outcome : Outcome Unit} {d' : Memory}
      {failed : List Request} :
    Pair.Deleted identifier d outcome d' failed → Change d (.delete identifier) d' failed

theorem change_of_runs {o : Operation} {outcome : Outcome o.Result}
    (hrun : o.action.Runs d outcome d' failed) : Change d o d' failed := by
  rcases o.inspects with ⟨c, rfl⟩ | ⟨identifier, rfl⟩ | hinspects
  · exact .creation (Creation.effect_of_runs hrun)
  · exact .deletion (Pair.runs_delete hrun)
  · rw [hrun.data_eq hinspects.asks]
    exact .nothing

/-! ## Encrypting and decrypting -/

/-- What can come of `encrypt`. -/
inductive Manager.Encrypted (identifier : String) (plaintext : Bytes) (aad : Option Bytes)
    (d : Memory) : Outcome Bytes → List Request → Prop where
  | encrypted {key blob : Bytes} {m : Metadata} (vector : Bytes.Sized m.algorithm.ivSize) :
    Pair.Loaded identifier d (.ok (key, m)) [] →
    Cipher.encryptFresh m.algorithm key vector plaintext aad = .ok blob →
    Encrypted identifier plaintext aad d (.ok blob) []
  | notLoaded {halt : Halt} {failed : List Request} :
    Pair.Loaded identifier d (.error halt) failed →
    Encrypted identifier plaintext aad d (.error halt) failed
  | refused {key : Bytes} {m : Metadata} {e : Error} :
    Pair.Loaded identifier d (.ok (key, m)) [] →
    Cipher.checkRequest m.algorithm key none aad = .error e →
    Encrypted identifier plaintext aad d (.error (.failed e)) []
  | notDrawn {cause : String} {size : Nat} :
    Encrypted identifier plaintext aad d (.error (.failed (.randomGenerationFailed cause)))
      [.draw .system size]

theorem Manager.runs_encrypt {plaintext : Bytes} {aad : Option Bytes} {outcome : Outcome Bytes}
    (hrun : (encrypt identifier plaintext aad).Runs d outcome d' failed) :
    d' = d ∧ Encrypted identifier plaintext aad d outcome failed := by
  refine ⟨hrun.data_eq (inspects_encrypt identifier plaintext aad).asks, ?_⟩
  rcases Pair.runs_load_bind hrun with ⟨key, m, hloaded, hrest⟩ | ⟨⟨halt, rfl, hloaded⟩, rfl⟩
  · rcases Action.runs_ofExcept_bind_iff.1 hrest with
      ⟨_, hchecked, hdraw⟩ | ⟨e, hchecked, rfl, rfl, rfl⟩
    · rcases Action.runs_draw_bind hdraw with ⟨vector, hend⟩ | ⟨⟨cause, rfl⟩, rfl, rfl⟩
      · obtain ⟨rfl, rfl, rfl⟩ := Action.runs_ofExcept_iff.1 hend
        have hsealed := Cipher.encryptFresh_eq hchecked vector plaintext
        rw [hsealed]
        exact .encrypted vector hloaded hsealed
      · exact .notDrawn
    · exact .refused hloaded hchecked
  · exact .notLoaded hloaded

theorem Manager.runs_decrypt {blob : Bytes} {aad : Option Bytes} {outcome : Outcome Bytes}
    (hrun : (decrypt identifier blob aad).Runs d outcome d' failed) :
    (∃ key m, Pair.Loaded identifier d (.ok (key, m)) []
        ∧ outcome = Outcome.ofExcept (Cipher.decrypt m.algorithm key none blob aad))
      ∨ ∃ halt, outcome = .error halt ∧ Pair.Loaded identifier d (.error halt) failed := by
  rcases Pair.runs_load_bind hrun with ⟨key, m, hloaded, hend⟩ | ⟨⟨halt, rfl, hloaded⟩, rfl⟩
  · obtain ⟨rfl, rfl, rfl⟩ := Action.runs_ofExcept_iff.1 hend
    exact .inl ⟨key, m, hloaded, rfl⟩
  · exact .inr ⟨halt, rfl, hloaded⟩

end Strongbox.Key
