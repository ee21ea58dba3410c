import Strongbox.Proofs.Cipher.Blob
import Strongbox.Proofs.Key.Operation
/-!
# What was encrypted stays readable

Under an identifier that has a key nothing is ever written: creations refuse it, and what they undo
they have made themselves. So key and metadata stay until the identifier is deleted, whichever calls
fail in between, and decryption finds the pair that encryption has used.

## Main results

* `Change.keeps`: an operation other than its deletion leaves a pair alone.
* `decrypt_after_encrypt`: a blob is decrypted to what was encrypted, after any such operations.
-/

namespace Strongbox.Key

open Storage (Memory)

variable {d d' : Memory} {failed : List Request} {identifier : String}

/-- An identifier that has a key keeps it, with the metadata as they are, until it is deleted. -/
theorem Change.keeps {o : Operation} {key : Bytes} (h : Change d o d' failed)
    (hother : o ≠ .delete identifier)
    (hkey : d.get? (Material.location identifier) = some key) :
    d'.get? (Material.location identifier) = some key
      ∧ d'.get? (Catalogue.location identifier) = d.get? (Catalogue.location identifier) := by
  cases h with
  | nothing => exact ⟨hkey, rfl⟩
  | creation heffect =>
    cases heffect with
    | @made newKey m hmakes hname hnew =>
      have hne : identifier ≠ m.id := by
        rintro rfl
        rw [hkey] at hnew
        cases hnew
      simp [Pair.added, hne, hkey]
    | refused => exact ⟨hkey, rfl⟩
    | @stranded halt newKey m hmakes hnew =>
      have hne : identifier ≠ m.id := by
        rintro rfl
        rw [hkey] at hnew
        cases hnew
      simp [hne, hkey]
  | @deletion other outcome _ _ hdeleted =>
    have hne : identifier ≠ other := by
      rintro rfl
      exact hother rfl
    cases hdeleted with
    | deleted => simp [Pair.removed, hne, hkey]
    | unnamed => exact ⟨hkey, rfl⟩
    | absent => exact ⟨hkey, rfl⟩
    | keyFailed => exact ⟨hkey, rfl⟩
    | metadataFailed => simp [hne, hkey]

/-- So it does through any operations but its `delete`. -/
theorem after_keeps (S : Surroundings) {ops : List Operation} {s : S.State} {key : Bytes}
    (hothers : .delete identifier ∉ ops)
    (hkey : (S.data s).get? (Material.location identifier) = some key) :
    (S.data (after S ops s)).get? (Material.location identifier) = some key
      ∧ (S.data (after S ops s)).get? (Catalogue.location identifier)
        = (S.data s).get? (Catalogue.location identifier) := by
  induction ops generalizing s with
  | nil => exact ⟨hkey, rfl⟩
  | cons o rest ih =>
    obtain ⟨hother, hrest⟩ := not_or.1 (fun h => hothers (List.mem_cons.2 h))
    obtain ⟨hkey', hmetadata⟩ :=
      (change_of_runs (S.runs_perform o.action s)).keeps (Ne.symm hother) hkey
    obtain ⟨hkept, hmetadata'⟩ := ih hrest hkey'
    exact ⟨hkept, hmetadata'.trans hmetadata⟩

/-- What was encrypted under a key is decrypted `after` any operations but the deletion of the key,
whether they succeed or fail, as long as no request of the decryption itself fails. -/
theorem decrypt_after_encrypt (S : Surroundings) {plaintext blob : Bytes} {aad : Option Bytes}
    {s : S.State} {ops : List Operation}
    (hencrypted : (S.perform (Manager.encrypt identifier plaintext aad) s).1 = .ok blob)
    (hothers : .delete identifier ∉ ops)
    (hreads : S.failures (Manager.decrypt identifier blob aad)
      (after S ops (S.perform (Manager.encrypt identifier plaintext aad) s).2) = []) :
    (S.perform (Manager.decrypt identifier blob aad)
      (after S ops (S.perform (Manager.encrypt identifier plaintext aad) s).2)).1
      = .ok plaintext := by
  have hrun := S.runs_perform (Manager.encrypt identifier plaintext aad) s
  rw [hencrypted] at hrun
  obtain ⟨hdata, hcases⟩ := Manager.runs_encrypt hrun
  generalize (S.perform (Manager.encrypt identifier plaintext aad) s).2 = t at hdata hreads ⊢
  generalize S.failures (Manager.encrypt identifier plaintext aad) s = failures at hcases
  cases hcases with
  | @encrypted key _ m vector hloaded hsealed =>
    have hkept : (S.data (after S ops t)).get? (Material.location identifier)
          = (S.data s).get? (Material.location identifier)
        ∧ (S.data (after S ops t)).get? (Catalogue.location identifier)
          = (S.data s).get? (Catalogue.location identifier) := by
      rw [← hdata] at hloaded ⊢
      cases hloaded with
      | loaded hname hget hrecord hread =>
        obtain ⟨hkey, hmetadata⟩ := after_keeps S hothers hget
        exact ⟨hkey.trans hget.symm, hmetadata⟩
    have hdecrypt := S.runs_perform (Manager.decrypt identifier blob aad) (after S ops t)
    rw [hreads] at hdecrypt
    rcases Manager.runs_decrypt hdecrypt with ⟨key', m', hloaded', ho⟩ | ⟨halt, -, hhalted⟩
    · cases hloaded.eq_ok hkept.1 hkept.2 hloaded'
      rw [ho, Cipher.decrypt_encryptFresh vector.2 hsealed]
      rfl
    · cases hloaded.eq_ok hkept.1 hkept.2 hhalted

/-- A storage that cannot store the metadata of a second version for once. -/
def withoutSecond : World.surroundings.State :=
  ⟨failingWorld Table.empty ⟨.store, Catalogue.location "mail_v2", .unavailable "no room", 1⟩,
    failingWorld_isHonest rfl⟩

/-- The same with a first version of a key for mail. -/
def withFirst : World.surroundings.State :=
  (World.surroundings.perform (Creation.generate "mail" .aesCbc Table.empty).action
    withoutSecond).2

/-- A letter under the key that is drawn there. -/
def letter : Bytes :=
  List.replicate 16 0
    ++ [193, 179, 146, 124, 103, 81, 44, 50, 226, 217, 71, 231, 140, 211, 210, 41]

/-- A rotation that fails and is undone, one that succeeds, and the deletion of the new version. -/
def upheaval : List Operation :=
  [.create (.rotate "mail_v1"), .create (.rotate "mail_v1"), .delete "mail_v2"]

/-- The `letter` can still be read after the `upheaval`. -/
theorem letter_decrypted_after_upheaval :
    (World.surroundings.perform (Manager.encrypt "mail_v1" [1, 2, 3] none) withFirst).1
        = .ok letter
      ∧ .delete "mail_v1" ∉ upheaval
      ∧ World.surroundings.failures (Manager.decrypt "mail_v1" letter none)
          (after World.surroundings upheaval
            (World.surroundings.perform (Manager.encrypt "mail_v1" [1, 2, 3] none) withFirst).2)
        = []
      ∧ (World.surroundings.perform (Manager.decrypt "mail_v1" letter none)
          (after World.surroundings upheaval
            (World.surroundings.perform (Manager.encrypt "mail_v1" [1, 2, 3] none)
              withFirst).2)).1
        = .ok [1, 2, 3] := by
  have hencrypted : (World.surroundings.perform (Manager.encrypt "mail_v1" [1, 2, 3] none)
      withFirst).1 = .ok letter := by decide +kernel
  have hothers : Operation.delete "mail_v1" ∉ upheaval := by simp [upheaval]
  have hreads : World.surroundings.failures (Manager.decrypt "mail_v1" letter none)
      (after World.surroundings upheaval
        (World.surroundings.perform (Manager.encrypt "mail_v1" [1, 2, 3] none) withFirst).2)
      = [] := by decide +kernel
  exact ⟨hencrypted, hothers, hreads,
    decrypt_after_encrypt World.surroundings hencrypted hothers hreads⟩

end Strongbox.Key
