import Strongbox.Account.Guard
import Strongbox.Proofs.Password.Stored
import Strongbox.Proofs.Program.Action
/-!
# Admission

Whoever is admitted has an account name, and whoever presents the password of a stored hash that is
up to date is admitted.

## Main results

* `checkIdentifier_of_authenticate`: the name of whoever is admitted.
* `authenticate_of_verify`: the right password admits.
-/

namespace Strongbox

theorem World.retrieve_of_memory {w : World} {m : Storage.Memory} {identifier : String}
    {data : Bytes} (hstorage : w.storage = .memory m) (hdata : m.get? identifier = some data) :
    w.retrieve identifier = (.ok data, w) := by
  rw [World.retrieve, hstorage]
  simp only [Storage.Memory.retrieve, hdata]

namespace Account

/-- An account name has at most 256 characters. -/
theorem length_le_of_checkIdentifier {identifier : String}
    (h : checkIdentifier identifier = .ok ()) : identifier.toList.length ≤ 256 := by
  unfold checkIdentifier at h
  by_cases hlength : identifier.toList = [] ∨ maxIdentifierLength < identifier.toList.length
  · rw [if_pos hlength] at h
    cases h
  · unfold maxIdentifierLength at hlength
    omega

namespace Guard

variable {σ : Type} {handler : Program.Handler σ} {g : Guard}

/-- A refusal by `refuse` admits nobody. -/
theorem perform_refuse_ne_ok {α : Type} (password : String) (s : σ) (a : α) :
    (Action.perform handler (g.refuse password : Action α) s).1 ≠ .ok a := by
  intro h
  rw [refuse] at h
  obtain ⟨-, s', -, hfail⟩ := Action.exists_of_perform_bind handler h
  cases hfail

/-- Whoever `authenticate` admits has an account name. -/
theorem checkIdentifier_of_authenticate {c : Credentials} {s : σ}
    (h : (Action.perform handler (g.authenticate c) s).1 = .ok ()) :
    checkIdentifier c.identifier = .ok () := by
  unfold authenticate at h
  by_cases hmethod : c.method ≠ .password
  · rw [if_pos hmethod] at h
    cases h
  · rw [if_neg hmethod] at h
    rcases hname : checkIdentifier c.identifier with e | u
    · rw [hname] at h
      exact absurd h (perform_refuse_ne_ok _ _ _)
    · rfl

/-- The hash that stands in the record of an account is read from it by `load?`. -/
theorem perform_load?_of_record {identifier : String} {h : Password.Stored} {w : World}
    (hreadable : h.Readable)
    (hrecord : w.retrieve (location identifier) = (.ok (Bytes.ofText h.render), w)) :
    Action.perform World.answer (load? identifier) w = (.ok (some h), w) := by
  have hretrieve : Action.perform World.answer (Action.retrieve? (location identifier)) w
      = (.ok (some (Bytes.ofText h.render)), w) := by
    rw [Action.retrieve?, Action.perform_bind, Action.perform_ask]
    show Action.perform World.answer _ (w.retrieve (location identifier)).2 = _
    rw [World.answer, hrecord]
    rfl
  rw [load?, Action.perform_bind_of_ok _ _ hretrieve]
  simp only [Bytes.toText?_ofText, Password.Stored.parse_render hreadable]
  rfl

/-- The right password of a hash that is up to date admits. -/
theorem authenticate_of_verify {c : Credentials} {h : Password.Stored} {w : World}
    (hmethod : c.method = .password) (hname : checkIdentifier c.identifier = .ok ())
    (hreadable : h.Readable)
    (hrecord : w.retrieve (location c.identifier) = (.ok (Bytes.ofText h.render), w))
    (hverify : h.verify c.secret = .ok true) (hcurrent : h.isOutdated g.policy = false) :
    Action.perform World.answer (g.authenticate c) w = (.ok (), w) := by
  have hload : Action.perform World.answer (g.loadVerified c.identifier c.secret) w
      = (.ok h, w) := by
    rw [loadVerified, Action.perform_bind_of_ok _ _ (perform_load?_of_record hreadable hrecord)]
    simp only [hverify]
    rfl
  rw [authenticate, if_neg (by simp [hmethod]), hname]
  show Action.perform World.answer (g.authenticateByPassword c.identifier c.secret) w = _
  rw [authenticateByPassword, Action.perform_withLock]
  show ((Action.perform World.answer _ w).1, (Action.perform World.answer _ w).2) = _
  rw [Action.perform_bind_of_ok _ _ hload, hcurrent]
  rfl

end Guard

end Account

end Strongbox
