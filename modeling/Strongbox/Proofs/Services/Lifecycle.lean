import Strongbox.Proofs.Services.Retirement
/-!
# The life of a token

A token of a run is dead once a token of its text was spent. Until then it is in force before its
end and can be refreshed while its grace lasts; after that it is of no use. Pruning forgets the dead
ones whose grace is over, which does no harm as long as a grace that is over stays over.

That is so of ordinary readings of the clock. A leap second is counted into the second it follows,
so the grace can be over within it and last again once it has passed: then a pruned token can be
refreshed a second time.

## Main results

* `useless_of_dead`: a dead token is retired, or its grace and its life are over.
* `lifecycle_iff`: when a token of a run is in force and when it can be refreshed.
-/

namespace Strongbox.Services

open Time (Instant GraceStaysOver)

/-- What the clock showed at the moves of a run. -/
def readings (log : List Move) : List Instant := log.map Move.reading

/-- The text of `t` is that of a token `spent` in the run. -/
def Dead (s : Services) (log : List Move) (t : Token) : Prop := ∃ u ∈ s.spent log, u.text = t.text

/-- What is assumed of a run, as far as the token `t` is concerned. -/
structure Regular (s : Services) (log : List Move) (t : Token) : Prop where
  unforged : s.Unforged log
  /-- The nonce of the token was drawn for no other token. -/
  nonce : ∀ u ∈ s.issued log, u.nonce? = t.nonce? → u = t
  /-- No other text that is spent has the digest of the token's. -/
  digest : ∀ u ∈ s.spent log, Session.retirementKey t = Session.retirementKey u → t.text = u.text
  ascending : log.Pairwise fun later earlier => later.reading.before earlier.reading = false

/-- How often `t` was refreshed in a run. -/
def refreshCount (s : Services) (t : Token) : List Move → Nat
  | [] => 0
  | m :: earlier =>
    match m.call, s.replyTo earlier m with
    | .refresh u, .ok _ => (if u = t then 1 else 0) + refreshCount s t earlier
    | _, _ => refreshCount s t earlier

variable {s : Services} {log earlier : List Move} {m : Move} {t u : Token}

theorem refreshCount_cons_of_ok {reply : Reply} (hcall : m.call = .refresh u)
    (hreply : s.replyTo earlier m = .ok reply) :
    s.refreshCount t (m :: earlier) = (if u = t then 1 else 0) + s.refreshCount t earlier := by
  rw [refreshCount, hcall, hreply]

theorem refreshCount_cons_of_signIn {c : Credentials} (hcall : m.call = .signIn c) :
    s.refreshCount t (m :: earlier) = s.refreshCount t earlier := by
  rw [refreshCount, hcall]

theorem Regular.of_cons (h : s.Regular (m :: earlier) t) : s.Regular earlier t where
  unforged := h.unforged.2
  nonce u hu := h.nonce u (mem_issued_cons.2 (.inr hu))
  digest u hu := h.digest u (mem_spent_cons.2 (.inr hu))
  ascending := (List.pairwise_cons.1 h.ascending).2

theorem dead_cons :
    s.Dead (m :: earlier) t
      ↔ (∃ u, s.spentBy earlier m = some u ∧ u.text = t.text) ∨ s.Dead earlier t := by
  constructor
  · rintro ⟨u, hu, htext⟩
    rcases mem_spent_cons.1 hu with hspent | hu
    · exact .inl ⟨u, hspent, htext⟩
    · exact .inr ⟨u, hu, htext⟩
  · rintro (⟨u, hspent, htext⟩ | ⟨u, hu, htext⟩)
    · exact ⟨u, mem_spent_cons.2 (.inl hspent), htext⟩
    · exact ⟨u, mem_spent_cons.2 (.inr hu), htext⟩

/-! ## What is spent was issued -/

/-- A token `spentBy` a move verifies and says the same, to the second, as one that was given out
before. -/
theorem exists_issued_of_spentBy (hunforged : s.Unforged (m :: earlier))
    (hfits : ∀ v ∈ s.issued earlier, v.Fits) (hspent : s.spentBy earlier m = some u) :
    s.issuer.signer.verify u = true
      ∧ ∃ v ∈ s.issued earlier, v.nonce? = u.nonce? ∧ Token.SameToTheSecond v u := by
  have hpresented : m.call.presented? = some u → s.issuer.signer.verify u = true →
      s.issuer.signer.verify u = true
        ∧ ∃ v ∈ s.issued earlier, v.nonce? = u.nonce? ∧ Token.SameToTheSecond v u :=
    fun hpresented hverify =>
      ⟨hverify, exists_sameToTheSecond_of_verify hunforged hfits hpresented hverify⟩
  unfold spentBy at hspent
  split at hspent
  · rename_i v hcall
    obtain ⟨hverify, hspent⟩ := Option.ite_none_right_eq_some.1 hspent
    cases hspent
    exact hpresented (by rw [hcall]; rfl) hverify
  · rename_i v reply hcall hreply
    cases hspent
    obtain ⟨hauthentic, -, -⟩ :=
      Session.refreshRefusal?_eq_none_iff.1 (refreshRefusal?_of_replyTo hcall hreply)
    exact hpresented (by rw [hcall]; rfl) (Session.isAuthentic_iff.1 hauthentic).2
  · have hissued := active_mem_issued hspent
    exact ⟨verify_of_mem_issued hissued, u, hissued, rfl, .refl u⟩
  · cases hspent

/-- A token that is `spent` in a run verifies and says the same, to the second, as one that was
given out. -/
theorem exists_issued_of_mem_spent (hunforged : s.Unforged log)
    (hfits : ∀ v ∈ s.issued log, v.Fits) (hu : u ∈ s.spent log) :
    s.issuer.signer.verify u = true
      ∧ ∃ v ∈ s.issued log, v.nonce? = u.nonce? ∧ Token.SameToTheSecond v u := by
  induction log with
  | nil => cases hu
  | cons m earlier ih =>
    have hfits' : ∀ v ∈ s.issued earlier, v.Fits :=
      fun v hv => hfits v (mem_issued_cons.2 (.inr hv))
    have hbefore : s.issuer.signer.verify u = true
        ∧ ∃ v ∈ s.issued earlier, v.nonce? = u.nonce? ∧ Token.SameToTheSecond v u := by
      rcases mem_spent_cons.1 hu with hspent | hu
      · exact exists_issued_of_spentBy hunforged hfits' hspent
      · exact ih hunforged.2 hfits' hu
    obtain ⟨hverify, v, hv, hsame⟩ := hbefore
    exact ⟨hverify, v, mem_issued_cons.2 (.inr hv), hsame⟩

section Policy

variable (hpolicy : s.issuer.policy.validate = .ok ())
  (hissuer : (Bytes.ofText s.issuer.policy.issuer).length ≤ Bytes.maxLength)

include hissuer in
/-- What is `spent` under the text of `t` says the same as `t`, which was given out. -/
theorem sameToTheSecond_of_mem_spent (hregular : s.Regular log t) (hu : u ∈ s.spent log)
    (htext : u.text = t.text) :
    t ∈ s.issued log ∧ s.issuer.signer.verify u = true ∧ Token.SameToTheSecond t u := by
  have hissued := user_mem_signedIn_of_mem_issued hissuer hregular.unforged
  obtain ⟨hverify, v, hv, hnonce, hsame⟩ :=
    exists_issued_of_mem_spent hregular.unforged (fun v hv => (hissued v hv).2) hu
  have hnonce' : v.nonce? = t.nonce? := by rw [hnonce, Token.nonce?, Token.nonce?, htext]
  obtain rfl := hregular.nonce v hv hnonce'
  exact ⟨hv, hverify, hsame⟩

/-! ## Dead tokens -/

include hpolicy hissuer in
/-- A token that is `Dead` is retired, unless its grace and its life are over. -/
theorem useless_of_dead (hregular : s.Regular (m :: earlier) t)
    (hgrace : GraceStaysOver s.issuer.policy.grace t.expiresAt (readings (m :: earlier)))
    (hdead : s.Dead earlier t) :
    (s.sessionAfter earlier).isRetired t = true
      ∨ s.issuer.policy.grace < m.reading.since t.expiresAt
        ∧ m.reading.before t.expiresAt = false := by
  have hbefore := hregular.of_cons
  obtain ⟨u, hu, htext⟩ := hdead
  have hkey : Session.retirementKey t = Session.retirementKey u := by
    rw [Session.retirementKey, Session.retirementKey, htext]
  obtain ⟨hissued, hverify, hsame⟩ := sameToTheSecond_of_mem_spent hissuer hbefore hu htext
  obtain ⟨now, nonce, hissue⟩ := exists_issue_of_mem_issued hissued
  have hauthentic := Session.isAuthentic_of_issue hpolicy hissue hverify hsame
  rcases isRetired_or_since_of_mem_spent hu hauthentic with hretired | ⟨v, hv, n, hn, hkey', hover⟩
  · left
    rw [Session.isRetired_congr hkey]
    exact hretired
  · -- the entry that was pruned is one of this text, so it ended in the second of the token's end
    right
    have htext' : t.text = v.text := hbefore.digest v hv (hkey.trans hkey')
    obtain ⟨-, -, hsame'⟩ := sameToTheSecond_of_mem_spent hissuer hbefore hv htext'.symm
    have hnanos := (Token.expiresAt_of_issue hpolicy hissue).2
    have hlate := Instant.since_le_since_of_seconds_eq n.reading hsame'.expiresAt.symm hnanos
    have hover' : s.issuer.policy.grace < n.reading.since t.expiresAt :=
      Int.lt_of_lt_of_le hover hlate
    have hafter := (List.pairwise_cons.1 hregular.ascending).1 n hn
    exact hgrace n.reading (List.mem_map_of_mem (List.mem_cons_of_mem _ hn)) m.reading
      (List.mem_map_of_mem List.mem_cons_self) hafter hover'

/-- A token that is not `Dead` is not retired. -/
theorem not_isRetired_of_not_dead (hregular : s.Regular log t) (hdead : ¬ s.Dead log t) :
    (s.sessionAfter log).isRetired t = false := by
  rw [← Bool.not_eq_true]
  intro hretired
  obtain ⟨u, hu, hkey⟩ := exists_spent_of_isRetired hretired
  exact hdead ⟨u, hu, (hregular.digest u hu hkey).symm⟩

include hpolicy in
theorem isAuthentic_of_mem_issued (ht : t ∈ s.issued log) :
    Session.isAuthentic s.issuer t = true := by
  obtain ⟨now, nonce, hissue⟩ := exists_issue_of_mem_issued ht
  exact Session.isAuthentic_issued hpolicy hissue

/-! ## Questions, refreshes and their number -/

include hpolicy hissuer in
private theorem accepts_iff_not_dead (ht : t ∈ s.issued earlier)
    (hregular : s.Regular (m :: earlier) t)
    (hgrace : GraceStaysOver s.issuer.policy.grace t.expiresAt (readings (m :: earlier))) :
    (s.sessionAfter earlier).accepts s.issuer t m.reading = true
      ↔ ¬ s.Dead earlier t ∧ m.reading.before t.expiresAt = true := by
  rw [Session.accepts_iff]
  constructor
  · rintro ⟨-, hretired, hbefore⟩
    refine ⟨fun hdead => ?_, hbefore⟩
    rcases useless_of_dead hpolicy hissuer hregular hgrace hdead with h | ⟨-, h⟩
    · rw [hretired] at h
      cases h
    · rw [hbefore] at h
      cases h
  · rintro ⟨hdead, hbefore⟩
    exact ⟨isAuthentic_of_mem_issued hpolicy ht,
      not_isRetired_of_not_dead hregular.of_cons hdead, hbefore⟩

include hpolicy hissuer in
theorem not_dead_of_refreshRefusal? (hregular : s.Regular (m :: earlier) t)
    (hgrace : GraceStaysOver s.issuer.policy.grace t.expiresAt (readings (m :: earlier)))
    (h : (s.sessionAfter earlier).refreshRefusal? s.issuer t m.reading = none) :
    ¬ s.Dead earlier t := by
  obtain ⟨-, hretired, huse⟩ := Session.refreshRefusal?_eq_none_iff.1 h
  intro hdead
  rcases useless_of_dead hpolicy hissuer hregular hgrace hdead with h | ⟨hover, hend⟩
  · rw [hretired] at h
    cases h
  · rcases huse with hbefore | hlasts
    · rw [hend] at hbefore
      cases hbefore
    · exact absurd hlasts (Int.not_le.2 hover)

include hpolicy hissuer in
private theorem refreshRefusal?_iff_not_dead (ht : t ∈ s.issued earlier)
    (hregular : s.Regular (m :: earlier) t)
    (hgrace : GraceStaysOver s.issuer.policy.grace t.expiresAt (readings (m :: earlier))) :
    (s.sessionAfter earlier).refreshRefusal? s.issuer t m.reading = none
      ↔ ¬ s.Dead earlier t ∧ m.reading.since t.expiresAt ≤ s.issuer.policy.grace := by
  have hreading : m.reading ∈ readings (m :: earlier) := List.mem_map_of_mem List.mem_cons_self
  have hself : m.reading.before m.reading = false := by simp [Instant.before]
  constructor
  · intro h
    refine ⟨not_dead_of_refreshRefusal? hpolicy hissuer hregular hgrace h, ?_⟩
    obtain ⟨-, -, huse⟩ := Session.refreshRefusal?_eq_none_iff.1 h
    rcases huse with hbefore | hlasts
    · -- before its end the grace of a token is not over
      apply Int.not_lt.1
      intro hover
      have hend := (hgrace m.reading hreading m.reading hreading hself hover).2
      rw [hbefore] at hend
      cases hend
    · exact hlasts
  · rintro ⟨hdead, hlasts⟩
    exact Session.refreshRefusal?_eq_none_iff.2 ⟨isAuthentic_of_mem_issued hpolicy ht,
      not_isRetired_of_not_dead hregular.of_cons hdead, .inr hlasts⟩

include hpolicy hissuer in
/-- A token is refreshed at most once, and is `Dead` from then on. -/
private theorem refreshCount_le_one (hregular : s.Regular log t)
    (hgrace : GraceStaysOver s.issuer.policy.grace t.expiresAt (readings log)) :
    s.refreshCount t log ≤ 1 ∧ (0 < s.refreshCount t log → s.Dead log t) := by
  induction log with
  | nil => exact ⟨Nat.zero_le 1, fun h => absurd h (Nat.lt_irrefl 0)⟩
  | cons m earlier ih =>
    have hgrace' : GraceStaysOver s.issuer.policy.grace t.expiresAt (readings earlier) :=
      fun p hp q hq => hgrace p (List.mem_cons_of_mem _ hp) q (List.mem_cons_of_mem _ hq)
    obtain ⟨hcount, hdead⟩ := ih hregular.of_cons hgrace'
    have hlater : 0 < s.refreshCount t earlier → s.Dead (m :: earlier) t :=
      fun h => dead_cons.2 (.inr (hdead h))
    rw [refreshCount]
    split
    · rename_i u reply hcall hreply
      by_cases hu : u = t
      · subst hu
        have hallowed := refreshRefusal?_of_replyTo hcall hreply
        have hzero : s.refreshCount u earlier = 0 := by
          apply Nat.eq_zero_of_not_pos
          intro h
          exact not_dead_of_refreshRefusal? hpolicy hissuer hregular hgrace hallowed (hdead h)
        rw [if_pos rfl, hzero]
        exact ⟨Nat.le_refl 1, fun _ => dead_cons.2 (.inl ⟨u, spentBy_of_refresh hcall hreply, rfl⟩)⟩
      · rw [if_neg hu, Nat.zero_add]
        exact ⟨hcount, hlater⟩
    · exact ⟨hcount, hlater⟩

end Policy

/-! ## The whole life -/

/-- Ordinary readings of the clock do no harm: no leap second among them, `GraceStaysOver` holds. -/
private theorem graceStaysOver_of_ordinary_readings (hpolicy : s.issuer.policy.validate = .ok ())
    (ht : t ∈ s.issued log) {moves : List Move}
    (hordinary : ∀ p ∈ readings moves, p.isLeap = false) :
    GraceStaysOver s.issuer.policy.grace t.expiresAt (readings moves) := by
  obtain ⟨now, nonce, hissue⟩ := exists_issue_of_mem_issued ht
  have hnanos := (Token.expiresAt_of_issue hpolicy hissue).2
  exact Instant.graceStaysOver_of_ordinary (Token.Policy.grace_nonneg_of_validate hpolicy)
    (Instant.not_isLeap_of_nanos_eq_zero hnanos) hordinary

/-- After a token was revoked and someone signed in, the token can be refreshed exactly if the
sign-in pruned it, its grace being over then, while it lasts, or its life does, now. -/
private theorem refreshRefusal?_after_prune_iff {world : World} {c : Credentials} {fresh : Token}
    {now : Instant} (hauthentic : Session.isAuthentic s.issuer t = true)
    (hcall : m.call = .signIn c)
    (hreply : s.replyTo (⟨.revoke t, world⟩ :: log) m = .ok (.token fresh)) :
    (s.sessionAfter (m :: ⟨.revoke t, world⟩ :: log)).refreshRefusal? s.issuer t now = none
      ↔ s.issuer.policy.grace < m.reading.since t.expiresAt
        ∧ (now.before t.expiresAt = true ∨ now.since t.expiresAt ≤ s.issuer.policy.grace) := by
  have hspent : s.spentBy log ⟨.revoke t, world⟩ = some t := by
    rw [spentBy_of_revoke rfl, if_pos (Session.isAuthentic_iff.1 hauthentic).2]
  have hremembered := remembered?_of_spentBy hspent hauthentic rfl
  have hretired : (s.sessionAfter (m :: ⟨.revoke t, world⟩ :: log)).isRetired t = false
      ↔ s.issuer.policy.grace < m.reading.since t.expiresAt := by
    have heffect := s.effect_run (⟨.revoke t, world⟩ :: log) m
    rw [hreply] at heffect
    generalize s.sessionAfter (m :: ⟨.revoke t, world⟩ :: log) = after at heffect ⊢
    cases heffect with
    | signedIn call named issued =>
      rw [Session.isRetired_eq_isSome, remembered?_opened, hremembered, Option.filter_some]
      by_cases hover : m.reading.since t.expiresAt ≤ s.issuer.policy.grace
      · simp [hover, Int.not_lt.2 hover]
      · simp [hover, Int.not_le.1 hover]
    | refreshed call allowed issued =>
      rw [hcall] at call
      cases call
  rw [Session.refreshRefusal?_eq_none_iff, hretired]
  exact and_iff_right hauthentic

/-- A token of a run is in force exactly while it is not `Dead` and its end has not come, and can be
refreshed exactly while it is not `Dead`, its grace lasts and the end of the new token lies in the
calendar; it is refreshed at most once, and what fails leaves the session alone. All this holds as
long as a grace that is over stays over (`GraceStaysOver`). Where it does not, a dead token is
forgotten and comes back to life. -/
theorem lifecycle_iff (hpolicy : s.issuer.policy.validate = .ok ())
    (hissuer : (Bytes.ofText s.issuer.policy.issuer).length ≤ Bytes.maxLength)
    (ht : t ∈ s.issued log) (hregular : s.Regular (m :: log) t) :
    (GraceStaysOver s.issuer.policy.grace t.expiresAt (readings (m :: log)) →
      (m.call = .validate t →
        (s.replyTo log m = .ok (.flag true)
          ↔ ¬ s.Dead log t ∧ m.reading.before t.expiresAt = true))
      ∧ (m.call = .refresh t →
        ((∃ fresh, s.replyTo log m = .ok (.token fresh))
          ↔ (¬ s.Dead log t ∧ m.reading.since t.expiresAt ≤ s.issuer.policy.grace)
            ∧ (m.reading.truncated.plus? s.issuer.policy.validity).isSome = true))
      ∧ s.refreshCount t (m :: log) ≤ 1)
    ∧ (∀ halt, s.replyTo log m = .error halt → s.sessionAfter (m :: log) = s.sessionAfter log)
    ∧ ∀ (world : World) (signIn : Move) (c : Credentials) (fresh : Token) (now : Instant),
        signIn.call = .signIn c →
        s.replyTo (⟨.revoke t, world⟩ :: log) signIn = .ok (.token fresh) →
        ((s.sessionAfter (signIn :: ⟨.revoke t, world⟩ :: log)).refreshRefusal? s.issuer t now
            = none
          ↔ s.issuer.policy.grace < signIn.reading.since t.expiresAt
            ∧ (now.before t.expiresAt = true ∨ now.since t.expiresAt ≤ s.issuer.policy.grace)) := by
  refine ⟨fun hgrace => ⟨fun hcall => ?_, fun hcall => ?_, ?_⟩, fun halt h => ?_, ?_⟩
  · rw [← accepts_iff_not_dead hpolicy hissuer ht hregular hgrace, replyTo, respond_validate hcall]
    simp
  · rw [exists_replyTo_refresh_iff hcall,
      refreshRefusal?_iff_not_dead hpolicy hissuer ht hregular hgrace]
  · exact (refreshCount_le_one hpolicy hissuer hregular hgrace).1
  · exact sessionAfter_of_error h
  · intro world signIn c fresh now hcall hreply
    exact refreshRefusal?_after_prune_iff (isAuthentic_of_mem_issued hpolicy ht) hcall hreply

/-! ### A token in its first hour -/

open Token (sampleEnd sampleNonce sampleStart sampleToken sampleTokenAt)

theorem sampleToken_mem_issued : sampleToken ∈ sampleServices.issued [sampleSignIn] :=
  mem_issued_cons.2 (.inl (replyTo_of_respond (respond_sampleSignIn _)))

private theorem regular_sample :
    sampleServices.Regular [⟨.validate sampleToken, sampleWorld sampleStart 0⟩, sampleSignIn]
      sampleToken where
  unforged := by
    refine ⟨fun t hpresented _ => ?_, fun t hpresented _ => ?_, trivial⟩
    · cases hpresented
      exact ⟨sampleToken, sampleToken_mem_issued, rfl⟩
    · cases hpresented
  nonce u hu _ := by
    rcases mem_issued_cons.1 hu with hreply | hu
    · rw [replyTo, respond_validate rfl] at hreply
      cases hreply
    · rcases mem_issued_cons.1 hu with hreply | hu
      · rw [replyTo_of_respond (respond_sampleSignIn _)] at hreply
        cases hreply
        rfl
      · cases hu
  digest u hu _ := by
    rcases mem_spent_cons.1 hu with hspent | hu
    · cases hspent
    · rcases mem_spent_cons.1 hu with hspent | hu
      · rw [spentBy_of_signIn rfl] at hspent
        cases hspent
      · cases hu
  ascending := by
    rw [List.pairwise_cons]
    refine ⟨fun m hm => ?_, List.pairwise_singleton _ _⟩
    rw [List.mem_singleton.1 hm]
    decide

/-- A token that was just given out is in force. -/
theorem replyTo_validate_sampleToken :
    sampleServices.replyTo [sampleSignIn] ⟨.validate sampleToken, sampleWorld sampleStart 0⟩
      = .ok (.flag true) := by
  have hissuer : (Bytes.ofText sampleServices.issuer.policy.issuer).length ≤ Bytes.maxLength := by
    decide
  have hordinary : ∀ p ∈ readings
      [⟨.validate sampleToken, sampleWorld sampleStart 0⟩, sampleSignIn], p.isLeap = false := by
    decide
  have hlife := lifecycle_iff rfl hissuer sampleToken_mem_issued regular_sample
  have hgrace := graceStaysOver_of_ordinary_readings rfl sampleToken_mem_issued hordinary
  refine ((hlife.1 hgrace).1 rfl).2 ⟨?_, by decide⟩
  rintro ⟨u, hu, -⟩
  rcases mem_spent_cons.1 hu with hspent | hu
  · rw [spentBy_of_signIn rfl] at hspent
    cases hspent
  · cases hu

/-! ### A token that comes back to life -/

/-- An hour before the end of a day. -/
def eve : Instant := .ofSecond 1767308400 (by decide)

/-- The end of that day. -/
def midnight : Instant := .ofSecond 1767312000 (by decide)

/-- A leap second a week later. -/
def leapSecond : Instant := ⟨1767916799, 1500000000, by decide, by decide, by decide⟩

/-- The second after it. -/
def weekLater : Instant := .ofSecond 1767916800 (by decide)

/-- The end of a token that is given out in the leap second. -/
def leapEnd : Instant := .ofSecond 1767920399 (by decide)

/-- The end of a token that is given out after it. -/
def weekEnd : Instant := .ofSecond 1767920400 (by decide)

/-- The token that is refreshed twice. It ends at `midnight`. -/
def revenant : Token := sampleTokenAt eve midnight 0

/-- It is given out to Ada, -/
def firstSignIn : Move := ⟨.signIn sampleCredentials, sampleWorld eve 0⟩

/-- refreshed, -/
def firstRefresh : Move := ⟨.refresh revenant, sampleWorld eve 1⟩

/-- forgotten as she signs in within the leap second, -/
def leapSignIn : Move := ⟨.signIn sampleCredentials, sampleWorld leapSecond 2⟩

/-- and refreshed once more. -/
def secondRefresh : Move := ⟨.refresh revenant, sampleWorld weekLater 3⟩

private theorem isAuthentic_revenant :
    Session.isAuthentic sampleServices.issuer revenant = true := by
  have hissue := issue_sample 0 (⟨rfl, rfl⟩ : midnight.seconds = eve.seconds + 3600 ∧ _)
  exact Session.isAuthentic_issued rfl hissue

private theorem user_revenant : revenant.user = "ada" := rfl

/-- The reply to a refresh of `revenant`, if it is not remembered as retired. -/
theorem respond_refresh_revenant {session : Session} {clock expiresAt : Instant} {byte : UInt8}
    (hend : expiresAt.seconds = clock.seconds + 3600 ∧ expiresAt.nanos = 0)
    (hforgotten : session.remembered? revenant = none)
    (huse : clock.since midnight ≤ sampleServices.issuer.policy.grace) :
    sampleServices.respond session ⟨.refresh revenant, sampleWorld clock byte⟩
      = (.ok (.token (sampleTokenAt clock expiresAt byte)),
        sampleServices.replaced session revenant (sampleTokenAt clock expiresAt byte) clock) := by
  let m : Move := ⟨.refresh revenant, sampleWorld clock byte⟩
  have hretired : session.isRetired revenant = false := by
    rw [Session.isRetired_eq_isSome, hforgotten]
    rfl
  have hallowed : session.refreshRefusal? sampleServices.issuer revenant clock = none :=
    Session.refreshRefusal?_eq_none_iff.2 ⟨isAuthentic_revenant, hretired, .inr huse⟩
  have hissue := issue_sample byte hend
  rw [← nonce_sample (.refresh revenant) clock byte, ← user_revenant] at hissue
  exact respond_refresh_of_issue (m := m) rfl hallowed hissue

theorem respond_firstSignIn :
    sampleServices.respond (sampleServices.sessionAfter []) firstSignIn
      = (.ok (.token revenant),
        sampleServices.opened Session.start sampleCredentials revenant eve) :=
  respond_sample ⟨rfl, rfl⟩

private theorem remembered?_firstSignIn :
    (sampleServices.sessionAfter [firstSignIn]).remembered? revenant = none := by
  rw [sessionAfter_of_respond respond_firstSignIn, remembered?_opened]
  rfl

theorem respond_firstRefresh :
    sampleServices.respond (sampleServices.sessionAfter [firstSignIn]) firstRefresh
      = (.ok (.token (sampleTokenAt eve midnight 1)),
        sampleServices.replaced (sampleServices.sessionAfter [firstSignIn]) revenant
          (sampleTokenAt eve midnight 1) eve) :=
  respond_refresh_revenant ⟨rfl, rfl⟩ remembered?_firstSignIn (by decide)

private theorem remembered?_firstRefresh :
    (sampleServices.sessionAfter [firstRefresh, firstSignIn]).remembered? revenant
      = some midnight := by
  rw [sessionAfter_of_respond respond_firstRefresh, remembered?_replaced, if_pos rfl]
  rfl

theorem respond_leapSignIn (session : Session) :
    sampleServices.respond session leapSignIn
      = (.ok (.token (sampleTokenAt leapSecond leapEnd 2)),
        sampleServices.opened session sampleCredentials (sampleTokenAt leapSecond leapEnd 2)
          leapSecond) :=
  respond_sample ⟨rfl, rfl⟩

/-- Within the leap second the grace of `revenant` is over, and it is forgotten. -/
private theorem remembered?_leapSignIn :
    (sampleServices.sessionAfter [leapSignIn, firstRefresh, firstSignIn]).remembered? revenant
      = none := by
  rw [sessionAfter_of_respond (respond_leapSignIn _), remembered?_opened, remembered?_firstRefresh]
  decide

/-- After the leap second the grace of `revenant` lasts again. -/
theorem respond_secondRefresh :
    sampleServices.respond
        (sampleServices.sessionAfter [leapSignIn, firstRefresh, firstSignIn]) secondRefresh
      = (.ok (.token (sampleTokenAt weekLater weekEnd 3)), sampleServices.replaced
          (sampleServices.sessionAfter [leapSignIn, firstRefresh, firstSignIn]) revenant
          (sampleTokenAt weekLater weekEnd 3) weekLater) :=
  respond_refresh_revenant ⟨rfl, rfl⟩ remembered?_leapSignIn (by decide)

/-- A run in which a token is refreshed, forgotten in a leap second and refreshed again. -/
def leapRun : List Move := [leapSignIn, firstRefresh, firstSignIn]

private theorem issued_leapRun :
    sampleServices.issued (secondRefresh :: leapRun)
      = [sampleTokenAt weekLater weekEnd 3, sampleTokenAt leapSecond leapEnd 2,
          sampleTokenAt eve midnight 1, revenant] := by
  rw [leapRun, issued_cons_of_token (replyTo_of_respond respond_secondRefresh),
    issued_cons_of_token (replyTo_of_respond (respond_leapSignIn _)),
    issued_cons_of_token (replyTo_of_respond respond_firstRefresh),
    issued_cons_of_token (replyTo_of_respond respond_firstSignIn), issued]

theorem revenant_mem_issued : revenant ∈ sampleServices.issued [firstSignIn] :=
  mem_issued_cons.2 (.inl (replyTo_of_respond respond_firstSignIn))

private theorem spent_leapRun :
    sampleServices.spent (secondRefresh :: leapRun) = [revenant, revenant] := by
  rw [leapRun, spent, spentBy_of_refresh rfl (replyTo_of_respond respond_secondRefresh), spent,
    spentBy_of_signIn rfl, spent, spentBy_of_refresh rfl (replyTo_of_respond respond_firstRefresh),
    spent, spentBy_of_signIn rfl, spent]
  rfl

private theorem regular_leapRun : sampleServices.Regular (secondRefresh :: leapRun) revenant where
  unforged := by
    refine ⟨fun t hpresented _ => ?_, fun t hpresented _ => ?_, fun t hpresented _ => ?_,
      fun t hpresented _ => ?_, trivial⟩
    · cases hpresented
      exact ⟨revenant, mem_issued_cons.2 (.inr (mem_issued_cons.2 (.inr revenant_mem_issued))), rfl⟩
    · cases hpresented
    · cases hpresented
      exact ⟨revenant, revenant_mem_issued, rfl⟩
    · cases hpresented
  nonce u hu hnonce := by
    rw [issued_leapRun] at hu
    simp only [List.mem_cons, List.not_mem_nil, or_false] at hu
    rcases hu with rfl | rfl | rfl | rfl
    · exact absurd (Token.nonce?_sampleTokenAt_inj hnonce) (by decide)
    · exact absurd (Token.nonce?_sampleTokenAt_inj hnonce) (by decide)
    · exact absurd (Token.nonce?_sampleTokenAt_inj hnonce) (by decide)
    · rfl
  digest u hu _ := by
    rw [spent_leapRun] at hu
    simp only [List.mem_cons, List.not_mem_nil, or_false, or_self] at hu
    rw [hu]
  ascending := by decide

/-- The token is given out in a run that is `Regular`, it is `Dead`, and yet it is refreshed again,
for the second time. -/
theorem revenant_refreshed_again :
    sampleServices.issuer.policy.validate = .ok ()
    ∧ revenant ∈ sampleServices.issued leapRun
    ∧ sampleServices.Regular (secondRefresh :: leapRun) revenant
    ∧ sampleServices.Dead leapRun revenant
    ∧ secondRefresh.call = .refresh revenant
    ∧ (∃ fresh, sampleServices.replyTo leapRun secondRefresh = .ok (.token fresh))
    ∧ sampleServices.refreshCount revenant (secondRefresh :: leapRun) = 2 := by
  have hfirst : sampleServices.replyTo [firstSignIn] firstRefresh = .ok (.token _) :=
    replyTo_of_respond respond_firstRefresh
  have hsecond : sampleServices.replyTo leapRun secondRefresh = .ok (.token _) :=
    replyTo_of_respond respond_secondRefresh
  have hspent : sampleServices.spentBy [firstSignIn] firstRefresh = some revenant :=
    spentBy_of_refresh rfl hfirst
  have hdead : sampleServices.Dead [firstRefresh, firstSignIn] revenant :=
    dead_cons.2 (.inl ⟨revenant, hspent, rfl⟩)
  refine ⟨rfl, mem_issued_cons.2 (.inr (mem_issued_cons.2 (.inr revenant_mem_issued))),
    regular_leapRun, dead_cons.2 (.inr hdead), rfl, ⟨_, hsecond⟩, ?_⟩
  rw [refreshCount_cons_of_ok rfl hsecond, leapRun, refreshCount_cons_of_signIn rfl,
    refreshCount_cons_of_ok rfl hfirst, refreshCount_cons_of_signIn rfl, refreshCount, if_pos rfl]

end Strongbox.Services
