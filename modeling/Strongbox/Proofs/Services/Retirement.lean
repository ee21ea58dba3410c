import Strongbox.Proofs.Services.Access
/-!
# Retired tokens in runs

A token is spent when it is revoked, refreshed, or active as the session ends. What a session
remembers as retired was spent in the run, and what was spent is remembered until it is pruned.

Sessions remember a text by its digest while a signer accepts each of the six spellings of a nonce
and its code. So a token can be retired and its other spellings stay in force.

## Main results

* `exists_spent_of_isRetired`: what is retired was spent under a text of the same digest.
* `isRetired_or_since_of_mem_spent`: what was spent is retired until it is pruned.
* `revoked_iff_revoked_iff`: two spellings of a token are retired together exactly if their digests
  agree.
-/

namespace Strongbox.Services

open Time (Instant)

/-- The token whose text the move `m`, after the run `earlier`, is to put out of use: a verified one
that is revoked, one that is refreshed, or the active one as the session ends. -/
def spentBy (s : Services) (earlier : List Move) (m : Move) : Option Token :=
  match m.call, s.replyTo earlier m with
  | .revoke t, _ => if s.issuer.signer.verify t then some t else none
  | .refresh t, .ok _ => some t
  | .logout, _ => (s.sessionAfter earlier).active
  | _, _ => none

/-- The tokens that were spent in a run. -/
def spent (s : Services) : List Move → List Token
  | [] => []
  | m :: earlier => (s.spentBy earlier m).toList ++ spent s earlier

variable {s : Services} {log earlier : List Move} {m : Move} {t u : Token} {e : Instant}

theorem mem_spent_cons :
    t ∈ s.spent (m :: earlier) ↔ s.spentBy earlier m = some t ∨ t ∈ s.spent earlier := by
  rw [spent, List.mem_append, Option.mem_toList]

theorem spentBy_of_signIn {c : Credentials} (hcall : m.call = .signIn c) :
    s.spentBy earlier m = none := by
  rw [spentBy, hcall]

theorem spentBy_of_revoke (hcall : m.call = .revoke t) :
    s.spentBy earlier m = if s.issuer.signer.verify t then some t else none := by
  rw [spentBy, hcall]

theorem spentBy_of_logout (hcall : m.call = .logout) :
    s.spentBy earlier m = (s.sessionAfter earlier).active := by
  rw [spentBy, hcall]

theorem spentBy_of_refresh {reply : Reply} (hcall : m.call = .refresh t)
    (hreply : s.replyTo earlier m = .ok reply) : s.spentBy earlier m = some t := by
  rw [spentBy, hcall, hreply]

/-! ## What one move does -/

theorem remembered?_opened (session : Session) (c : Credentials) (fresh : Token) (now : Instant) :
    (s.opened session c fresh now).remembered? t
      = (session.remembered? t).filter fun e => now.since e ≤ s.issuer.policy.grace :=
  Session.remembered?_prune

theorem remembered?_replaced (session : Session) (u fresh : Token) (now : Instant) :
    (s.replaced session u fresh now).remembered? t
      = if Session.retirementKey t = Session.retirementKey u then some u.expiresAt
        else (session.remembered? t).filter fun e => now.since e ≤ s.issuer.policy.grace := by
  rw [← Session.remembered?_prune, ← Session.remembered?_retire]
  rfl

/-- What a move lets the session remember was `remembered?` before or is `spentBy` it. -/
private theorem remembered?_cons (h : (s.sessionAfter (m :: earlier)).remembered? t = some e) :
    (s.sessionAfter earlier).remembered? t = some e
      ∨ ∃ u, s.spentBy earlier m = some u ∧ Session.retirementKey t = Session.retirementKey u
        ∧ u.expiresAt = e := by
  have heffect := s.effect_run earlier m
  have hrefresh := fun u reply => @spentBy_of_refresh s earlier m u reply
  generalize s.replyTo earlier m = reply at heffect hrefresh
  generalize s.sessionAfter (m :: earlier) = after at heffect h
  cases heffect with
  | signedIn call named issued =>
    rw [remembered?_opened] at h
    exact .inl (Option.filter_eq_some_iff.1 h).1
  | @refreshed u fresh nonce call allowed issued =>
    rw [remembered?_replaced] at h
    by_cases hkey : Session.retirementKey t = Session.retirementKey u
    · rw [if_pos hkey] at h
      exact .inr ⟨u, hrefresh u _ call rfl, hkey, Option.some.inj h⟩
    · rw [if_neg hkey] at h
      exact .inl (Option.filter_eq_some_iff.1 h).1
  | @revoked u call =>
    rw [Session.remembered?_revoke] at h
    by_cases hkey : Session.isAuthentic s.issuer u = true
        ∧ Session.retirementKey t = Session.retirementKey u
    · rw [if_pos hkey] at h
      have hverify := (Session.isAuthentic_iff.1 hkey.1).2
      refine .inr ⟨u, ?_, hkey.2, Option.some.inj h⟩
      rw [spentBy_of_revoke call, if_pos hverify]
    · rw [if_neg hkey] at h
      exact .inl h
  | loggedOut call =>
    rw [Session.remembered?_logout] at h
    rw [spentBy_of_logout call]
    cases hactive : (s.sessionAfter earlier).active with
    | none =>
      rw [hactive] at h
      exact .inl h
    | some u =>
      rw [hactive] at h
      by_cases hkey : Session.retirementKey t = Session.retirementKey u
      · simp only [if_pos hkey, Option.some.injEq] at h
        exact .inr ⟨u, rfl, hkey, h⟩
      · simp only [if_neg hkey] at h
        exact .inl h
  | validated call => exact .inl h
  | authorized call allowed => exact .inl h
  | refused => exact .inl h

/-- An authentic token that is `spentBy` a move is `remembered?` after it. -/
theorem remembered?_of_spentBy (h : s.spentBy earlier m = some u)
    (hauthentic : Session.isAuthentic s.issuer u = true)
    (hkey : Session.retirementKey t = Session.retirementKey u) :
    (s.sessionAfter (m :: earlier)).remembered? t = some u.expiresAt := by
  have heffect := s.effect_run earlier m
  unfold spentBy at h
  generalize s.replyTo earlier m = reply at heffect h
  generalize s.sessionAfter (m :: earlier) = after at heffect ⊢
  cases heffect with
  | signedIn call named issued =>
    rw [call] at h
    cases h
  | @refreshed v fresh nonce call allowed issued =>
    rw [call] at h
    obtain rfl : v = u := Option.some.inj h
    rw [remembered?_replaced, if_pos hkey]
  | @revoked v call =>
    rw [call] at h
    obtain ⟨-, h⟩ := Option.ite_none_right_eq_some.1 h
    obtain rfl : v = u := Option.some.inj h
    rw [Session.remembered?_revoke, if_pos ⟨hauthentic, hkey⟩]
  | loggedOut call =>
    rw [call] at h
    have hactive : (s.sessionAfter earlier).active = some u := h
    rw [Session.remembered?_logout, hactive]
    exact if_pos hkey
  | validated call =>
    rw [call] at h
    cases h
  | authorized call allowed =>
    rw [call] at h
    cases h
  | refused revoke logout =>
    split at h
    · rename_i call
      exact absurd call (revoke _)
    · rename_i hreply
      cases hreply
    · rename_i call
      exact absurd call logout
    · cases h

/-- What is `remembered?` before a move is so after it, unless its grace is over. -/
private theorem remembered?_or_since (h : (s.sessionAfter earlier).remembered? t = some e) :
    (∃ e', (s.sessionAfter (m :: earlier)).remembered? t = some e')
      ∨ s.issuer.policy.grace < m.reading.since e := by
  have heffect := s.effect_run earlier m
  generalize s.replyTo earlier m = reply at heffect
  generalize s.sessionAfter (m :: earlier) = after at heffect ⊢
  cases heffect with
  | @signedIn c u nonce call named issued =>
    by_cases hgrace : m.reading.since e ≤ s.issuer.policy.grace
    · refine .inl ⟨e, ?_⟩
      rw [remembered?_opened, h, Option.filter_some, if_pos (decide_eq_true hgrace)]
    · exact .inr (Int.not_le.1 hgrace)
  | @refreshed u fresh nonce call allowed issued =>
    by_cases hgrace : m.reading.since e ≤ s.issuer.policy.grace
    · left
      rw [remembered?_replaced, h, Option.filter_some, if_pos (decide_eq_true hgrace)]
      split
      · exact ⟨_, rfl⟩
      · exact ⟨_, rfl⟩
    · exact .inr (Int.not_le.1 hgrace)
  | @revoked u call =>
    left
    rw [Session.remembered?_revoke, h]
    split
    · exact ⟨_, rfl⟩
    · exact ⟨_, rfl⟩
  | loggedOut call =>
    left
    rw [Session.remembered?_logout, h]
    split
    · split
      · exact ⟨_, rfl⟩
      · exact ⟨_, rfl⟩
    · exact ⟨_, rfl⟩
  | validated call => exact .inl ⟨e, h⟩
  | authorized call allowed => exact .inl ⟨e, h⟩
  | refused => exact .inl ⟨e, h⟩

/-! ## What a run remembers -/

/-- What is `remembered?` was `spent` in the run, under a text of the same digest. -/
theorem exists_spent_of_remembered? (h : (s.sessionAfter log).remembered? t = some e) :
    ∃ u ∈ s.spent log, Session.retirementKey t = Session.retirementKey u ∧ u.expiresAt = e := by
  induction log with
  | nil => cases h
  | cons m earlier ih =>
    rcases remembered?_cons h with hbefore | ⟨u, hspent, hkey, hend⟩
    · obtain ⟨u, hu, hkey, hend⟩ := ih hbefore
      exact ⟨u, mem_spent_cons.2 (.inr hu), hkey, hend⟩
    · exact ⟨u, mem_spent_cons.2 (.inl hspent), hkey, hend⟩

/-- What `isRetired` was `spent` in the run, under a text of the same digest. -/
theorem exists_spent_of_isRetired (h : (s.sessionAfter log).isRetired t = true) :
    ∃ u ∈ s.spent log, Session.retirementKey t = Session.retirementKey u := by
  rw [Session.isRetired_eq_isSome, Option.isSome_iff_exists] at h
  obtain ⟨e, he⟩ := h
  obtain ⟨u, hu, hkey, -⟩ := exists_spent_of_remembered? he
  exact ⟨u, hu, hkey⟩

/-- What was `spent` is retired, unless at some move its grace, or that of a token of the same
digest, was over. -/
theorem isRetired_or_since_of_mem_spent (hu : u ∈ s.spent log)
    (hauthentic : Session.isAuthentic s.issuer u = true) :
    (s.sessionAfter log).isRetired u = true
      ∨ ∃ v ∈ s.spent log, ∃ m ∈ log, Session.retirementKey u = Session.retirementKey v
        ∧ s.issuer.policy.grace < m.reading.since v.expiresAt := by
  induction log with
  | nil => cases hu
  | cons m earlier ih =>
    rcases mem_spent_cons.1 hu with hspent | hu
    · left
      rw [Session.isRetired_eq_isSome, remembered?_of_spentBy hspent hauthentic rfl]
      rfl
    · rcases ih hu with hretired | ⟨v, hv, n, hn, hkey, hover⟩
      · rw [Session.isRetired_eq_isSome, Option.isSome_iff_exists] at hretired
        obtain ⟨e, he⟩ := hretired
        rcases remembered?_or_since (m := m) he with ⟨e', he'⟩ | hover
        · left
          rw [Session.isRetired_eq_isSome, he']
          rfl
        · obtain ⟨v, hv, hkey, rfl⟩ := exists_spent_of_remembered? he
          exact .inr ⟨v, mem_spent_cons.2 (.inr hv), m, List.mem_cons_self, hkey, hover⟩
      · exact .inr ⟨v, mem_spent_cons.2 (.inr hv), n, List.mem_cons_of_mem _ hn, hkey, hover⟩

/-! ## Two spellings of one token -/

/-- A token whose text was not `spent` in a run has the `standing` it had before the run. -/
theorem standing_of_not_spent {now : Instant}
    (h : ∀ u ∈ s.spent log, Session.retirementKey t ≠ Session.retirementKey u) :
    (s.sessionAfter log).standing s.issuer t now = Session.start.standing s.issuer t now := by
  have hretired : (s.sessionAfter log).isRetired t = false := by
    rw [← Bool.not_eq_true]
    intro hretired
    obtain ⟨u, hu, hkey⟩ := exists_spent_of_isRetired hretired
    exact h u hu hkey
  rw [Session.standing, Session.standing, hretired]
  rfl

/-- Revoking an authentic token retires it and no text of another digest. -/
theorem isRetired_after_revoke {world : World}
    (hauthentic : Session.isAuthentic s.issuer t = true) :
    (s.sessionAfter [⟨.revoke t, world⟩]).isRetired u = true
      ↔ Session.retirementKey u = Session.retirementKey t := by
  have hspent : s.spentBy [] ⟨.revoke t, world⟩ = some t := by
    rw [spentBy_of_revoke rfl, if_pos (Session.isAuthentic_iff.1 hauthentic).2]
  constructor
  · intro h
    obtain ⟨v, hv, hkey⟩ := exists_spent_of_isRetired h
    rcases mem_spent_cons.1 hv with hv | hv
    · rw [hspent] at hv
      rw [hkey, Option.some.inj hv]
    · cases hv
  · intro hkey
    rw [Session.isRetired_eq_isSome, remembered?_of_spentBy hspent hauthentic hkey]
    rfl

/-- Two verified texts of one nonce, on tokens that say the same, are two of the six
`Token.spellings` of that nonce and its code. In every run the one is revoked exactly if the other
is, if and only if their digests (`Session.retirementKey`) agree; and in every run that spends no
text of its digest the second is worth what it was at the start, whatever becomes of the first. -/
theorem revoked_iff_revoked_iff {text : String} (ht : s.issuer.signer.verify t = true)
    (ht' : s.issuer.signer.verify { t with text } = true)
    (hnonce : t.nonce? = Token.nonce? { t with text }) :
    (∃ nonce : Token.Nonce, t.nonce? = some nonce.val
      ∧ t.text ∈ Token.spellings nonce (s.issuer.signer.code (Token.signedMessage nonce t))
      ∧ text ∈ Token.spellings nonce (s.issuer.signer.code (Token.signedMessage nonce t)))
    ∧ ((∀ log now, (s.sessionAfter log).standing s.issuer t now = .revoked
          ↔ (s.sessionAfter log).standing s.issuer { t with text } now = .revoked)
        ↔ (t.isWellFormed = true →
          Session.retirementKey t = Session.retirementKey { t with text }))
    ∧ ∀ log now,
        (∀ u ∈ s.spent log, Session.retirementKey { t with text } ≠ Session.retirementKey u) →
        (s.sessionAfter log).standing s.issuer { t with text } now
          = Session.start.standing s.issuer { t with text } now := by
  have hauthentic := Session.isAuthentic_congr ht ht'
  refine ⟨?_, ⟨fun h hwellFormed => ?_, fun h log now => ?_⟩, fun _ _ h => standing_of_not_spent h⟩
  · obtain ⟨nonce, hn, htext⟩ := Token.exists_nonce?_of_verify ht
    obtain ⟨nonce', hn', htext'⟩ := Token.exists_nonce?_of_verify ht'
    have hsame : nonce = nonce' := by
      rw [hn, hn', Option.some.injEq] at hnonce
      exact Subtype.ext hnonce
    subst hsame
    exact ⟨nonce, hn, htext, htext'⟩
  · -- the run that does nothing but revoke the first
    let m : Move := ⟨.revoke t, sampleWorld default 0⟩
    have ht : Session.isAuthentic s.issuer t = true := Session.isAuthentic_iff.2 ⟨hwellFormed, ht⟩
    have hretired : (s.sessionAfter [m]).isRetired t = true := (isRetired_after_revoke ht).2 rfl
    have hrevoked := (h [m] default).1 (Session.standing_eq_revoked_iff.2 ⟨ht, hretired⟩)
    exact ((isRetired_after_revoke ht).1 (Session.standing_eq_revoked_iff.1 hrevoked).2).symm
  · rw [Session.standing_eq_revoked_iff, Session.standing_eq_revoked_iff, hauthentic]
    refine and_congr_right fun ht => ?_
    rw [Session.isRetired_congr (h (Session.isAuthentic_iff.1 ht).1)]

/-! ### A padded text -/

open Token (sampleNonce sampleSigner sampleStart sampleToken)

/-- The text of `sampleToken` with padding after its code. -/
def paddedText : String := sampleToken.text ++ "="

theorem paddedText_mem_spellings : paddedText ∈ Token.spellings (sampleNonce 0)
    (sampleSigner.code (Token.signedMessage (sampleNonce 0) sampleToken)) := by
  refine Token.mem_spellings.2 ⟨[], Text.Base64.nil_mem_paddings _, ['='], ?_, ?_⟩
  · rw [sampleSigner.length_code]
    decide
  · apply String.toList_injective
    simp [paddedText, sampleToken, Token.sampleTokenAt, Token.Signer.sign, Token.textOf,
      Token.textPart, Text.Base64.encode, Token.spelling, Token.signedMessage]

private theorem nonce?_padded :
    sampleToken.nonce? = Token.nonce? { sampleToken with text := paddedText } := by
  have hparts := Token.parts?_eq_some_iff.2 ⟨(sampleNonce 0).property, paddedText_mem_spellings⟩
  have hnonce : sampleToken.nonce? = some (sampleNonce 0).val := Token.nonce?_sampleTokenAt _ _ _
  rw [hnonce, Token.nonce?, hparts]
  rfl

theorem verify_sampleToken : sampleServices.issuer.signer.verify sampleToken = true :=
  Token.verify_sign _ _ _

theorem verify_padded :
    sampleServices.issuer.signer.verify { sampleToken with text := paddedText } = true := by
  refine Token.verify_iff.2 ⟨sampleNonce 0, ?_⟩
  rw [Token.signedMessage_withText]
  exact paddedText_mem_spellings

/-- The token and its padded spelling are revoked together in every run exactly if their digests
agree. -/
theorem padded_revoked_iff :
    (∀ log now, (sampleServices.sessionAfter log).standing sampleServices.issuer sampleToken now
        = .revoked
      ↔ (sampleServices.sessionAfter log).standing sampleServices.issuer
          { sampleToken with text := paddedText } now = .revoked)
    ↔ (sampleToken.isWellFormed = true → Session.retirementKey sampleToken
        = Session.retirementKey { sampleToken with text := paddedText }) :=
  (revoked_iff_revoked_iff verify_sampleToken verify_padded nonce?_padded).2.1

/-- Revoking a token leaves its padded spelling in force: it is accepted, authorizes its user and
may be refreshed. -/
theorem padded_survives_revocation :
    let after := sampleServices.sessionAfter [⟨.revoke sampleToken, sampleWorld sampleStart 0⟩]
    let padded : Token := { sampleToken with text := paddedText }
    after.standing sampleServices.issuer sampleToken sampleStart = .revoked
    ∧ sampleServices.issuer.signer.verify padded = true
    ∧ after.accepts sampleServices.issuer padded sampleStart = true
    ∧ after.authorize sampleServices.issuer padded "backup" sampleStart = .ok "ada"
    ∧ after.refreshRefusal? sampleServices.issuer padded sampleStart = none := by
  intro after padded
  have hkeys : Session.retirementKey padded ≠ Session.retirementKey sampleToken := by
    decide +kernel
  have hwellFormed : sampleToken.isWellFormed = true := by
    have hempty := Token.isEmpty_eq_false_of_verify verify_sampleToken
    rw [Token.isWellFormed, hempty]
    decide
  have hauthentic := Session.isAuthentic_iff.2 ⟨hwellFormed, verify_sampleToken⟩
  have hpadded := (Session.isAuthentic_congr verify_sampleToken verify_padded).trans hauthentic
  have hretired : after.isRetired padded = false := by
    rw [← Bool.not_eq_true]
    exact fun h => hkeys ((isRetired_after_revoke hauthentic).1 h)
  have hbefore : sampleStart.before padded.expiresAt = true := by decide
  have haccepts := Session.accepts_iff.2 ⟨hpadded, hretired, hbefore⟩
  refine ⟨Session.standing_eq_revoked_iff.2 ⟨hauthentic, (isRetired_after_revoke hauthentic).2 rfl⟩,
    verify_padded, haccepts, Session.authorize_eq_ok_iff.2 ⟨haccepts, rfl⟩, ?_⟩
  exact Session.refreshRefusal?_eq_none_iff.2 ⟨hpadded, hretired, .inl hbefore⟩

end Strongbox.Services
