import Strongbox.Proofs.Bytes
import Strongbox.Proofs.Time.Instant
import Strongbox.Proofs.Token.Text
/-!
# What the code of a token covers

The signed message puts the fields of a token one after another. Each of them has a fixed width or
announces its length, so the message can be taken apart again, from the front: it determines the
nonce and every field, times to the second. It does not hold the nanoseconds of the times, so two
tokens that differ in nothing else have one message.

Lengths are written in eight bytes. That a message is shorter than `Bytes.lengthLimit`, which any
message that fits a memory is, keeps them apart.

## Main results

* `signedMessage_inj`, `signedMessage_congr`: the message determines nonce and fields, times to the
  second, and nothing else.
* `signedMessage_eq_iff_sameToTheSecond`: both together, and what follows for verification.
-/

namespace Strongbox.Token

open Bytes (lengthLimit)
open Time (Instant)

/-- Two tokens say the same, as far as whole seconds go. Their fields `text` may differ. -/
structure SameToTheSecond (t t' : Token) : Prop where
  kind : t.kind = t'.kind
  issuedAt : t.issuedAt.seconds = t'.issuedAt.seconds
  expiresAt : t.expiresAt.seconds = t'.expiresAt.seconds
  user : t.user = t'.user
  claims : t.claims = t'.claims

theorem SameToTheSecond.refl (t : Token) : SameToTheSecond t t := ⟨rfl, rfl, rfl, rfl, rfl⟩

/-! ## Fields -/

@[simp] theorem length_lengthPrefixed (field : Bytes) :
    (lengthPrefixed field).length = 8 + field.length := by
  rw [lengthPrefixed, List.length_append, Bytes.length_bigEndian]

/-- A field that announces its length (`lengthPrefixed`) can be told from what follows it. -/
theorem lengthPrefixed_append_inj {a b x y : Bytes}
    (hfits : (lengthPrefixed a ++ x).length < lengthLimit)
    (h : lengthPrefixed a ++ x = lengthPrefixed b ++ y) : a = b ∧ x = y := by
  have htotal := congrArg List.length h
  simp only [List.length_append, length_lengthPrefixed, lengthLimit] at htotal hfits
  simp only [lengthPrefixed, List.append_assoc] at h
  obtain ⟨hlengths, hrest⟩ := List.append_inj h (by simp [Bytes.length_bigEndian])
  have hlength := Bytes.bigEndian_inj (by omega) (by omega) hlengths
  exact List.append_inj hrest hlength

/-- The message of a single claim. -/
def claimMessage (e : String × String) : Bytes :=
  lengthPrefixed (Bytes.ofText e.1) ++ lengthPrefixed (Bytes.ofText e.2)

theorem claimsMessage_eq (claims : Table String) :
    claimsMessage claims
      = Bytes.bigEndian 8 claims.entries.length ++ claims.entries.flatMap claimMessage := rfl

/-- Each claim takes at least the sixteen bytes of its two lengths in `claimMessage`. -/
theorem length_le_length_flatMap (l : List (String × String)) :
    16 * l.length ≤ (l.flatMap claimMessage).length := by
  induction l with
  | nil => simp
  | cons e l ih =>
    simp only [List.flatMap_cons, List.length_append, List.length_cons, claimMessage,
      length_lengthPrefixed]
    omega

/-- Equally many claims can be told apart by their `claimMessage`s, one after another. -/
private theorem flatMap_claimMessage_inj {l m : List (String × String)}
    (hlength : l.length = m.length) (hfits : (l.flatMap claimMessage).length < lengthLimit)
    (h : l.flatMap claimMessage = m.flatMap claimMessage) : l = m := by
  induction l generalizing m with
  | nil => exact (List.length_eq_zero_iff.1 hlength.symm).symm
  | cons e l ih =>
    cases m with
    | nil => simp at hlength
    | cons f m =>
      rw [List.flatMap_cons, claimMessage, List.append_assoc] at hfits
      rw [List.flatMap_cons, List.flatMap_cons, claimMessage, claimMessage, List.append_assoc,
        List.append_assoc] at h
      obtain ⟨hname, h⟩ := lengthPrefixed_append_inj hfits h
      rw [List.length_append] at hfits
      obtain ⟨hvalue, h⟩ := lengthPrefixed_append_inj (by omega) h
      rw [List.length_append] at hfits
      have hrest := ih (by simpa using hlength) (by omega) h
      have hhead : e = f :=
        Prod.ext (Bytes.ofText_injective hname) (Bytes.ofText_injective hvalue)
      rw [hhead, hrest]

private theorem claimsMessage_inj {c d : Table String}
    (hfits : (claimsMessage c).length < lengthLimit)
    (h : claimsMessage c = claimsMessage d) : c = d := by
  have htotal := congrArg List.length h
  have hc := length_le_length_flatMap c.entries
  have hd := length_le_length_flatMap d.entries
  rw [claimsMessage_eq, claimsMessage_eq] at h htotal
  rw [claimsMessage_eq] at hfits
  simp only [List.length_append, Bytes.length_bigEndian, lengthLimit] at hfits htotal
  obtain ⟨hsizes, hentries⟩ := List.append_inj h (by simp [Bytes.length_bigEndian])
  have hsize : c.entries.length = d.entries.length :=
    Bytes.bigEndian_inj (by omega) (by omega) hsizes
  have hlist := flatMap_claimMessage_inj hsize (by unfold lengthLimit; omega) hentries
  exact Table.ext_get? fun k => by rw [Table.get?, Table.get?, hlist]

/-! ## Messages -/

/-- The seconds of an instant fit a signed number of 64 bits, so `Bytes.signed64` tells them apart.
-/
theorem signed64_seconds_inj {a b : Time.Instant}
    (h : Bytes.signed64 a.seconds = Bytes.signed64 b.seconds) : a.seconds = b.seconds := by
  have ha := a.inCalendar
  have hb := b.inCalendar
  unfold Time.firstSecond Time.lastSecond at ha hb
  exact Bytes.signed64_inj (by omega) (by omega) h

theorem signedMessage_inj {n n' : Bytes} {t t' : Token} (hn : n.length = n'.length)
    (hfits : (signedMessage n t).length < lengthLimit)
    (h : signedMessage n t = signedMessage n' t') : n = n' ∧ SameToTheSecond t t' := by
  simp only [signedMessage, List.append_assoc] at h hfits
  obtain ⟨hnonce, h⟩ := List.append_inj h hn
  rw [List.length_append] at hfits
  obtain ⟨hkind, h⟩ := lengthPrefixed_append_inj (by omega) h
  rw [List.length_append] at hfits
  obtain ⟨hissued, h⟩ := List.append_inj h (by simp)
  rw [List.length_append] at hfits
  obtain ⟨hexpires, h⟩ := List.append_inj h (by simp)
  rw [List.length_append] at hfits
  obtain ⟨huser, hclaims⟩ := lengthPrefixed_append_inj (by omega) h
  rw [List.length_append] at hfits
  exact ⟨hnonce, {
    kind := Bytes.ofText_injective hkind
    issuedAt := signed64_seconds_inj hissued
    expiresAt := signed64_seconds_inj hexpires
    user := Bytes.ofText_injective huser
    claims := claimsMessage_inj (by omega) hclaims }⟩

/-- What lies within a second of a token's times is not in its `signedMessage`. -/
theorem signedMessage_congr (n : Bytes) {t t' : Token} (h : SameToTheSecond t t') :
    signedMessage n t = signedMessage n t' := by
  rw [signedMessage, signedMessage, h.kind, h.issuedAt, h.expiresAt, h.user, h.claims]

/-! ## What a verified token says -/

/-- What the code in the token's text ought to cover: the `signedMessage` under the nonce in it. -/
def message? (t : Token) : Option Bytes := t.nonce?.map fun nonce => signedMessage nonce t

/-- The message is short enough to be taken apart, that is below `lengthLimit`. -/
def Fits (t : Token) : Prop := ∃ message, t.message? = some message ∧ message.length < lengthLimit

theorem nonce?_sign (signer : Signer) (nonce : Nonce) (t : Token) :
    (signer.sign nonce t).nonce? = some nonce.val := by
  rw [nonce?, Signer.sign, parts?_textOf]
  rfl

theorem message?_sign (signer : Signer) (nonce : Nonce) (t : Token) :
    (signer.sign nonce t).message? = some (signedMessage nonce t) := by
  rw [message?, nonce?_sign]
  rfl

theorem length_of_nonce? {t : Token} {nonce : Bytes} (h : t.nonce? = some nonce) :
    nonce.length = nonceSize := by
  obtain ⟨⟨n, code⟩, hparts, rfl⟩ := Option.map_eq_some_iff.1 h
  exact (parts?_eq_some_iff.1 hparts).1

/-- Tokens whose texts ought to cover one message have one nonce and are `SameToTheSecond`. -/
theorem sameToTheSecond_of_message? {t t' : Token} {m : Bytes} (ht : t.message? = some m)
    (ht' : t'.message? = some m) (hfits : m.length < lengthLimit) :
    t.nonce? = t'.nonce? ∧ SameToTheSecond t t' := by
  obtain ⟨n, hn, rfl⟩ := Option.map_eq_some_iff.1 ht
  obtain ⟨n', hn', hmessage⟩ := Option.map_eq_some_iff.1 ht'
  have hlength : n.length = n'.length := by rw [length_of_nonce? hn, length_of_nonce? hn']
  obtain ⟨hnonce, hsame⟩ := signedMessage_inj hlength hfits hmessage.symm
  exact ⟨by rw [hn, hn', hnonce], hsame⟩

/-- The `signedMessage` determines nonce and fields to the second (`SameToTheSecond`), and it leaves
the rest open: where no code but that of a signed message is ever met, a token is accepted exactly
if its text is one of the `spellings` of the signed one and it says the same to the second. -/
theorem signedMessage_eq_iff_sameToTheSecond {n n' : Nonce} {t t' : Token} (signer : Signer)
    (hfits : (signedMessage n t).length < lengthLimit) :
    (signedMessage n t = signedMessage n' t' ↔ n = n' ∧ SameToTheSecond t t')
    ∧ ((signer.verify t' = true → t'.message? = some (signedMessage n t)) →
        (signer.verify t' = true
          ↔ t'.text ∈ spellings n (signer.code (signedMessage n t)) ∧ SameToTheSecond t t')) := by
  have hmessage : ∀ n' : Nonce,
      signedMessage n t = signedMessage n' t' ↔ n = n' ∧ SameToTheSecond t t' := by
    intro n'
    constructor
    · intro h
      obtain ⟨hnonce, hsame⟩ := signedMessage_inj (n.property.trans n'.property.symm) hfits h
      exact ⟨Subtype.ext hnonce, hsame⟩
    · rintro ⟨rfl, hsame⟩
      exact signedMessage_congr n hsame
  refine ⟨hmessage n', fun hideal => ⟨fun hverify => ?_, ?_⟩⟩
  · obtain ⟨nonce, hnonce, htext⟩ := exists_nonce?_of_verify hverify
    have hcovered := hideal hverify
    rw [message?, hnonce, Option.map_some, Option.some.injEq] at hcovered
    obtain ⟨rfl, hsame⟩ := (hmessage nonce).1 hcovered.symm
    exact ⟨hcovered ▸ htext, hsame⟩
  · rintro ⟨htext, hsame⟩
    exact verify_iff.2 ⟨n, by rwa [← (hmessage n).2 ⟨rfl, hsame⟩]⟩

/-! ## A token and an end that is put off -/

/-- A signer under the key of the bytes 0 to 31. -/
def sampleSigner : Signer :=
  let key := Hash.Hmac.Key.ofBytes ((List.range Signer.minKeySize).map UInt8.ofNat)
  ⟨key.code, Hash.Hmac.Key.length_code key⟩

/-- A nonce of one byte. -/
def sampleNonce (byte : UInt8) : Nonce := ⟨List.replicate nonceSize byte, by simp⟩

/-- A token for `ada` by that signer. -/
def sampleTokenAt (issuedAt expiresAt : Instant) (byte : UInt8) : Token :=
  sampleSigner.sign (sampleNonce byte) ⟨"", bearer, issuedAt.truncated, expiresAt, "ada",
    standardClaims "umbra" "ada" issuedAt.truncated expiresAt (sampleNonce byte)⟩

theorem nonce?_sampleTokenAt (issuedAt expiresAt : Instant) (byte : UInt8) :
    (sampleTokenAt issuedAt expiresAt byte).nonce? = some (sampleNonce byte).val :=
  nonce?_sign _ _ _

/-- The nonce of a `sampleTokenAt` tells its byte. -/
theorem nonce?_sampleTokenAt_inj {start finish start' finish' : Instant} {byte byte' : UInt8}
    (h : (sampleTokenAt start finish byte).nonce? = (sampleTokenAt start' finish' byte').nonce?) :
    byte = byte' := by
  rw [nonce?_sampleTokenAt, nonce?_sampleTokenAt, Option.some.injEq] at h
  have hheads := congrArg List.head? h
  simpa [sampleNonce, nonceSize] using hheads

/-- The beginning of 2026. -/
def sampleStart : Instant := .ofSecond 1767225600 (by decide)

/-- An hour after `sampleStart`. -/
def sampleEnd : Instant := .ofSecond 1767229200 (by decide)

/-- A token for that hour. -/
def sampleToken : Token := sampleTokenAt sampleStart sampleEnd 0

/-- The `sampleToken` with an end that was put off by less than a second. -/
def putOff : Token :=
  { sampleToken with
    expiresAt := ⟨1767229200, 999999999, by decide, by decide, by decide⟩ }

theorem sampleToken_sameToTheSecond_putOff : SameToTheSecond sampleToken putOff :=
  ⟨rfl, rfl, rfl, rfl, rfl⟩

private theorem message?_putOff :
    putOff.message? = some (signedMessage (sampleNonce 0) sampleToken) := by
  have hnonce : putOff.nonce? = some (sampleNonce 0).val :=
    nonce?_sign sampleSigner (sampleNonce 0) _
  rw [message?, hnonce, signedMessage_congr _ sampleToken_sameToTheSecond_putOff]
  rfl

/-- The signer accepts `putOff`, whose end is another than that of the token it signed. -/
theorem signedMessage_eq_and_verify_putOff :
    signedMessage (sampleNonce 0) sampleToken = signedMessage (sampleNonce 0) putOff
    ∧ sampleSigner.verify putOff = true := by
  have hfits : (signedMessage (sampleNonce 0) sampleToken).length < lengthLimit := by
    decide +kernel
  obtain ⟨hmessage, hverify⟩ :=
    @signedMessage_eq_iff_sameToTheSecond (sampleNonce 0) (sampleNonce 0) sampleToken putOff
      sampleSigner hfits
  refine ⟨hmessage.2 ⟨rfl, sampleToken_sameToTheSecond_putOff⟩, ?_⟩
  exact (hverify fun _ => message?_putOff).2
    ⟨textOf_mem_spellings _ _, sampleToken_sameToTheSecond_putOff⟩

/-- Two ends, one message: the end of `sampleToken` can be altered and is accepted. -/
theorem putOff_undetected :
    ¬ (signedMessage (sampleNonce 0) sampleToken = signedMessage (sampleNonce 0) putOff →
        sampleToken.expiresAt = putOff.expiresAt)
    ∧ sampleSigner.verify putOff = true ∧ putOff.text = sampleToken.text
    ∧ putOff.expiresAt ≠ sampleToken.expiresAt := by
  have hends : sampleToken.expiresAt ≠ putOff.expiresAt := by
    intro h
    have hnanos := congrArg Instant.nanos h
    simp [putOff, sampleToken, sampleTokenAt, sampleEnd, Instant.ofSecond, Signer.sign] at hnanos
  have hmessage := signedMessage_congr (sampleNonce 0).val sampleToken_sameToTheSecond_putOff
  refine ⟨fun h => hends (h hmessage), ?_, rfl, hends.symm⟩
  refine verify_iff.2 ⟨sampleNonce 0, ?_⟩
  rw [← hmessage]
  exact textOf_mem_spellings _ _

end Strongbox.Token
