import Strongbox.Proofs.Cipher.Inverse
/-!
# How decryption fails

A decryption that fails says nothing about what it was given, except for the lengths of the key, of
a given vector and of associated data. The checks of the request look at these lengths only and come
first; whatever is wrong with the blob after that is one error, whether the blob is cut short, does
not end with a block, begins with another vector, is filled up wrongly or has the wrong tag.

That decryption always comes to an end with a result or an error is said of a form of it in which
every cut of a byte string, every difference of lengths and every field of fixed width is checked
where it is made (`decryptCarefully`). None of these checks ever fails.

## Main results

* `decryptCarefully_eq`: no cut is out of range, and no field has the wrong width.
* `decrypt_eq_error_iff`: what is wrong with a blob that is not read.
* `decryption_failures_alike`: the errors of decryption.
-/

namespace Strongbox

/-! ## Operations with a range -/

namespace Bytes

/-- The first `n` bytes and the others, if there are so many. -/
def cut? (n : Nat) (bytes : Bytes) : Option (Bytes × Bytes) :=
  if n ≤ bytes.length then some (bytes.take n, bytes.drop n) else none

/-- The bytes as a field of `n` bytes, if they are so many. -/
def field? (n : Nat) (bytes : Bytes) : Option (Sized n) :=
  if h : bytes.length = n then some ⟨bytes, h⟩ else none

/-- What is left of the length `n` without `part`, if it is that long. -/
def lengthWithout? (n part : Nat) : Option Nat := if part ≤ n then some (n - part) else none

theorem cut?_eq {n : Nat} {bytes : Bytes} (h : n ≤ bytes.length) :
    cut? n bytes = some (bytes.take n, bytes.drop n) := if_pos h

theorem field?_eq {n : Nat} {bytes : Bytes} (h : bytes.length = n) :
    field? n bytes = some ⟨bytes, h⟩ := dif_pos h

theorem lengthWithout?_eq {n part : Nat} (h : part ≤ n) : lengthWithout? n part = some (n - part) :=
  if_pos h

end Bytes

namespace Cipher

/-! ## Careful decryption -/

/-- The error of a blob that is not read. -/
def unreadable (a : Algorithm) : Except Error Bytes := .error (.decryptionFailed a.name)

/-- Opens a blob of the chaining mode as `openChained?` does, slice by slice. -/
def openChainedCarefully (key : Bytes) (iv : Option Bytes) (blob : Bytes) :
    Option (Except Error Bytes) :=
  if blob.length < 32 then some (unreadable .aesCbc)
  else do
    let size ← Bytes.lengthWithout? blob.length 16
    if size % 16 ≠ 0 then some (unreadable .aesCbc)
    else do
      let (front, body) ← Bytes.cut? 16 blob
      if iv.any (· != front) then some (unreadable .aesCbc)
      else do
        let key ← Bytes.field? Algorithm.aesCbc.keySize key
        let front ← Bytes.field? Algorithm.aesCbc.ivSize front
        match Cbc.decrypt? key front body with
        | some plaintext => some (.ok plaintext)
        | none => some (unreadable .aesCbc)

/-- Opens a ciphertext with its tag under a vector as `Aead.open?` does, slice by slice. -/
def openSealedCarefully (a : Algorithm) (cipher : Aead) (key iv aad blob : Bytes) :
    Option (Except Error Bytes) :=
  if blob.length < tagSize then some (unreadable a)
  else do
    let key ← Bytes.field? a.keySize key
    let size ← Bytes.lengthWithout? blob.length tagSize
    let (body, tag) ← Bytes.cut? size blob
    let nonce ← Bytes.field? a.ivSize iv
    let tag ← Bytes.field? tagSize tag
    if tag.1 = cipher.tag key nonce aad body then some (.ok (cipher.mask key nonce body))
    else some (unreadable a)

/-- Decrypts a blob as `decrypt` does, slice by slice. There is no result if something is out of
range. -/
def decryptCarefully (a : Algorithm) (key : Bytes) (iv : Option Bytes) (blob : Bytes)
    (aad : Option Bytes) : Option (Except Error Bytes) :=
  match checkRequest a key iv aad with
  | .error e => some (.error e)
  | .ok _ =>
    match a.aead?, iv with
    | none, iv => openChainedCarefully key iv blob
    | some cipher, some iv => openSealedCarefully a cipher key iv (aad.getD []) blob
    | some cipher, none =>
      if blob.length < a.ivSize then some (unreadable a)
      else do
        let (iv, rest) ← Bytes.cut? a.ivSize blob
        openSealedCarefully a cipher key iv (aad.getD []) rest

/-- A reading of a blob as the result of a decryption, which is `unreadable` if there is none. -/
def resultOf (a : Algorithm) : Option Bytes → Except Error Bytes
  | some plaintext => .ok plaintext
  | none => unreadable a

private theorem decrypt_eq_resultOf {a : Algorithm} {key : Bytes} {iv aad : Option Bytes}
    (h : checkRequest a key iv aad = .ok ()) (blob : Bytes) :
    decrypt a key iv blob aad = resultOf a (openBlob? a key iv blob aad) := by
  rw [decrypt, h]
  cases openBlob? a key iv blob aad <;> rfl

private theorem openChainedCarefully_eq {key : Bytes} (hkey : key.length = Algorithm.aesCbc.keySize)
    (iv : Option Bytes) (blob : Bytes) :
    openChainedCarefully key iv blob = some (resultOf .aesCbc (openChained? key iv blob)) := by
  rw [openChainedCarefully, openChained?]
  by_cases hshort : blob.length < 32
  · rw [if_pos hshort, if_pos (.inl hshort)]
    rfl
  · rw [if_neg hshort, Bytes.lengthWithout?_eq (by omega), Option.bind_eq_bind, Option.bind_some]
    by_cases hragged : (blob.length - 16) % 16 ≠ 0
    · rw [if_pos hragged, if_pos (.inr hragged)]
      rfl
    · have hfront : (blob.take 16).length = Algorithm.aesCbc.ivSize := by
        rw [List.length_take]
        exact Nat.min_eq_left (by omega)
      rw [if_neg hragged, if_neg (not_or.2 ⟨hshort, hragged⟩), Bytes.cut?_eq (by omega),
        Option.bind_eq_bind, Option.bind_some]
      dsimp only
      by_cases hother : iv.any (· != blob.take 16) = true
      · rw [if_pos hother, if_pos hother]
        rfl
      · simp only [hother, Bytes.field?_eq hkey, Bytes.field?_eq hfront, Option.bind_eq_bind,
          Option.bind_some]
        cases Cbc.decrypt? key (blob.take 16) (blob.drop 16) <;> rfl

theorem openSealedCarefully_eq {a : Algorithm} {key iv : Bytes} (hkey : key.length = a.keySize)
    (hiv : iv.length = a.ivSize) (cipher : Aead) (aad blob : Bytes) :
    openSealedCarefully a cipher key iv aad blob
      = some (resultOf a (cipher.open? key iv aad blob)) := by
  rw [openSealedCarefully, Aead.open?]
  by_cases hshort : blob.length < tagSize
  · rw [if_pos hshort, if_pos hshort]
    rfl
  · have hcut : blob.length - tagSize ≤ blob.length := Nat.sub_le _ _
    have htag : (blob.drop (blob.length - tagSize)).length = tagSize := by
      rw [List.length_drop]
      omega
    rw [if_neg hshort, if_neg hshort]
    simp only [Bytes.field?_eq hkey, Bytes.lengthWithout?_eq (Nat.not_lt.1 hshort),
      Bytes.cut?_eq hcut, Bytes.field?_eq hiv, Bytes.field?_eq htag, Option.bind_eq_bind,
      Option.bind_some]
    split <;> rfl

/-! ## Shapes of requests -/

/-- What `checkRequest` looks at. -/
structure Shape where
  keyLength : Nat
  ivLength : Option Nat
  aadLength : Option Nat

namespace Shape

/-- The shape of a request. -/
def of (key : Bytes) (iv aad : Option Bytes) : Shape :=
  ⟨key.length, iv.map List.length, aad.map List.length⟩

/-- What is wrong with a shape, if something is. -/
def refusal? (shape : Shape) (a : Algorithm) : Option Error :=
  if shape.keyLength ≠ a.keySize then
    some (.invalidKeySize a.name a.keySize shape.keyLength)
  else
    match shape.ivLength.filter (· ≠ a.ivSize), shape.aadLength with
    | some n, _ => some (.invalidIvSize a.name a.ivSize n)
    | none, some n =>
      if a.isAuthenticated then none
      else some (.invalidParameter "aad" ("no associated data for " ++ a.name)
        (toString n ++ " bytes"))
    | none, none => none

/-- The error of a decryption that fails. -/
def failure (shape : Shape) (a : Algorithm) : Error :=
  (shape.refusal? a).getD (.decryptionFailed a.name)

end Shape

private theorem checkAssociated_eq (a : Algorithm) (aad : Option Bytes) :
    checkRequest.checkAssociated a aad
      = match (Shape.mk a.keySize none (aad.map List.length)).refusal? a with
        | some e => .error e
        | none => .ok () := by
  unfold Shape.refusal?
  rw [if_neg (Decidable.not_not.2 rfl)]
  rcases aad with _ | data
  · rfl
  · show (if a.isAuthenticated = true then _ else _) = _
    cases a.isAuthenticated <;> rfl

/-- The checks of a request, `checkRequest`, see its `Shape`. -/
theorem checkRequest_eq (a : Algorithm) (key : Bytes) (iv aad : Option Bytes) :
    checkRequest a key iv aad
      = match (Shape.of key iv aad).refusal? a with
        | some e => .error e
        | none => .ok () := by
  unfold checkRequest Shape.refusal? Shape.of
  by_cases hkey : key.length ≠ a.keySize
  · rw [if_pos hkey, if_pos hkey]
  · rw [if_neg hkey, if_neg hkey]
    have hassociated := checkAssociated_eq a aad
    unfold Shape.refusal? at hassociated
    rw [if_neg (Decidable.not_not.2 rfl)] at hassociated
    rcases iv with _ | v
    · exact hassociated
    · dsimp only [Option.map_some, Option.filter_some]
      by_cases hiv : v.length ≠ a.ivSize
      · rw [if_pos hiv, if_pos (decide_eq_true hiv)]
      · rw [if_neg hiv, if_neg (by simpa using hiv)]
        exact hassociated

/-- The lengths of a request that `checkRequest` does not refuse. -/
private theorem lengths_of_checkRequest {a : Algorithm} {key : Bytes} {iv aad : Option Bytes}
    (h : checkRequest a key iv aad = .ok ()) :
    key.length = a.keySize ∧ ∀ v, iv = some v → v.length = a.ivSize := by
  unfold checkRequest at h
  split at h
  · cases h
  · rename_i hkey
    refine ⟨Decidable.of_not_not hkey, ?_⟩
    rintro v rfl
    dsimp only at h
    split at h
    · cases h
    · rename_i hiv
      exact Decidable.of_not_not hiv

theorem decryptCarefully_eq (a : Algorithm) (key : Bytes) (iv : Option Bytes) (blob : Bytes)
    (aad : Option Bytes) :
    decryptCarefully a key iv blob aad = some (decrypt a key iv blob aad) := by
  rcases hcheck : checkRequest a key iv aad with e | _
  · unfold decryptCarefully decrypt
    rw [hcheck]
  · obtain ⟨hkey, hiv⟩ := lengths_of_checkRequest hcheck
    rw [decrypt_eq_resultOf hcheck]
    unfold decryptCarefully openBlob?
    rw [hcheck]
    rcases haead : a.aead? with _ | cipher
    · obtain rfl : a = .aesCbc := by
        cases a
        · rfl
        all_goals cases haead
      exact openChainedCarefully_eq hkey iv blob
    · rcases iv with _ | v
      · dsimp only
        rw [openSealed?]
        by_cases hshort : blob.length < a.ivSize
        · rw [if_pos hshort, if_pos hshort]
          rfl
        · have hfront : (blob.take a.ivSize).length = a.ivSize := by
            rw [List.length_take]
            exact Nat.min_eq_left (Nat.not_lt.1 hshort)
          rw [if_neg hshort, if_neg hshort, Bytes.cut?_eq (Nat.not_lt.1 hshort)]
          exact openSealedCarefully_eq hkey hfront cipher (aad.getD []) (blob.drop a.ivSize)
      · exact openSealedCarefully_eq hkey (hiv v rfl) cipher (aad.getD []) blob

/-! ## What is wrong with a blob -/

/-- What can be wrong with a blob of the chaining mode, `aesCbc`. -/
inductive FlawedChain (key : Bytes) (iv : Option Bytes) (blob : Bytes) : Prop
  /-- There is no room for a vector and a block. -/
  | short (h : blob.length < 32)
  /-- It does not end with a whole block. -/
  | ragged (h : blob.length % 16 ≠ 0)
  /-- It begins with another vector than the given one. -/
  | otherVector (v : Bytes) (hgiven : iv = some v) (h : v ≠ blob.take 16)
  /-- No message is filled up and chained to these blocks. -/
  | filling (h : ∀ message, blob.drop 16 ≠ Cbc.encrypt key (blob.take 16) message)

/-- What can be wrong with a ciphertext and its tag. -/
inductive FlawedSeal (cipher : Aead) (key iv aad blob : Bytes) : Prop
  /-- There is no room for a tag. -/
  | short (h : blob.length < tagSize)
  /-- The tag is that of another ciphertext, key, vector or associated data. -/
  | tag (h : blob.drop (blob.length - tagSize)
      ≠ cipher.tag key iv aad (blob.take (blob.length - tagSize)))

/-- A blob that cannot be read: a `FlawedChain` or a `FlawedSeal`. -/
def Flawed (a : Algorithm) (key : Bytes) (iv : Option Bytes) (blob : Bytes) (aad : Option Bytes) :
    Prop :=
  match a.aead?, iv with
  | none, iv => FlawedChain key iv blob
  | some cipher, some iv => FlawedSeal cipher key iv (aad.getD []) blob
  | some cipher, none =>
    blob.length < a.ivSize
      ∨ FlawedSeal cipher key (blob.take a.ivSize) (aad.getD []) (blob.drop a.ivSize)

theorem any_bne_eq_true_iff (iv : Option Bytes) (front : Bytes) :
    iv.any (· != front) = true ↔ ∃ v, iv = some v ∧ v ≠ front := by
  cases iv <;> simp

private theorem openChained?_eq_none_iff (key : Bytes) (iv : Option Bytes) (blob : Bytes) :
    openChained? key iv blob = none ↔ FlawedChain key iv blob := by
  rw [openChained?]
  by_cases hshape : blob.length < 32 ∨ (blob.length - 16) % 16 ≠ 0
  · rw [if_pos hshape]
    exact iff_of_true rfl (hshape.elim .short fun h => .ragged (by omega))
  · have hbody : (blob.drop 16).length % 16 = 0 := by
      rw [List.length_drop]
      omega
    rw [if_neg hshape]
    by_cases hother : iv.any (· != blob.take 16) = true
    · obtain ⟨v, hgiven, hv⟩ := (any_bne_eq_true_iff iv _).1 hother
      rw [if_pos hother]
      exact iff_of_true rfl (.otherVector v hgiven hv)
    · rw [if_neg hother, Option.eq_none_iff_forall_ne_some]
      constructor
      · exact fun h => .filling fun message hm =>
          h message ((Cbc.decrypt?_eq_some_iff hbody key _ message).2 hm)
      · intro hflawed message hm
        cases hflawed with
        | short h => exact hshape (.inl h)
        | ragged h => exact hshape (.inr (by omega))
        | otherVector v hgiven hv => exact hother ((any_bne_eq_true_iff iv _).2 ⟨v, hgiven, hv⟩)
        | filling h => exact h message ((Cbc.decrypt?_eq_some_iff hbody key _ message).1 hm)

theorem Aead.open?_eq_none_iff (cipher : Aead) (key iv aad blob : Bytes) :
    cipher.open? key iv aad blob = none ↔ FlawedSeal cipher key iv aad blob := by
  rw [Aead.open?]
  split
  · rename_i hshort
    exact iff_of_true rfl (.short hshort)
  · rename_i hshort
    dsimp only
    split
    · rename_i htag
      exact iff_of_false (by simp) fun h => h.casesOn hshort fun h => h htag
    · rename_i htag
      exact iff_of_true rfl (.tag htag)

private theorem openBlob?_eq_none_iff (a : Algorithm) (key : Bytes) (iv : Option Bytes)
    (blob : Bytes) (aad : Option Bytes) :
    openBlob? a key iv blob aad = none ↔ Flawed a key iv blob aad := by
  unfold openBlob? Flawed
  rcases a.aead? with _ | cipher
  · exact openChained?_eq_none_iff key iv blob
  · rcases iv with _ | v
    · dsimp only
      rw [openSealed?]
      split
      · rename_i hshort
        exact iff_of_true rfl (.inl hshort)
      · rename_i hshort
        rw [or_iff_right hshort]
        exact cipher.open?_eq_none_iff key _ (aad.getD []) _
    · exact cipher.open?_eq_none_iff key v (aad.getD []) blob

/-- The result of `decrypt` is an error on a shape that is refused and on a blob that is `Flawed`,
and it is the `failure` of the shape. -/
theorem decrypt_eq_error_iff (a : Algorithm) (key : Bytes) (iv : Option Bytes) (blob : Bytes)
    (aad : Option Bytes) (e : Error) :
    decrypt a key iv blob aad = .error e
      ↔ e = (Shape.of key iv aad).failure a
        ∧ ((∃ refusal, (Shape.of key iv aad).refusal? a = some refusal)
          ∨ Flawed a key iv blob aad) := by
  rw [decrypt, checkRequest_eq, Shape.failure]
  rcases hrefusal : (Shape.of key iv aad).refusal? a with _ | refusal
  · rw [← openBlob?_eq_none_iff]
    rcases openBlob? a key iv blob aad with _ | plaintext
    · simp [eq_comm]
    · simp
  · simp [eq_comm]

/-- Decryption gives a result or an error for all arguments, and no step of it is out of range. The
errors come from the shape of the request: `invalidKeySize`, else `invalidIvSize`, else
`invalidParameter`, and the one error `decryptionFailed` for whatever else there is. So two
decryptions of one shape that fail, fail alike. -/
theorem decryption_failures_alike (a : Algorithm) (key : Bytes) (iv : Option Bytes) (blob : Bytes)
    (aad : Option Bytes) :
    decryptCarefully a key iv blob aad = some (decrypt a key iv blob aad)
      ∧ (∀ e, decrypt a key iv blob aad = .error e
        ↔ e = (Shape.of key iv aad).failure a
          ∧ ((∃ refusal, (Shape.of key iv aad).refusal? a = some refusal)
            ∨ Flawed a key iv blob aad))
      ∧ ∀ (key' : Bytes) (iv' : Option Bytes) (blob' : Bytes) (aad' : Option Bytes) (e e' : Error),
        Shape.of key iv aad = Shape.of key' iv' aad' →
        decrypt a key iv blob aad = .error e → decrypt a key' iv' blob' aad' = .error e' →
          e = e' := by
  refine ⟨decryptCarefully_eq a key iv blob aad, decrypt_eq_error_iff a key iv blob aad, ?_⟩
  intro key' iv' blob' aad' e e' hshape h h'
  obtain ⟨he, -⟩ := (decrypt_eq_error_iff a key iv blob aad e).1 h
  obtain ⟨he', -⟩ := (decrypt_eq_error_iff a key' iv' blob' aad' e').1 h'
  rw [he, he', hshape]

end Cipher

end Strongbox
