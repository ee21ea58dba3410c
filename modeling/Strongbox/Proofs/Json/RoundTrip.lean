import Strongbox.Json.Reader
import Strongbox.Json.Record
import Strongbox.Json.Writer
/-!
# What is written is read back

A value is written as its lexemes, one after another. The scanner finds them again: a string ends at
its closing quote, since escapes keep quotes and backslashes apart, and a number ends where a mark
follows. The machine that puts lexemes together to values then builds the same value.

Both are said of a value with anything after it, so that they pass from the parts of a container to
the container.

## Main results

* `scansCompact_of_isWritten`: the lexemes of what is written.
* `builds_of_isWritten`: the value of these lexemes.
* `read?_compact`: a written value is read back.
-/

namespace Strongbox.Json

/-! ## Lexemes -/

mutual

/-- The lexemes of a value. -/
def tokens : Json → List Token
  | .null => [.null]
  | .bool value => [.bool value]
  | .number lexeme => [.number lexeme]
  | .string raw => [.string raw]
  | .array items => .openArray :: (itemTokens items ++ [.closeArray])
  | .object members => .openObject :: (memberTokens members ++ [.closeObject])

/-- The lexemes of the items of an array. -/
def itemTokens : List Json → List Token
  | [] => []
  | [item] => item.tokens
  | item :: items => item.tokens ++ .comma :: itemTokens items

/-- The lexemes of the members of an object. -/
def memberTokens : List (Bytes × Json) → List Token
  | [] => []
  | [member] => tokensOfMember member
  | member :: members => tokensOfMember member ++ .comma :: memberTokens members

/-- The lexemes of one member. -/
def tokensOfMember : Bytes × Json → List Token
  | (key, value) => .string key :: .colon :: value.tokens

end

/-- The scanner finds the `tokens` in the `bytes`, whatever it has found before. -/
def Scans (bytes : Bytes) (tokens : List Token) : Prop :=
  ∀ found, (do
      let (s, found) ← scan .gap found bytes
      let last ← s.finish?
      some (found.reverse ++ last)) = some (found.reverse ++ tokens)

theorem tokens?_of_scans {bytes : Bytes} {tokens : List Token} (h : Scans bytes tokens) :
    tokens? bytes = some tokens := h []

variable {bytes raw rest lexeme : Bytes} {ts : List Token}

theorem scans_nil : Scans [] [] := fun _ => rfl

/-- A lexeme that is found before the rest. -/
theorem Scans.cons {token : Token}
    (hscan : ∀ found, scan .gap found bytes = scan .gap (token :: found) rest)
    (h : Scans rest ts) : Scans bytes (token :: ts) := by
  intro found
  rw [hscan, h (token :: found), List.reverse_cons, List.append_assoc, List.singleton_append]

/-- A byte that is a lexeme of its own. -/
theorem Scans.mark {b : UInt8} {token : Token}
    (hmark : Scan.begin? b = some (.gap, [token])) (h : Scans rest ts) :
    Scans (b :: rest) (token :: ts) := by
  refine h.cons fun found => ?_
  rw [scan, Scan.next?, hmark]
  rfl

/-! ### Strings -/

/-- The scanner takes the bytes `raw` for the inside of a string. -/
def IsRaw (raw : Bytes) : Prop :=
  ∀ soFar found rest, scan (.text soFar) found (raw ++ rest)
    = scan (.text (raw.reverse ++ soFar)) found rest

private theorem isRaw_nil : IsRaw [] := fun _ _ _ => rfl

theorem IsRaw.append {a b : Bytes} (ha : IsRaw a) (hb : IsRaw b) : IsRaw (a ++ b) := by
  intro soFar found rest
  rw [List.append_assoc, ha, hb, List.reverse_append, List.append_assoc]

theorem isSome_value?_digit {n : Nat} (h : n < 16) :
    (Text.Hex.value? (ascii (Text.Hex.digit n))).isSome = true := by
  have hall : ∀ i : Fin 16, (Text.Hex.value? (ascii (Text.Hex.digit i))).isSome = true := by decide
  exact hall ⟨n, h⟩

private theorem isRaw_hexPair (b : UInt8) :
    IsRaw ([ascii '\\', ascii 'u', ascii '0', ascii '0'] ++ hexPair b) := by
  intro soFar found rest
  have hhigh := isSome_value?_digit (by have := b.toNat_lt; omega : b.toNat / 16 < 16)
  have hlow := isSome_value?_digit (by omega : b.toNat % 16 < 16)
  have hzero : (Text.Hex.value? (ascii '0')).isSome = true := by decide
  simp [hexPair, scan, Scan.next?, hhigh, hlow, hzero, show ¬ ascii '\\' = ascii '"' by decide]

/-- What stands for a byte of a text (`escapeByte`) neither ends the string nor leaves an escape
open. -/
private theorem isRaw_escapeByte (b : UInt8) : IsRaw (escapeByte b) := by
  unfold escapeByte
  iterate 7
    split
    · exact fun _ _ _ => rfl
  split
  · exact isRaw_hexPair b
  · rename_i hquote hbackslash _ _ _ _ _ hcontrol
    intro soFar found rest
    simp [scan, Scan.next?, hquote, hbackslash, hcontrol]

theorem isRaw_escape (text : String) : IsRaw (escape text) := by
  rw [escape]
  induction Bytes.ofText text with
  | nil => exact isRaw_nil
  | cons b bytes ih =>
    rw [List.flatMap_cons]
    exact (isRaw_escapeByte b).append ih

theorem Scans.string (hraw : IsRaw raw) (h : Scans rest ts) :
    Scans (inQuotes raw ++ rest) (.string raw :: ts) := by
  refine h.cons fun found => ?_
  rw [inQuotes, List.append_assoc, List.append_assoc]
  show scan (.text []) found (raw ++ (ascii '"' :: rest)) = _
  rw [hraw, scan, Scan.next?, if_pos rfl, List.append_nil, List.reverse_reverse]
  rfl

/-! ### Numbers and words -/

/-- Nothing that could belong to a number comes next. -/
def Ends : Bytes → Prop
  | [] => True
  | b :: _ => ∀ part : NumberPart, part.next? b = none

/-- The scanner takes the bytes `lexeme` for a number. -/
def IsNumber (lexeme : Bytes) : Prop :=
  ∀ found rest, ∃ part : NumberPart, part.isComplete = true
    ∧ scan .gap found (lexeme ++ rest) = scan (.number part lexeme.reverse) found rest

theorem Scans.number (hnumber : IsNumber lexeme) (hends : Ends rest) (h : Scans rest ts) :
    Scans (lexeme ++ rest) (.number lexeme :: ts) := by
  intro found
  obtain ⟨part, hcomplete, hscan⟩ := hnumber found rest
  rw [hscan, List.append_cons, ← List.reverse_cons, ← h (.number lexeme :: found)]
  cases rest with
  | nil => simp [scan, Scan.finish?, hcomplete]
  | cons b rest =>
    have hnext : (Scan.number part lexeme.reverse).next? b
        = (Scan.begin? b).map fun (s, tokens) => (s, .number lexeme :: tokens) := by
      rw [Scan.next?, hends part]
      simp only [hcomplete, if_true, List.reverse_reverse]
    rw [scan, scan, hnext, Scan.next?]
    cases Scan.begin? b with
    | none => rfl
    | some r => simp

private theorem scan_whole {digits : Bytes} (hdigits : ∀ b ∈ digits, isDigit b = true)
    (soFar : Bytes) (found : List Token) (rest : Bytes) :
    scan (.number .whole soFar) found (digits ++ rest)
      = scan (.number .whole (digits.reverse ++ soFar)) found rest := by
  induction digits generalizing soFar with
  | nil => rfl
  | cons b digits ih =>
    have hb := hdigits b List.mem_cons_self
    have hnext : (Scan.number .whole soFar).next? b = some (.number .whole (b :: soFar), []) := by
      simp [Scan.next?, NumberPart.next?, hb]
    rw [List.cons_append, scan, hnext]
    show scan (.number .whole (b :: soFar)) found (digits ++ rest) = _
    rw [ih (fun b hb => hdigits b (List.mem_cons_of_mem _ hb)), List.reverse_cons,
      List.append_assoc, List.singleton_append]

private theorem begin?_digit {b : UInt8} (hdigit : isDigit b = true) (hzero : b ≠ ascii '0') :
    Scan.begin? b = some (.number .whole [b], []) := by
  have hall : ∀ i : Fin 9, Scan.begin? (UInt8.ofNat (49 + i))
      = some (.number .whole [UInt8.ofNat (49 + i)], []) := by decide
  obtain ⟨h0, h9⟩ : 48 ≤ b.toNat ∧ b.toNat ≤ 57 := by
    simp only [isDigit, Bool.and_eq_true, decide_eq_true_eq, UInt8.le_iff_toNat_le] at hdigit
    exact hdigit
  have hne : b.toNat ≠ 48 := fun h => hzero (UInt8.toNat_inj.1 h)
  have hb : UInt8.ofNat (49 + (b.toNat - 49)) = b := by
    rw [show 49 + (b.toNat - 49) = b.toNat by omega, UInt8.ofNat_toNat]
  have hcase := hall ⟨b.toNat - 49, by omega⟩
  rwa [hb] at hcase

/-- Only the number zero begins with a zero. -/
private theorem exists_decimal {n : Nat} (hn : 0 < n) :
    ∃ b digits, decimal n = b :: digits ∧ b ≠ ascii '0' := by
  induction n using Nat.strongRecOn with
  | ind n ih =>
    rw [decimal, Nat.toDigits_eq_if (by decide)]
    split
    · rename_i hlt
      have hall : ∀ i : Fin 10, 0 < i.val → ascii (Nat.digitChar i) ≠ ascii '0' := by decide
      exact ⟨_, [], rfl, hall ⟨n, hlt⟩ hn⟩
    · obtain ⟨b, digits, hdigits, hb⟩ := ih (n / 10) (by omega) (by omega)
      rw [decimal] at hdigits
      rw [List.map_append, hdigits]
      exact ⟨b, _, rfl, hb⟩

private theorem isNumber_decimal (n : Nat) : IsNumber (decimal n) := by
  intro found rest
  by_cases hn : n = 0
  · subst hn
    exact ⟨.zero, rfl, rfl⟩
  · obtain ⟨b, digits, hdecimal, hb⟩ := exists_decimal (Nat.pos_of_ne_zero hn)
    have hall : ∀ c ∈ b :: digits, isDigit c = true := by
      rw [← hdecimal]
      exact fun c hc => isDigit_of_mem_decimal hc
    refine ⟨.whole, rfl, ?_⟩
    rw [hdecimal, List.cons_append, scan, Scan.next?,
      begin?_digit (hall b List.mem_cons_self) hb]
    show scan (.number .whole [b]) found (digits ++ rest) = _
    rw [scan_whole fun c hc => hall c (List.mem_cons_of_mem _ hc), List.reverse_cons]

/-! ### Values -/

/-- A value whose parts are scanned as what they are, see `IsRaw` and `IsNumber`. -/
inductive IsWritten : Json → Prop where
  | null : IsWritten .null
  | bool (value : Bool) : IsWritten (.bool value)
  | number {lexeme : Bytes} : IsNumber lexeme → IsWritten (.number lexeme)
  | string {raw : Bytes} : IsRaw raw → IsWritten (.string raw)
  | array {items : List Json} : (∀ item ∈ items, IsWritten item) → IsWritten (.array items)
  | object {members : List (Bytes × Json)} : (∀ m ∈ members, IsRaw m.1) →
    (∀ m ∈ members, IsWritten m.2) → IsWritten (.object members)

theorem ends_comma (rest : Bytes) : Ends (ascii ',' :: rest) := by
  intro part
  cases part <;> decide

private theorem ends_closeArray (rest : Bytes) : Ends (ascii ']' :: rest) := by
  intro part
  cases part <;> decide

private theorem ends_closeObject (rest : Bytes) : Ends (ascii '\x7d' :: rest) := by
  intro part
  cases part <;> decide

/-- The lexemes of a value are found in front of anything that does not continue it, which `Ends`
says. -/
def ScansCompact (value : Json) : Prop :=
  ∀ rest ts, Ends rest → Scans rest ts → Scans (value.compact ++ rest) (value.tokens ++ ts)

private theorem scans_compactItems {items : List Json} (hitems : ∀ item ∈ items, ScansCompact item)
    (hends : Ends rest) (h : Scans rest ts) :
    Scans (compactItems items ++ rest) (itemTokens items ++ ts) := by
  induction items with
  | nil =>
    rw [compactItems, itemTokens]
    exact h
  | cons item items ih =>
    have hitem := hitems item List.mem_cons_self
    have hrest := ih fun item h => hitems item (List.mem_cons_of_mem _ h)
    cases items with
    | nil =>
      rw [compactItems, itemTokens]
      exact hitem rest ts hends h
    | cons next items =>
      rw [compactItems, itemTokens, List.append_assoc, List.append_assoc, List.append_assoc]
      · exact hitem _ _ (ends_comma _) (.mark rfl hrest)
      all_goals exact List.cons_ne_nil _ _

theorem scans_compactMember {member : Bytes × Json} (hkey : IsRaw member.1)
    (hvalue : ScansCompact member.2) (hends : Ends rest) (h : Scans rest ts) :
    Scans (compactMember member ++ rest) (tokensOfMember member ++ ts) := by
  rw [compactMember, tokensOfMember, List.append_assoc, List.append_assoc]
  exact .string hkey (.mark rfl (hvalue rest ts hends h))

private theorem scans_compactMembers {members : List (Bytes × Json)}
    (hkeys : ∀ m ∈ members, IsRaw m.1)
    (hvalues : ∀ m ∈ members, ScansCompact m.2) (hends : Ends rest) (h : Scans rest ts) :
    Scans (compactMembers members ++ rest) (memberTokens members ++ ts) := by
  induction members with
  | nil =>
    rw [compactMembers, memberTokens]
    exact h
  | cons member members ih =>
    have hkey := hkeys member List.mem_cons_self
    have hvalue := hvalues member List.mem_cons_self
    have hrest := ih (fun m h => hkeys m (List.mem_cons_of_mem _ h))
      (fun m h => hvalues m (List.mem_cons_of_mem _ h))
    cases members with
    | nil =>
      rw [compactMembers, memberTokens]
      exact scans_compactMember hkey hvalue hends h
    | cons next members =>
      rw [compactMembers, memberTokens, List.append_assoc, List.append_assoc, List.append_assoc]
      · exact scans_compactMember hkey hvalue (ends_comma _) (.mark rfl hrest)
      all_goals exact List.cons_ne_nil _ _

theorem scansCompact_of_isWritten {value : Json} (h : IsWritten value) : ScansCompact value := by
  induction h with
  | null =>
    intro rest ts _ h
    exact h.cons fun _ => rfl
  | bool value =>
    intro rest ts _ h
    cases value <;> exact h.cons fun _ => rfl
  | number hnumber =>
    intro rest ts hends h
    exact .number hnumber hends h
  | string hraw =>
    intro rest ts _ h
    exact .string hraw h
  | array _ ih =>
    intro rest ts _ h
    simp only [compact, tokens, List.append_assoc, List.cons_append, List.nil_append]
    exact .mark rfl (scans_compactItems ih (ends_closeArray _) (.mark rfl h))
  | object hkeys _ ih =>
    intro rest ts _ h
    simp only [compact, tokens, List.append_assoc, List.cons_append, List.nil_append]
    exact .mark rfl (scans_compactMembers hkeys ih (ends_closeObject _) (.mark rfl h))

/-! ## From lexemes to values -/

/-- Taken one by one by `Building.next?`, the lexemes of a value bring the machine from its start to
its end. -/
def Builds (value : Json) : Prop :=
  ∀ around rest, (value.tokens ++ rest).foldlM Building.next? ⟨.value, around⟩
    = rest.foldlM Building.next? (Building.complete value around)

/-- No value begins with the end of an array. -/
private theorem exists_tokens (value : Json) :
    ∃ token tail, value.tokens = token :: tail ∧ token ≠ .closeArray := by
  cases value with
  | null | bool value | number lexeme | string raw | array items | object members =>
    rw [tokens]
    exact ⟨_, _, rfl, by simp⟩

/-- The first item of an array is read as any other. -/
private theorem foldlM_firstItem (value : Json) (around : List Frame) (rest : List Token) :
    (value.tokens ++ rest).foldlM Building.next? ⟨.firstItem, around⟩
      = (value.tokens ++ rest).foldlM Building.next? ⟨.value, .array [] :: around⟩ := by
  obtain ⟨token, tail, htokens, htoken⟩ := exists_tokens value
  rw [htokens, List.cons_append, List.foldlM_cons, List.foldlM_cons]
  congr 1
  cases token <;> first | rfl | exact absurd rfl htoken

private theorem foldlM_itemTokens {item : Json} {items : List Json} (hitem : item.Builds)
    (hitems : ∀ item ∈ items, item.Builds) (done : List Json) (around : List Frame)
    (rest : List Token) :
    (itemTokens (item :: items) ++ .closeArray :: rest).foldlM Building.next?
        ⟨.value, .array done :: around⟩
      = rest.foldlM Building.next?
        (Building.complete (.array (done.reverse ++ item :: items)) around) := by
  induction items generalizing item done with
  | nil =>
    rw [itemTokens, hitem, Building.complete, List.foldlM_cons]
    show rest.foldlM Building.next? (Building.complete (.array (item :: done).reverse) around) = _
    rw [List.reverse_cons]
  | cons next items ih =>
    rw [itemTokens, List.append_assoc, hitem, Building.complete, List.cons_append,
      List.foldlM_cons]
    · show (itemTokens (next :: items) ++ .closeArray :: rest).foldlM Building.next?
        ⟨.value, .array (item :: done) :: around⟩ = _
      rw [ih (hitems next List.mem_cons_self) fun item h => hitems item (List.mem_cons_of_mem _ h),
        List.reverse_cons, List.append_assoc, List.singleton_append]
    · exact List.cons_ne_nil _ _

theorem foldlM_tokensOfMember {member : Bytes × Json} (hvalue : member.2.Builds)
    (done : List (Bytes × Json)) (around : List Frame) (rest : List Token) :
    (tokensOfMember member ++ rest).foldlM Building.next? ⟨.key done, around⟩
      = rest.foldlM Building.next? ⟨.afterMember (member :: done), around⟩ := by
  rw [tokensOfMember, List.cons_append, List.foldlM_cons, List.cons_append]
  show (member.2.tokens ++ rest).foldlM Building.next? ⟨.value, .object done member.1 :: around⟩ = _
  rw [hvalue, Building.complete]

private theorem foldlM_memberTokens {member : Bytes × Json} {members : List (Bytes × Json)}
    (hvalue : member.2.Builds) (hvalues : ∀ m ∈ members, m.2.Builds)
    (done : List (Bytes × Json)) (around : List Frame) (rest : List Token) :
    (memberTokens (member :: members) ++ .closeObject :: rest).foldlM Building.next?
        ⟨.key done, around⟩
      = rest.foldlM Building.next?
        (Building.complete (.object (done.reverse ++ member :: members)) around) := by
  induction members generalizing member done with
  | nil =>
    rw [memberTokens, foldlM_tokensOfMember hvalue, List.foldlM_cons]
    show rest.foldlM Building.next?
      (Building.complete (.object (member :: done).reverse) around) = _
    rw [List.reverse_cons]
  | cons next members ih =>
    rw [memberTokens, List.append_assoc, foldlM_tokensOfMember hvalue, List.cons_append,
      List.foldlM_cons]
    · show (memberTokens (next :: members) ++ .closeObject :: rest).foldlM Building.next?
        ⟨.key (member :: done), around⟩ = _
      rw [ih (hvalues next List.mem_cons_self) fun m h => hvalues m (List.mem_cons_of_mem _ h),
        List.reverse_cons, List.append_assoc, List.singleton_append]
    · exact List.cons_ne_nil _ _

/-- The first key of an object is read as any other. -/
private theorem foldlM_firstKey (member : Bytes × Json) (around : List Frame) (rest : List Token) :
    (tokensOfMember member ++ rest).foldlM Building.next? ⟨.firstKey, around⟩
      = (tokensOfMember member ++ rest).foldlM Building.next? ⟨.key [], around⟩ := by
  rw [tokensOfMember]
  rfl

private theorem exists_itemTokens (item : Json) (items : List Json) :
    ∃ tail, itemTokens (item :: items) = item.tokens ++ tail := by
  cases items with
  | nil => exact ⟨[], by rw [itemTokens, List.append_nil]⟩
  | cons next items => exact ⟨_, by rw [itemTokens]; exact List.cons_ne_nil _ _⟩

private theorem exists_memberTokens (member : Bytes × Json) (members : List (Bytes × Json)) :
    ∃ tail, memberTokens (member :: members) = tokensOfMember member ++ tail := by
  cases members with
  | nil => exact ⟨[], by rw [memberTokens, List.append_nil]⟩
  | cons next members => exact ⟨_, by rw [memberTokens]; exact List.cons_ne_nil _ _⟩

theorem builds_of_isWritten {value : Json} (h : IsWritten value) : value.Builds := by
  induction h with
  | null => exact fun _ _ => rfl
  | bool value => exact fun _ _ => rfl
  | number => exact fun _ _ => rfl
  | string => exact fun _ _ => rfl
  | @array items _ ih =>
    intro around rest
    cases items with
    | nil => rw [tokens, itemTokens]; rfl
    | cons item items =>
      obtain ⟨tail, htail⟩ := exists_itemTokens item items
      have hall := foldlM_itemTokens (ih item List.mem_cons_self)
        (fun item h => ih item (List.mem_cons_of_mem _ h)) [] around rest
      rw [tokens, List.cons_append, List.append_assoc, List.foldlM_cons]
      show (itemTokens (item :: items) ++ .closeArray :: rest).foldlM Building.next?
        ⟨.firstItem, around⟩ = _
      rw [htail, List.append_assoc] at hall ⊢
      rw [foldlM_firstItem, hall, List.reverse_nil, List.nil_append]
  | @object members _ _ ih =>
    intro around rest
    cases members with
    | nil => rw [tokens, memberTokens]; rfl
    | cons member members =>
      obtain ⟨tail, htail⟩ := exists_memberTokens member members
      have hall := foldlM_memberTokens (ih member List.mem_cons_self)
        (fun m h => ih m (List.mem_cons_of_mem _ h)) [] around rest
      rw [tokens, List.cons_append, List.append_assoc, List.foldlM_cons]
      show (memberTokens (member :: members) ++ .closeObject :: rest).foldlM Building.next?
        ⟨.firstKey, around⟩ = _
      rw [htail, List.append_assoc] at hall ⊢
      rw [foldlM_firstKey, hall, List.reverse_nil, List.nil_append]

theorem ofTokens?_tokens {value : Json} (h : IsWritten value) :
    ofTokens? value.tokens = some value := by
  have hbuilds := builds_of_isWritten h [] []
  rw [List.append_nil] at hbuilds
  rw [ofTokens?, Building.start, hbuilds]
  rfl

/-! ## Round trip -/

/-- A written value is read back from its `compact` form. -/
theorem read?_compact {value : Json} (h : IsWritten value) : read? value.compact = some value := by
  have hscans := scansCompact_of_isWritten h [] [] trivial scans_nil
  rw [List.append_nil, List.append_nil] at hscans
  rw [read?, tokens?_of_scans hscans, Option.bind_some, ofTokens?_tokens h]

/-! ### Values of the library -/

@[simp] theorem isWritten_ofText (text : String) : IsWritten (ofText text) :=
  .string (isRaw_escape text)

@[simp] theorem isWritten_ofNat (n : Nat) : IsWritten (ofNat n) := .number (isNumber_decimal n)

theorem isWritten_record {members : List (String × Json)} (h : ∀ m ∈ members, IsWritten m.2) :
    IsWritten (record members) := by
  refine .object (fun m hm => ?_) fun m hm => ?_
  · obtain ⟨original, -, rfl⟩ := List.mem_map.1 hm
    exact isRaw_escape original.1
  · obtain ⟨original, horiginal, rfl⟩ := List.mem_map.1 hm
    exact h original horiginal

@[simp] theorem isWritten_ofTable (table : Table String) : IsWritten (ofTable table) := by
  refine isWritten_record fun m hm => ?_
  obtain ⟨e, -, rfl⟩ := List.mem_map.1 hm
  exact isWritten_ofText e.2

/-! ### Readings of them -/

theorem asWord32?_ofNat (w : UInt32) : (ofNat w.toNat).asWord32? = some w := by
  have hlt := w.toNat_lt
  rw [asWord32?, asNat?_ofNat (by omega), Option.map_some, UInt32.ofNat_toNat]

theorem asWord64?_ofNat (w : UInt64) : (ofNat w.toNat).asWord64? = some w := by
  have hlt := w.toNat_lt
  rw [asWord64?, asNat?_ofNat (by omega), Option.map_some, UInt64.ofNat_toNat]

theorem asBool?_bool (value : Bool) : (bool value).asBool? = some value := rfl

theorem asName?_ofText (text : String) : (ofText text).asName? = some text := asText?_ofText text

/-! ## Records and tables -/

theorem mapM_eq_some_map {α β : Type} {f : α → Option β} {g : α → β} {l : List α}
    (h : ∀ a ∈ l, f a = some (g a)) : l.mapM f = some (l.map g) := by
  induction l with
  | nil => rfl
  | cons a l ih =>
    rw [List.mapM_cons, h a List.mem_cons_self, ih fun a ha => h a (List.mem_cons_of_mem _ ha)]
    rfl

/-- No member is found under a name that none has. -/
theorem not_beq_of_notMem {members : List (String × Json)} {name : String}
    (h : name ∉ members.map (·.1)) : ∀ m ∈ members, ¬ (m.1 == name) = true :=
  fun m hm hsame => h (List.mem_map.2 ⟨m, hm, beq_iff_eq.1 hsame⟩)

/-- Where no key occurs twice, the `field?` of a name is what stands under it, if anything does. -/
private theorem field?_eq_find? {members : List (String × Json)} (h : (members.map (·.1)).Nodup)
    (name : String) :
    field? members name = some ((members.find? fun m => m.1 == name).map (·.2)) := by
  induction members with
  | nil => rfl
  | cons member members ih =>
    obtain ⟨hmember, hmembers⟩ := List.nodup_cons.1 h
    rw [field?, List.filter_cons, List.find?_cons]
    by_cases hname : (member.1 == name) = true
    · have hothers : members.filter (fun m => m.1 == name) = [] :=
        List.filter_eq_nil_iff.2 (not_beq_of_notMem (beq_iff_eq.1 hname ▸ hmember))
      rw [if_pos hname, hothers, hname]
      rfl
    · rw [if_neg hname, Bool.eq_false_iff.2 hname]
      exact ih hmembers

/-- The fields of a written `record` are those under their names. -/
theorem fields?_record {members : List (String × Json)} (h : (members.map (·.1)).Nodup)
    (names : List String) :
    (record members).fields? names
      = some (names.map fun name => (members.find? fun m => m.1 == name).map (·.2)) := by
  have hnamed : (members.map fun m => (escape m.1, m.2)).mapM namedMember? = some members := by
    rw [List.mapM_map]
    have hall := mapM_eq_some_map (f := fun m : String × Json => namedMember? (escape m.1, m.2))
      (g := id) (l := members) fun m _ => by rw [namedMember?, text?_escape]; rfl
    rwa [List.map_id] at hall
  rw [record, fields?, hnamed]
  exact mapM_eq_some_map fun name _ => field?_eq_find? h name

end Strongbox.Json

namespace Strongbox

open Json

/-- The value under a key of a list of entries that is read into a table. -/
private theorem Table.get?_foldl_insert {α : Type} {entries : List (String × α)}
    (h : entries.Pairwise fun a b => a.1 < b.1) (t : Table α) (k : String) :
    (entries.foldl (fun t e => t.insert e.1 e.2) t).get? k
      = (Table.findEntry k entries).or (t.get? k) := by
  induction entries generalizing t with
  | nil => rfl
  | cons e entries ih =>
    obtain ⟨he, hentries⟩ := List.pairwise_cons.1 h
    rw [List.foldl_cons, ih hentries, Table.get?_insert, Table.findEntry]
    by_cases hk : k = e.1
    · have hnone : Table.findEntry k entries = none :=
        Table.findEntry_eq_none_of_lt fun other hother => hk ▸ he other hother
      rw [if_pos hk, if_pos hk, hnone]
      rfl
    · rw [if_neg hk, if_neg hk]

private theorem Table.ofList_entries {α : Type} (t : Table α) : Table.ofList t.entries = t := by
  refine Table.ext_get? fun k => ?_
  rw [Table.ofList, Table.get?_foldl_insert t.ascending, Table.get?_empty, Option.or_none]
  rfl

/-- A table is read back by `asTable?` from the object that `ofTable` makes. -/
theorem Json.asTable?_ofTable (t : Table String) : (ofTable t).asTable? = some t := by
  have hmembers : ((t.entries.map fun e => (e.1, ofText e.2)).map fun m => (escape m.1, m.2)).mapM
      textMember? = some t.entries := by
    rw [List.map_map, List.mapM_map]
    have hall := mapM_eq_some_map
      (f := fun e : String × String => textMember? (escape e.1, ofText e.2))
      (g := id) (l := t.entries) fun e _ => by
        rw [textMember?, text?_escape, asText?_ofText]
        rfl
    rwa [List.map_id] at hall
  rw [ofTable, record, asTable?, hmembers, Option.map_some, Table.ofList_entries]

end Strongbox
