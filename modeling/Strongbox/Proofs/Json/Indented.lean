import Strongbox.Proofs.Json.RoundTrip
/-!
# The indented form is read back

The indented form has the lexemes of the compact form and blanks between them. The scanner passes
over blanks wherever no lexeme is open, and what an indented value is followed by, a comma or a new
line, ends a number.

## Main results

* `scansIndented_of_isWritten`: the lexemes of the indented form.
* `read?_pretty`: a written value is read back from it.
-/

namespace Strongbox.Json

variable {bytes rest : Bytes} {ts : List Token} {depth : Nat}

/-! ## Blanks -/

/-- A blank between lexemes, in the sense of `isGap`. -/
theorem Scans.gap {b : UInt8} (hgap : isGap b = true) (h : Scans rest ts) :
    Scans (b :: rest) ts := by
  intro found
  have hnext : Scan.gap.next? b = some (.gap, []) := by rw [Scan.next?, Scan.begin?, if_pos hgap]
  rw [scan, hnext]
  exact h found

private theorem Scans.gaps (hgaps : ∀ b ∈ bytes, isGap b = true) (h : Scans rest ts) :
    Scans (bytes ++ rest) ts := by
  induction bytes with
  | nil => exact h
  | cons b bytes ih =>
    exact .gap (hgaps b List.mem_cons_self) (ih fun b hb => hgaps b (List.mem_cons_of_mem _ hb))

theorem Scans.newLine (depth : Nat) (h : Scans rest ts) : Scans (newLine depth ++ rest) ts := by
  refine .gaps (fun b hb => ?_) h
  rcases List.mem_cons.1 hb with rfl | hspace
  · rfl
  · rw [List.eq_of_mem_replicate hspace]
    rfl

theorem ends_newLine (depth : Nat) (rest : Bytes) : Ends (newLine depth ++ rest) := by
  intro part
  cases part <;> decide

/-! ## Values -/

/-- The lexemes of a value, indented to any depth, are found in front of anything that does not
continue it. -/
def ScansIndented (value : Json) : Prop :=
  ∀ depth rest ts, Ends rest → Scans rest ts →
    Scans (indented depth value ++ rest) (value.tokens ++ ts)

private theorem scans_indentedItems {item : Json} {items : List Json} (hitem : ScansIndented item)
    (hitems : ∀ item ∈ items, ScansIndented item) (hends : Ends rest) (h : Scans rest ts) :
    Scans (indented depth item ++ (indentedItems depth items ++ rest))
      (itemTokens (item :: items) ++ ts) := by
  induction items generalizing item with
  | nil =>
    rw [indentedItems, itemTokens]
    exact hitem depth rest ts hends h
  | cons next items ih =>
    have hrest := ih (hitems next List.mem_cons_self)
      fun item h => hitems item (List.mem_cons_of_mem _ h)
    rw [indentedItems, itemTokens, List.append_assoc, List.append_assoc, List.append_assoc,
      List.append_assoc]
    · exact hitem depth _ _ (ends_comma _) (.mark rfl (.newLine depth hrest))
    · exact List.cons_ne_nil _ _

theorem scans_indentedMember {member : Bytes × Json} (hkey : IsRaw member.1)
    (hvalue : ScansIndented member.2) (hends : Ends rest) (h : Scans rest ts) :
    Scans (indentedMember depth member ++ rest) (tokensOfMember member ++ ts) := by
  rw [indentedMember, tokensOfMember, List.append_assoc, List.append_assoc]
  exact .string hkey (.mark rfl (.gap rfl (hvalue depth rest ts hends h)))

private theorem scans_indentedMembers {member : Bytes × Json} {members : List (Bytes × Json)}
    (hkey : IsRaw member.1) (hkeys : ∀ m ∈ members, IsRaw m.1) (hvalue : ScansIndented member.2)
    (hvalues : ∀ m ∈ members, ScansIndented m.2) (hends : Ends rest) (h : Scans rest ts) :
    Scans (indentedMember depth member ++ (indentedMembers depth members ++ rest))
      (memberTokens (member :: members) ++ ts) := by
  induction members generalizing member with
  | nil =>
    rw [indentedMembers, memberTokens]
    exact scans_indentedMember hkey hvalue hends h
  | cons next members ih =>
    have hrest := ih (hkeys next List.mem_cons_self)
      (fun m h => hkeys m (List.mem_cons_of_mem _ h)) (hvalues next List.mem_cons_self)
      fun m h => hvalues m (List.mem_cons_of_mem _ h)
    rw [indentedMembers, memberTokens, List.append_assoc, List.append_assoc, List.append_assoc,
      List.append_assoc]
    · exact scans_indentedMember hkey hvalue (ends_comma _) (.mark rfl (.newLine depth hrest))
    · exact List.cons_ne_nil _ _

theorem scansIndented_of_isWritten {value : Json} (h : IsWritten value) : ScansIndented value := by
  induction h with
  | null =>
    intro depth rest ts _ h
    exact h.cons fun _ => rfl
  | bool value =>
    intro depth rest ts _ h
    cases value <;> exact h.cons fun _ => rfl
  | number hnumber =>
    intro depth rest ts hends h
    exact .number hnumber hends h
  | string hraw =>
    intro depth rest ts _ h
    exact .string hraw h
  | @array items _ ih =>
    intro depth rest ts _ h
    cases items with
    | nil => exact .mark rfl (.mark rfl h)
    | cons item items =>
      simp only [indented, tokens, List.append_assoc, List.cons_append, List.nil_append]
      refine .mark rfl (.newLine (depth + 1) ?_)
      exact scans_indentedItems (ih item List.mem_cons_self)
        (fun item h => ih item (List.mem_cons_of_mem _ h)) (ends_newLine depth _)
        (.newLine depth (.mark rfl h))
  | @object members hkeys _ ih =>
    intro depth rest ts _ h
    cases members with
    | nil => exact .mark rfl (.mark rfl h)
    | cons member members =>
      simp only [indented, tokens, List.append_assoc, List.cons_append, List.nil_append]
      refine .mark rfl (.newLine (depth + 1) ?_)
      exact scans_indentedMembers (hkeys member List.mem_cons_self)
        (fun m h => hkeys m (List.mem_cons_of_mem _ h)) (ih member List.mem_cons_self)
        (fun m h => ih m (List.mem_cons_of_mem _ h)) (ends_newLine depth _)
        (.newLine depth (.mark rfl h))

/-- A written value is read back from its indented form, `pretty`. -/
theorem read?_pretty {value : Json} (h : IsWritten value) : read? value.pretty = some value := by
  have hscans := scansIndented_of_isWritten h 0 [] [] trivial scans_nil
  rw [List.append_nil, List.append_nil] at hscans
  rw [read?, pretty, tokens?_of_scans hscans, Option.bind_some, ofTokens?_tokens h]

end Strongbox.Json
