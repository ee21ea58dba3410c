import Strongbox.Proofs.Json.RoundTrip
/-!
# Objects with members left out

An object can be gone through member by member: each is dropped, changed or left as it is. Leaving
out the members under some names is the case where none is changed. A record has the fields that
are left of its members, under the names that these had.

## Main results

* `fields?_sift`: the fields of a record that was gone through.
* `orDefault_eq_some`: a field that may have been left out is read as the value or the default.
-/

namespace Strongbox.Json

variable {left : String → Json → Option Json} {members : List (String × Json)}

/-- What is `left` of a member, going by its name. A member whose key is no text stays as it is. -/
def siftMember (left : String → Json → Option Json) (member : Bytes × Json) :
    Option (Bytes × Json) :=
  match text? member.1 with
  | some name => (left name member.2).map fun value => (member.1, value)
  | none => some member

/-- The object with what is `left` of each of its members. -/
def sift (left : String → Json → Option Json) : Json → Json
  | .object members => .object (members.filterMap (siftMember left))
  | value => value

/-- The object without its members under the `omitted` names. -/
def without (omitted : String → Bool) (value : Json) : Json :=
  value.sift fun name member => if omitted name then none else some member

/-- Where everything is left, nothing changes. -/
theorem sift_eq_self (hleft : ∀ name value, left name value = some value) (value : Json) :
    value.sift left = value := by
  cases value with
  | object members =>
    have hsame : siftMember left = some := by
      funext m
      rw [siftMember]
      split
      · rw [hleft]
        rfl
      · rfl
    rw [sift, hsame, List.filterMap_some]
  | null | bool | number | string | array => rfl

theorem isWritten_sift {value : Json} (hleft : ∀ name part part', left name part = some part' →
    IsWritten part → IsWritten part') (h : IsWritten value) : IsWritten (value.sift left) := by
  cases h with
  | null => exact .null
  | bool value => exact .bool value
  | number hnumber => exact .number hnumber
  | string hraw => exact .string hraw
  | array hitems => exact .array hitems
  | @object members hkeys hvalues =>
    have hparts : ∀ m ∈ members.filterMap (siftMember left), IsRaw m.1 ∧ IsWritten m.2 := by
      intro m hm
      obtain ⟨original, horiginal, heq⟩ := List.mem_filterMap.1 hm
      rw [siftMember] at heq
      split at heq
      · obtain ⟨part, hpart, rfl⟩ := Option.map_eq_some_iff.1 heq
        exact ⟨hkeys original horiginal, hleft _ _ _ hpart (hvalues original horiginal)⟩
      · cases heq
        exact ⟨hkeys m horiginal, hvalues m horiginal⟩
    exact .object (fun m hm => (hparts m hm).1) fun m hm => (hparts m hm).2

theorem isWritten_without {value : Json} (omitted : String → Bool) (h : IsWritten value) :
    IsWritten (value.without omitted) := by
  refine isWritten_sift (fun name part part' heq hpart => ?_) h
  rw [Option.ite_none_left_eq_some] at heq
  obtain ⟨-, heq⟩ := heq
  cases heq
  exact hpart

/-! ## Fields -/

/-- What is `left` of the members of a `record`. -/
def siftFields (left : String → Json → Option Json) (members : List (String × Json)) :
    List (String × Json) :=
  members.filterMap fun m => (left m.1 m.2).map fun value => (m.1, value)

private theorem sift_record : (record members).sift left = record (siftFields left members) := by
  rw [record, record, sift, siftFields, List.filterMap_map, List.map_filterMap]
  congr 2
  funext m
  simp only [Function.comp_apply, siftMember, text?_escape, Option.map_map]
  rfl

theorem siftFields_cons (m : String × Json) :
    siftFields left (m :: members)
      = ((left m.1 m.2).map fun value => (m.1, value)).toList ++ siftFields left members := by
  rw [siftFields, List.filterMap_cons]
  cases left m.1 m.2 <;> rfl

private theorem names_siftFields_sublist :
    ((siftFields left members).map (·.1)).Sublist (members.map (·.1)) := by
  induction members with
  | nil => exact .slnil
  | cons m members ih =>
    rw [siftFields_cons]
    cases left m.1 m.2 with
    | none => exact ih.cons _
    | some value => exact ih.cons_cons _

/-- Under a name there is what is left of the member under it. -/
private theorem find?_siftFields (h : (members.map (·.1)).Nodup) (name : String) :
    ((siftFields left members).find? fun m => m.1 == name).map (·.2)
      = ((members.find? fun m => m.1 == name).map (·.2)).bind (left name) := by
  induction members with
  | nil => rfl
  | cons m members ih =>
    obtain ⟨hmember, hmembers⟩ := List.nodup_cons.1 h
    have hrest := ih hmembers
    rw [siftFields_cons, List.find?_append, List.find?_cons]
    by_cases hname : (m.1 == name) = true
    · -- The other members have other names, so nothing is found where this one is dropped.
      have hnone : (members.find? fun other => other.1 == name) = none :=
        List.find?_eq_none.2 (not_beq_of_notMem (beq_iff_eq.1 hname ▸ hmember))
      rw [hnone] at hrest
      rw [← beq_iff_eq.1 hname] at hrest ⊢
      cases hleft : left m.1 m.2 with
      | none =>
        rw [Option.map_none, Option.toList_none, List.find?_nil, Option.none_or, hrest,
          beq_self_eq_true]
        exact hleft.symm
      | some value => simp [hleft]
    · cases left m.1 m.2 with
      | none => simpa [hname] using hrest
      | some value => simpa [hname] using hrest

/-- The fields of a `record` are those that are left of its members. -/
theorem fields?_sift (h : (members.map (·.1)).Nodup) (names : List String) :
    ((record members).sift left).fields? names
      = some (names.map fun name =>
          ((members.find? fun m => m.1 == name).map (·.2)).bind (left name)) := by
  rw [sift_record, fields?_record (names_siftFields_sublist.nodup h)]
  simp only [find?_siftFields h]

/-- A field that `orDefault` reads as a value, unless it was left out. -/
theorem orDefault_eq_some {α : Type} {read : Json → Option α} {default a : α} {value : Json}
    (omitted : Bool) (hread : read value = some a) :
    orDefault default read (if omitted then none else some value)
      = some (if omitted then default else a) := by
  cases omitted with
  | true => rfl
  | false => exact hread

end Strongbox.Json
