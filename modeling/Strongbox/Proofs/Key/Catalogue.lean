import Strongbox.Proofs.Json.RoundTrip
import Strongbox.Proofs.Key.Operation
import Strongbox.Proofs.Time.Rfc3339
/-!
# Records and listings of metadata

Metadata are read back from the record under which they are stored, whatever they are.

A listing reads one record after the other. What it comes to over data that nobody changes is said
without requests by `Catalogue.listed`.

## Main results

* `Metadata.read_write`: metadata are read back.
* `Catalogue.runs_all`: what comes of a listing.
* `Catalogue.mem_listed_iff`: which metadata are listed.
-/

namespace Strongbox.Key

open Storage (Memory)

variable {d d' : Memory} {failed : List Request}

/-! ## Records -/

theorem Metadata.isWritten_toJson (m : Metadata) : m.toJson.IsWritten :=
  Json.isWritten_record (by simp)

theorem Metadata.ofJson?_toJson (m : Metadata) : ofJson? m.toJson = some m := by
  rw [toJson, ofJson?, Json.fields?_record (by simp)]
  simp [Json.required, Json.orDefault, Json.asText?_ofText, Json.asName?_ofText,
    Json.asWord32?_ofNat, Cipher.Algorithm.ofExactName?_name, Time.Rfc3339.read?_write,
    Json.asTable?_ofTable]

/-- Metadata are read back from the record that `write` makes of them. -/
theorem Metadata.read_write (m : Metadata) : read m.write = .ok m := by
  rw [read, write, Json.read?_compact m.isWritten_toJson, Option.bind_some, m.ofJson?_toJson]

/-- What `stored?` reads after a pair was `added`. -/
theorem Catalogue.stored?_added (key : Bytes) (m : Metadata) (identifier : String) :
    stored? (Pair.added d key m) identifier
      = if identifier = m.id then .ok (some m) else stored? d identifier := by
  by_cases hid : identifier = m.id
  · rw [if_pos hid, hid, stored?_eq_some_iff]
    exact ⟨m.write, by simp [Pair.added], m.read_write⟩
  · rw [if_neg hid, stored?, stored?]
    simp [Pair.added, hid]

/-! ## The identifiers in a listing -/

/-- The identifier that is cut out of a location. -/
theorem Material.cut_eq_some_iff {start location identifier : String} :
    (if start.toList.isPrefixOf location.toList then
        some (String.ofList (location.toList.drop start.length))
      else none) = some identifier ↔ start ++ identifier = location := by
  rw [Option.ite_none_right_eq_some]
  constructor
  · rintro ⟨hstart, hrest⟩
    obtain ⟨rest, hlocation⟩ := List.isPrefixOf_iff_prefix.1 hstart
    rw [← hlocation, ← String.length_toList, List.drop_left] at hrest
    cases hrest
    rw [← String.toList_inj, String.toList_append, String.toList_ofList, hlocation]
  · rintro rfl
    rw [String.toList_append, ← String.length_toList, List.drop_left, String.ofList_toList]
    exact ⟨List.isPrefixOf_iff_prefix.2 (List.prefix_append _ _), rfl⟩

theorem Material.mem_identifiersUnder {start identifier : String} {locations : List String} :
    identifier ∈ identifiersUnder start locations ↔ start ++ identifier ∈ locations := by
  rw [identifiersUnder, List.mem_mergeSort, List.mem_filterMap]
  simp only [cut_eq_some_iff, exists_eq_right']

/-- If no location is listed twice, no identifier is found twice among `identifiersUnder` a
beginning. -/
theorem Material.nodup_identifiersUnder {start : String} {locations : List String}
    (h : locations.Nodup) : (identifiersUnder start locations).Nodup := by
  rw [identifiersUnder, (List.mergeSort_perm _ _).nodup_iff]
  refine List.Pairwise.filterMap _ (fun a b hne name hname name' hname' hsame => hne ?_) h
  rw [← cut_eq_some_iff.1 hname, ← cut_eq_some_iff.1 hname', hsame]

/-! ## Listings -/

namespace Catalogue

/-- The metadata under some identifiers, as far as there are any. -/
def listed (d : Memory) : List String → Except Error (List Metadata)
  | [] => .ok []
  | identifier :: rest => do
    match ← stored? d identifier with
    | none => listed d rest
    | some m => return m :: (← listed d rest)

theorem runs_loadAll {identifiers : List String} {outcome : Outcome (List Metadata)}
    (hrun : (loadAll identifiers).Runs d outcome d' failed) :
    outcome = Outcome.ofExcept (listed d identifiers) ∧ failed = []
      ∨ (∃ e, outcome = .error (.failed (.storage e))) ∧ failed ≠ [] := by
  induction identifiers generalizing outcome failed with
  | nil =>
    obtain ⟨rfl, -, rfl⟩ := Action.runs_pure_iff.1 hrun
    exact .inl ⟨rfl, rfl⟩
  | cons identifier rest ih =>
    rw [listed]
    rcases runs_load?_bind hrun with
      ⟨found, hfound, hnext⟩ | ⟨⟨e, he, rfl⟩, -, rfl⟩ | ⟨hstorage, -, rfl⟩
    · rw [hfound]
      cases found with
      | none => exact ih hnext
      | some m =>
        rcases Action.runs_bind_iff.1 hnext with
          ⟨ms, d₁, before, after, hrest, hend, rfl⟩ | ⟨halt, hrest, rfl⟩
        · obtain ⟨rfl, rfl, rfl⟩ := Action.runs_pure_iff.1 hend
          rcases ih hrest with ⟨hms, rfl⟩ | ⟨⟨e, he⟩, -⟩
          · rw [Outcome.ofExcept_eq_ok_iff.1 hms.symm]
            exact .inl ⟨rfl, rfl⟩
          · cases he
        · rcases ih hrest with ⟨hhalt, rfl⟩ | ⟨⟨e, he⟩, hfailed⟩
          · obtain ⟨e, rfl, hlisted⟩ := Outcome.exists_of_ofExcept_eq_error hhalt.symm
            rw [hlisted]
            exact .inl ⟨rfl, rfl⟩
          · cases he
            exact .inr ⟨⟨e, rfl⟩, hfailed⟩
    · rw [he]
      exact .inl ⟨rfl, rfl⟩
    · exact .inr ⟨hstorage, List.cons_ne_nil _ _⟩

/-- What comes of `all`: the metadata of all that have any, or an error. -/
theorem runs_all {outcome : Outcome (List Metadata)} (hrun : all.Runs d outcome d' failed) :
    d' = d ∧ ((∃ found, found.Perm d.keys ∧ outcome = Outcome.ofExcept
          (listed d (Material.identifiersUnder locationStart found))) ∧ failed = []
      ∨ (∃ e, outcome = .error (.failed (.storage e))) ∧ failed ≠ []) := by
  refine ⟨hrun.data_eq inspects_all.asks, ?_⟩
  rw [all, identifiers, bind_assoc] at hrun
  rcases Action.runs_identifiers_bind hrun with ⟨found, hfound, hload⟩ | ⟨hstorage, -, rfl⟩
  · rcases runs_loadAll hload with ⟨ho, rfl⟩ | hstorage
    · exact .inl ⟨⟨found, hfound, ho⟩, rfl⟩
    · exact .inr hstorage
  · exact .inr ⟨hstorage, List.cons_ne_nil _ _⟩

theorem mem_listed_iff {identifiers : List String} {ms : List Metadata}
    (h : listed d identifiers = .ok ms) {m : Metadata} :
    m ∈ ms ↔ ∃ identifier ∈ identifiers, stored? d identifier = .ok (some m) := by
  induction identifiers generalizing ms with
  | nil =>
    cases h
    simp
  | cons identifier rest ih =>
    rw [listed] at h
    cases hstored : stored? d identifier with
    | error e =>
      rw [hstored] at h
      cases h
    | ok found =>
      rw [hstored] at h
      cases found with
      | none => simp [ih h, hstored]
      | some m' =>
        cases hrest : listed d rest with
        | error e =>
          rw [hrest] at h
          cases h
        | ok ms' =>
          rw [hrest] at h
          cases h
          simp [ih hrest, hstored, eq_comm]

/-- Where every record is one of metadata, all are listed. -/
theorem exists_listed {identifiers : List String}
    (h : ∀ identifier ∈ identifiers, ∃ found, stored? d identifier = .ok found) :
    ∃ ms, listed d identifiers = .ok ms := by
  induction identifiers with
  | nil => exact ⟨[], rfl⟩
  | cons identifier rest ih =>
    obtain ⟨⟨found, hfound⟩, hothers⟩ := List.forall_mem_cons.1 h
    obtain ⟨ms, hms⟩ := ih hothers
    rw [listed, hfound]
    cases found with
    | none => exact ⟨ms, hms⟩
    | some m => exact ⟨m :: ms, by rw [hms]; rfl⟩

/-- What is `listed` has no record that cannot be read. -/
theorem exists_stored?_of_listed {identifiers : List String} {ms : List Metadata}
    (h : listed d identifiers = .ok ms) {identifier : String} (hmem : identifier ∈ identifiers) :
    ∃ found, stored? d identifier = .ok found := by
  induction identifiers generalizing ms with
  | nil => cases hmem
  | cons other rest ih =>
    rw [listed] at h
    cases hstored : stored? d other with
    | error e =>
      rw [hstored] at h
      cases h
    | ok found =>
      rcases List.mem_cons.1 hmem with rfl | hmem
      · exact ⟨found, hstored⟩
      · rw [hstored] at h
        cases found with
        | none => exact ih h hmem
        | some m =>
          cases hrest : listed d rest with
          | error e =>
            rw [hrest] at h
            cases h
          | ok ms' => exact ih hrest hmem

end Catalogue

end Strongbox.Key
