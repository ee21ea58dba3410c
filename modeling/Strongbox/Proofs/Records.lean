import Strongbox.Proofs.Key.Consistency
import Strongbox.Token.Basic
/-!
# Records lose nothing

Metadata are stored as JSON records and tokens are handed out as such. What is read back is equal to
what was written, field by field: texts may hold any characters, since those that JSON has no room
for are escaped; tables come back in the order of their keys; and times come back with their
fraction of a second, whatever the year, also within a leap second.

## Main results

* `Token.read_write`: tokens are read back.
* `metadata_and_tokens_read_back`: so are metadata, through a storage.
-/

namespace Strongbox

open Key (Metadata IsIdentifier)
open Storage (Memory)

/-! ## Tokens -/

namespace Token

theorem isWritten_toJson (t : Token) : t.toJson.IsWritten :=
  Json.isWritten_record (by simp [timeToJson])

private theorem timeOfJson?_timeToJson (t : Time.Instant) : timeOfJson?
    (timeToJson t) = some t := by
  rw [timeOfJson?, timeToJson, Json.asText?_ofText, Option.bind_some, Time.Rfc3339.read?_write]

theorem ofJson?_toJson (t : Token) : ofJson? t.toJson = some t := by
  rw [toJson, ofJson?, Json.fields?_record (by simp)]
  simp [Json.required, Json.asText?_ofText, timeOfJson?_timeToJson, Json.asTable?_ofTable]

/-- Tokens are read back from their document: `Token.read` undoes `Token.write`. -/
theorem read_write (t : Token) : read t.write = .ok t := by
  rw [read, write, Json.read?_compact t.isWritten_toJson, Option.bind_some, t.ofJson?_toJson]

end Token

/-! ## Metadata through a storage -/

variable {d d' : Memory} {failed : List Request} {m : Metadata}

/-- Metadata that `Catalogue.store` gets stored are its record of the key from then on. -/
private theorem Key.Catalogue.stored?_of_runs_store {outcome : Outcome Unit}
    (hname : IsIdentifier m.id) (hrun : (Key.Catalogue.store m).Runs d outcome d' []) :
    outcome = .ok () ∧ Key.Catalogue.stored? d' m.id = .ok (some m) := by
  rcases Action.runs_store ((Key.runs_checked_iff hname).1 hrun) with
    ⟨rfl, rfl, -⟩ | ⟨-, -, hfailed⟩
  · have hrecord : (d.insert (Key.Catalogue.location m.id) m.write).get?
        (Key.Catalogue.location m.id) = some m.write := by
      rw [Table.get?_insert, if_pos rfl]
    exact ⟨rfl, Key.Catalogue.stored?_eq_some_iff.2 ⟨m.write, hrecord, m.read_write⟩⟩
  · cases hfailed

theorem Key.Catalogue.runs_get?_of_stored {outcome : Outcome (Option Metadata)}
    {identifier : String} (hname : IsIdentifier identifier)
    (hstored : Key.Catalogue.stored? d identifier = .ok (some m))
    (hrun : (Key.Catalogue.get? identifier).Runs d outcome d' []) :
    outcome = .ok (some m) := by
  have hload := (Key.runs_checked_iff hname).1 hrun
  rw [← bind_pure (Key.Catalogue.load? identifier)] at hload
  rcases Key.Catalogue.runs_load?_bind hload with
    ⟨found, hfound, hend⟩ | ⟨⟨e, he, -⟩, -, -⟩ | ⟨-, -, hfailed⟩
  · obtain ⟨rfl, -, -⟩ := Action.runs_pure_iff.1 hend
    cases hstored.symm.trans hfound
    rfl
  · cases hstored.symm.trans he
  · cases hfailed

/-- Metadata that are stored (`Catalogue.store`) and then read (`Catalogue.get?`) are equal to what
was stored, unless a request fails, and every token is equal to what is read from its document. -/
theorem metadata_and_tokens_read_back (S : Surroundings) (s : S.State)
    (hname : IsIdentifier m.id) (hstore : S.failures (Key.Catalogue.store m) s = [])
    (hget : S.failures (Key.Catalogue.get? m.id) (S.perform (Key.Catalogue.store m) s).2 = []) :
    (S.perform (Key.Catalogue.store m) s).1 = .ok ()
      ∧ (S.perform (Key.Catalogue.get? m.id) (S.perform (Key.Catalogue.store m) s).2).1
        = .ok (some m)
      ∧ ∀ t : Token, Token.read t.write = .ok t := by
  have hstored := S.runs_perform (Key.Catalogue.store m) s
  have hread := S.runs_perform (Key.Catalogue.get? m.id) (S.perform (Key.Catalogue.store m) s).2
  rw [hstore] at hstored
  rw [hget] at hread
  obtain ⟨hok, hrecord⟩ := Key.Catalogue.stored?_of_runs_store hname hstored
  exact ⟨hok, Key.Catalogue.runs_get?_of_stored hname hrecord hread, Token.read_write⟩

/-- Metadata with texts that must be escaped, made in a leap second at the end of the calendar. -/
def oddMetadata : Metadata where
  id := "a \"\\ é"
  algorithm := .chaChaPoly
  sizeBits := 7
  purpose := "\x00\n\x1f /☃"
  createdAt := ⟨Time.lastSecond, 1000000001, by decide, by decide, by decide⟩
  attributes := (Table.empty.insert "\x00\"" "").insert "" "\x7f\t"

/-- Nothing of `oddMetadata` is lost. -/
theorem oddMetadata_read_back :
    IsIdentifier oddMetadata.id
      ∧ (World.plainSurroundings.perform (Key.Catalogue.get? oddMetadata.id)
          (World.plainSurroundings.perform (Key.Catalogue.store oddMetadata)
            Key.keylessWorld).2).1 = .ok (some oddMetadata) := by
  have hname : IsIdentifier oddMetadata.id := Key.checkIdentifier_eq_ok_iff.1 (by decide)
  have hback := metadata_and_tokens_read_back World.plainSurroundings Key.keylessWorld hname
    (by decide +kernel) (by decide +kernel)
  exact ⟨hname, hback.2.1⟩

end Strongbox
