import Strongbox.Proofs.Storage.Interchange
/-!
# A vault whose folder is tampered with

Someone who does not have the master key can do anything to the folder of a vault: copy, rename,
swap and cut its files, bring back older ones, put in others or remove the folder. Whatever is done
between the calls, what the vault hands out under an identifier was stored under that identifier.

What is assumed is that a file opens under a digest only if the vault sealed that content under that
digest. Four checks do the rest. The digest is taken from the file's name, or from the identifier
that is asked for; it is authenticated along with the content; the identifier inside must have it;
and inside must be the identifier that is asked for. The last one tells identifiers apart even if
their digests collide, so nothing is assumed of digests.

## Main results

* `stored_of_opens`: what opens was stored, under the identifier inside.
* `retrieve_only_stored`: what is retrieved or listed was stored, whatever was done to the folder.
-/

namespace Strongbox

open Storage (Entry Use Vault)

/-! ## What happens to a vault -/

namespace Storage

/-- What happens to a vault: it is used, or its folder is rearranged. -/
inductive Happening where
  | use (u : Use)
  | tamper (entries : Option (Table Entry))

/-- Data is stored. -/
def Happening.store (identifier : String) (data : Bytes) : Happening :=
  .use (.call (.store identifier data))

end Storage

open Storage (Happening)

namespace World

/-- The folder of the vault; `none` if there is no folder. -/
def folder? (w : World) : Option (Table Entry) :=
  match w.storage with
  | .vault v => v.entries
  | .memory _ | .failing _ => none

/-- The world with other `entries` in the folder of the vault. -/
def rearranged (w : World) (entries : Option (Table Entry)) : World :=
  match w.storage with
  | .vault v => { w with storage := .vault { v with entries } }
  | .memory _ | .failing _ => w

/-- The world after every `Happening`, the latest first. -/
def afterAll (w : World) : List Happening → World
  | [] => w
  | .use u :: earlier => (use u (w.afterAll earlier)).2
  | .tamper entries :: earlier => (w.afterAll earlier).rearranged entries

/-- The contents that were sealed by `sealEntry`, with the digests under which they were. -/
def sealedFiles (w : World) : List Happening → List (String × Bytes)
  | [] => []
  | .use (.call (.store identifier data)) :: earlier =>
    match (w.afterAll earlier).storage with
    | .vault v =>
      if UInt32.size ≤ (Bytes.ofText identifier).length then w.sealedFiles earlier
      else
        let vector := ((w.afterAll earlier).entropy.draw Vault.vectorSize).1
        (Vault.stem identifier, v.sealEntry identifier data vector) :: w.sealedFiles earlier
    | .memory _ | .failing _ => w.sealedFiles earlier
  | _ :: earlier => w.sealedFiles earlier

/-- No code is met that was not made here: a file that opens under the digest in its name is among
the `sealedFiles` with that digest. -/
def OpensOnlySealed (w : World) (masterKey : Bytes) (log : List Happening) : Prop :=
  ∀ entries, (w.afterAll log).folder? = some entries →
    ∀ name content digest plain, entries.get? name = some (.file content) →
      Vault.stem? name = some digest →
      Cipher.decrypt .aesGcm masterKey none content (some (Bytes.ofText digest)) = .ok plain →
      (digest, content) ∈ w.sealedFiles log

/-- The storage is a vault with the master key `masterKey`. -/
def HasVault (w : World) (masterKey : Bytes) : Prop :=
  ∃ v, w.storage = .vault v ∧ v.masterKey = masterKey

end World

/-! ## The master key stays the same -/

namespace Storage.Vault

variable {v v' : Vault} {identifier : String} {data vector : Bytes}

theorem masterKey_of_store (h : v.store identifier data vector = .ok v') :
    v'.masterKey = v.masterKey := by
  unfold store at h
  split at h
  · cases h
  · split at h
    · cases h
    · cases h
    · cases h
      rfl

theorem masterKey_of_delete (h : v.delete identifier = .ok v') : v'.masterKey = v.masterKey := by
  unfold delete at h
  split at h
  · cases h
  · cases h
  · cases h
    rfl

theorem masterKey_of_reopen {masterKey : Bytes} (h : v.reopen masterKey = .ok v') :
    v'.masterKey = masterKey := by
  unfold reopen openAt at h
  split at h
  · split at h
    · cases h
      rfl
    · cases h
      rfl
    · cases h
  · cases h

end Storage.Vault

namespace World

variable {w : World} {masterKey : Bytes} {log earlier : List Happening}

theorem HasVault.answer (h : w.HasVault masterKey) (r : Request) :
    (World.answer r w).2.HasVault masterKey := by
  obtain ⟨v, hv, hkey⟩ := h
  cases r with
  | store identifier data =>
    cases hstore : v.store identifier data (w.entropy.draw Vault.vectorSize).1 with
    | ok v' =>
      simp only [World.answer, World.store, hv, hstore]
      exact ⟨v', rfl, (Vault.masterKey_of_store hstore).trans hkey⟩
    | error e =>
      simp only [World.answer, World.store, hv, hstore]
      exact ⟨v, rfl, hkey⟩
  | delete identifier =>
    cases hdelete : v.delete identifier with
    | ok v' =>
      simp only [World.answer, World.delete, hv, hdelete]
      exact ⟨v', rfl, (Vault.masterKey_of_delete hdelete).trans hkey⟩
    | error e =>
      simp only [World.answer, World.delete, hv, hdelete]
      exact ⟨v, hv, hkey⟩
  | retrieve identifier =>
    simp only [World.answer, World.retrieve, hv]
    exact ⟨v, hv, hkey⟩
  | contains identifier =>
    simp only [World.answer, World.contains, hv]
    exact ⟨v, hv, hkey⟩
  | list =>
    simp only [World.answer, World.list, hv]
    exact ⟨v, hv, hkey⟩
  | draw source size =>
    simp only [World.answer, World.draw]
    split
    · exact ⟨v, hv, hkey⟩
    · exact ⟨v, hv, hkey⟩
  | now | acquire name | release name => exact ⟨v, hv, hkey⟩

theorem HasVault.use (h : w.HasVault masterKey) (u : Use) :
    (World.use u w).2.HasVault masterKey := by
  cases u with
  | call r => exact h.answer r
  | reopen =>
    obtain ⟨v, hv, hkey⟩ := h
    cases hreopen : v.reopen v.masterKey with
    | ok v' =>
      simp only [World.use, World.reopen, hv, hreopen]
      exact ⟨v', rfl, (Vault.masterKey_of_reopen hreopen).trans hkey⟩
    | error e =>
      simp only [World.use, World.reopen, hv, hreopen]
      exact ⟨v, hv, hkey⟩

/-- A world that `HasVault` keeps it and its master key, whatever happens. -/
theorem HasVault.afterAll (h : w.HasVault masterKey) (log : List Happening) :
    (w.afterAll log).HasVault masterKey := by
  induction log with
  | nil => exact h
  | cons happening earlier ih =>
    cases happening with
    | use u => exact ih.use u
    | tamper entries =>
      obtain ⟨v, hv, hkey⟩ := ih
      simp only [World.afterAll, World.rearranged, hv]
      exact ⟨{ v with entries }, rfl, hkey⟩

/-- After `tamper` the folder is as it was rearranged. -/
private theorem folder?_tamper (h : w.HasVault masterKey) (entries : Option (Table Entry)) :
    (w.afterAll (.tamper entries :: earlier)).folder? = entries := by
  obtain ⟨v, hv, -⟩ := h.afterAll earlier
  simp only [World.afterAll, World.rearranged, World.folder?, hv]

/-! ## What was sealed was stored -/

/-- What is sealed in a `Happening` is data that is stored, under the digest of its identifier. -/
private theorem mem_sealedFiles_cons (h : w.HasVault masterKey) {happening : Happening}
    {digest : String} {content : Bytes}
    (hmem : (digest, content) ∈ w.sealedFiles (happening :: earlier)) :
    (digest, content) ∈ w.sealedFiles earlier
      ∨ ∃ identifier data, ∃ vector : Bytes.Sized Vault.vectorSize,
        happening = .store identifier data ∧ (Bytes.ofText identifier).length < UInt32.size
        ∧ digest = Vault.stem identifier
        ∧ ∀ v : Vault, v.masterKey = masterKey →
            content = v.sealEntry identifier data vector.1 := by
  unfold sealedFiles at hmem
  split at hmem
  · rename_i hnone
    cases hnone
  · rename_i identifier data earlier' hcons
    obtain ⟨rfl, rfl⟩ := List.cons.inj hcons
    obtain ⟨v, hv, hkey⟩ := h.afterAll earlier
    simp only [hv] at hmem
    by_cases hlong : UInt32.size ≤ (Bytes.ofText identifier).length
    · rw [if_pos hlong] at hmem
      exact .inl hmem
    · rw [if_neg hlong] at hmem
      rcases List.mem_cons.1 hmem with hnew | hmem
      · obtain ⟨rfl, rfl⟩ := Prod.mk.inj hnew
        let vector := ((w.afterAll earlier).entropy.draw Vault.vectorSize).1
        refine .inr ⟨identifier, data, vector, rfl, Nat.not_le.1 hlong, rfl, fun v' hkey' => ?_⟩
        rw [Vault.sealEntry, Vault.sealEntry, hkey, hkey']
      · exact .inl hmem
  · rename_i hcons
    obtain ⟨rfl, rfl⟩ := List.cons.inj hcons
    exact .inl hmem

/-- A content of `sealedFiles` is that of data that was stored under an identifier of its digest. -/
private theorem exists_store_of_mem_sealedFiles (h : w.HasVault masterKey) {digest : String}
    {content : Bytes} (hmem : (digest, content) ∈ w.sealedFiles log) :
    ∃ identifier data, ∃ vector : Bytes.Sized Vault.vectorSize,
      Happening.store identifier data ∈ log ∧ (Bytes.ofText identifier).length < UInt32.size
      ∧ digest = Vault.stem identifier
      ∧ ∀ v : Vault, v.masterKey = masterKey → content = v.sealEntry identifier data vector.1 := by
  induction log with
  | nil => cases hmem
  | cons happening earlier ih =>
    rcases mem_sealedFiles_cons h hmem with hmem | ⟨identifier, data, vector, rfl, hsealed⟩
    · obtain ⟨identifier, data, vector, hstore, hsealed⟩ := ih hmem
      exact ⟨identifier, data, vector, List.mem_cons_of_mem _ hstore, hsealed⟩
    · exact ⟨identifier, data, vector, List.mem_cons_self, hsealed⟩

/-- What one of the `sealedFiles` opens to was stored, and the file stands under the digest of its
identifier. -/
theorem stored_of_opens (h : w.HasVault masterKey) {v : Vault} (hkey : v.masterKey = masterKey)
    {digest identifier : String} {content data : Bytes}
    (hmem : (digest, content) ∈ w.sealedFiles log)
    (hopen : v.openEntry? digest content = some (identifier, data)) :
    Happening.store identifier data ∈ log ∧ digest = Vault.stem identifier := by
  obtain ⟨identifier', data', vector, hstore, hlength, rfl, hcontent⟩ :=
    exists_store_of_mem_sealedFiles h hmem
  rw [hcontent v hkey, v.openEntry?_sealEntry hlength] at hopen
  obtain ⟨rfl, rfl⟩ := Prod.mk.inj (Option.some.inj hopen)
  exact ⟨hstore, rfl⟩

end World

/-! ## What opens -/

namespace Storage.Vault

variable {v : Vault} {digest identifier : String} {content data : Bytes}

theorem exists_decrypt_of_opens (h : v.openEntry? digest content = some (identifier, data)) :
    ∃ plain, Cipher.decrypt .aesGcm v.masterKey none content (some (Bytes.ofText digest))
        = .ok plain
      ∧ readPayload? plain = some (identifier, data) ∧ stem identifier = digest := by
  unfold openEntry? at h
  obtain ⟨plain, hplain, h⟩ := Option.bind_eq_some_iff.1 h
  obtain ⟨⟨identifier', data'⟩, hread, h⟩ := Option.bind_eq_some_iff.1 h
  obtain ⟨hstem, hpair⟩ := Option.ite_none_right_eq_some.1 h
  obtain ⟨rfl, rfl⟩ := Prod.mk.inj (Option.some.inj hpair)
  refine ⟨plain, ?_, hread, hstem⟩
  cases hdecrypt : Cipher.decrypt .aesGcm v.masterKey none content (some (Bytes.ofText digest)) with
  | error e =>
    rw [hdecrypt] at hplain
    cases hplain
  | ok plain' =>
    rw [hdecrypt] at hplain
    rw [Option.some.inj hplain]

/-- What `retrieve` returns is what the file in its place opens to. -/
theorem retrieve_eq_ok (h : v.retrieve identifier = .ok data) :
    ∃ content, v.entry? identifier = some (.file content)
      ∧ v.openEntry? (stem identifier) content = some (identifier, data) := by
  unfold retrieve at h
  split at h
  · cases h
  · cases h
  · rename_i content hentry
    split at h
    · rename_i found data' hopen
      split at h
      · rename_i hfound
        subst hfound
        cases h
        exact ⟨content, hentry, hopen⟩
      · cases h
    · cases h

/-- What `retrieve` refuses is missing, does not open, or is a folder. -/
theorem retrieve_eq_error {e : StorageError} (h : v.retrieve identifier = .error e) :
    e = .notFound identifier ∨ e = .corrupted identifier "authentication tag mismatch"
      ∨ v.entry? identifier = some .folder ∧ e = isFolder := by
  unfold retrieve at h
  split at h
  · exact .inl (Except.error.inj h).symm
  · rename_i hentry
    exact .inr (.inr ⟨hentry, (Except.error.inj h).symm⟩)
  · split at h
    · split at h
      · cases h
      · exact .inr (.inl (Except.error.inj h).symm)
    · exact .inr (.inl (Except.error.inj h).symm)

/-! ## Listing -/

/-- A file that `identifierOf` reads stands under the digest of an identifier, to which it opens. -/
theorem identifierOf_eq_some {name : String} {entry : Entry}
    (h : v.identifierOf name entry = .ok (some identifier)) :
    ∃ content data, entry = .file content ∧ stem? name = some (stem identifier)
      ∧ v.openEntry? (stem identifier) content = some (identifier, data) := by
  unfold identifierOf at h
  split at h
  · cases h
  · cases h
  · rename_i digest content hname
    obtain ⟨⟨found, data⟩, hopen, hfound⟩ := Option.map_eq_some_iff.1 (Except.ok.inj h)
    obtain rfl : found = identifier := hfound
    obtain ⟨plain, hplain, hread, hstem⟩ := exists_decrypt_of_opens hopen
    subst hstem
    exact ⟨content, data, rfl, hname, hopen⟩

/-- Files that `identifierOf` reads one after the other give each identifier once, and give no other
than those they open to. -/
private theorem nodup_of_mapM {files : List (String × Entry)} {found : List (Option String)}
    (hnames : files.Pairwise fun a b => a.1 < b.1)
    (h : files.mapM (fun e => v.identifierOf e.1 e.2) = .ok found) :
    (found.filterMap id).Nodup ∧ ∀ identifier ∈ found.filterMap id, ∃ e ∈ files,
      v.identifierOf e.1 e.2 = .ok (some identifier) := by
  induction files generalizing found with
  | nil =>
    cases h
    exact ⟨List.nodup_nil, List.forall_mem_nil _⟩
  | cons e files ih =>
    obtain ⟨hfirst, hrest⟩ := List.pairwise_cons.1 hnames
    rw [List.mapM_cons] at h
    obtain ⟨read, hread, h⟩ := exists_of_bind_eq_ok h
    obtain ⟨later, hlater, h⟩ := exists_of_bind_eq_ok h
    obtain rfl := Except.ok.inj h
    obtain ⟨hnodup, hfiles⟩ := ih hrest hlater
    have hothers : ∀ identifier ∈ later.filterMap id, ∃ e' ∈ e :: files,
        v.identifierOf e'.1 e'.2 = .ok (some identifier) := by
      intro identifier hidentifier
      obtain ⟨e', he', hread'⟩ := hfiles identifier hidentifier
      exact ⟨e', List.mem_cons_of_mem _ he', hread'⟩
    cases read with
    | none => exact ⟨hnodup, hothers⟩
    | some identifier =>
      refine ⟨List.nodup_cons.2 ⟨fun hagain => ?_, hnodup⟩, List.forall_mem_cons.2 ⟨?_, hothers⟩⟩
      · -- a file that gives the identifier again has its digest, hence the name of the first
        obtain ⟨e', he', hread'⟩ := hfiles identifier hagain
        obtain ⟨-, -, -, hname, -⟩ := identifierOf_eq_some hread
        obtain ⟨-, -, -, hname', -⟩ := identifierOf_eq_some hread'
        have hsame : e.1 = e'.1 := (eq_of_stem? hname).trans (eq_of_stem? hname').symm
        exact Table.ne_of_lt (hfirst e' he') hsame
      · exact ⟨e, List.mem_cons_self, hread⟩

/-- A listing (`identifiers`) gives each identifier once, and gives no other than those that a file
opens to which stands under their digest. -/
theorem nodup_identifiers {ids : List String} (h : v.identifiers = .ok ids) :
    ids.Nodup ∧ ∀ identifier ∈ ids, ∃ entries name content data, v.entries = some entries
      ∧ entries.get? name = some (.file content) ∧ stem? name = some (stem identifier)
      ∧ v.openEntry? (stem identifier) content = some (identifier, data) := by
  unfold identifiers at h
  split at h
  · cases h
  · rename_i entries hentries
    obtain ⟨found, hfound, h⟩ := exists_of_bind_eq_ok h
    obtain rfl := Except.ok.inj h
    obtain ⟨hnodup, hfiles⟩ := nodup_of_mapM entries.ascending hfound
    have hperm := List.mergeSort_perm (found.filterMap id) (· ≤ ·)
    refine ⟨hperm.nodup_iff.2 hnodup, fun identifier hidentifier => ?_⟩
    obtain ⟨e, he, hread⟩ := hfiles identifier (hperm.mem_iff.1 hidentifier)
    obtain ⟨content, data, hfile, hname, hopen⟩ := identifierOf_eq_some hread
    have hplace := Table.get?_of_mem he
    rw [hfile] at hplace
    exact ⟨entries, e.1, content, data, hentries, hplace, hname, hopen⟩

/-- A folder can be listed if no folder in it has the name of a sealed file, as `stem?` tells. -/
theorem exists_identifiers_eq_ok {entries : Table Entry}
    (hentries : v.entries = some entries)
    (hfiles : ∀ e ∈ entries.entries, (stem? e.1).isSome = true → e.2 ≠ .folder) :
    ∃ ids, v.identifiers = .ok ids := by
  have hread : ∀ files : List (String × Entry),
      (∀ e ∈ files, (stem? e.1).isSome = true → e.2 ≠ .folder) →
      ∃ found, files.mapM (fun e => v.identifierOf e.1 e.2) = .ok found := by
    intro files
    induction files with
    | nil => exact fun _ => ⟨[], rfl⟩
    | cons e files ih =>
      intro hfiles
      obtain ⟨hfirst, hrest⟩ := List.forall_mem_cons.1 hfiles
      obtain ⟨found, hfound⟩ := ih hrest
      have hone : ∃ read, v.identifierOf e.1 e.2 = .ok read := by
        unfold identifierOf
        split
        · exact ⟨none, rfl⟩
        · rename_i digest hname hentry
          exact absurd hentry (hfirst (by rw [hname]; rfl))
        · exact ⟨_, rfl⟩
      obtain ⟨read, hone⟩ := hone
      exact ⟨read :: found, by rw [List.mapM_cons, hone, hfound]; rfl⟩
  obtain ⟨found, hfound⟩ := hread entries.entries hfiles
  refine ⟨(found.filterMap id).mergeSort (· ≤ ·), ?_⟩
  rw [identifiers, hentries]
  simp only [hfound]
  rfl

end Storage.Vault

/-! ## Whatever was done to the folder -/

namespace World

variable {w : World} {masterKey : Bytes} {log : List Happening}

/-- Whatever `Happening`s a vault has been through, what is retrieved under an identifier was stored
under it; otherwise the identifier is not found or its file corrupted, unless a folder stands in the
file's place. What is listed was stored, and is listed once. The listing is refused only for want of
the folder, or for a folder under the name of a sealed file. No content leads a reader astray: all
that `readPayload?` reads of a payload are pieces of it. -/
theorem retrieve_only_stored (h : w.HasVault masterKey)
    (hsealed : w.OpensOnlySealed masterKey log) :
    let after := w.afterAll log
    (∀ identifier data, (after.retrieve identifier).1 = .ok data →
      Happening.store identifier data ∈ log)
    ∧ (∀ identifier e, (after.retrieve identifier).1 = .error e →
        e = .notFound identifier ∨ e = .corrupted identifier "authentication tag mismatch"
        ∨ after.folder?.bind (·.get? (Vault.fileName identifier)) = some .folder
          ∧ e = Vault.isFolder)
    ∧ (∀ ids, after.list.1 = .ok ids →
        ids.Nodup ∧ ∀ identifier ∈ ids, ∃ data, Happening.store identifier data ∈ log)
    ∧ (∀ entries, after.folder? = some entries →
        (∀ e ∈ entries.entries, (Vault.stem? e.1).isSome = true → e.2 ≠ .folder) →
        ∃ ids, after.list.1 = .ok ids)
    ∧ ∀ (v : Vault) (digest : String) (content : Bytes) (identifier : String) (data : Bytes),
        v.openEntry? digest content = some (identifier, data) →
        ∃ plain field : Bytes, Cipher.decrypt .aesGcm v.masterKey none content
            (some (Bytes.ofText digest)) = .ok plain
          ∧ field.length = 4 ∧ Bytes.natOfBigEndian field = (Bytes.ofText identifier).length
          ∧ plain = field ++ Bytes.ofText identifier ++ data := by
  intro after
  obtain ⟨v, hv, hkey⟩ := h.afterAll log
  have hretrieve : ∀ identifier, (after.retrieve identifier).1 = v.retrieve identifier := by
    intro identifier
    simp only [after, World.retrieve, hv]
  have hlist : after.list.1 = v.identifiers := by
    simp only [after, World.list, hv]
  have hfolder : after.folder? = v.entries := by
    simp only [after, World.folder?, hv]
  -- what a file in the folder opens to was stored
  have hopens : ∀ entries name content identifier data, v.entries = some entries →
      entries.get? name = some (.file content) →
      Vault.stem? name = some (Vault.stem identifier) →
      v.openEntry? (Vault.stem identifier) content = some (identifier, data) →
      Happening.store identifier data ∈ log := by
    intro entries name content identifier data hentries hplace hname hopen
    obtain ⟨plain, hplain, -, -⟩ := Vault.exists_decrypt_of_opens hopen
    rw [hkey] at hplain
    have hmem := hsealed entries (hfolder.trans hentries) name content _ plain hplace hname hplain
    exact (stored_of_opens h hkey hmem hopen).1
  refine ⟨fun identifier data hok => ?_, fun identifier e herror => ?_, fun ids hids => ?_,
    fun entries hentries hfiles => ?_, fun v' digest content identifier data hopen => ?_⟩
  · rw [hretrieve] at hok
    obtain ⟨content, hentry, hopen⟩ := Vault.retrieve_eq_ok hok
    obtain ⟨entries, hentries, hplace⟩ := Option.bind_eq_some_iff.1 hentry
    exact hopens entries _ content identifier data hentries hplace
      (Vault.stem?_fileName identifier) hopen
  · rw [hretrieve] at herror
    rw [hfolder]
    exact Vault.retrieve_eq_error herror
  · rw [hlist] at hids
    obtain ⟨hnodup, hfiles⟩ := Vault.nodup_identifiers hids
    refine ⟨hnodup, fun identifier hidentifier => ?_⟩
    obtain ⟨entries, name, content, data, hentries, hplace, hname, hopen⟩ :=
      hfiles identifier hidentifier
    exact ⟨data, hopens entries name content identifier data hentries hplace hname hopen⟩
  · rw [hlist]
    exact Vault.exists_identifiers_eq_ok (hfolder.symm.trans hentries) hfiles
  · obtain ⟨plain, hplain, hread, -⟩ := Vault.exists_decrypt_of_opens hopen
    obtain ⟨field, hlength, hsize, hcut⟩ := Vault.exists_field_of_readPayload? hread
    exact ⟨plain, field, hplain, hlength, hsize, hcut⟩

/-! ### A file that is copied over another -/

/-- A vault on an empty folder. -/
def twoLettersVault : Vault := ⟨"/vault", some Table.empty, List.replicate 32 7, rfl⟩

/-- A world with `twoLettersVault`, in which zeros are drawn all the time. -/
def twoLettersWorld : World := ⟨.vault twoLettersVault, default, ⟨fun _ => 0, 0⟩, 0⟩

theorem twoLettersWorld_hasVault : twoLettersWorld.HasVault (List.replicate 32 7) :=
  ⟨twoLettersVault, rfl, rfl⟩

/-- The sealed file of the first letter. -/
def firstLetter : Bytes := twoLettersVault.sealEntry "a" [1] (List.replicate 12 0)

/-- The folder with the first letter in the place of both, and with a file that is none of the
vault's. -/
def copiedOver : Table Entry :=
  ((Table.empty.insert "notes.txt" (.file [1])).insert (Vault.fileName "a")
    (.file firstLetter)).insert (Vault.fileName "b") (.file firstLetter)

/-- Two letters are stored, and the file of the first is copied over that of the second. -/
def copying : List Happening :=
  [.tamper (some copiedOver), .store "b" [2], .store "a" [1]]

private theorem firstLetter_mem_sealedFiles :
    (Vault.stem "a", firstLetter) ∈ twoLettersWorld.sealedFiles copying := by
  have hsealed : twoLettersWorld.sealedFiles copying
      = [(Vault.stem "b", twoLettersVault.sealEntry "b" [2] (List.replicate 12 0)),
          (Vault.stem "a", firstLetter)] := rfl
  rw [hsealed]
  exact List.mem_cons_of_mem _ (List.mem_singleton_self _)

/-- The copy does not open under the digest of the second identifier, `b`. -/
private theorem decrypt_firstLetter_stem_b :
    (Cipher.decrypt .aesGcm (List.replicate 32 7) none firstLetter
      (some (Bytes.ofText (Vault.stem "b")))).toOption = none := by
  decide +kernel

private theorem opensOnlySealed_copying :
    twoLettersWorld.OpensOnlySealed (List.replicate 32 7) copying := by
  intro entries hentries name content digest plain hplace hname hplain
  rw [copying, folder?_tamper twoLettersWorld_hasVault] at hentries
  obtain rfl := Option.some.inj hentries
  have hnotes : Vault.stem? "notes.txt" = none := by decide
  rw [copiedOver, Table.get?_insert, Table.get?_insert, Table.get?_insert] at hplace
  by_cases hb : name = Vault.fileName "b"
  · rw [if_pos hb] at hplace
    rw [hb, Vault.stem?_fileName] at hname
    have hclosed := decrypt_firstLetter_stem_b
    rw [Storage.Entry.file.inj (Option.some.inj hplace), Option.some.inj hname, hplain] at hclosed
    cases hclosed
  · rw [if_neg hb] at hplace
    by_cases ha : name = Vault.fileName "a"
    · rw [if_pos ha] at hplace
      rw [ha, Vault.stem?_fileName] at hname
      rw [← Storage.Entry.file.inj (Option.some.inj hplace), ← Option.some.inj hname]
      exact firstLetter_mem_sealedFiles
    · rw [if_neg ha] at hplace
      by_cases hnote : name = "notes.txt"
      · rw [hnote, hnotes] at hname
        cases hname
      · rw [if_neg hnote] at hplace
        cases hplace

/-- The letter that was copied by `copying` does not pass for the other. -/
theorem retrieve_copiedOver :
    (∀ data, ((twoLettersWorld.afterAll copying).retrieve "b").1 = .ok data → data = [2])
      ∧ ∀ ids, (twoLettersWorld.afterAll copying).list.1 = .ok ids →
          ids.Nodup ∧ ∀ identifier ∈ ids, identifier = "a" ∨ identifier = "b" := by
  have hstored : ∀ identifier data, Happening.store identifier data ∈ copying →
      (identifier = "b" ∧ data = [2]) ∨ (identifier = "a" ∧ data = [1]) := by
    intro identifier data h
    simpa [copying, Happening.store] using h
  obtain ⟨hretrieve, -, hlist, -⟩ := retrieve_only_stored twoLettersWorld_hasVault
    opensOnlySealed_copying
  refine ⟨fun data hdata => ?_, fun ids hids => ?_⟩
  · rcases hstored "b" data (hretrieve "b" data hdata) with ⟨-, rfl⟩ | ⟨hother, -⟩
    · rfl
    · exact absurd hother (by decide)
  · obtain ⟨hnodup, hall⟩ := hlist ids hids
    refine ⟨hnodup, fun identifier hidentifier => ?_⟩
    obtain ⟨data, hdata⟩ := hall identifier hidentifier
    rcases hstored identifier data hdata with ⟨rfl, -⟩ | ⟨rfl, -⟩
    · exact .inr rfl
    · exact .inl rfl

end World

end Strongbox
