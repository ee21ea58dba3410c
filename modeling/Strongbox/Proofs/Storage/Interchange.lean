import Strongbox.Proofs.Storage.Vault
import Strongbox.World
/-!
# A vault does what a memory does

Whoever stores, retrieves, deletes, asks for and lists data cannot tell a vault from a storage in
memory, also when the vault is opened again now and then. A vault represents a memory when each
identifier has a file that opens to its data, or none, as it has data in the memory or none, and
when there are no other files in the folder (`Represents`). Each call keeps this and gets one answer
from both, and that carries over to any sequence of calls.

Identifiers are told apart by their file names. That these differ is assumed of the identifiers that
are used, since no more can be said of digests.

## Main results

* `answer_eq_of_represents`: a vault and the memory it represents answer a call alike, and the one
  still represents the other.
* `answers_vault_eq_answers_memory`: so do they answer every sequence of calls.
-/

namespace Strongbox

open Storage (Memory Vault)

/-! ## Using a storage -/

/-- The identifier that a call to a storage is about. -/
def Request.subject? : Request → Option String
  | .store identifier _ => some identifier
  | .retrieve identifier => some identifier
  | .delete identifier => some identifier
  | .contains identifier => some identifier
  | .list | .now | .draw _ _ | .acquire _ | .release _ => none

/-- The requests that are calls to the storage. -/
def Request.IsStorageCall : Request → Prop
  | .store _ _ | .retrieve _ | .delete _ | .contains _ | .list => True
  | .now | .draw _ _ | .acquire _ | .release _ => False

namespace Storage

/-- What can be done with a storage: call it, or close it and open it again. -/
inductive Use where
  | call (request : Request)
  | reopen

namespace Use

/-- What one gets to see. -/
def Answer : Use → Type
  | .call r => r.Response
  | .reopen => Except Error Unit

/-- The identifier that is used, if the use is a `call` about one. -/
def subject? : Use → Option String
  | .call r => r.subject?
  | .reopen => none

/-- The storage is called or opened again, and nothing else is asked for. -/
def IsProper : Use → Prop
  | .call r => r.IsStorageCall
  | .reopen => True

end Use

end Storage

namespace World

open Storage (Use)

/-- Opens the storage again. A `Vault` is given the master key that it had; there is nothing to do
for a storage in memory. -/
def reopen (w : World) : Except Error Unit × World :=
  match w.storage with
  | .vault v =>
    match v.reopen v.masterKey with
    | .ok v => (.ok (), { w with storage := .vault v })
    | .error e => (.error e, w)
  | .memory _ | .failing _ => (.ok (), w)

/-- What a use of the storage gets to see, and the world after it. -/
def use : (u : Use) → World → u.Answer × World
  | .call r, w => w.answer r
  | .reopen, w => w.reopen

/-- What each `use` gets to see, one after the other. -/
def answers (w : World) : List Use → List (Σ u : Use, u.Answer)
  | [] => []
  | u :: uses => ⟨u, (use u w).1⟩ :: answers (use u w).2 uses

end World

/-! ## Vaults that represent memories -/

namespace Storage

/-- What stands in an identifier's place in a vault that `Represents` a memory: nothing, or a file
that opens to the data. -/
inductive Stands (v : Vault) (identifier : String) : Option Bytes → Prop where
  | nothing : v.entry? identifier = none → Stands v identifier none
  | file {content data : Bytes} : v.entry? identifier = some (.file content) →
    v.openEntry? (Vault.stem identifier) content = some (identifier, data) →
    Stands v identifier (some data)

/-- Nothing but the entry in its place counts for what `Stands` for an identifier. -/
theorem Stands.of_entry?_eq {v : Vault} {identifier : String} {held : Option Bytes}
    {entries : Option (Table Entry)} (h : Stands v identifier held)
    (hentry : Vault.entry? { v with entries } identifier = v.entry? identifier) :
    Stands { v with entries } identifier held := by
  cases h with
  | nothing hnone => exact .nothing (hentry.trans hnone)
  | file hfile hopen => exact .file (hentry.trans hfile) hopen

/-- Texts that are sorted are in order. -/
theorem pairwise_mergeSort (texts : List String) :
    (texts.mergeSort (· ≤ ·)).Pairwise (· ≤ ·) := by
  have h := @List.pairwise_mergeSort String (fun a b => decide (a ≤ b))
    (fun a b c => by simpa using String.le_trans) (fun a b => by simpa using String.le_total a b)
    texts
  simpa using h

/-- The vault `v` represents the memory `m`, as far as the used identifiers go, and there is nothing
else in either. -/
structure Represents (used : List String) (v : Vault) (m : Memory) : Prop where
  stands : ∀ identifier ∈ used, Stands v identifier (m.get? identifier)
  folder : ∃ entries, v.entries = some entries
    ∧ ∀ name ∈ entries.keys, ∃ identifier ∈ used, name = Vault.fileName identifier
  keys_used : ∀ identifier ∈ m.keys, identifier ∈ used

/-- The `used` identifiers have file names of their own, and the payload can say how long they are.
-/
structure Usable (used : List String) : Prop where
  fileName_inj : ∀ a ∈ used, ∀ b ∈ used, Vault.fileName a = Vault.fileName b → a = b
  length_lt : ∀ identifier ∈ used, (Bytes.ofText identifier).length < UInt32.size

namespace Represents

variable {used : List String} {v : Vault} {m : Memory} {identifier : String}

theorem retrieve_eq (h : Represents used v m) (hidentifier : identifier ∈ used) :
    v.retrieve identifier = m.retrieve identifier := by
  have hstands := h.stands identifier hidentifier
  rw [Vault.retrieve, Memory.retrieve]
  generalize m.get? identifier = held at hstands ⊢
  cases hstands with
  | nothing hentry => rw [hentry]
  | file hentry hopen =>
    simp only [hentry, hopen, if_true]

theorem contains_eq (h : Represents used v m) (hidentifier : identifier ∈ used) :
    v.contains identifier = m.contains identifier := by
  have hstands := h.stands identifier hidentifier
  rw [Vault.contains, Table.contains]
  generalize m.get? identifier = held at hstands ⊢
  cases hstands with
  | nothing hentry => rw [hentry]; rfl
  | file hentry _ => rw [hentry]; rfl

/-- What is stored takes its place in both, and leaves every other place alone: the vault still
`Represents` the memory. -/
theorem store (h : Represents used v m) (hused : Usable used) (hidentifier : identifier ∈ used)
    (data : Bytes) (vector : Bytes.Sized Vault.vectorSize) :
    ∃ v', v.store identifier data vector.1 = .ok v'
      ∧ Represents used v' (m.insert identifier data) := by
  obtain ⟨entries, hentries, hnames⟩ := h.folder
  have hstore : v.store identifier data vector.1 = .ok { v with
      entries := some (entries.insert (Vault.fileName identifier)
        (.file (v.sealEntry identifier data vector.1))) } := by
    have hstands := h.stands identifier hidentifier
    rw [Vault.store, if_neg (Nat.not_le.2 (hused.length_lt identifier hidentifier)), hentries]
    generalize m.get? identifier = held at hstands
    cases hstands with
    | nothing hentry => rw [hentry]
    | file hentry _ => rw [hentry]
  refine ⟨_, hstore, fun k hk => ?_, ⟨_, rfl, fun name hname => ?_⟩, fun k hk => ?_⟩
  · rw [Table.get?_insert]
    by_cases hsame : k = identifier
    · subst hsame
      rw [if_pos rfl]
      refine @Stands.file _ _ (v.sealEntry k data vector.1) _ ?_
        (v.openEntry?_sealEntry (hused.length_lt k hk) data vector)
      show (entries.insert _ _).get? _ = _
      rw [Table.get?_insert, if_pos rfl]
    · have hname : Vault.fileName k ≠ Vault.fileName identifier :=
        fun heq => hsame (hused.fileName_inj k hk identifier hidentifier heq)
      rw [if_neg hsame]
      apply (h.stands k hk).of_entry?_eq
      rw [Vault.entry?, Vault.entry?, hentries]
      show (entries.insert _ _).get? _ = entries.get? _
      rw [Table.get?_insert, if_neg hname]
  · rcases Table.mem_keys_insert_iff.1 hname with rfl | hname
    · exact ⟨identifier, hidentifier, rfl⟩
    · exact hnames name hname
  · rcases Table.mem_keys_insert_iff.1 hk with rfl | hk
    · exact hidentifier
    · exact h.keys_used k hk

/-- What is deleted is deleted from both; what is in neither is found in neither. The vault still
`Represents` the memory. -/
theorem delete (h : Represents used v m) (hused : Usable used) (hidentifier : identifier ∈ used) :
    (v.delete identifier = .error (.notFound identifier)
        ∧ m.delete identifier = .error (.notFound identifier))
      ∨ ∃ v', v.delete identifier = .ok v' ∧ m.delete identifier = .ok (m.erase identifier)
        ∧ Represents used v' (m.erase identifier) := by
  obtain ⟨entries, hentries, hnames⟩ := h.folder
  have hstands := h.stands identifier hidentifier
  rw [Vault.delete, Memory.delete, Table.contains]
  generalize m.get? identifier = held at hstands ⊢
  cases hstands with
  | nothing hentry =>
    rw [hentry]
    exact .inl ⟨rfl, rfl⟩
  | file hentry _ =>
    rw [hentry, hentries]
    refine .inr ⟨_, rfl, rfl, fun k hk => ?_, ⟨_, rfl, fun name hname => ?_⟩, fun k hk => ?_⟩
    · rw [Table.get?_erase]
      by_cases hsame : k = identifier
      · subst hsame
        rw [if_pos rfl]
        refine .nothing ?_
        show (entries.erase _).get? _ = none
        rw [Table.get?_erase, if_pos rfl]
      · have hname : Vault.fileName k ≠ Vault.fileName identifier :=
          fun heq => hsame (hused.fileName_inj k hk identifier hidentifier heq)
        rw [if_neg hsame]
        apply (h.stands k hk).of_entry?_eq
        rw [Vault.entry?, Vault.entry?, hentries]
        show (entries.erase _).get? _ = entries.get? _
        rw [Table.get?_erase, if_neg hname]
    · exact hnames name (Table.mem_keys_erase_iff.1 hname).2
    · exact h.keys_used k (Table.mem_keys_erase_iff.1 hk).2

/-! ### Listing -/

/-- An entry of the folder is a file that gives an identifier by `identifierOf`, and it has that
identifier's `fileName`. -/
private theorem exists_identifierOf (h : Represents used v m) {entries : Table Entry}
    (hentries : v.entries = some entries) {e : String × Entry} (he : e ∈ entries.entries) :
    ∃ identifier ∈ used, v.identifierOf e.1 e.2 = .ok (some identifier)
      ∧ e.1 = Vault.fileName identifier := by
  obtain ⟨entries', hentries', hnames⟩ := h.folder
  obtain rfl : entries = entries' := Option.some.inj (hentries.symm.trans hentries')
  obtain ⟨identifier, hidentifier, hname⟩ := hnames e.1 (List.mem_map_of_mem he)
  have hentry : v.entry? identifier = some e.2 := by
    rw [Vault.entry?, hentries, ← hname]
    exact Table.get?_of_mem he
  have hstands := h.stands identifier hidentifier
  refine ⟨identifier, hidentifier, ?_, hname⟩
  generalize m.get? identifier = held at hstands
  cases hstands with
  | nothing hnone =>
    rw [hnone] at hentry
    cases hentry
  | file hfile hopen =>
    rw [hfile] at hentry
    unfold Vault.identifierOf
    rw [hname, Vault.stem?_fileName, ← Option.some.inj hentry]
    simp only [hopen, Option.map_some]

/-- The files in the folder are read one after the other. -/
private theorem exists_identifiers (h : Represents used v m) {entries : Table Entry}
    (hentries : v.entries = some entries) {files : List (String × Entry)}
    (hfiles : ∀ e ∈ files, e ∈ entries.entries) :
    ∃ found : List String, files.mapM (fun e => v.identifierOf e.1 e.2) = .ok (found.map some)
      ∧ files.map (·.1) = found.map Vault.fileName ∧ ∀ identifier ∈ found, identifier ∈ used := by
  induction files with
  | nil => exact ⟨[], rfl, rfl, List.forall_mem_nil _⟩
  | cons e files ih =>
    obtain ⟨he, hrest⟩ := List.forall_mem_cons.1 hfiles
    obtain ⟨identifier, hidentifier, hread, hname⟩ := h.exists_identifierOf hentries he
    obtain ⟨found, hfound, hnames, hused⟩ := ih hrest
    refine ⟨identifier :: found, ?_, ?_, List.forall_mem_cons.2 ⟨hidentifier, hused⟩⟩
    · rw [List.mapM_cons, hread, hfound]
      rfl
    · rw [List.map_cons, List.map_cons, hname, hnames]

/-- The `identifiers` of the vault are the keys of the memory, in the same order. -/
theorem identifiers_eq (h : Represents used v m) (hused : Usable used) :
    v.identifiers = .ok m.keys := by
  obtain ⟨entries, hentries, -⟩ := h.folder
  obtain ⟨found, hfound, hnames, hmem⟩ := h.exists_identifiers hentries fun _ he => he
  have hread : v.identifiers = .ok (found.mergeSort (· ≤ ·)) := by
    rw [Vault.identifiers, hentries]
    simp only [hfound]
    show Except.ok (((found.map some).filterMap id).mergeSort _) = _
    rw [List.filterMap_map, Function.id_comp, List.filterMap_some]
  -- An identifier is found if its name is in the folder, and its name is there if it has data.
  have hplace : ∀ identifier ∈ used, Vault.fileName identifier ∈ entries.keys
      ↔ identifier ∈ m.keys := by
    intro identifier hidentifier
    rw [Table.mem_keys_iff, Table.mem_keys_iff, ← h.contains_eq hidentifier, Vault.contains,
      Vault.entry?, hentries]
    rfl
  have hiff : ∀ identifier, identifier ∈ found ↔ identifier ∈ m.keys := by
    intro identifier
    constructor
    · intro hidentifier
      apply (hplace identifier (hmem identifier hidentifier)).1
      rw [Table.keys, hnames]
      exact List.mem_map_of_mem hidentifier
    · intro hidentifier
      have hidentifier_used := h.keys_used identifier hidentifier
      have hname := (hplace identifier hidentifier_used).2 hidentifier
      rw [Table.keys, hnames] at hname
      obtain ⟨other, hother, heq⟩ := List.mem_map.1 hname
      rwa [hused.fileName_inj identifier hidentifier_used other (hmem other hother) heq.symm]
  have hfound_nodup : found.Nodup := by
    have hkeys : (found.map Vault.fileName).Nodup := by
      rw [← hnames]
      exact entries.keys_ascending.imp Table.ne_of_lt
    exact List.Pairwise.of_map _ (fun _ _ hne heq => hne (congrArg _ heq)) hkeys
  have hkeys_nodup : m.keys.Nodup := m.keys_ascending.imp Table.ne_of_lt
  have hperm : (found.mergeSort (· ≤ ·)).Perm m.keys :=
    (List.mergeSort_perm found _).trans
      ((List.perm_ext_iff_of_nodup hfound_nodup hkeys_nodup).2 hiff)
  have hsorted := pairwise_mergeSort found
  have hkeys_sorted : m.keys.Pairwise (· ≤ ·) :=
    m.keys_ascending.imp fun hlt => String.not_lt.1 (String.lt_asymm hlt)
  rw [hread, hperm.eq_of_pairwise (fun _ _ _ _ => String.le_antisymm) hsorted hkeys_sorted]

/-- A `reopen` of a vault with its own master key changes nothing. -/
theorem reopen_eq (h : Represents used v m) : v.reopen v.masterKey = .ok v := by
  obtain ⟨entries, hentries, -⟩ := h.folder
  rw [Vault.reopen, hentries]
  show Vault.openAt v.path (.folder entries) v.masterKey = .ok v
  rw [Vault.openAt, dif_pos v.length_masterKey]
  simp only [← hentries]

end Represents

/-- A folder in which there is nothing `Represents` the memory in which there is nothing. -/
private theorem represents_empty {used : List String} {v : Vault}
    (h : v.entries = some Table.empty) : Represents used v Table.empty where
  stands identifier _ := .nothing (by rw [Vault.entry?, h]; rfl)
  folder := ⟨Table.empty, h, fun _ hname => absurd hname List.not_mem_nil⟩
  keys_used _ hkey := absurd hkey List.not_mem_nil

end Storage

/-! ## Sequences of calls -/

section Answers

open Storage (Use Represents Usable)

variable {used : List String} {v : Vault} {m : Memory} {vw mw : World}

/-- A vault and the memory it `Represents` answer a call alike, and the one still represents the
other. -/
theorem answer_eq_of_represents (h : Represents used v m) (hused : Usable used)
    (hv : vw.storage = .vault v) (hm : mw.storage = .memory m) {r : Request}
    (hcall : r.IsStorageCall) (hsubject : ∀ identifier, r.subject? = some identifier →
      identifier ∈ used) :
    (World.answer r vw).1 = (World.answer r mw).1
      ∧ ∃ v' m', (World.answer r vw).2.storage = .vault v'
        ∧ (World.answer r mw).2.storage = .memory m' ∧ Represents used v' m' := by
  cases r with
  | store identifier data =>
    obtain ⟨v', hstore, hafter⟩ := h.store hused (hsubject identifier rfl) data
      (vw.entropy.draw Vault.vectorSize).1
    simp only [World.answer, World.store, hv, hm, hstore]
    exact ⟨rfl, v', _, rfl, rfl, hafter⟩
  | retrieve identifier =>
    simp only [World.answer, World.retrieve, hv, hm, h.retrieve_eq (hsubject identifier rfl)]
    exact ⟨rfl, v, m, rfl, rfl, h⟩
  | delete identifier =>
    rcases h.delete hused (hsubject identifier rfl) with ⟨hvault, hmemory⟩
      | ⟨v', hvault, hmemory, hafter⟩
    · simp only [World.answer, World.delete, World.deleteFrom, hv, hm, hvault, hmemory]
      exact ⟨rfl, v, m, rfl, rfl, h⟩
    · simp only [World.answer, World.delete, World.deleteFrom, hv, hm, hvault, hmemory]
      exact ⟨rfl, v', _, rfl, rfl, hafter⟩
  | contains identifier =>
    simp only [World.answer, World.contains, hv, hm, h.contains_eq (hsubject identifier rfl)]
    exact ⟨rfl, v, m, rfl, rfl, h⟩
  | list =>
    simp only [World.answer, World.list, hv, hm, h.identifiers_eq hused]
    exact ⟨rfl, v, m, rfl, rfl, h⟩
  | now | draw | acquire | release => cases hcall

/-- So with every `Use` of them. -/
theorem use_eq_of_represents (h : Represents used v m) (hused : Usable used)
    (hv : vw.storage = .vault v) (hm : mw.storage = .memory m) {u : Use}
    (hproper : u.IsProper) (hsubject : ∀ identifier, u.subject? = some identifier →
      identifier ∈ used) :
    (World.use u vw).1 = (World.use u mw).1
      ∧ ∃ v' m', (World.use u vw).2.storage = .vault v'
        ∧ (World.use u mw).2.storage = .memory m' ∧ Represents used v' m' := by
  cases u with
  | call r => exact answer_eq_of_represents h hused hv hm hproper hsubject
  | reopen =>
    simp only [World.use, World.reopen, hv, hm, h.reopen_eq]
    exact ⟨rfl, v, m, rfl, rfl, h⟩

theorem answers_eq_of_represents (h : Represents used v m) (hused : Usable used)
    (hv : vw.storage = .vault v) (hm : mw.storage = .memory m) {uses : List Use}
    (hproper : ∀ u ∈ uses, u.IsProper)
    (hsubject : ∀ u ∈ uses, ∀ identifier, u.subject? = some identifier → identifier ∈ used) :
    vw.answers uses = mw.answers uses := by
  induction uses generalizing vw mw v m with
  | nil => rfl
  | cons u uses ih =>
    obtain ⟨hproper_u, hproper⟩ := List.forall_mem_cons.1 hproper
    obtain ⟨hsubject_u, hsubject⟩ := List.forall_mem_cons.1 hsubject
    obtain ⟨hanswer, v', m', hv', hm', h'⟩ :=
      use_eq_of_represents h hused hv hm hproper_u hsubject_u
    rw [World.answers, World.answers, hanswer, ih h' hv' hm' hproper hsubject]

end Answers

open Storage (Use) in
/-- The two storages cannot be told apart. A `Vault` that starts on an empty folder, or where there
is none yet, and is opened again with its master key now and then, gives one by one the `answers`
that a storage in memory gives: to any sequence of calls, whatever the identifiers and the data, and
whatever vectors are drawn. The identifiers are `Usable`: shorter than four bytes can say, and no
two of them have one digest. -/
theorem answers_vault_eq_answers_memory {place : Storage.Place} {masterKey : Bytes}
    (hplace : place = .nothing ∨ place = .folder Table.empty)
    (hkey : masterKey.length = Cipher.Algorithm.aesGcm.keySize) (path : String) {uses : List Use}
    (hproper : ∀ u ∈ uses, u.IsProper)
    (hlength : ∀ identifier ∈ uses.filterMap Use.subject?,
      (Bytes.ofText identifier).length < UInt32.size)
    (hdigests : ∀ a ∈ uses.filterMap Use.subject?, ∀ b ∈ uses.filterMap Use.subject?,
      Hash.Sha256.digest (Bytes.ofText a) = Hash.Sha256.digest (Bytes.ofText b) → a = b) :
    ∃ v, Vault.openAt path place masterKey = .ok v
      ∧ ∀ vw mw : World, vw.storage = .vault v → mw.storage = .memory Table.empty →
        vw.answers uses = mw.answers uses := by
  have hopen : Vault.openAt path place masterKey
      = .ok ⟨path, some Table.empty, masterKey, hkey⟩ := by
    rw [Vault.openAt, dif_pos hkey]
    rcases hplace with rfl | rfl <;> rfl
  have hused : Storage.Usable (uses.filterMap Use.subject?) := by
    refine ⟨fun a ha b hb hname => ?_, hlength⟩
    exact hdigests a ha b hb (Vault.digest_eq_of_fileName_eq hname)
  refine ⟨_, hopen, fun vw mw hv hm => ?_⟩
  apply answers_eq_of_represents (Storage.represents_empty rfl) hused hv hm hproper
  intro u hu identifier hidentifier
  exact List.mem_filterMap.2 ⟨u, hu, hidentifier⟩

open Storage (Use) in
/-- Two entries that are listed after the storage was opened again, one of them overwritten and the
other deleted. -/
def twoEntries : List Use :=
  [.call (.store "b" [1]), .call (.store "a" [2]), .reopen, .call .list, .call (.store "b" [3]),
    .call (.retrieve "b"), .call (.delete "a"), .call (.delete "a")]

theorem twoEntries_proper : ∀ u ∈ twoEntries, u.IsProper := by
  simp [twoEntries, Storage.Use.IsProper, Request.IsStorageCall]

theorem answers_twoEntries :
    (∀ u ∈ twoEntries, u.IsProper)
      ∧ ∃ v, Vault.openAt "/vault" .nothing (List.replicate 32 7) = .ok v
        ∧ ∀ vw mw : World, vw.storage = .vault v → mw.storage = .memory Table.empty →
          vw.answers twoEntries = mw.answers twoEntries := by
  refine ⟨twoEntries_proper,
    answers_vault_eq_answers_memory (.inl rfl) rfl "/vault" twoEntries_proper ?_ ?_⟩
  · decide +kernel
  · decide +kernel

end Strongbox
