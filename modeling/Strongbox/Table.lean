/-!
# Tables keyed by text

A `Table α` maps texts to values of `α` and keeps its entries in ascending order of the keys.
Storage contents, key attributes, token claims, session contexts and revocations are all tables,
so "in key order" needs no second thought anywhere: it is the order of `entries`.

The order is part of the type. Two tables that answer every `get?` alike are therefore equal
(`Table.ext_get?`), which is what makes "nothing else changed" a statement about `get?` alone.

## Main results

* `get?_insert`, `get?_erase`, `get?_filter`: each operation through the view `get?`.
* `ext_get?`: a table is determined by its answers.
-/

namespace Strongbox

/-- A finite map from texts to `α`, listed by ascending key. -/
structure Table (α : Type) where
  entries : List (String × α)
  ascending : entries.Pairwise (fun a b => a.1 < b.1)
  deriving DecidableEq

namespace Table

variable {α β : Type}

/-! ## Entry lists -/

/-- The value of the first entry under `key`. -/
def findEntry (key : String) : List (String × α) → Option α
  | [] => none
  | (k, v) :: rest => if key = k then some v else findEntry key rest

/-- The entry list with `value` under `key`, which takes the place of an entry of that key. -/
def insertEntry (key : String) (value : α) : List (String × α) → List (String × α)
  | [] => [(key, value)]
  | (k, v) :: rest =>
    if key < k then (key, value) :: (k, v) :: rest
    else if k < key then (k, v) :: insertEntry key value rest
    else (key, value) :: rest

private theorem mem_insertEntry {key : String} {value : α} {e : String × α} {l : List (String × α)}
    (h : e ∈ insertEntry key value l) : e = (key, value) ∨ e ∈ l := by
  induction l with
  | nil => simpa [insertEntry] using h
  | cons head rest ih =>
    obtain ⟨k, v⟩ := head
    rw [insertEntry] at h
    split at h
    · simpa using h
    · split at h
      · rcases List.mem_cons.1 h with h | h
        · exact Or.inr (by simp [h])
        · rcases ih h with h | h
          · exact Or.inl h
          · exact Or.inr (by simp [h])
      · rcases List.mem_cons.1 h with h | h
        · exact Or.inl h
        · exact Or.inr (by simp [h])

/-- Two texts neither of which precedes the other are one text. -/
theorem eq_of_not_lt {a b : String} (hab : ¬ a < b) (hba : ¬ b < a) : a = b :=
  String.le_antisymm (String.not_lt.1 hba) (String.not_lt.1 hab)

theorem ne_of_lt {a b : String} (h : a < b) : a ≠ b :=
  fun e => String.lt_irrefl b (e ▸ h)

private theorem insertEntry_ascending (key : String) (value : α) {l : List (String × α)}
    (h : l.Pairwise (fun a b => a.1 < b.1)) :
    (insertEntry key value l).Pairwise (fun a b => a.1 < b.1) := by
  induction l with
  | nil => simp [insertEntry]
  | cons head rest ih =>
    obtain ⟨k, v⟩ := head
    obtain ⟨hhead, hrest⟩ := List.pairwise_cons.1 h
    rw [insertEntry]
    split
    · rename_i hlt
      refine List.pairwise_cons.2 ⟨fun e he => ?_, h⟩
      rcases List.mem_cons.1 he with rfl | he
      · exact hlt
      · exact String.lt_trans hlt (hhead e he)
    · split
      · rename_i hgt
        refine List.pairwise_cons.2 ⟨fun e he => ?_, ih hrest⟩
        rcases mem_insertEntry he with rfl | he
        · exact hgt
        · exact hhead e he
      · rename_i hlt hgt
        have hkey : key = k := eq_of_not_lt hlt hgt
        exact List.pairwise_cons.2 ⟨fun e he => hkey ▸ hhead e he, hrest⟩

/-! ## Operations -/

/-- The table without entries. -/
def empty : Table α := ⟨[], List.Pairwise.nil⟩

instance : Inhabited (Table α) := ⟨empty⟩

/-- The value under `key`. -/
def get? (t : Table α) (key : String) : Option α := findEntry key t.entries

/-- Whether there is an entry under `key`. -/
def contains (t : Table α) (key : String) : Bool := (t.get? key).isSome

/-- The table with `value` under `key`, in place of any earlier value. -/
def insert (t : Table α) (key : String) (value : α) : Table α :=
  ⟨insertEntry key value t.entries, insertEntry_ascending key value t.ascending⟩

/-- The entries that satisfy `keep`. -/
def filter (keep : String → α → Bool) (t : Table α) : Table α :=
  ⟨t.entries.filter (fun e => keep e.1 e.2), t.ascending.filter _⟩

/-- The table without an entry under `key`. -/
def erase (t : Table α) (key : String) : Table α := t.filter (fun k _ => k != key)

/-- The keys, ascending. -/
def keys (t : Table α) : List String := t.entries.map (·.1)

/-- The number of entries. -/
def size (t : Table α) : Nat := t.entries.length

/-- Whether there are no entries. -/
def isEmpty (t : Table α) : Bool := t.entries.isEmpty

/-- The table of a list of entries; of two entries with one key the later counts. -/
def ofList (entries : List (String × α)) : Table α :=
  entries.foldl (fun t e => t.insert e.1 e.2) empty

/-! ## The view -/

@[simp] theorem get?_empty (key : String) : (empty : Table α).get? key = none := rfl

private theorem findEntry_insertEntry (key : String) (value : α) (l : List (String × α))
    (k : String) :
    findEntry k (insertEntry key value l) = if k = key then some value else findEntry k l := by
  induction l with
  | nil => simp [insertEntry, findEntry]
  | cons head rest ih =>
    obtain ⟨k', v⟩ := head
    rw [insertEntry]
    split
    · simp [findEntry]
    · split
      · rename_i hgt
        by_cases hk : k = k'
        · simp [findEntry, hk, ne_of_lt hgt]
        · simp [findEntry, hk, ih]
      · rename_i hlt hgt
        have hkey : key = k' := eq_of_not_lt hlt hgt
        by_cases h : k = key
        · simp [findEntry, h]
        · simp [findEntry, h, hkey ▸ h]

/-- An insertion answers under its own key and leaves every other answer alone. -/
@[simp] theorem get?_insert (t : Table α) (key : String) (value : α) (k : String) :
    (t.insert key value).get? k = if k = key then some value else t.get? k :=
  findEntry_insertEntry key value t.entries k

theorem findEntry_eq_none_of_lt {l : List (String × α)} {k : String}
    (h : ∀ e ∈ l, k < e.1) : findEntry k l = none := by
  induction l with
  | nil => rfl
  | cons head rest ih =>
    obtain ⟨k', v⟩ := head
    have hne : k ≠ k' := ne_of_lt (h (k', v) (by simp))
    simp [findEntry, hne, ih (fun e he => h e (by simp [he]))]

/-- The keys are those that have an answer. -/
theorem mem_keys_iff {t : Table α} {k : String} : k ∈ t.keys ↔ t.contains k = true := by
  rw [keys, contains, get?]
  induction t.entries with
  | nil => simp [findEntry]
  | cons e rest ih =>
    rw [List.map_cons, List.mem_cons, findEntry, ih]
    by_cases hk : k = e.1 <;> simp [hk]

/-- An entry is the answer under its key. -/
theorem get?_of_mem {t : Table α} {e : String × α} (h : e ∈ t.entries) :
    t.get? e.1 = some e.2 := by
  obtain ⟨entries, hascending⟩ := t
  show findEntry e.1 entries = some e.2
  induction entries with
  | nil => cases h
  | cons head rest ih =>
    obtain ⟨hhead, hrest⟩ := List.pairwise_cons.1 hascending
    rw [findEntry]
    rcases List.mem_cons.1 h with rfl | h
    · exact if_pos rfl
    · rw [if_neg (ne_of_lt (hhead e h)).symm]
      exact ih hrest h

theorem keys_ascending (t : Table α) : t.keys.Pairwise (· < ·) :=
  List.pairwise_map.2 t.ascending

private theorem findEntry_filter (keep : String → α → Bool) {l : List (String × α)}
    (h : l.Pairwise (fun a b => a.1 < b.1)) (k : String) :
    findEntry k (l.filter (fun e => keep e.1 e.2)) = (findEntry k l).filter (keep k) := by
  induction l with
  | nil => rfl
  | cons head rest ih =>
    obtain ⟨k', v⟩ := head
    obtain ⟨hhead, hrest⟩ := List.pairwise_cons.1 h
    by_cases hk : k = k'
    · subst hk
      have hnone : findEntry k rest = none := findEntry_eq_none_of_lt hhead
      by_cases hp : keep k v
      · simp [hp, findEntry, Option.filter]
      · simp [hp, findEntry, Option.filter, ih hrest, hnone]
    · by_cases hp : keep k' v
      · simp [hp, findEntry, hk, ih hrest]
      · simp [hp, findEntry, hk, ih hrest]

/-- Filtering drops an answer exactly when the entry is not kept. -/
@[simp] theorem get?_filter (keep : String → α → Bool) (t : Table α) (k : String) :
    (t.filter keep).get? k = (t.get? k).filter (keep k) :=
  findEntry_filter keep t.ascending k

/-- An erased key has no answer; every other answer stays. -/
@[simp] theorem get?_erase (t : Table α) (key k : String) :
    (t.erase key).get? k = if k = key then none else t.get? k := by
  rw [erase, get?_filter]
  by_cases h : k = key
  · cases t.get? k <;> simp [h, Option.filter]
  · cases t.get? k <;> simp [h, Option.filter]

theorem mem_keys_insert_iff {t : Table α} {key k : String} {value : α} :
    k ∈ (t.insert key value).keys ↔ k = key ∨ k ∈ t.keys := by
  rw [mem_keys_iff, mem_keys_iff, contains, contains, get?_insert]
  by_cases h : k = key <;> simp [h]

theorem mem_keys_erase_iff {t : Table α} {key k : String} :
    k ∈ (t.erase key).keys ↔ k ≠ key ∧ k ∈ t.keys := by
  rw [mem_keys_iff, mem_keys_iff, contains, contains, get?_erase]
  by_cases h : k = key <;> simp [h]

private theorem entries_ext {l m : List (String × α)}
    (hl : l.Pairwise (fun a b => a.1 < b.1)) (hm : m.Pairwise (fun a b => a.1 < b.1))
    (h : ∀ k, findEntry k l = findEntry k m) : l = m := by
  induction l generalizing m with
  | nil =>
    cases m with
    | nil => rfl
    | cons head rest => simpa [findEntry] using h head.1
  | cons a l ih =>
    cases m with
    | nil => simpa [findEntry] using h a.1
    | cons b m =>
      obtain ⟨ka, va⟩ := a
      obtain ⟨kb, vb⟩ := b
      obtain ⟨ha, hl'⟩ := List.pairwise_cons.1 hl
      obtain ⟨hb, hm'⟩ := List.pairwise_cons.1 hm
      have before {k k' : String} {v : α} {r : List (String × α)}
          (hr : ∀ e ∈ r, k' < e.1) (hlt : k < k') : findEntry k ((k', v) :: r) = none :=
        findEntry_eq_none_of_lt fun e he => by
          rcases List.mem_cons.1 he with rfl | he
          · exact hlt
          · exact String.lt_trans hlt (hr e he)
      have hkey : ka = kb := by
        refine eq_of_not_lt (fun hlt => ?_) (fun hlt => ?_)
        · have := h ka
          rw [before hb hlt] at this
          simp [findEntry] at this
        · have := h kb
          rw [before ha hlt] at this
          simp [findEntry] at this
      subst hkey
      have hval : va = vb := by simpa [findEntry] using h ka
      subst hval
      refine congrArg ((ka, va) :: ·) (ih hl' hm' fun k => ?_)
      by_cases hk : k = ka
      · rw [hk, findEntry_eq_none_of_lt ha, findEntry_eq_none_of_lt hb]
      · simpa [findEntry, hk] using h k

/-- Tables that answer alike are equal. -/
theorem ext_get? {t u : Table α} (h : ∀ k, t.get? k = u.get? k) : t = u := by
  cases t; cases u
  simp only [mk.injEq]
  exact entries_ext ‹_› ‹_› h

end Table

end Strongbox
