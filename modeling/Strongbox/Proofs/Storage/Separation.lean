import Strongbox.Proofs.Account.Composition
import Strongbox.Proofs.Key.Operation
/-!
# Keys and accounts keep apart

Keys, their metadata and the password hashes of accounts lie in one storage, under locations that
begin differently: `key:` and `metadata:` make up the region of keys, `credential:` that of
accounts. Every operation builds its locations behind one of these beginnings, whatever the
identifier, and whoever lists the storage passes over what begins otherwise. So operations on keys
are confined to the one region and operations on accounts to the other.

In a sequence that mixes both, the operations of one kind therefore have the results that they have
without those of the other kind, each in the same circumstances.

## Main results

* `Key.Task.confined`, `Account.Operation.confined`: what each operation sees and touches.
* `keys_and_accounts_apart`: neither kind of operation shows in the results of the other.
-/

namespace Strongbox

open Storage (Memory)

/-! ## Keys -/

namespace Key

/-- What can be done with keys: by those who manage and rotate them, or with keys and metadata each
alone. -/
inductive Task where
  | operation (o : Operation)
  | storeKey (identifier : String) (key : Bytes)
  | createKey (identifier : String) (key : Bytes)
  | deleteKey (identifier : String)
  | hasKey (identifier : String)
  | keys
  | storeMetadata (m : Metadata)
  | deleteMetadata (identifier : String)
  | identifiers

namespace Task

/-- What a task has as its result. -/
def Result : Task → Type
  | operation o => o.Result
  | storeKey _ _ | createKey _ _ | deleteKey _ | storeMetadata _ | deleteMetadata _ => Unit
  | hasKey _ => Bool
  | keys | identifiers => List String

/-- What is done: the `Action` of the task. -/
def action : (t : Task) → Action t.Result
  | operation o => o.action
  | storeKey identifier key => Material.store identifier key
  | createKey identifier key => Material.create identifier key
  | deleteKey identifier => Material.delete identifier
  | hasKey identifier => Material.contains identifier
  | keys => Material.identifiers
  | storeMetadata m => Catalogue.store m
  | deleteMetadata identifier => Catalogue.delete identifier
  | identifiers => Catalogue.identifiers

theorem works (t : Task) : Works 0 t.action := by
  cases t with
  | operation o => exact o.works
  | storeKey identifier key => exact (Material.works_store identifier key).mono (Nat.zero_le 2)
  | createKey identifier key => exact (Material.works_create identifier key).mono (Nat.zero_le 2)
  | deleteKey identifier => exact (Material.works_delete identifier).mono (Nat.zero_le 2)
  | hasKey identifier => exact (Material.works_contains identifier).mono (Nat.zero_le 2)
  | keys => exact Material.inspects_identifiers.works (Nat.zero_le 2)
  | storeMetadata m => exact (Catalogue.works_store m).mono (Nat.zero_le 2)
  | deleteMetadata identifier => exact (Catalogue.works_delete identifier).mono (Nat.zero_le 2)
  | identifiers => exact Catalogue.inspects_identifiers.works (Nat.zero_le 2)

theorem confined (t : Task) : t.action.Confined region := t.works.confined

end Task

end Key

theorem Account.Operation.confined (s : Services) (session : Session) (o : Account.Operation) :
    (o.action s session).Confined Account.region :=
  (o.composed s session).confined

/-- No location is in both the `Key.region` and the `Account.region`. -/
theorem region_disjoint {location : String} (h : Key.region location = true) :
    Account.region location = false := by
  rw [Bool.eq_false_iff]
  intro haccount
  obtain ⟨rest, hrest⟩ := List.isPrefixOf_iff_prefix.1 haccount
  rcases Bool.or_eq_true_iff.1 h with hbegins | hbegins <;>
  · obtain ⟨other, hother⟩ := List.isPrefixOf_iff_prefix.1 hbegins
    cases hrest.trans hother.symm

/-! ## Mixed sequences -/

/-- An operation on keys, or on accounts through some `Services`. -/
inductive Errand where
  | key (t : Key.Task)
  | account (v : Account.Visit)

/-- The data and the sessions of all services. -/
structure Site where
  data : Memory
  sessions : Nat → Session

namespace Errand

/-- What an errand has as its result. -/
def Result : Errand → Type
  | key t => t.Result
  | account v => v.operation.Result

/-- Whether the errand is about keys. -/
def isKey : Errand → Bool
  | key _ => true
  | account _ => false

variable (services : Nat → Services)

/-- What comes of an errand in some `Circumstances`, and the site after it. -/
def run (c : Circumstances) (site : Site) : (e : Errand) → Outcome e.Result × Site
  | key t =>
    let (outcome, data, _) := t.action.perform c.answer (site.data, 0)
    (outcome, { site with data })
  | account v =>
    let (outcome, (data, _), sessions) := v.run c.answer services (site.data, 0) site.sessions
    (outcome, ⟨data, sessions⟩)

/-- What comes of errands one after the other, each in its `Circumstances`. -/
def results (site : Site) : List (Errand × Circumstances) → List (Σ e : Errand, Outcome e.Result)
  | [] => []
  | (e, c) :: rest => ⟨e, (e.run services c site).1⟩ :: results (e.run services c site).2 rest

variable {services : Nat → Services} {c : Circumstances} {site other : Site}

theorem results_filter (kind : Errand → Bool) (Alike : Site → Site → Prop)
    (hkind : ∀ (e : Errand) (c : Circumstances) (x y : Site), kind e = true → Alike x y →
      (e.run services c x).1 = (e.run services c y).1
        ∧ Alike (e.run services c x).2 (e.run services c y).2)
    (hother : ∀ (e : Errand) (c : Circumstances) (x y : Site), kind e = false → Alike x y →
      Alike (e.run services c x).2 y)
    {errands : List (Errand × Circumstances)} (halike : Alike site other) :
    (results services site errands).filter (fun r => kind r.1)
      = results services other (errands.filter fun e => kind e.1) := by
  induction errands generalizing site other with
  | nil => rfl
  | cons first rest ih =>
    obtain ⟨e, c⟩ := first
    rw [results]
    by_cases hmine : kind e = true
    · obtain ⟨hresult, hafter⟩ := hkind e c site other hmine halike
      simp only [List.filter_cons, hmine, if_true]
      rw [results, hresult, ih hafter]
    · have hforeign : kind e = false := Bool.eq_false_iff.2 hmine
      simp only [List.filter_cons, hforeign, Bool.false_eq_true, if_false]
      exact ih (hother e c site other hforeign halike)

/-- Operations on keys go by the data in the `Key.region` alone. -/
theorem run_key_eq {t : Key.Task} (h : site.data.part Key.region = other.data.part Key.region) :
    ((key t).run services c site).1 = ((key t).run services c other).1
      ∧ ((key t).run services c site).2.data.part Key.region
        = ((key t).run services c other).2.data.part Key.region :=
  Action.perform_eq_of_part t.confined h

/-- Operations on keys leave the `Account.region` alone. -/
theorem part_run_key {t : Key.Task} :
    ((key t).run services c site).2.data.part Account.region = site.data.part Account.region :=
  Program.part_run t.confined fun _ => region_disjoint

/-- Operations on accounts go by the data in the `Account.region` and the sessions alone. -/
theorem run_account_eq {v : Account.Visit}
    (h : site.data.part Account.region = other.data.part Account.region)
    (hsessions : site.sessions = other.sessions) :
    ((account v).run services c site).1 = ((account v).run services c other).1
      ∧ ((account v).run services c site).2.data.part Account.region
        = ((account v).run services c other).2.data.part Account.region
      ∧ ((account v).run services c site).2.sessions
        = ((account v).run services c other).2.sessions := by
  obtain ⟨houtcome, hdata⟩ := Action.perform_eq_of_part (c := c) (n := 0)
    (v.operation.confined (services v.services) (site.sessions v.services)) h
  rw [hsessions] at houtcome hdata
  simp only [run, Account.Visit.run, hsessions]
  rw [houtcome]
  exact ⟨rfl, hdata, rfl⟩

/-- Operations on accounts leave the `Key.region` alone. -/
theorem part_run_account {v : Account.Visit} :
    ((account v).run services c site).2.data.part Key.region = site.data.part Key.region :=
  Program.part_run (v.operation.confined _ _) fun _ haccount => by
    rw [Bool.eq_false_iff]
    intro hkey
    rw [region_disjoint hkey] at haccount
    cases haccount

end Errand

/-- In any sequence of operations on keys and on accounts over one storage, the operations on keys
have the `results` that they have without those on accounts, and the operations on accounts those
that they have without those on keys: whatever the identifiers are, whatever is in the storage at
first, and whatever the clock shows, is drawn and fails in the `Circumstances` of each operation. -/
theorem keys_and_accounts_apart (services : Nat → Services) (site : Site)
    (errands : List (Errand × Circumstances)) :
    (Errand.results services site errands).filter (fun r => r.1.isKey)
        = Errand.results services site (errands.filter fun e => e.1.isKey)
      ∧ (Errand.results services site errands).filter (fun r => !r.1.isKey)
        = Errand.results services site (errands.filter fun e => !e.1.isKey) := by
  constructor
  · refine Errand.results_filter Errand.isKey
      (fun x y => x.data.part Key.region = y.data.part Key.region) ?_ ?_ rfl
    · rintro (t | v) c x y hkind halike
      · exact Errand.run_key_eq halike
      · cases hkind
    · rintro (t | v) c x y hkind halike
      · cases hkind
      · exact Errand.part_run_account.trans halike
  · refine Errand.results_filter (fun e => !e.isKey)
      (fun x y => x.data.part Account.region = y.data.part Account.region
        ∧ x.sessions = y.sessions) ?_ ?_ ⟨rfl, rfl⟩
    · rintro (t | v) c x y hkind ⟨halike, hsessions⟩
      · cases hkind
      · exact Errand.run_account_eq halike hsessions
    · rintro (t | v) c x y hkind ⟨halike, hsessions⟩
      · exact ⟨Errand.part_run_key.trans halike, hsessions⟩
      · cases hkind

end Strongbox
