import Strongbox.Proofs.Key.Operation
import Strongbox.Proofs.Program.Discipline
/-!
# The rules for pairs

Operations on pairs may run together because each of them keeps to these rules. Who takes the lock
of a pair has custody of what stands under its identifier until the lock is given back: nobody else
writes there, so what was found is still there, as far as the custodian has not changed it. A key is
written only where there is none, a record only next to a key that its writer has just written. A
key is taken back only by its writer, and only if something has failed. And what was sound when the
lock was taken is sound when it is given back.

A rotation takes its turn among the rotations of its base. It makes the one version that follows on
the keys listed in this turn.

The rules are stated of what an operation remembers of its own steps (`Standing`). That the
operations keep to them is shown in `Strongbox.Proofs.Key.Conduct`, and that they may rely on one
another in `Strongbox.Proofs.Key.Exclusion`.

## Main results

* `Allowed`: what an operation may request.
* `rules`: the discipline of an operation.
* `Allowed.step`: what comes of an allowed request.
-/

namespace Strongbox.Key

open Rotation (latest versionsOf)
open Storage (Memory)

/-! ## What stands under an identifier -/

/-- What stands under an identifier: a key, and the record of its metadata. -/
structure View where
  key : Option Bytes
  record : Option Bytes

namespace View

/-- The `View` of some data under an identifier. -/
def of (d : Memory) (identifier : String) : View :=
  ⟨d.get? (Material.location identifier), d.get? (Catalogue.location identifier)⟩

/-- Both halves of a pair are there. -/
def IsWhole (v : View) : Prop := v.key.isSome = true ∧ v.record.isSome = true

/-- There is no record without a key. -/
def IsOrderly (v : View) : Prop := v.record.isSome = true → v.key.isSome = true

/-- There is no record without a key and, if nothing fails, no key without a record: the `View` is
whole or empty. -/
def IsSound (reliable : Prop) (v : View) : Prop :=
  v.IsOrderly ∧ (reliable → v.key.isSome = true → v.record.isSome = true)

variable {d : Memory} {identifier : String}

theorem of_insert_key (content : Bytes) :
    of (d.insert (Material.location identifier) content) identifier
      = ⟨some content, (of d identifier).record⟩ := by
  simp [of]

theorem of_insert_record (content : Bytes) :
    of (d.insert (Catalogue.location identifier) content) identifier
      = ⟨(of d identifier).key, some content⟩ := by
  simp [of]

theorem of_erase_key :
    of (d.erase (Material.location identifier)) identifier = ⟨none, (of d identifier).record⟩ := by
  simp [of]

theorem of_erase_record :
    of (d.erase (Catalogue.location identifier)) identifier = ⟨(of d identifier).key, none⟩ := by
  simp [of]

variable {other : String}

theorem of_insert_key_of_ne (h : other ≠ identifier) (content : Bytes) :
    of (d.insert (Material.location identifier) content) other = of d other := by
  simp [of, h]

theorem of_insert_record_of_ne (h : other ≠ identifier) (content : Bytes) :
    of (d.insert (Catalogue.location identifier) content) other = of d other := by
  simp [of, h]

theorem of_erase_key_of_ne (h : other ≠ identifier) :
    of (d.erase (Material.location identifier)) other = of d other := by
  simp [of, h]

theorem of_erase_record_of_ne (h : other ≠ identifier) :
    of (d.erase (Catalogue.location identifier)) other = of d other := by
  simp [of, h]

/-- Data that have this under an identifier, and nothing else. -/
def only (v : View) (identifier : String) : Memory :=
  let withKey : Memory := match v.key with
    | none => Table.empty
    | some key => (Table.empty : Memory).insert (Material.location identifier) key
  match v.record with
  | none => withKey
  | some record => withKey.insert (Catalogue.location identifier) record

private theorem get?_only_key (v : View) (a b : String) :
    (v.only a).get? (Material.location b) = if b = a then v.key else none := by
  rcases v with ⟨_ | key, _ | record⟩ <;> by_cases h : b = a <;> simp [only, h]

private theorem get?_only_record (v : View) (a b : String) :
    (v.only a).get? (Catalogue.location b) = if b = a then v.record else none := by
  rcases v with ⟨_ | key, _ | record⟩ <;> by_cases h : b = a <;> simp [only, h]

theorem of_only (v : View) (a b : String) :
    of (v.only a) b = if b = a then v else ⟨none, none⟩ := by
  rw [of, get?_only_key, get?_only_record]
  split <;> rfl

end View

/-- Every identifier has both a key and a record, or neither. -/
def HasWholePairs (d : Memory) : Prop :=
  ∀ identifier,
    d.contains (Material.location identifier) = d.contains (Catalogue.location identifier)

theorem hasWholePairs_iff {d : Memory} :
    HasWholePairs d ↔ ∀ identifier, (View.of d identifier).IsSound True := by
  refine forall_congr' fun identifier => ?_
  show Option.isSome (d.get? _) = Option.isSome (d.get? _) ↔ (_ → _) ∧ (True → _ → _)
  rw [Bool.eq_iff_iff]
  exact ⟨fun h => ⟨h.2, fun _ => h.1⟩, fun h => ⟨h.2 trivial, h.1⟩⟩

theorem View.hasWholePairs_only {v : View} {identifier : String} (h : v.IsSound True) :
    HasWholePairs (v.only identifier) := by
  refine hasWholePairs_iff.2 fun other => ?_
  rw [View.of_only]
  split
  · exact h
  · exact ⟨fun hrecord => (by cases hrecord), fun _ hkey => (by cases hkey)⟩

/-! ## Standings -/

/-- The custody of what stands under an identifier, while its lock is held. -/
structure Custody where
  identifier : String
  /-- What stood there when the lock was taken. -/
  before : View
  now : View
  /-- Whether the custodian has written the key. -/
  made : Bool

/-- A `Custody`, brought up to date. -/
def Custody.update (c : Custody) (d : Memory) : Custody := { c with now := .of d c.identifier }

/-- The turn of a rotation among those of its base. -/
structure Turn where
  base : String
  /-- What was listed in this turn, until a key is made of it. -/
  listing : Option (List String)

/-- What is remembered of the steps that an operation has made. -/
structure Standing where
  custody : Option Custody
  turn : Option Turn
  /-- What was found under identifiers when their locks were taken. -/
  seen : List (String × View)
  /-- The identifiers of the pairs that were completed. -/
  made : List String

namespace Standing

/-- The `Standing` before the first step. -/
def start : Standing := ⟨none, none, [], []⟩

/-- After a lock was taken. -/
def acquired (l : Standing) (lock : Lock) (d : Memory) : Standing :=
  match lock.kind with
  | .pair =>
    let view := View.of d lock.identifier
    { l with
      custody := some ⟨lock.identifier, view, view, false⟩
      seen := (lock.identifier, view) :: l.seen }
  | .rotation => { l with turn := some ⟨lock.identifier, none⟩ }
  | .key | .metadata | .credential => l

/-- After a lock was given back. -/
def released (l : Standing) (lock : Lock) : Standing :=
  match lock.kind with
  | .pair => { l with custody := none }
  | .rotation => { l with turn := none }
  | .key | .metadata | .credential => l

/-- After a key was written; the listing that it was made of is used up. -/
def keyStored (l : Standing) (c : Custody) (d : Memory) : Standing :=
  { l with
    custody := some { c.update d with made := true }
    turn := l.turn.map fun turn => { turn with listing := none } }

/-- After a record was written, which completes a pair. -/
def recordStored (l : Standing) (c : Custody) (d : Memory) : Standing :=
  { l with custody := some (c.update d), made := c.identifier :: l.made }

/-- After data were stored. -/
def stored (l : Standing) (location : String) (d : Memory) : Standing :=
  match l.custody with
  | none => l
  | some c =>
    if location = Material.location c.identifier then l.keyStored c d else l.recordStored c d

/-- After a request was answered, with the data as they are then. -/
def after (l : Standing) : (r : Request) → r.Response → Memory → Standing
  | .store location _, .ok _, d => l.stored location d
  | .delete _, .ok _, d => { l with custody := l.custody.map (·.update d) }
  | .list, .ok found, _ =>
    { l with turn := l.turn.map fun turn => { turn with listing := some found } }
  | .acquire lock, _, d => l.acquired lock d
  | .release lock, _, _ => l.released lock
  | _, _, _ => l

end Standing

/-! ## Rules -/

/-- The locks that go with neither custody nor a turn. -/
def IsMinorLock (lock : Lock) : Prop := lock.kind ≠ .pair ∧ lock.kind ≠ .rotation

/-- The requests that change neither data nor a standing. -/
def IsQuiet : Request → Prop
  | .retrieve _ | .contains _ | .now | .draw _ _ => True
  | .acquire lock | .release lock => IsMinorLock lock
  | .store _ _ | .delete _ | .list => False

/-- The identifier that a creation may make a key under. A rotation has read the pair it replaces
and listed the keys in its turn. -/
def Creation.MayMake (c : Creation) (l : Standing) (made : String) : Prop :=
  match c with
  | .rotate identifier =>
    ∃ current found next view, VersionedId.parse identifier = .ok current
      ∧ l.turn = some ⟨current.base, some found⟩
      ∧ VersionedId.next ⟨current.base, latest current.version (versionsOf current.base
          (Material.identifiersUnder Material.locationStart found))⟩ = .ok next
      ∧ made = next.text ∧ (identifier, view) ∈ l.seen ∧ view.IsWhole
  | .generate _ _ _ | .generateUnique _ _ _ | .importKey _ _ | .rotateUnique _ => True

/-- What an operation may request. -/
inductive Allowed (reliable : Prop) (o : Operation) (l : Standing) : Request → Prop where
  | quiet {r : Request} : IsQuiet r → Allowed reliable o l r
  | list : l.custody = none → Allowed reliable o l .list
  | takePair (identifier : String) : l.custody = none →
    Allowed reliable o l (.acquire (Pair.lock identifier))
  | givePair {c : Custody} : l.custody = some c →
    (c.before.IsSound reliable → c.now.IsSound reliable) →
    (c.made = true → reliable → c.now.record.isSome = true) →
    Allowed reliable o l (.release (Pair.lock c.identifier))
  | takeTurn (base : String) : l.turn = none →
    Allowed reliable o l (.acquire (Rotation.lock base))
  | giveTurn {turn : Turn} : l.custody = none → l.turn = some turn →
    Allowed reliable o l (.release (Rotation.lock turn.base))
  | storeKey {c : Custody} {creation : Creation} (key : Bytes) : o = .create creation →
    l.custody = some c → c.now.key = none → creation.MayMake l c.identifier →
    Allowed reliable o l (.store (Material.location c.identifier) key)
  | storeRecord {c : Custody} {creation : Creation} (record : Bytes) : o = .create creation →
    l.custody = some c → c.made = true → c.now.key.isSome = true → c.now.record = none →
    Allowed reliable o l (.store (Catalogue.location c.identifier) record)
  /-- A key that could not be completed is taken back. -/
  | undoKey {c : Custody} {creation : Creation} : o = .create creation → ¬ reliable →
    l.custody = some c → c.made = true → c.now.key.isSome = true → c.now.record = none →
    Allowed reliable o l (.delete (Material.location c.identifier))
  | deleteHalf {c : Custody} {identifier location : String} : o = .delete identifier →
    l.custody = some c →
    location = Material.location c.identifier ∨ location = Catalogue.location c.identifier →
    Allowed reliable o l (.delete location)

/-- The `Discipline` of an operation. Nobody else changes what it has custody of, and a creation
finds no record where there is no key. -/
def rules (reliable : Prop) (o : Operation) : Discipline Standing where
  reliable
  Allows := Allowed reliable o
  Rely l d := ∀ c, l.custody = some c → View.of d c.identifier = c.now
    ∧ ∀ creation, o = .create creation → c.now.IsOrderly
  after := Standing.after

theorem after_of_quiet {l : Standing} {r : Request} (h : IsQuiet r) (x : r.Response) (d : Memory) :
    l.after r x d = l := by
  cases r with
  | acquire lock | release lock =>
    obtain ⟨kind, identifier⟩ := lock
    cases kind with
    | pair => exact absurd rfl h.1
    | rotation => exact absurd rfl h.2
    | key | metadata | credential => rfl
  | store | delete | list => cases h
  | retrieve | contains | now | draw => cases x <;> rfl

/-! ## Steps -/

/-- What comes of a request that is `Allowed`: where something is stored, what the operation
remembers then, and the data. -/
inductive Step (reliable : Prop) (o : Operation) (l : Standing) (d : Memory) :
    Request → Option String → Standing → Memory → Prop where
  /-- Either the request changes nothing, or it has failed. -/
  | still {r : Request} : (∀ lock, r = .acquire lock ∨ r = .release lock → IsMinorLock lock) →
    Step reliable o l d r none l d
  | listed {found : List String} : l.custody = none → found.Perm d.keys →
    Step reliable o l d .list none
      { l with turn := l.turn.map fun turn => { turn with listing := some found } } d
  | tookPair (identifier : String) : l.custody = none →
    Step reliable o l d (.acquire (Pair.lock identifier)) none
      (l.acquired (Pair.lock identifier) d) d
  | gavePair {c : Custody} : l.custody = some c →
    (c.before.IsSound reliable → c.now.IsSound reliable) →
    (c.made = true → reliable → c.now.record.isSome = true) →
    Step reliable o l d (.release (Pair.lock c.identifier)) none { l with custody := none } d
  | tookTurn (base : String) : l.turn = none →
    Step reliable o l d (.acquire (Rotation.lock base)) none { l with turn := some ⟨base, none⟩ } d
  | gaveTurn {turn : Turn} : l.custody = none → l.turn = some turn →
    Step reliable o l d (.release (Rotation.lock turn.base)) none { l with turn := none } d
  | storedKey {c : Custody} {creation : Creation} {d' : Memory} (key : Bytes) :
    o = .create creation → l.custody = some c → c.now.key = none →
    creation.MayMake l c.identifier → d' = d.insert (Material.location c.identifier) key →
    Step reliable o l d (.store (Material.location c.identifier) key)
      (some (Material.location c.identifier)) (l.keyStored c d') d'
  | storedRecord {c : Custody} {creation : Creation} {d' : Memory} (record : Bytes) :
    o = .create creation → l.custody = some c → c.made = true → c.now.key.isSome = true →
    c.now.record = none → d' = d.insert (Catalogue.location c.identifier) record →
    Step reliable o l d (.store (Catalogue.location c.identifier) record)
      (some (Catalogue.location c.identifier)) (l.recordStored c d') d'
  | undidKey {c : Custody} {creation : Creation} {d' : Memory} : o = .create creation →
    ¬ reliable → l.custody = some c → c.made = true → c.now.key.isSome = true →
    c.now.record = none → d' = d.erase (Material.location c.identifier) →
    Step reliable o l d (.delete (Material.location c.identifier)) none
      { l with custody := some (c.update d') } d'
  | deletedHalf {c : Custody} {identifier location : String} {d' : Memory} :
    o = .delete identifier → l.custody = some c →
    location = Material.location c.identifier ∨ location = Catalogue.location c.identifier →
    d' = d.erase location →
    Step reliable o l d (.delete location) none { l with custody := some (c.update d') } d'

variable {reliable : Prop} {o : Operation} {l : Standing} {d d' : Memory} {r : Request}
  {x : r.Response}

/-- A request that is neither quiet nor for a lock has no effect on a `Standing` if it fails. -/
private theorem after_of_fails (h : r.fails x = true) (d : Memory) : l.after r x d = l := by
  cases r with
  | store | delete | list | retrieve | contains | draw =>
    cases x with
    | error e => rfl
    | ok a => cases h
  | now | acquire | release => cases h

/-- What comes of a request that is `Allowed` is a `Step`. -/
theorem Allowed.step (h : Allowed reliable o l r) (hanswered : r.Answered reliable x d d') :
    Step reliable o l d r (r.storedAt? x) (l.after r x d') d' := by
  rcases hanswered with hserves | ⟨hfails, rfl, -⟩
  · cases h with
    | quiet hquiet =>
      have hread : r.IsRead := by
        cases r <;> trivial
      have hstored : r.storedAt? x = none := by
        cases r <;> first | rfl | cases hquiet
      rw [after_of_quiet hquiet, hserves.data_eq hread, hstored]
      refine .still fun lock hlock => ?_
      rcases hlock with rfl | rfl <;> exact hquiet
    | list hfree =>
      cases hserves with
      | listed hperm => exact .listed hfree hperm
    | takePair identifier hfree =>
      cases hserves
      exact .tookPair identifier hfree
    | givePair hc hsound hcompleted =>
      cases hserves
      exact .gavePair hc hsound hcompleted
    | takeTurn base hfree =>
      cases hserves
      exact .tookTurn base hfree
    | giveTurn hfree hturn =>
      cases hserves
      exact .gaveTurn hfree hturn
    | @storeKey c _ key ho hc hnone hmay =>
      cases hserves
      have hstored : ∀ d', l.stored (Material.location c.identifier) d' = l.keyStored c d' := by
        intro d'
        rw [Standing.stored, hc]
        exact if_pos rfl
      show Step _ _ _ _ _ _ (l.stored _ _) _
      rw [hstored]
      exact .storedKey key ho hc hnone hmay rfl
    | @storeRecord c _ record ho hc hmade hkey hnone =>
      cases hserves
      have hstored : ∀ d', l.stored (Catalogue.location c.identifier) d' = l.recordStored c d' := by
        intro d'
        rw [Standing.stored, hc]
        exact if_neg (Catalogue.location_ne_location _ _)
      show Step _ _ _ _ _ _ (l.stored _ _) _
      rw [hstored]
      exact .storedRecord record ho hc hmade hkey hnone rfl
    | undoKey ho hunreliable hc hmade hkey hnone =>
      cases hserves with
      | deleted _ =>
        show Step _ _ _ _ _ _ { l with custody := l.custody.map _ } _
        rw [hc]
        exact .undidKey ho hunreliable hc hmade hkey hnone rfl
      | nothingDeleted => exact .still fun lock hlock => (by cases hlock <;> contradiction)
    | deleteHalf ho hc hlocation =>
      cases hserves with
      | deleted _ =>
        show Step _ _ _ _ _ _ { l with custody := l.custody.map _ } _
        rw [hc]
        exact .deletedHalf ho hc hlocation rfl
      | nothingDeleted => exact .still fun lock hlock => (by cases hlock <;> contradiction)
  · have hstored : r.storedAt? x = none := by
      cases r with
      | store => cases x <;> first | rfl | cases hfails
      | _ => rfl
    rw [after_of_fails hfails, hstored]
    refine .still fun lock hlock => ?_
    rcases hlock with rfl | rfl <;> cases hfails

end Strongbox.Key
