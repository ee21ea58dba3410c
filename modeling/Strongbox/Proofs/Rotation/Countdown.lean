import Strongbox.Proofs.Rotation.Deadline
import Strongbox.Proofs.Time.Days
/-!
# Counting down to a rotation

Whether a key is due is found from its age, and the days that remain from the date on which it will
be due. The two agree as far as the age and the date are counted alike, and they are not for a key
that was made in a leap second: its date starts from the second before, while its age leaves the
leap second out as long as the time of day is not later than that of the creation. Such a key can be
`IsHeldBack`: for up to a second no days remain and it is still not due.

Days that remain are rounded up, but only after what is below a millisecond has been dropped. Where
nothing but that is left beyond whole days, the answer is a day too few (`IsCutShort`).

## Main results

* `isDue_iff`: when a key is due, in terms of the date.
* `daysOfSpan?_eq_some`: what the number of days says of the time that remains.
* `answers_agree_iff`: when the answers of all questions agree.
* `timeUntil_roundedUp_iff`: when a number of days later the key is due, and not a day before.
-/

namespace Strongbox.Rotation

open Key (Metadata)
open Key.Catalogue (stored?)
open Storage (Memory)
open Time (Instant Span)

variable {policy : Policy} {m : Metadata} {now date : Instant} {n : Nat}

/-! ## Age and date -/

private theorem periodDays_ne_zero (hpolicy : policy.validate = .ok ()) :
    policy.periodDays ≠ 0 := by
  rw [Policy.validate] at hpolicy
  by_cases hdefault : policy.defaultDays = 0
  · rw [if_pos hdefault] at hpolicy
    cases hpolicy
  by_cases hhigh : policy.highSecurityDays = 0
  · rw [if_neg hdefault, if_pos hhigh] at hpolicy
    cases hpolicy
  rw [Policy.periodDays]
  split
  · exact hhigh
  · exact hdefault

private theorem ne_zero_of_daysOfText? {text : String} {days : UInt32}
    (h : Metadata.daysOfText? text = some days) : days ≠ 0 := by
  simp only [Metadata.daysOfText?] at h
  obtain ⟨⟨-, -, hpos, hlt⟩, hdays⟩ := Option.ite_none_right_eq_some.1 h
  cases hdays
  intro hzero
  have hnat := congrArg UInt32.toNat hzero
  rw [UInt32.toNat_ofNat_of_lt' hlt] at hnat
  exact absurd hnat (Nat.ne_of_gt hpos)

/-- Every period that `periodOf` gives is one of at least a day. -/
theorem periodOf_pos (hpolicy : policy.validate = .ok ()) (m : Metadata) :
    0 < (periodOf policy m).toNat := by
  have hne : periodOf policy m ≠ 0 := by
    rw [periodOf]
    cases hown : m.periodDays? with
    | none => exact periodDays_ne_zero hpolicy
    | some days =>
      obtain ⟨text, -, htext⟩ := Option.bind_eq_some_iff.1 hown
      exact ne_zero_of_daysOfText? htext
  refine Nat.pos_of_ne_zero fun hzero => hne ?_
  exact UInt32.toNat_inj.1 hzero

/-- A key is due once the date of `dueAt?` has come, and what its age falls short by has passed as
well. -/
theorem isDue_iff (hpolicy : policy.validate = .ok ()) (hdate : dueAt? policy m = some date) :
    isDue policy m now = true ↔ m.createdAt.shortfall now ≤ now.since date := by
  have hspan := Instant.since_add_shortfall (periodOf_pos hpolicy m) hdate now
  rw [isDue, decide_eq_true_eq, spanOf]
  calc Span.ofDays (periodOf policy m).toNat ≤ now.since m.createdAt
      ↔ Span.ofDays (periodOf policy m).toNat + m.createdAt.shortfall now
          ≤ now.since m.createdAt + m.createdAt.shortfall now :=
        (Int.add_le_add_iff_right _).symm
    _ ↔ m.createdAt.shortfall now + Span.ofDays (periodOf policy m).toNat
          ≤ now.since date + Span.ofDays (periodOf policy m).toNat := by rw [hspan, Int.add_comm]
    _ ↔ m.createdAt.shortfall now ≤ now.since date := Int.add_le_add_iff_right _

/-- No days remain once the date has come. -/
private theorem daysOfSpan?_since_eq_none_iff :
    daysOfSpan? (date.since now) = none ↔ 0 ≤ now.since date := by
  rw [daysOfSpan?, Instant.since_eq_neg]
  constructor
  · intro h
    by_contra hnot
    have hremains : ¬ (-now.since date : Int) ≤ 0 := fun hle => hnot ((Int.neg_nonpos_iff _).1 hle)
    rw [if_neg hremains] at h
    cases h
  · intro h
    have hover : (-now.since date : Int) ≤ 0 := (Int.neg_nonpos_iff _).2 h
    rw [if_pos hover]

/-- The key was made in a leap second, the date at which it is due has come less than a second ago,
and the time of day is not later than that of its creation. -/
structure IsHeldBack (policy : Policy) (m : Metadata) (now : Instant) : Prop where
  leap : m.createdAt.isLeap = true
  timeOfDay : now.secondOfDay ≤ m.createdAt.secondOfDay
  date : ∃ date, dueAt? policy m = some date ∧ 0 ≤ now.since date
    ∧ now.since date < Span.ofSeconds 1

/-- A key `isDue` exactly if no days remain, unless it is held back. -/
theorem isDue_iff_daysOfSpan?_iff (hpolicy : policy.validate = .ok ())
    (hdate : dueAt? policy m = some date) :
    (isDue policy m now = true ↔ daysOfSpan? (date.since now) = none)
      ↔ ¬ IsHeldBack policy m now := by
  rw [isDue_iff hpolicy hdate, daysOfSpan?_since_eq_none_iff]
  by_cases hshort : m.createdAt.isLeap = true ∧ now.secondOfDay ≤ m.createdAt.secondOfDay
  · rw [Instant.shortfall, if_pos hshort]
    constructor
    · rintro hiff ⟨-, -, date', hdate', hcome, hless⟩
      cases hdate.symm.trans hdate'
      exact Int.not_le.2 hless (hiff.2 hcome)
    · intro hnot
      refine ⟨fun hle => Int.le_trans (by decide) hle, fun hcome => ?_⟩
      by_contra hless
      exact hnot ⟨hshort.1, hshort.2, date, hdate, hcome, Int.not_le.1 hless⟩
  · rw [Instant.shortfall, if_neg hshort]
    exact iff_of_true Iff.rfl fun h => hshort ⟨h.leap, h.timeOfDay⟩

/-! ## Days, rounded up -/

/-- Beyond whole days, of which there is one at least, less than a millisecond remains. -/
structure IsCutShort (remaining : Span) : Prop where
  aDay : Span.ofDays 1 ≤ remaining
  more : 0 < remaining % Span.ofDays 1
  short : remaining % Span.ofDays 1 < 1000000

/-- The days that `daysOfSpan?` counts are not a day too many, and they are a day too few where the
time is cut short. -/
theorem daysOfSpan?_eq_some {remaining : Int} (h : daysOfSpan? remaining = some n) :
    1 ≤ n ∧ 0 < remaining ∧ Span.ofDays (n - 1 : Nat) < remaining
      ∧ (remaining ≤ Span.ofDays n ↔ ¬ IsCutShort remaining) := by
  rw [daysOfSpan?] at h
  by_cases hover : remaining ≤ 0
  · rw [if_pos hover] at h
    cases h
  rw [if_neg hover] at h
  have hremains : 0 < remaining := Int.not_le.1 hover
  have hmillis : Span.wholeMillis remaining = remaining / 1000000 :=
    Int.tdiv_eq_ediv_of_nonneg (Int.le_of_lt hremains)
  have hdays : Int.tdiv (remaining / 1000000 + 86400000 - 1) 86400000
      = (remaining / 1000000 + 86400000 - 1) / 86400000 := by
    apply Int.tdiv_eq_ediv_of_nonneg
    omega
  simp only [hmillis, millisPerDay, hdays, Option.some.injEq] at h
  have hcut : IsCutShort remaining ↔ 86400000000000 ≤ remaining
      ∧ 0 < remaining % 86400000000000 ∧ remaining % 86400000000000 < 1000000 :=
    ⟨fun h => ⟨h.aDay, h.more, h.short⟩, fun h => ⟨h.1, h.2.1, h.2.2⟩⟩
  rw [hcut]
  refine ⟨?_, hremains, ?_, ?_⟩
  · omega
  · show ((n - 1 : Nat) : Int) * 86400000000000 < remaining
    omega
  · show remaining ≤ (n : Int) * 86400000000000 ↔ _
    omega

/-- Some days from now a key `isDue` if no more remains, and none of what the days fall short by if
they are counted from a leap second. -/
theorem isDue_daysLater_iff {later : Instant} (hpolicy : policy.validate = .ok ())
    (hordinary : m.createdAt.isLeap = false) (hdate : dueAt? policy m = some date) (hn : 0 < n)
    (hlater : now.plus? (Span.ofDays n) = some later) :
    isDue policy m later = true ↔ date.since now + now.shortfall date ≤ Span.ofDays n := by
  rw [isDue_iff hpolicy hdate, Instant.shortfall_of_ordinary hordinary,
    Instant.since_add_shortfall hn hlater date, Instant.since_eq_neg date later]
  calc 0 ≤ later.since date
      ↔ -later.since date ≤ 0 := (Int.neg_nonpos_iff _).symm
    _ ↔ -later.since date + Span.ofDays n ≤ 0 + Span.ofDays n := (Int.add_le_add_iff_right _).symm
    _ ↔ -later.since date + Span.ofDays n ≤ Span.ofDays n := by rw [Int.zero_add]

/-- A key is not due as long as more than these days remain. -/
private theorem isDue_eq_false_of_lt {later : Instant} (hpolicy : policy.validate = .ok ())
    (hordinary : m.createdAt.isLeap = false) (hdate : dueAt? policy m = some date)
    (hremains : Span.ofDays n < date.since now)
    (hlater : now.plus? (Span.ofDays n) = some later) : isDue policy m later = false := by
  rw [Bool.eq_false_iff]
  intro hcome
  rcases Nat.eq_zero_or_pos n with rfl | hn
  · cases Instant.plus?_zero.symm.trans hlater
    rw [isDue_iff hpolicy hdate, Instant.shortfall_of_ordinary hordinary,
      Instant.since_eq_neg] at hcome
    change (0 : Int) < date.since now at hremains
    change (0 : Int) ≤ -date.since now at hcome
    omega
  · have hle := (isDue_daysLater_iff hpolicy hordinary hdate hn hlater).1 hcome
    have hshortfall := Instant.shortfall_nonneg now date
    exact Int.not_lt.2 (Int.le_trans (Int.le_add_of_nonneg_right hshortfall) hle) hremains

/-! ## Questions while the clock stands still -/

variable {S : Surroundings} {s : S.State} {identifier : String} {α : Type}

/-- A question about a key that `IsKnown` is answered from its metadata and the clock, unless a
request fails. -/
theorem perform_question (answer : Metadata → Instant → Outcome α) (hclock : S.StandsAt now s)
    (hknown : IsKnown (S.data s) identifier m)
    (hserved : S.failures (metadataOf identifier >>= fun m => Action.now >>= fun t =>
      Action.ofOutcome (answer m t)) s = []) :
    (S.perform (metadataOf identifier >>= fun m => Action.now >>= fun t =>
      Action.ofOutcome (answer m t)) s).1 = answer m now := by
  have hfound : (S.perform (metadataOf identifier) s).1 = .ok m := by
    rcases runs_metadataOf (S.runs_perform (metadataOf identifier) s) with
      ⟨m', hknown', -, hm⟩ | ⟨-, hnot⟩
    · rw [hm, hknown.unique hknown']
    · exact absurd ⟨Surroundings.failures_eq_nil_of_bind hserved, m, hknown⟩ hnot
  rw [hclock.perform_bind_now, hfound]
  rfl

/-- What a question about a key is answered with comes from its metadata and the clock. -/
theorem exists_of_question {answer : Metadata → Instant → Outcome α} {a : α}
    (hclock : S.StandsAt now s)
    (h : (S.perform (metadataOf identifier >>= fun m => Action.now >>= fun t =>
      Action.ofOutcome (answer m t)) s).1 = .ok a) :
    ∃ m, IsKnown (S.data s) identifier m ∧ answer m now = .ok a := by
  rw [hclock.perform_bind_now] at h
  rcases runs_metadataOf (S.runs_perform (metadataOf identifier) s) with
    ⟨m, hknown, -, hm⟩ | ⟨⟨e, he⟩, -⟩
  · rw [hm] at h
    exact ⟨m, hknown, h⟩
  · rw [he] at h
    cases h

/-- The days of `timeUntil` are counted to the date at which the key is due. -/
theorem exists_of_timeUntil {days : Option Nat} (hclock : S.StandsAt now s)
    (hknown : IsKnown (S.data s) identifier m)
    (h : (S.perform (timeUntil policy identifier) s).1 = .ok days) :
    ∃ date, dueAt? policy m = some date ∧ days = daysOfSpan? (date.since now) := by
  obtain ⟨m', hknown', hanswer⟩ := exists_of_question hclock h
  rw [hknown.unique hknown', daysRemaining] at hanswer
  cases hdate : dueAt? policy m with
  | none =>
    rw [hdate] at hanswer
    cases hanswer
  | some date =>
    rw [hdate] at hanswer
    cases hanswer
    exact ⟨date, rfl, rfl⟩

/-! ## Lists and summaries -/

theorem mem_dueKeys_iff {all : List Metadata} :
    identifier ∈ dueKeys policy all now
      ↔ (∃ m ∈ all, m.id = identifier ∧ isDue policy m now = true)
        ∧ ∀ m ∈ all, m.rotatedFrom? ≠ some identifier := by
  have hreplaced : (all.filterMap (·.rotatedFrom?)).contains identifier = true
      ↔ ∃ m ∈ all, m.rotatedFrom? = some identifier := by
    rw [List.contains_iff_mem, List.mem_filterMap]
  rw [dueKeys, List.mem_map]
  constructor
  · rintro ⟨m, hm, rfl⟩
    rw [List.mem_filter, Bool.and_eq_true, Bool.not_eq_true', Bool.eq_false_iff] at hm
    refine ⟨⟨m, hm.1, rfl, hm.2.2⟩, fun other hother hfrom => hm.2.1 ?_⟩
    exact hreplaced.2 ⟨other, hother, hfrom⟩
  · rintro ⟨⟨m, hm, rfl, hcome⟩, hkept⟩
    refine ⟨m, List.mem_filter.2 ⟨hm, ?_⟩, rfl⟩
    rw [hcome, Bool.and_true, Bool.not_eq_true', Bool.eq_false_iff]
    intro hcontains
    obtain ⟨other, hother, hfrom⟩ := hreplaced.1 hcontains
    exact hkept other hother hfrom

/-- The key's metadata, and no others, carry the identifier, and none say that they replaced it. -/
structure IsCurrent (d : Memory) (identifier : String) : Prop where
  own : ∀ {other m}, stored? d other = .ok (some m) → (m.id = identifier ↔ other = identifier)
  kept : ∀ {other m}, stored? d other = .ok (some m) → m.rotatedFrom? ≠ some identifier

/-- Of the keys that no other has replaced, `due` lists those that are due. -/
theorem exists_of_due (hclock : S.StandsAt now s) (hreadable : IsReadable (S.data s))
    (hserved : S.failures (due policy) s = []) :
    ∃ names, (S.perform (due policy) s).1 = .ok names
      ∧ ∀ identifier m, IsKnown (S.data s) identifier m → IsCurrent (S.data s) identifier →
        (identifier ∈ names ↔ isDue policy m now = true) := by
  rcases runs_all (S.runs_perform Key.Catalogue.all s) with
    ⟨ms, hms, -, -, hmem⟩ | ⟨-, hnot⟩
  · refine ⟨dueKeys policy ms now, ?_, fun identifier m hknown hcurrent => ?_⟩
    · have hanswer := hclock.perform_bind_now Key.Catalogue.all
        fun all t => .ok (dueKeys policy all t)
      rw [hms] at hanswer
      exact hanswer
    · rw [mem_dueKeys_iff]
      constructor
      · rintro ⟨⟨m', hm', hid, hcome⟩, -⟩
        obtain ⟨other, hstored⟩ := (hmem m').1 hm'
        cases (hcurrent.own hstored).1 hid
        cases hstored.symm.trans hknown.stored
        exact hcome
      · intro hcome
        refine ⟨⟨m, (hmem m).2 ⟨identifier, hknown.stored⟩,
          (hcurrent.own hknown.stored).2 rfl, hcome⟩, fun m' hm' => ?_⟩
        obtain ⟨other, hstored⟩ := (hmem m').1 hm'
        exact hcurrent.kept hstored
  · exact absurd ⟨Surroundings.failures_eq_nil_of_bind hserved, hreadable⟩ hnot

private theorem summarize_eq_ok {x : Summary} (h : summarize policy m now = .ok x) :
    x.metadata = m ∧ x.isDue = isDue policy m now
      ∧ ∃ date, dueAt? policy m = some date ∧ x.daysRemaining = daysOfSpan? (date.since now) := by
  rw [summarize, daysRemaining] at h
  cases hdate : dueAt? policy m with
  | none =>
    rw [hdate] at h
    cases h
  | some date =>
    rw [hdate] at h
    cases h
    exact ⟨rfl, rfl, date, rfl, rfl⟩

/-- In a `Summary` the two answers agree, unless the key is held back. -/
theorem summary_agrees_iff {x : Summary} (hpolicy : policy.validate = .ok ())
    (h : summarize policy m now = .ok x) :
    (x.isDue = true ↔ x.daysRemaining = none) ↔ ¬ IsHeldBack policy x.metadata now := by
  obtain ⟨hm, hcome, date, hdate, hdays⟩ := summarize_eq_ok h
  rw [hm, hcome, hdays]
  exact isDue_iff_daysOfSpan?_iff hpolicy hdate

/-- Each `Summary` in a list is that of some metadata. -/
private theorem exists_of_mem_summaries {ms : List Metadata} {xs : List Summary}
    (h : (ms.mapM fun m => summarize policy m now) = .ok xs) {x : Summary} (hx : x ∈ xs) :
    ∃ m, summarize policy m now = .ok x := by
  induction ms generalizing xs with
  | nil =>
    cases h
    cases hx
  | cons m ms ih =>
    rw [List.mapM_cons] at h
    rcases hm : summarize policy m now with halt | y
    · rw [hm] at h
      cases h
    rcases hms : ms.mapM fun m => summarize policy m now with halt | ys
    · rw [hm, hms] at h
      cases h
    · rw [hm, hms] at h
      cases h
      rcases List.mem_cons.1 hx with rfl | hx
      · exact ⟨m, hm⟩
      · exact ih hms hx

/-! ## Agreement -/

/-- At every reading of the clock a key is due exactly if no days remain for it: as single answers,
in summaries and, if no other key has replaced it, in the list of keys that are due. The only keys
for which this fails are those that are held back (`IsHeldBack`), and for them it does. -/
theorem answers_agree_iff (S : Surroundings) {s : S.State} (hpolicy : policy.validate = .ok ())
    (hclock : S.StandsAt now s) :
    (∀ identifier m, IsKnown (S.data s) identifier m → ¬ Outlasts policy m →
      S.failures (shouldRotate policy identifier) s = [] →
      S.failures (timeUntil policy identifier) s = [] →
      ∃ isDue days, (S.perform (shouldRotate policy identifier) s).1 = .ok isDue
        ∧ (S.perform (timeUntil policy identifier) s).1 = .ok days
        ∧ ((isDue = true ↔ days = none) ↔ ¬ IsHeldBack policy m now))
      ∧ (∀ identifier x, (S.perform (summary policy identifier) s).1 = .ok x →
        ((x.isDue = true ↔ x.daysRemaining = none) ↔ ¬ IsHeldBack policy x.metadata now))
      ∧ (∀ xs, (S.perform (summaries policy) s).1 = .ok xs → ∀ x ∈ xs,
        ((x.isDue = true ↔ x.daysRemaining = none) ↔ ¬ IsHeldBack policy x.metadata now))
      ∧ (IsReadable (S.data s) → S.failures (due policy) s = [] →
        ∃ names, (S.perform (due policy) s).1 = .ok names
          ∧ ∀ identifier m, IsKnown (S.data s) identifier m → IsCurrent (S.data s) identifier →
            ∀ days, (S.perform (timeUntil policy identifier) s).1 = .ok days →
              ((identifier ∈ names ↔ days = none) ↔ ¬ IsHeldBack policy m now)) := by
  refine ⟨fun identifier m hknown hlasts hshould htime => ?_, fun identifier x hx => ?_,
    fun xs hxs x hx => ?_, fun hreadable hserved => ?_⟩
  · obtain ⟨date, hdate⟩ := Option.ne_none_iff_exists'.1 (mt dueAt?_eq_none_iff.1 hlasts)
    refine ⟨isDue policy m now, daysOfSpan? (date.since now), ?_, ?_,
      isDue_iff_daysOfSpan?_iff hpolicy hdate⟩
    · exact perform_question (fun m t => .ok (isDue policy m t)) hclock hknown hshould
    · refine (perform_question (daysRemaining policy) hclock hknown htime).trans ?_
      rw [daysRemaining, hdate]
      rfl
  · obtain ⟨m, -, hm⟩ := exists_of_question hclock hx
    exact summary_agrees_iff hpolicy hm
  · rw [summaries, hclock.perform_now_bind] at hxs
    obtain ⟨ms, t, -, hms⟩ := Action.exists_of_perform_bind S.answer hxs
    obtain ⟨m, hm⟩ := exists_of_mem_summaries hms hx
    exact summary_agrees_iff hpolicy hm
  · obtain ⟨names, hnames, hmem⟩ := exists_of_due hclock hreadable hserved
    refine ⟨names, hnames, fun identifier m hknown hcurrent days hdays => ?_⟩
    obtain ⟨date, hdate, rfl⟩ := exists_of_timeUntil hclock hknown hdays
    rw [hmem identifier m hknown hcurrent]
    exact isDue_iff_daysOfSpan?_iff hpolicy hdate

/-- Surroundings whose clock was set. -/
def atClock (t : Instant) (w : World.plainSurroundings.State) : World.plainSurroundings.State :=
  ⟨{ w.1 with clock := t }, w.2⟩

/-- A key for mail was made at one instant, and the clock has come to another. -/
def mailMade (createdAt reading : Instant) : World.plainSurroundings.State :=
  atClock reading (World.plainSurroundings.perform Key.mailKey.action
    (atClock createdAt Key.keylessWorld)).2

/-- The metadata of a key for mail that is made then. -/
def mailOf (createdAt : Instant) : Metadata :=
  Metadata.ofKey "mail_v1" .aesGcm "mail" createdAt Table.empty

/-- The leap second with which a year ends, a quarter of it over. -/
def leapSecond : Instant := ⟨1767225599, 1250000000, by decide, by decide, by decide⟩

/-- 90 days after the leap second, on which a key is due that was made in it. -/
def leapDate : Instant := ⟨1775001599, 250000000, by decide, by decide, by decide⟩

/-- No days remain on `leapDate`, but the key is not due. -/
theorem leapSecond_heldBack :
    Policy.default.validate = .ok ()
      ∧ dueAt? .default (mailOf leapSecond) = some leapDate
      ∧ (World.plainSurroundings.perform (shouldRotate .default "mail_v1")
        (mailMade leapSecond leapDate)).1 = .ok false
      ∧ (World.plainSurroundings.perform (timeUntil .default "mail_v1")
        (mailMade leapSecond leapDate)).1 = .ok none
      ∧ (World.plainSurroundings.perform (due .default) (mailMade leapSecond leapDate)).1 = .ok []
      ∧ (World.plainSurroundings.perform (summary .default "mail_v1")
        (mailMade leapSecond leapDate)).1.map (fun x => (x.isDue, x.daysRemaining))
        = .ok (false, none) := by
  decide +kernel

/-- A second later. -/
def leapDateOver : Instant := ⟨1775001600, 250000000, by decide, by decide, by decide⟩

private theorem data_leapDateOver :
    World.plainSurroundings.data (mailMade leapSecond leapDateOver)
      = Key.Pair.added Table.empty (List.replicate 32 0) (mailOf leapSecond) := by
  decide +kernel

/-- No metadata are stored but those of the key. -/
theorem stored?_leapDateOver (other : String) :
    stored? (World.plainSurroundings.data (mailMade leapSecond leapDateOver)) other
      = if other = "mail_v1" then .ok (some (mailOf leapSecond)) else .ok none := by
  rw [data_leapDateOver]
  exact Key.Catalogue.stored?_added _ (mailOf leapSecond) other

/-- The key is the only one, so no other has replaced it. -/
private theorem isCurrent_leapDateOver :
    IsCurrent (World.plainSurroundings.data (mailMade leapSecond leapDateOver)) "mail_v1" := by
  have honly : ∀ {other m},
      stored? (World.plainSurroundings.data (mailMade leapSecond leapDateOver)) other
        = .ok (some m) → other = "mail_v1" ∧ m = mailOf leapSecond := by
    intro other m hstored
    rw [stored?_leapDateOver] at hstored
    by_cases hother : other = "mail_v1"
    · rw [if_pos hother] at hstored
      cases hstored
      exact ⟨hother, rfl⟩
    · rw [if_neg hother] at hstored
      cases hstored
  constructor
  · intro other m hstored
    obtain ⟨hother, rfl⟩ := honly hstored
    exact iff_of_true rfl hother
  · intro other m hstored
    obtain ⟨-, rfl⟩ := honly hstored
    decide

/-- At `leapDateOver` all answers agree. -/
theorem leapDateOver_agrees :
    ∃ isDue days, (World.plainSurroundings.perform (shouldRotate .default "mail_v1")
        (mailMade leapSecond leapDateOver)).1 = .ok isDue
      ∧ (World.plainSurroundings.perform (timeUntil .default "mail_v1")
        (mailMade leapSecond leapDateOver)).1 = .ok days
      ∧ (isDue = true ↔ days = none)
      ∧ ∃ names, (World.plainSurroundings.perform (due .default)
          (mailMade leapSecond leapDateOver)).1 = .ok names
        ∧ ("mail_v1" ∈ names ↔ days = none) := by
  have hpolicy : Policy.default.validate = .ok () := by decide
  have hclock : World.plainSurroundings.StandsAt leapDateOver (mailMade leapSecond leapDateOver) :=
    World.standsAt_clock _
  have hknown : IsKnown (World.plainSurroundings.data (mailMade leapSecond leapDateOver)) "mail_v1"
      (mailOf leapSecond) :=
    ⟨Key.checkIdentifier_eq_ok_iff.1 (by decide +kernel), stored?_leapDateOver "mail_v1"⟩
  have hdate : dueAt? .default (mailOf leapSecond) = some leapDate := by decide +kernel
  have hnot : ¬ IsHeldBack .default (mailOf leapSecond) leapDateOver := by
    rintro ⟨-, -, date, hdate', -, hless⟩
    cases hdate.symm.trans hdate'
    exact absurd hless (by decide)
  have hlasts : ¬ Outlasts .default (mailOf leapSecond) := by
    rw [← dueAt?_eq_none_iff, hdate]
    exact Option.some_ne_none _
  obtain ⟨hboth, -, -, hlist⟩ :=
    answers_agree_iff World.plainSurroundings hpolicy hclock
  obtain ⟨isDue, days, hisDue, hdays, hagree⟩ := hboth "mail_v1" (mailOf leapSecond) hknown hlasts
    (by decide +kernel) (by decide +kernel)
  have hreadable :
      IsReadable (World.plainSurroundings.data (mailMade leapSecond leapDateOver)) := by
    intro other
    rw [stored?_leapDateOver]
    split
    · exact ⟨_, rfl⟩
    · exact ⟨_, rfl⟩
  obtain ⟨names, hnames, hmem⟩ := hlist hreadable (by decide +kernel)
  exact ⟨isDue, days, hisDue, hdays, hagree.2 hnot, names, hnames,
    (hmem "mail_v1" _ hknown isCurrent_leapDateOver days hdays).2 hnot⟩

/-! ## Days later -/

/-- If `timeUntil` says that a number of days remain, there is a positive number of them, and a day
before they are over the key is not due. When they are over it is due, unless the time was cut short
(`IsCutShort`): then it is due a day later than was said, as the remaining time was more than that
many days. The same may happen if the days are counted from a reading in a leap second. -/
theorem timeUntil_roundedUp_iff (S : Surroundings) {s : S.State}
    (hpolicy : policy.validate = .ok ()) (hclock : S.StandsAt now s)
    (hknown : IsKnown (S.data s) identifier m) (hordinary : m.createdAt.isLeap = false)
    (hdate : dueAt? policy m = some date)
    (hdays : (S.perform (timeUntil policy identifier) s).1 = .ok (some n)) :
    1 ≤ n ∧ Span.ofDays (n - 1 : Nat) < date.since now
      ∧ (date.since now ≤ Span.ofDays n ↔ ¬ IsCutShort (date.since now))
      ∧ (∃ earlier, now.plus? (Span.ofDays (n - 1 : Nat)) = some earlier)
      ∧ ∀ t later, S.StandsAt later t → IsKnown (S.data t) identifier m →
        S.failures (shouldRotate policy identifier) t = [] →
        (now.plus? (Span.ofDays (n - 1 : Nat)) = some later →
          (S.perform (shouldRotate policy identifier) t).1 = .ok false)
        ∧ (now.plus? (Span.ofDays n) = some later →
          (S.perform (shouldRotate policy identifier) t).1
            = .ok (decide (date.since now + now.shortfall date ≤ Span.ofDays n))) := by
  obtain ⟨date', hdate', hcount⟩ := exists_of_timeUntil hclock hknown hdays
  cases hdate.symm.trans hdate'
  obtain ⟨hpos, -, hbefore, hcut⟩ := daysOfSpan?_eq_some hcount.symm
  have hleap : date.isLeap = false := Instant.isLeap_of_plus?_ofDays (periodOf_pos hpolicy m) hdate
  refine ⟨hpos, hbefore, hcut, Instant.exists_plus?_ofDays hleap hbefore,
    fun t later hlater hkept hserved => ?_⟩
  have hanswer : (S.perform (shouldRotate policy identifier) t).1 = .ok (isDue policy m later) :=
    perform_question (fun m t => .ok (isDue policy m t)) hlater hkept hserved
  rw [hanswer]
  constructor
  · intro hplus
    rw [isDue_eq_false_of_lt hpolicy hordinary hdate hbefore hplus]
  · intro hplus
    rw [Bool.eq_iff_iff.2 ((isDue_daysLater_iff hpolicy hordinary hdate hpos hplus).trans
      decide_eq_true_iff.symm)]

/-- A day and half a millisecond before a key is due that was made at noon. -/
def almostADay : Instant := ⟨1774958399, 999500000, by decide, by decide, by decide⟩

/-- Half a millisecond before the key is due. -/
def almostDue : Instant := ⟨1775044799, 999500000, by decide, by decide, by decide⟩

/-- At `almostADay` one day is said to remain, and a day later the key is not due. -/
theorem almostADay_cutShort :
    almostADay.plus? (Span.ofDays 1) = some almostDue
      ∧ (World.plainSurroundings.perform (timeUntil .default "mail_v1")
        (mailMade Key.noon almostADay)).1 = .ok (some 1)
      ∧ (World.plainSurroundings.perform (shouldRotate .default "mail_v1")
        (mailMade Key.noon almostDue)).1 = .ok false := by
  decide +kernel

/-- Just after noon. -/
def afterNoon : Instant := ⟨1767268801, 250, by decide, by decide, by decide⟩

/-- 89 days later. -/
def dayBefore : Instant := ⟨1774958401, 250, by decide, by decide, by decide⟩

/-- 90 days later. -/
def daysOver : Instant := ⟨1775044801, 250, by decide, by decide, by decide⟩

/-- Just after a key was made, its whole period is said to remain. The key is not due a day before
that is over, and it is due then. -/
theorem afterNoon_roundedUp :
    (World.plainSurroundings.perform (timeUntil .default "mail_v1")
        (mailMade Key.noon afterNoon)).1 = .ok (some 90)
      ∧ (World.plainSurroundings.perform (shouldRotate .default "mail_v1")
        (mailMade Key.noon dayBefore)).1 = .ok false
      ∧ (World.plainSurroundings.perform (shouldRotate .default "mail_v1")
        (mailMade Key.noon daysOver)).1 = .ok true := by
  have hclock : ∀ reading, World.plainSurroundings.StandsAt reading (mailMade Key.noon reading) :=
    fun reading => World.standsAt_clock (mailMade Key.noon reading)
  have hknown : ∀ reading, IsKnown (World.plainSurroundings.data (mailMade Key.noon reading))
      "mail_v1" (mailOf Key.noon) := by
    intro reading
    refine ⟨Key.checkIdentifier_eq_ok_iff.1 (by decide +kernel), ?_⟩
    change stored? (World.plainSurroundings.data (mailMade Key.noon Key.noon)) "mail_v1" = _
    decide +kernel
  have hpolicy : Policy.default.validate = .ok () := by decide
  have hdate : dueAt? .default (mailOf Key.noon)
      = some ⟨1775044800, 0, by decide, by decide, by decide⟩ := by decide +kernel
  have hdays : (World.plainSurroundings.perform (timeUntil .default "mail_v1")
      (mailMade Key.noon afterNoon)).1 = .ok (some 90) := by decide +kernel
  obtain ⟨-, -, -, -, hlater⟩ := timeUntil_roundedUp_iff World.plainSurroundings hpolicy
    (hclock afterNoon) (hknown afterNoon) (by decide) hdate hdays
  have hbefore := (hlater _ dayBefore (hclock _) (hknown _) (by decide +kernel)).1
    (by decide +kernel)
  have hover := (hlater _ daysOver (hclock _) (hknown _) (by decide +kernel)).2 (by decide +kernel)
  exact ⟨hdays, hbefore, hover⟩

end Strongbox.Rotation
