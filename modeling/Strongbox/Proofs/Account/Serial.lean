import Strongbox.Proofs.Account.Log
import Strongbox.Proofs.Program.Serial
/-!
# No change of a password is lost

Operations on accounts run together, on one storage and with one guard; each of their requests is a
step that may stand between any two of the others. An operation works on the record of its account,
under the lock of the account, and writes there at most once. So the operations could have run one
after another, with the results that they have and on the answers that they have got, and would have
left the same data.

What holds of operations in a row therefore holds of them. An account is registered once, unless it
is removed in between. A sign-in renews a hash only where its password has the hash on record just
then, and only one that the services would not make themselves. So it overwrites no password that
was changed meanwhile, and it brings back no account that was removed.

## Main results

* `Operation.follows_task`: every operation keeps to the rules for its record.
* `exists_removal_between`: two registrations of one account, one after the other.
* `renews_of_change`: what a sign-in overwrites.
* `no_change_lost`: operations on accounts that run together.
-/

namespace Strongbox.Account

open Guard (filed Sets)
open Password (Stored Hashed)
open Storage (Memory)

/-! ## Rules for the records of accounts -/

/-- The lock of an account guards its record. -/
def guarding : Guarding where
  place? lock := if lock.kind = .credential then some (location lock.identifier) else none
  inj := by
    rintro ⟨kind, identifier⟩ ⟨kind', identifier'⟩ place ha hb
    obtain ⟨rfl, ha⟩ := Option.ite_none_right_eq_some.1 ha
    obtain ⟨rfl, hb⟩ := Option.ite_none_right_eq_some.1 hb
    have hsame : identifier = identifier' := location_inj.1 (Option.some.inj (ha.trans hb.symm))
    rw [hsame]

theorem place?_lock (identifier : String) :
    guarding.place? (Guard.lock identifier) = some (location identifier) := rfl

namespace Guard

variable {reliable : Prop} {g : Guard}

theorem looksAt_hash (policy : Password.Policy) (password place : String) :
    (hash policy password).Asks (Request.LooksAt place) :=
  (composed_hash policy password fun _ => trivial).asks

theorem looksAt_loadVerified (g : Guard) (identifier password : String) :
    (g.loadVerified identifier password).Asks (Request.LooksAt (location identifier)) :=
  Action.Composed.asks (g.composed_loadVerified password rfl)

/-- A hash is made by `hash` and written by `write` under the lock of the account. -/
theorem follows_hash_write (policy : Password.Policy) (identifier password : String) :
    (hash policy password >>= write identifier).Follows (guarding.rules reliable)
      (fun l _ => l.lock? = some (lock identifier))
      (.reading (lock identifier) (location identifier)) :=
  Action.follows_looking_bind (looksAt_hash policy password _) fun _ =>
    Action.follows_storing _

theorem follows_register (identifier password : String) :
    (g.register identifier password).Follows (guarding.rules reliable) Phase.IsEnd .before := by
  refine Action.follows_ofExcept_bind (fun _ _ => ?_) fun _ _ => rfl
  refine Action.follows_guarded (place?_lock identifier) ?_
  refine Action.follows_contains_bind (.contains _ _) (fun d _ => ?_) fun _ _ _ => rfl
  cases d.contains (location identifier) with
  | true => rfl
  | false => exact follows_hash_write g.policy identifier password

theorem follows_change (identifier current new : String) :
    (g.change identifier current new).Follows (guarding.rules reliable) Phase.IsEnd .before := by
  refine Action.follows_ofExcept_bind (fun _ _ => ?_) fun _ _ => rfl
  refine Action.follows_guarded (place?_lock identifier) ?_
  exact Action.follows_looking_bind (looksAt_loadVerified g identifier current) fun _ =>
    follows_hash_write g.policy identifier new

theorem follows_remove (identifier : String) :
    (remove identifier).Follows (guarding.rules reliable) Phase.IsEnd .before :=
  Action.follows_ofExcept_bind
    (fun _ _ => Action.follows_guarded (place?_lock identifier) Action.follows_deleting)
    fun _ _ => rfl

theorem follows_has (identifier : String) :
    (has identifier).Follows (guarding.rules reliable) Phase.IsEnd .before :=
  Action.follows_ofExcept_bind (fun _ _ => Action.follows_look (location identifier)) fun _ _ => rfl

theorem follows_renew (identifier password : String) (h : Stored) :
    (g.renew identifier password h).Follows (guarding.rules reliable)
      (fun l _ => l.lock? = some (lock identifier))
      (.reading (lock identifier) (location identifier)) := by
  rw [renew]
  split
  · refine Action.follows_looking_bind (looksAt_hash g.policy password _) fun _ => ?_
    exact Action.follows_attempt_bind (Action.follows_storing _) fun _ _ hl => hl
  · rfl

theorem follows_authenticate (c : Credentials) :
    (g.authenticate c).Follows (guarding.rules reliable) Phase.IsEnd .before := by
  rw [authenticate]
  split
  · rfl
  · cases checkIdentifier c.identifier with
    | error e => exact Action.follows_ofExcept_bind (fun _ _ => rfl) fun _ _ => rfl
    | ok _ =>
      dsimp only
      rw [authenticateByPassword_eq]
      refine Action.follows_guarded (place?_lock c.identifier) ?_
      exact Action.follows_looking_bind (looksAt_loadVerified g c.identifier c.secret) fun h =>
        follows_renew c.identifier c.secret h

end Guard

namespace Operation

variable {reliable : Prop} (s : Services) (session : Session) (o : Operation)

/-- An operation as a program among others, in some session. Its result says which operation it is
of. -/
def task : Program (Σ o : Operation, Outcome o.Result) :=
  (o.action s session).run.bind fun outcome => .done ⟨o, outcome.map (·.1)⟩

theorem follows :
    (o.action s session).Follows (guarding.rules reliable) Phase.IsEnd .before := by
  have hkeep : ∀ {α : Type} {action : Action α},
      action.Follows (guarding.rules reliable) Phase.IsEnd .before →
      (action >>= fun a => pure (a, session)).Follows (guarding.rules reliable) Phase.IsEnd
        .before :=
    fun h => Action.follows_bind h (fun _ _ hl => hl) fun _ _ hl => hl
  cases o with
  | register identifier password => exact hkeep (Guard.follows_register identifier password)
  | change identifier current new => exact hkeep (Guard.follows_change identifier current new)
  | remove identifier => exact hkeep (Guard.follows_remove identifier)
  | has identifier => exact hkeep (Guard.follows_has identifier)
  | signIn c =>
    rw [action, signIn_eq]
    refine Action.follows_bind (Guard.follows_authenticate c) (fun l _ hl => ?_) fun _ _ hl => hl
    refine (Action.follows_apart
      (composed_openSession s session c trivial fun _ => trivial).asks l).mono ?_
    rintro _ _ rfl
    exact hl

/-- Every operation keeps to the `rules` for its record. -/
theorem follows_task :
    (o.task s session).Follows (guarding.rules reliable) Phase.IsEnd .before :=
  (o.follows s session).bind fun _ _ hl => hl

end Operation

/-! ## Operations in a row -/

/-- Operations as programs, each in some session. -/
def tasksOf (s : Services) (calls : List (Operation × Session)) :
    List (Program (Σ o : Operation, Outcome o.Result)) :=
  calls.map fun call => call.1.task s call.2

variable {s : Services} {calls : List (Operation × Session)} {reliable : Prop} {d d' : Memory}
  {trace : Trace} {p : Program (Σ o : Operation, Outcome o.Result)}

theorem exists_of_tasksOf {i : Nat} (hp : (tasksOf s calls)[i]? = some p) :
    ∃ o session, calls[i]? = some (o, session) ∧ p = o.task s session := by
  rw [tasksOf, List.getElem?_map] at hp
  obtain ⟨⟨o, session⟩, hcall, rfl⟩ := Option.map_eq_some_iff.1 hp
  exact ⟨o, session, hcall, rfl⟩

/-- A program of an operation that `RunsAs` alone runs the operation. -/
theorem Operation.runs_of_task {o : Operation} {session : Session}
    {result : Σ o : Operation, Outcome o.Result}
    (h : (o.task s session).RunsAs reliable trace d result d') :
    ∃ outcome failed, result = ⟨o, outcome.map (·.1)⟩
      ∧ (o.action s session).Runs d outcome d' failed := by
  obtain ⟨failed, hrun⟩ := h.runs
  obtain ⟨outcome, d₁, before, after, haction, hend, -⟩ := Program.runs_bind_iff.1 hrun
  obtain ⟨rfl, rfl, -⟩ := Program.runs_done_iff.1 hend
  exact ⟨outcome, before, rfl, haction⟩

theorem contains_filed {identifier name : String} {h : Stored}
    (hd : d.contains (location identifier) = true) :
    (filed d name h).contains (location identifier) = true := by
  rw [Table.contains, filed, Table.get?_insert]
  split
  · rfl
  · exact hd

/-- An account that there is stays, unless it is removed. -/
theorem Effect.contains {policy : Password.Policy} {o : Operation} {outcome : Outcome o.Result}
    {identifier : String} (h : Effect policy d o outcome d')
    (hd : d.contains (location identifier) = true)
    (hnot : (⟨o, outcome⟩ : Σ o : Operation, Outcome o.Result) ≠ ⟨.remove identifier, .ok ()⟩) :
    d'.contains (location identifier) = true := by
  have hsets : ∀ {name password : String} {outcome : Outcome Unit},
      Sets policy name password d outcome d' → d'.contains (location identifier) = true := by
    intro name password outcome hsets
    cases hsets with
    | done => exact contains_filed hd
    | halted => exact hd
  cases o with
  | register name password => exact hsets h
  | change name current new => exact hsets h
  | remove name =>
    rcases h with ⟨rfl, rfl⟩ | ⟨-, rfl⟩
    · have hne : location identifier ≠ location name := by
        intro heq
        rw [location_inj.1 heq] at hnot
        exact hnot rfl
      rw [Table.contains, Table.get?_erase, if_neg hne]
      exact hd
    · exact hd
  | has name =>
    obtain rfl : d' = d := h
    exact hd
  | signIn c =>
    rcases h with ⟨-, ⟨h, -, rfl⟩, -⟩ | rfl
    · exact contains_filed hd
    · exact hd

/-- A registration that succeeds finds no account and leaves one. -/
theorem contains_of_registered {i : Nat} {identifier password : String}
    (hp : (tasksOf s calls)[i]? = some p)
    (h : p.RunsAs reliable trace d ⟨.register identifier password, .ok ()⟩ d') :
    d.contains (location identifier) = false ∧ d'.contains (location identifier) = true := by
  obtain ⟨o, session, -, rfl⟩ := exists_of_tasksOf hp
  obtain ⟨outcome, failed, hresult, hrun⟩ := Operation.runs_of_task h
  obtain ⟨rfl, houtcome⟩ := Sigma.mk.inj hresult
  cases outcome with
  | error halt => cases houtcome
  | ok registered =>
    have hregister : (s.guard.register identifier password).Runs d (.ok ()) d' failed :=
      runs_of_runs_pair hrun
    refine ⟨Guard.contains_eq_false_of_runs_register hregister, ?_⟩
    cases Guard.runs_register hregister with
    | done => rw [Table.contains, filed, Table.get?_insert, if_pos rfl, Option.isSome_some]

/-- Between two registrations of one account that succeed, one after the other, it is removed. -/
theorem exists_removal_between {traceOf : Nat → Trace}
    {results : List (Σ o : Operation, Outcome o.Result)} {front between back : List Nat} {i j : Nat}
    {identifier password password' : String}
    (h : OneByOne reliable (tasksOf s calls) results traceOf
      (front ++ i :: (between ++ j :: back)) d d')
    (hi : results[i]? = some ⟨.register identifier password, .ok ()⟩)
    (hj : results[j]? = some ⟨.register identifier password', .ok ()⟩) :
    ∃ k ∈ between, results[k]? = some ⟨.remove identifier, .ok ()⟩ := by
  by_contra hnone
  obtain ⟨d₁, -, hrest⟩ := h.exists_of_append
  cases hrest with
  | cons hfirst hrest =>
    obtain ⟨d₃, hbetween, hrest⟩ := hrest.exists_of_append
    cases hrest with
    | cons hsecond hrest =>
      obtain ⟨p, result, hp, hresult, hruns⟩ := hfirst
      cases hi.symm.trans hresult
      have hthere := (contains_of_registered hp hruns).2
      obtain ⟨p', result', hp', hresult', hruns'⟩ := hsecond
      cases hj.symm.trans hresult'
      have hgone := (contains_of_registered hp' hruns').1
      -- nobody in between takes the account away
      have hstill : d₃.contains (location identifier) = true := by
        refine hbetween.keeps (P := fun d => d.contains (location identifier) = true)
          (fun k hk d d' hstep hd => ?_) hthere
        obtain ⟨q, a, hq, ha, hruns⟩ := hstep
        obtain ⟨o, session, -, rfl⟩ := exists_of_tasksOf hq
        obtain ⟨outcome, failed, rfl, hrun⟩ := Operation.runs_of_task hruns
        refine (effect_of_runs hrun).contains hd fun hremoved => hnone ⟨k, hk, ?_⟩
        rw [ha, hremoved]
      rw [hstill] at hgone
      cases hgone

/-! ## Operations that run together -/

theorem isGuarded_tasksOf {S : Surroundings} (s : Services) (calls : List (Operation × Session))
    (state : S.State) : IsGuarded guarding (Together.start state (tasksOf s calls)) := by
  refine ⟨rfl, fun i p hp => ?_⟩
  obtain ⟨o, session, -, rfl⟩ := exists_of_tasksOf hp
  exact o.follows_task s session

/-- Of two members of a list one comes after the other. -/
private theorem exists_append_of_mem {α : Type} {order : List α} {i j : α} (hne : i ≠ j)
    (hi : i ∈ order) (hj : j ∈ order) :
    (∃ front between back, order = front ++ i :: (between ++ j :: back))
      ∨ ∃ front between back, order = front ++ j :: (between ++ i :: back) := by
  obtain ⟨front, back, rfl⟩ := List.append_of_mem hi
  rcases List.mem_append.1 hj with hj | hj
  · obtain ⟨front, between, rfl⟩ := List.append_of_mem hj
    exact .inr ⟨front, between, back, by rw [List.append_assoc, List.cons_append]⟩
  · rcases List.mem_cons.1 hj with rfl | hj
    · exact absurd rfl hne
    · obtain ⟨between, back, rfl⟩ := List.append_of_mem hj
      exact .inl ⟨front, between, back, rfl⟩

theorem sublist_of_mem {α : Type} {front between back : List α} {i j k : α} (hk : k ∈ between) :
    [i, k, j].Sublist (front ++ i :: (between ++ j :: back)) := by
  have hpair : [k, j].Sublist (between ++ j :: back) :=
    (List.singleton_sublist.2 hk).append (List.singleton_sublist.2 List.mem_cons_self)
  exact (hpair.cons_cons i).trans (List.sublist_append_right _ _)

section Passes

variable {S : Surroundings} {state : S.State} {events : List Event}
  {t : Together S.State (Σ o : Operation, Outcome o.Result)}
  (hpasses : Passes S (.start state (tasksOf s calls)) events t)

include hpasses

/-- Operations that ran together could have run `OneByOne`, and two registrations of one account
stand with a removal between them then. -/
private theorem exists_order {results : List (Σ o : Operation, Outcome o.Result)}
    (hdone : t.tasks = results.map .done) :
    ∃ order : List Nat, order.Perm (List.range calls.length)
      ∧ OneByOne S.IsReliable (tasksOf s calls) results (fun i => traceOf i events) order
          (S.data state) (S.data t.world)
      ∧ ∀ (i j : Nat) (identifier password password' : String), i ≠ j →
          results[i]? = some ⟨.register identifier password, .ok ()⟩ →
          results[j]? = some ⟨.register identifier password', .ok ()⟩ →
          ∃ k, results[k]? = some ⟨.remove identifier, .ok ()⟩
            ∧ ([i, k, j].Sublist order ∨ [j, k, i].Sublist order) := by
  obtain ⟨order, hperm, hserial⟩ :=
    hpasses.exists_oneByOne (isGuarded_tasksOf s calls state) hdone
  have hcalls : (Together.start state (tasksOf s calls)).tasks.length = calls.length :=
    List.length_map _
  have hlength : results.length = calls.length := by
    rw [← hcalls, ← hpasses.length_tasks, hdone, List.length_map]
  rw [hcalls] at hperm
  have hmem : ∀ {i result}, results[i]? = some result → i ∈ order := by
    intro i result hresult
    rw [hperm.mem_iff, List.mem_range, ← hlength]
    exact (List.getElem?_eq_some_iff.1 hresult).1
  refine ⟨order, hperm, hserial, fun i j identifier password password' hne hi hj => ?_⟩
  rcases exists_append_of_mem hne (hmem hi) (hmem hj) with
    ⟨front, between, back, rfl⟩ | ⟨front, between, back, rfl⟩
  · obtain ⟨k, hk, hremoved⟩ := exists_removal_between hserial hi hj
    exact ⟨k, hremoved, .inl (sublist_of_mem hk)⟩
  · obtain ⟨k, hk, hremoved⟩ := exists_removal_between hserial hj hi
    exact ⟨k, hremoved, .inr (sublist_of_mem hk)⟩

variable {e : Event} {session : Session}

/-- Whatever is changed, is changed as by one operation that runs alone just then. -/
theorem runs_of_change (he : e ∈ events) {o : Operation}
    (hcall : calls[e.task]? = some (o, session)) (hchanged : e.after ≠ e.before) :
    ∃ outcome failed, (o.action s session).Runs e.before outcome e.after failed := by
  obtain ⟨p, trace, result, hp, hruns⟩ :=
    hpasses.runsAs_of_change (isGuarded_tasksOf s calls state) he hchanged
  obtain ⟨o', session', hcall', rfl⟩ := exists_of_tasksOf hp
  cases hcall.symm.trans hcall'
  obtain ⟨outcome, failed, -, hrun⟩ := Operation.runs_of_task hruns
  exact ⟨outcome, failed, hrun⟩

/-- A `signIn` changes the data only where its password has the hash on record just then, and no
hash that the services make themselves. -/
theorem renews_of_change (haccepted : s.guard.policy.IsAccepted) (he : e ∈ events) {c : Credentials}
    (hcall : calls[e.task]? = some (.signIn c, session)) (hchanged : e.after ≠ e.before) :
    ∃ old new, ReadsAs e.before c.identifier old ∧ old.verify c.secret = .ok true
      ∧ (∀ password, ¬ Hashed s.guard.policy password old)
      ∧ Hashed s.guard.policy c.secret new ∧ e.after = filed e.before c.identifier new := by
  obtain ⟨outcome, failed, hrun⟩ := runs_of_change hpasses he hcall hchanged
  rcases runs_signIn hrun with
    ⟨⟨old, hreads, hverify, houtdated⟩, ⟨new, hhashed, hafter⟩, -⟩ | hsame
  · refine ⟨old, new, hreads, hverify, fun password hmade => ?_, hhashed, hafter⟩
    rw [hmade.isOutdated haccepted] at houtdated
    cases houtdated
  · exact absurd hsame hchanged

end Passes

/-- Operations on accounts, any number of them, are carried out together by the same services, in
some session each, over a storage that may fail at any time. When all have ended, their results and
the data that they leave are those of the same operations `OneByOne` in some order, each of them
alone, where each request is answered as it was. Of two registrations of one account that succeed,
one comes after the other in that order, and a removal of the account that succeeds between them. At
any time, ended or not, a change of a password has changed the data only by putting a hash of the
new one on record (`filed`), and a sign-in only by renewing a hash. The hash that a sign-in has
overwritten was on record right then. Its password has it, and the services do not make such hashes
any more: it is none that one of the operations has put there. So no password that was changed
meanwhile is overwritten, nor does an account come back that was removed. -/
theorem no_change_lost (S : Surroundings) (s : Services) (hopened : s.IsOpened)
    (calls : List (Operation × Session)) (state : S.State) {events : List Event}
    {t : Together S.State (Σ o : Operation, Outcome o.Result)}
    (hpasses : Passes S (.start state (tasksOf s calls)) events t) :
    (∀ results : List (Σ o : Operation, Outcome o.Result), t.tasks = results.map .done →
      ∃ order : List Nat, order.Perm (List.range calls.length)
        ∧ OneByOne S.IsReliable (tasksOf s calls) results (fun i => traceOf i events) order
            (S.data state) (S.data t.world)
        ∧ ∀ (i j : Nat) (identifier password password' : String), i ≠ j →
            results[i]? = some ⟨.register identifier password, .ok ()⟩ →
            results[j]? = some ⟨.register identifier password', .ok ()⟩ →
            ∃ k, results[k]? = some ⟨.remove identifier, .ok ()⟩
              ∧ ([i, k, j].Sublist order ∨ [j, k, i].Sublist order))
    ∧ ∀ e ∈ events, e.after ≠ e.before → ∀ session : Session,
        (∀ identifier current new : String,
          calls[e.task]? = some (.change identifier current new, session) →
          ∃ h, Hashed s.guard.policy new h ∧ e.after = filed e.before identifier h)
        ∧ ∀ c : Credentials, calls[e.task]? = some (.signIn c, session) →
          ∃ old new, ReadsAs e.before c.identifier old ∧ old.verify c.secret = .ok true
            ∧ (∀ password, ¬ Hashed s.guard.policy password old)
            ∧ Hashed s.guard.policy c.secret new ∧ e.after = filed e.before c.identifier new := by
  have haccepted := (isUsable_of_isOpened hopened).accepted
  refine ⟨fun results hdone => exists_order hpasses hdone, fun e he hchanged session =>
    ⟨fun identifier current new hcall => ?_, fun c hcall =>
      renews_of_change hpasses haccepted he hcall hchanged⟩⟩
  obtain ⟨outcome, failed, hrun⟩ := runs_of_change hpasses he hcall hchanged
  exact (Guard.runs_change (runs_of_runs_pair hrun)).exists_of_ne hchanged

/-! ### Ada and Bob -/

/-- Ada has registered where hashing costs less. -/
def adaKnown : World.surroundings.State :=
  (after World.surroundings costlier opened [adaRegisters, adaRegisters]).1

/-- Ada signs in and changes her password. Two people want to be Bob, and Bob is removed. -/
def crowd : List (Operation × Session) :=
  [(.signIn ⟨"ada", "p", .password, Table.empty⟩, .start), (.change "ada" "p" "q", .start),
    (.register "bob" "x", .start), (.remove "bob", .start), (.register "bob" "y", .start)]

/-- The operations after three steps each by turns, as far as they can step. Ada's new hash is made
but not yet written. -/
def gathered : Together World.surroundings.State (Σ o : Operation, Outcome o.Result) :=
  (Together.start adaKnown (tasksOf (costlier 1) crowd)).run World.surroundings.answer
    (List.replicate 3 [0, 1, 2, 3, 4]).flatten

/-- The operations when Ada's new hash is written. -/
def renewed : Together World.surroundings.State (Σ o : Operation, Outcome o.Result) :=
  (gathered.step? World.surroundings.answer 0).getD gathered

/-- The operations after 20 more steps each by turns. -/
def dispersed : Together World.surroundings.State (Σ o : Operation, Outcome o.Result) :=
  renewed.run World.surroundings.answer (List.replicate 20 [0, 1, 2, 3, 4]).flatten

/-- What has come of the operations. -/
def arrangements : List (Σ o : Operation, Outcome o.Result) :=
  dispersed.tasks.filterMap Program.result?

/-- Ada's hash was renewed, with the password that she had. Both have become Bob, and Bob was
removed in between. -/
theorem crowd_serves_all :
    ∃ events, Passes World.surroundings (.start adaKnown (tasksOf (costlier 1) crowd)) events
          dispersed
      ∧ (∃ (order : List Nat) (k : Nat), OneByOne World.surroundings.IsReliable
            (tasksOf (costlier 1) crowd) arrangements (fun i => traceOf i events) order
            (World.surroundings.data adaKnown) (World.surroundings.data dispersed.world)
          ∧ arrangements[k]? = some ⟨.remove "bob", .ok ()⟩
          ∧ ([2, k, 4].Sublist order ∨ [4, k, 2].Sublist order))
      ∧ ∃ e ∈ events, e.after ≠ e.before ∧ ∃ old new, ReadsAs e.before "ada" old
          ∧ old.verify "p" = .ok true
          ∧ (∀ password, ¬ Hashed (costlier 1).guard.policy password old)
          ∧ Hashed (costlier 1).guard.policy "p" new ∧ e.after = filed e.before "ada" new := by
  obtain ⟨earlier, hearlier⟩ : ∃ earlier, Passes World.surroundings
      (.start adaKnown (tasksOf (costlier 1) crowd)) (earlier ++ []) gathered :=
    Passes.start.of_reaches (Together.reaches_run _ _ _)
  have hwrites : (gathered.step? World.surroundings.answer 0).any (fun t =>
      World.surroundings.data t.world != World.surroundings.data gathered.world) = true := by
    decide +kernel
  obtain ⟨t, hstep, hwritten⟩ := (Option.any_eq_true _ _).1 hwrites
  have hend : dispersed = t.run World.surroundings.answer
      (List.replicate 20 [0, 1, 2, 3, 4]).flatten := by
    rw [dispersed, renewed, hstep, Option.getD_some]
  obtain ⟨e, htask, hbefore, hafter, hevent⟩ := hearlier.exists_event hstep
  obtain ⟨later, hpasses⟩ := hevent.of_reaches
    (Together.reaches_run World.surroundings.answer t (List.replicate 20 [0, 1, 2, 3, 4]).flatten)
  rw [← hend] at hpasses
  obtain ⟨hserial, hrenews⟩ := no_change_lost World.surroundings (costlier 1)
    (isOpened_costlier 1) crowd adaKnown hpasses
  have hresults : dispersed.tasks.all (·.result?.isSome) = true
      ∧ arrangements[2]? = some ⟨.register "bob" "x", .ok ()⟩
      ∧ arrangements[4]? = some ⟨.register "bob" "y", .ok ()⟩ := by decide +kernel
  obtain ⟨hall, hfirst, hsecond⟩ := hresults
  have hdone : dispersed.tasks = arrangements.map .done := Program.eq_map_done hall
  obtain ⟨order, -, hrow, hbetween⟩ := hserial arrangements hdone
  obtain ⟨k, hremoved, hk⟩ := hbetween 2 4 "bob" "x" "y" (by decide) hfirst hsecond
  have he : e ∈ later ++ e :: (earlier ++ []) := List.mem_append_right later List.mem_cons_self
  have hsignIn : crowd[e.task]?
      = some (.signIn ⟨"ada", "p", .password, Table.empty⟩, .start) := by
    rw [htask]
    rfl
  have hchanged : e.after ≠ e.before := by
    rw [hbefore, hafter]
    exact bne_iff_ne.1 hwritten
  exact ⟨_, hpasses, ⟨order, k, hrow, hremoved, hk⟩, e, he, hchanged,
    (hrenews e he hchanged _).2 _ hsignIn⟩

end Strongbox.Account
