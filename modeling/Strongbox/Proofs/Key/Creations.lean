import Strongbox.Proofs.Key.Exclusion
/-!
# Creations that run together

Where pairs are only made, what is made stays. Nothing is written where something is, so whole pairs
are kept as they are, whoever else is at work (`Exclusive.view_eq_of_step`); no two creations make a
pair under one identifier; and who completes a pair has written its key where there was nothing.

## Main results

* `made_of_passes`: the pairs that creations have made are there, and each is made once.
* `view_eq_of_reaches`: whole pairs are kept.
* `wroteUnused_of_passes`: how the key of a pair was written.
-/

namespace Strongbox.Key

open Storage (Memory)

variable {reliable : Prop} {op : Nat → Operation} {l : Nat → Standing} {held : List Lock}
  {d d' : Memory} {i : Nat} {r : Request} {stored : Option String} {l' : Standing} {c : Creation}
  {identifier : String}

/-! ## Steps -/

/-- A `View` that is whole stays as it is while nobody deletes. -/
theorem Exclusive.view_eq_of_step (h : Exclusive reliable op l held d) (ho : op i = .create c)
    (hstep : Step reliable (op i) (l i) d r stored l' d')
    (hwhole : (View.of d identifier).IsWhole) :
    View.of d' identifier = View.of d identifier := by
  cases hstep with
  | still | listed | tookPair | gavePair | tookTurn | gaveTurn => rfl
  | storedKey key _ hc hnone _ hd' =>
    subst hd'
    refine View.of_insert_key_of_ne ?_ key
    rintro rfl
    rw [View.IsWhole, (h.fits hc).agrees, hnone] at hwhole
    cases hwhole.1
  | storedRecord record _ hc _ _ hnone hd' =>
    subst hd'
    refine View.of_insert_record_of_ne ?_ record
    rintro rfl
    rw [View.IsWhole, (h.fits hc).agrees, hnone] at hwhole
    cases hwhole.2
  | undidKey _ _ hc _ _ hnone hd' =>
    subst hd'
    refine View.of_erase_key_of_ne ?_
    rintro rfl
    rw [View.IsWhole, (h.fits hc).agrees, hnone] at hwhole
    cases hwhole.2
  | deletedHalf hdelete =>
    rw [ho] at hdelete
    cases hdelete

/-- The pairs that were made change only as one is completed. -/
theorem Step.made_eq_or {o : Operation} {l : Standing} (h : Step reliable o l d r stored l' d') :
    l'.made = l.made
      ∨ ∃ c record, l.custody = some c ∧ c.made = true ∧ c.now.key.isSome = true
          ∧ c.now.record = none ∧ l'.made = c.identifier :: l.made
          ∧ d' = d.insert (Catalogue.location c.identifier) record := by
  cases h with
  | storedRecord record _ hc hmade hkey hnone hd' =>
    exact .inr ⟨_, record, hc, hmade, hkey, hnone, rfl, hd'⟩
  | _ => exact .inl rfl

/-- The operation has written the key under an identifier, whether or not the pair is completed. -/
def Standing.HasWritten (l : Standing) (identifier : String) : Prop :=
  identifier ∈ l.made ∨ ∃ c, l.custody = some c ∧ c.identifier = identifier ∧ c.made = true

/-- What an operation `HasWritten` is written in some step, where there was nothing. -/
private theorem Step.hasWritten_or {o : Operation} {l : Standing}
    (h : Step reliable o l d r stored l' d') (hwritten : l'.HasWritten identifier) :
    l.HasWritten identifier
      ∨ ∃ key, r = .store (Material.location identifier) key
          ∧ d' = d.insert (Material.location identifier) key := by
  cases h with
  | still | listed | tookTurn | gaveTurn => exact .inl hwritten
  | tookPair other hfree =>
    rcases hwritten with hmade | ⟨c, hc, -, hmade⟩
    · exact .inl (.inl hmade)
    · cases hc
      cases hmade
  | gavePair =>
    rcases hwritten with hmade | ⟨c, hc, -⟩
    · exact .inl (.inl hmade)
    · cases hc
  | storedKey key _ hc _ _ hd' =>
    rcases hwritten with hmade | ⟨_, hc', rfl, -⟩
    · exact .inl (.inl hmade)
    · cases hc'
      exact .inr ⟨key, rfl, hd'⟩
  | @storedRecord c _ _ _ _ hc hmade =>
    rcases hwritten with hmem | ⟨_, hc', rfl, -⟩
    · rcases List.mem_cons.1 hmem with rfl | hmem
      · exact .inl (.inr ⟨c, hc, rfl, hmade⟩)
      · exact .inl (.inl hmem)
    · cases hc'
      exact .inl (.inr ⟨c, hc, rfl, hmade⟩)
  | undidKey _ _ hc hmade =>
    rcases hwritten with hmem | ⟨_, hc', rfl, -⟩
    · exact .inl (.inl hmem)
    · cases hc'
      exact .inl (.inr ⟨_, hc, rfl, hmade⟩)
  | deletedHalf _ hc =>
    rcases hwritten with hmem | ⟨_, hc', rfl, hmade⟩
    · exact .inl (.inl hmem)
    · cases hc'
      exact .inl (.inr ⟨_, hc, rfl, hmade⟩)

/-- Where nothing fails, what an operation `HasWritten` stays so: custody is not given up before the
pair is completed. -/
theorem Step.hasWritten {o : Operation} {l : Standing} (h : Step reliable o l d r stored l' d')
    (hreliable : reliable)
    (hrecorded : ∀ c, l.custody = some c → c.made = true → c.now.record.isSome = true →
      c.identifier ∈ l.made)
    (hwritten : l.HasWritten identifier) : l'.HasWritten identifier := by
  rcases hwritten with hmem | ⟨c, hc, rfl, hmade⟩
  · rcases h.made_eq_or with hsame | ⟨_, _, _, _, _, _, hmore, _⟩
    · exact .inl (hsame.symm ▸ hmem)
    · exact .inl (hmore.symm ▸ List.mem_cons_of_mem _ hmem)
  · cases h with
    | still => exact .inr ⟨c, hc, rfl, hmade⟩
    | tookTurn => exact .inr ⟨c, hc, rfl, hmade⟩
    | listed hnone | tookPair _ hnone | gaveTurn hnone =>
      rw [hnone] at hc
      cases hc
    | gavePair hc' _ hcompleted =>
      rw [hc'] at hc
      cases hc
      exact .inl (hrecorded c hc' hmade (hcompleted hmade hreliable))
    | storedKey _ _ hc' =>
      rw [hc'] at hc
      cases hc
      exact .inr ⟨_, rfl, rfl, rfl⟩
    | storedRecord _ _ hc' | undidKey _ _ hc' | deletedHalf _ hc' =>
      rw [hc'] at hc
      cases hc
      exact .inr ⟨_, rfl, rfl, hmade⟩

/-- The pairs that were made are there, and each was made once. -/
structure Made (l : Nat → Standing) (d : Memory) : Prop where
  whole : ∀ {i identifier}, identifier ∈ (l i).made → (View.of d identifier).IsWhole
  once : ∀ {i j identifier}, identifier ∈ (l i).made → identifier ∈ (l j).made → i = j

theorem Made.step (hmade : Made l d) (h : Exclusive reliable op l held d) (ho : op i = .create c)
    (hstep : Step reliable (op i) (l i) d r stored l' d') : Made (Function.update l i l') d' := by
  have hkept : ∀ {j identifier}, identifier ∈ (l j).made → (View.of d' identifier).IsWhole := by
    intro j identifier hmem
    have hwhole := hmade.whole hmem
    rw [h.view_eq_of_step ho hstep hwhole]
    exact hwhole
  rcases hstep.made_eq_or with hsame | ⟨c, record, hc, -, hkey, hnone, hmore, rfl⟩
  · have hsames := update_same Standing.made hsame
    refine ⟨fun hmem => ?_, fun hmem hmem' => ?_⟩
    · rw [hsames] at hmem
      exact hkept hmem
    · rw [hsames] at hmem hmem'
      exact hmade.once hmem hmem'
  · -- The pair is completed now, so nobody has made it before.
    have hnew : ∀ j, c.identifier ∉ (l j).made := by
      intro j hmem
      have hwhole := hmade.whole hmem
      rw [View.IsWhole, (h.fits hc).agrees, hnone] at hwhole
      cases hwhole.2
    have hcases : ∀ {j identifier}, identifier ∈ (Function.update l i l' j).made →
        j = i ∧ identifier = c.identifier ∨ identifier ∈ (l j).made := by
      intro j identifier hmem
      by_cases hji : j = i
      · subst hji
        rw [Function.update_self, hmore] at hmem
        rcases List.mem_cons.1 hmem with rfl | hmem
        · exact .inl ⟨rfl, rfl⟩
        · exact .inr hmem
      · rw [Function.update_of_ne hji] at hmem
        exact .inr hmem
    refine ⟨fun hmem => ?_, fun hmem hmem' => ?_⟩
    · rcases hcases hmem with ⟨-, rfl⟩ | hmem
      · rw [View.of_insert_record, View.IsWhole, (h.fits hc).agrees]
        exact ⟨hkey, rfl⟩
      · exact hkept hmem
    · rcases hcases hmem with ⟨rfl, rfl⟩ | hold
      · rcases hcases hmem' with ⟨rfl, -⟩ | hold'
        · rfl
        · exact absurd hold' (hnew _)
      · rcases hcases hmem' with ⟨rfl, rfl⟩ | hold'
        · exact absurd hold (hnew _)
        · exact hmade.once hold hold'

/-! ## Runs -/

variable {α : Type} {S : Surroundings} {cs : Nat → Creation} {Q : Nat → Standing → α → Prop}
  {s t u : Together S.State α} {events : List Event}

/-- In every run of creations, the pairs that they have made are there, and each was made once: the
standings are `Made`. -/
theorem made_of_passes (h : Start S (fun i => .create (cs i)) Q s) (hpasses : Passes S s events t) :
    Made (fun i => standingOf i events) (S.data t.world) := by
  induction hpasses with
  | start => exact ⟨fun hmem => (by cases hmem), fun hmem => (by cases hmem)⟩
  | @step events t u i r next hpasses htask hstep ih =>
    rw [standingOf_cons]
    exact ih.step (exclusive_of_passes h hpasses).1 rfl (step_of_passes h hpasses htask hstep).1

/-- In every run of creations, a `View` that is whole is kept. -/
theorem view_eq_of_reaches (h : Start S (fun i => .create (cs i)) Q s)
    (hpasses : Passes S s events t) (hreaches : Together.Reaches S.answer t u)
    (hwhole : (View.of (S.data t.world) identifier).IsWhole) :
    View.of (S.data u.world) identifier = View.of (S.data t.world) identifier := by
  induction hreaches with
  | refl => rfl
  | @step u v i hreaches hstep ih =>
    obtain ⟨later, hlater⟩ := hpasses.of_reaches hreaches
    obtain ⟨r, next, htask, -⟩ := Together.exists_of_step? hstep
    rw [← ih] at hwhole ⊢
    exact (exclusive_of_passes h hlater).1.view_eq_of_step rfl
      (step_of_passes h hlater htask hstep).1 hwhole

/-- On the way to a state, a program has written a key under an identifier that was not in use. -/
def WroteUnused (S : Surroundings) (s t : Together S.State α) (i : Nat) (identifier : String) :
    Prop :=
  ∃ t₁ t₂ key next, Together.Reaches S.answer s t₁
    ∧ t₁.tasks[i]? = some (.ask (.store (Material.location identifier) key) next)
    ∧ View.of (S.data t₁.world) identifier = ⟨none, none⟩ ∧ t₁.step? S.answer i = some t₂
    ∧ (S.data t₂.world).get? (Material.location identifier) = some key
    ∧ Together.Reaches S.answer t₂ t

/-- Keys are written where there was nothing. -/
theorem wroteUnused_of_passes (h : Start S (fun i => .create (cs i)) Q s)
    (hpasses : Passes S s events t) (hwritten : (standingOf i events).HasWritten identifier) :
    WroteUnused S s t i identifier := by
  induction hpasses with
  | start =>
    rcases hwritten with hmem | ⟨c, hc, -⟩
    · cases hmem
    · cases hc
  | @step events t u j r next hpasses htask hstep ih =>
    have hlater : (standingOf i events).HasWritten identifier → WroteUnused S s u i identifier := by
      intro hwritten
      obtain ⟨t₁, t₂, key, next, hreaches, htask, hunused, hstored, hget, hrest⟩ := ih hwritten
      exact ⟨t₁, t₂, key, next, hreaches, htask, hunused, hstored, hget, .step j hrest hstep⟩
    rw [standingOf] at hwritten
    by_cases hji : j = i
    · subst hji
      rw [if_pos rfl] at hwritten
      obtain ⟨hexclusive, hfollows⟩ := exclusive_of_passes h hpasses
      rcases (step_of_passes h hpasses htask hstep).1.hasWritten_or hwritten with
        hwritten | ⟨key, rfl, hdata⟩
      · exact hlater hwritten
      · refine ⟨t, u, key, next, hpasses.reaches, htask, ?_, hstep, ?_, .refl u⟩
        · exact (hexclusive.unused_of_store (hfollows j _ htask).1).2 identifier rfl
        · rw [hdata, Table.get?_insert, if_pos rfl]
    · rw [if_neg hji] at hwritten
      exact hlater hwritten

end Strongbox.Key
