import Acceptors.Proofs.DerivedStates

/-!
# Runs of determinizations

A word over the alphabet leads a determinization to the state of the set that it leads the source
to, or nowhere if that set has no state.  The step lemma is `Follows.mem_advance`; the run lemma
`mem_after_determinize` carries it over words.
-/

namespace Acceptors

namespace Determinized.Follows

variable {α : Type} [DecidableEq α] {d : Determinized α} {A : Automaton α} {start : State}

theorem start_lt (follows : d.Follows A start) : 0 < d.automaton.stateCount :=
  follows.wellFormed.start_lt 0 follows.start_eq

theorem epsilonReach_iff (follows : d.Follows A start) {p q : State} :
    d.automaton.EpsilonReach p q ↔ p = q := by
  refine (follows.wellFormed.isEpsilonFree ?_).epsilonReach_iff
  rw [follows.kind_eq]
  rfl

theorem mem_advance (follows : d.Follows A start) {states : StateSet} {a : α} {p : State} :
    p ∈ d.automaton.advance states a ↔
      a ∈ A.alphabet ∧ ∃ q ∈ states, ∃ s, d.label? q = some s ∧
        d.label? p = some (A.advance s a) := by
  rw [follows.wellFormed.mem_advance]
  simp only [follows.epsilonReach_iff, follows.mem_recent]
  constructor
  · rintro ⟨q, hq, _, ⟨ha, hlabel⟩, rfl⟩
    exact ⟨ha, q, hq, hlabel⟩
  · rintro ⟨ha, q, hq, hlabel⟩
    exact ⟨q, hq, p, ⟨ha, hlabel⟩, rfl⟩

theorem mem_closure_start (follows : d.Follows A start) {p : State} :
    p ∈ d.automaton.closure [0] ↔ d.label? p = some (A.closure [start]) := by
  rw [follows.wellFormed.mem_closure_singleton follows.start_lt, follows.epsilonReach_iff]
  constructor
  · rintro rfl
    exact follows.labels_zero
  · intro hp
    have hfound := follows.stateFor?_eq_some.2 follows.labels_zero
    exact Option.some.inj (hfound.symm.trans (follows.stateFor?_eq_some.2 hp))

theorem eq_singleton (follows : d.Follows A start) {states s : StateSet} {p : State}
    (hmem : ∀ q, q ∈ states ↔ d.label? q = some s) (hp : d.label? p = some s) :
    states = .singleton p := by
  refine StateSet.ext fun q => ?_
  rw [hmem, ← follows.stateFor?_eq_some, follows.stateFor?_eq_some.2 hp, StateSet.mem_singleton,
    Option.some.injEq, eq_comm]

end Determinized.Follows

namespace Automaton

variable {α : Type} [DecidableEq α] {A : Automaton α} {start : State}

section

variable {complete : Bool} {naming : Naming} {d : Determinized α} {word : List α}
  (wf : A.WellFormed) (hstart : A.start = some start)
  (h : A.determinize complete naming = .ok d)

include wf hstart h

theorem WellFormed.mem_labels_of_advance {s : StateSet} {a : α} (hs : A.LeadsTo start s)
    (hnext : A.advance s a ∈ d.labels) : s ∈ d.labels := by
  rw [wf.mem_labels_determinize hstart h] at hnext ⊢
  refine ⟨hs, ?_⟩
  rintro rfl
  exact hnext.2 (advance_empty a)

theorem WellFormed.mem_after_determinize (hword : ∀ a ∈ word, a ∈ A.alphabet) {p : State} :
    p ∈ d.automaton.after 0 word ↔ d.label? p = some (A.after start word) := by
  have follows := wf.follows_determinize hstart h
  induction word using List.reverseRecOn generalizing p with
  | nil => exact follows.mem_closure_start
  | append_singleton word a ih =>
      obtain ⟨hbefore, ha⟩ := List.forall_mem_append.1 hword
      rw [after_concat, after_concat, follows.mem_advance]
      simp only [ih hbefore]
      constructor
      · rintro ⟨-, q, hq, s, hs, hp⟩
        cases hq.symm.trans hs
        exact hp
      · intro hp
        -- A dead run stays dead, so the set before the step has a state if that after it has one.
        have hlabel := wf.mem_labels_of_advance hstart h (leadsTo_after hbefore)
          (List.mem_of_getElem? hp)
        obtain ⟨q, hq⟩ := List.mem_iff_getElem?.1 hlabel
        exact ⟨ha a (List.mem_singleton.2 rfl), q, hq, _, hq, hp⟩

theorem WellFormed.after_determinize_of_mem (hword : ∀ a ∈ word, a ∈ A.alphabet)
    (hmem : A.after start word ∈ d.labels) :
    ∃ p, d.label? p = some (A.after start word) ∧ d.automaton.after 0 word = .singleton p := by
  have follows := wf.follows_determinize hstart h
  obtain ⟨p, hp⟩ := List.mem_iff_getElem?.1 hmem
  exact ⟨p, hp, follows.eq_singleton (fun q => wf.mem_after_determinize hstart h hword) hp⟩

theorem WellFormed.after_determinize_of_not_mem (hword : ∀ a ∈ word, a ∈ A.alphabet)
    (hmem : A.after start word ∉ d.labels) : d.automaton.after 0 word = ∅ := by
  refine StateSet.eq_empty_iff.2 fun p hp => hmem ?_
  exact List.mem_of_getElem? ((wf.mem_after_determinize hstart h hword).1 hp)

theorem WellFormed.after_determinize_foreign (hword : ¬ ∀ a ∈ word, a ∈ A.alphabet) :
    d.automaton.after 0 word = ∅ := by
  have follows := wf.follows_determinize hstart h
  obtain ⟨a, ha, hforeign⟩ : ∃ a ∈ word, a ∉ A.alphabet := by simpa using hword
  exact follows.wellFormed.after_foreign 0 ha (follows.alphabet_eq ▸ hforeign)

theorem WellFormed.after_mem_labels (hne : A.after start word ≠ ∅) :
    A.after start word ∈ d.labels := by
  rw [wf.mem_labels_determinize hstart h]
  exact ⟨leadsTo_after (wf.word_over_alphabet hne), fun hdead => absurd hdead hne⟩

theorem WellFormed.containsAccepting_determinize :
    d.automaton.containsAccepting (d.automaton.after 0 word) =
      A.containsAccepting (A.after start word) := by
  have follows := wf.follows_determinize hstart h
  rw [Bool.eq_iff_iff, containsAccepting_iff]
  constructor
  · rintro ⟨p, hp, haccepting⟩
    have hword := follows.wellFormed.word_over_alphabet (StateSet.nonempty_of_mem hp)
    rw [follows.alphabet_eq] at hword
    have hlabel := (wf.mem_after_determinize hstart h hword).1 hp
    rwa [← follows.accepting_eq hlabel]
  · intro haccepting
    obtain ⟨q, hq, -⟩ := containsAccepting_iff.1 haccepting
    have hne := StateSet.nonempty_of_mem hq
    have hword := wf.word_over_alphabet hne
    obtain ⟨p, hp⟩ := List.mem_iff_getElem?.1 (wf.after_mem_labels hstart h hne)
    refine ⟨p, (wf.mem_after_determinize hstart h hword).2 hp, ?_⟩
    rwa [follows.accepting_eq hp]

end

/--
A determinization follows the runs of its source.  A run that dies is followed to the sink, if there
is one, and only as long as the word is over the alphabet.
-/
theorem run_determinize (built : A.Built) (hstart : A.start = some start) (complete : Bool)
    (naming : Naming) :
    ∃ d, A.determinize complete naming = .ok d ∧ ∀ word : List α, ∃ active,
      A.run word = .ok active ∧
      (active ≠ ∅ → ∃ p, d.automaton.run word = .ok (.singleton p) ∧ d.label? p = some active) ∧
      (active = ∅ → complete = false → d.automaton.run word = .ok ∅) ∧
      (active = ∅ → complete = true → (∀ a ∈ word, a ∈ A.alphabet) →
        ∃ sink, d.sink? = some sink ∧ d.automaton.run word = .ok (.singleton sink)) ∧
      (active = ∅ → complete = true → (¬ ∀ a ∈ word, a ∈ A.alphabet) →
        d.automaton.run word = .ok ∅) ∧
      ∃ accepted, A.accepts word = .ok accepted ∧ d.automaton.accepts word = .ok accepted := by
  have wf := built.wellFormed
  obtain ⟨d, hd⟩ := exists_determinize hstart complete naming
  have follows := wf.follows_determinize hstart hd
  refine ⟨d, hd, fun word => ⟨A.after start word, run_of_start hstart word, ?_⟩⟩
  simp only [run_of_start follows.start_eq, Except.ok.injEq]
  refine ⟨?_, ?_, ?_, ?_, ?_⟩
  · intro hne
    obtain ⟨p, hp, hrun⟩ := wf.after_determinize_of_mem hstart hd (wf.word_over_alphabet hne)
      (wf.after_mem_labels hstart hd hne)
    exact ⟨p, hrun, hp⟩
  · intro hdead hcomplete
    by_cases hword : ∀ a ∈ word, a ∈ A.alphabet
    · refine wf.after_determinize_of_not_mem hstart hd hword fun hmem => ?_
      have hcompleted := ((wf.mem_labels_determinize hstart hd).1 hmem).2 hdead
      simp [hcomplete] at hcompleted
    · exact wf.after_determinize_foreign hstart hd hword
  · intro hdead hcomplete hword
    have hmem := (wf.mem_labels_determinize hstart hd).2
      ⟨leadsTo_after hword, fun _ => hcomplete⟩
    obtain ⟨p, hp, hrun⟩ := wf.after_determinize_of_mem hstart hd hword hmem
    rw [hdead] at hp
    exact ⟨p, follows.stateFor?_eq_some.2 hp, hrun⟩
  · exact fun _ _ hword => wf.after_determinize_foreign hstart hd hword
  · refine ⟨_, accepts_of_start hstart word, ?_⟩
    rw [accepts_of_start follows.start_eq, wf.containsAccepting_determinize hstart hd]

theorem run_determinize_epsilonCycle :
    epsilonCycle.Built ∧ epsilonCycle.start = some 0 ∧
      ∃ d, epsilonCycle.determinize true .numbered = .ok d ∧
        (∃ sink, d.sink? = some sink ∧ d.automaton.run ['b', 'a'] = .ok (.singleton sink)) ∧
        d.automaton.run ['b', 'c'] = .ok ∅ := by
  refine ⟨built_epsilonCycle, rfl, ?_⟩
  obtain ⟨d, hd, hruns⟩ := run_determinize built_epsilonCycle rfl true .numbered
  refine ⟨d, hd, ?_, ?_⟩
  · obtain ⟨active, hrun, -, -, hsink, -⟩ := hruns ['b', 'a']
    have hdead : active = ∅ := Except.ok.inj (hrun.symm.trans (by decide))
    exact hsink hdead rfl (by simp [epsilonCycle])
  · obtain ⟨active, hrun, -, -, -, hforeign, -⟩ := hruns ['b', 'c']
    have hdead : active = ∅ := Except.ok.inj (hrun.symm.trans (by decide))
    exact hforeign hdead rfl (by simp [epsilonCycle])

end Automaton

end Acceptors
