import Acceptors.Proofs.Built

/-!
# Derived states and their labels

The labels of a determinization are the sets that runs over the alphabet lead to, each of them once,
the empty set only if a sink was asked for.  `Determinized.Follows` says what holds of a
determinization with or without a sink: every derived state moves as its label does.
-/

namespace Acceptors

theorem idxOf?_eq_some_iff_getElem? {β : Type} [DecidableEq β] {items : List β}
    (hnodup : items.Nodup) {b : β} {n : Nat} : items.idxOf? b = some n ↔ items[n]? = some b := by
  rw [List.idxOf?_eq_some_iff, List.getElem?_eq_some_iff]
  constructor
  · rintro ⟨hn, heq, -⟩
    exact ⟨hn, heq⟩
  · rintro ⟨hn, heq⟩
    refine ⟨hn, heq, fun m hm hb => ?_⟩
    exact Nat.ne_of_lt hm ((hnodup.getElem_inj_iff).1 (hb.trans heq.symm))

theorem getElem?_concat_eq_some {β : Type} {items : List β} {b c : β} {n : Nat} :
    (items ++ [b])[n]? = some c ↔ items[n]? = some c ∨ n = items.length ∧ c = b := by
  rcases Nat.lt_trichotomy n items.length with hlt | rfl | hgt
  · rw [List.getElem?_append_left hlt]
    simp [Nat.ne_of_lt hlt]
  · simp [@eq_comm _ b]
  · rw [List.getElem?_eq_none (by simp; omega), List.getElem?_eq_none (by omega)]
    simp [Nat.ne_of_gt hgt]

namespace Automaton

variable {α : Type} [DecidableEq α] {A : Automaton α} {start : State}

/-! ## The automaton over the labels -/

theorem WellFormed.mem_recent_labelAutomaton (wf : A.WellFormed) {naming : Naming} {p r : State}
    {a : α} :
    ⟨p, .symbol a, r⟩ ∈ (A.labelAutomaton naming (A.reachedSets start)).recent ↔
      a ∈ A.alphabet ∧ ∃ s, (A.reachedSets start)[p]? = some s ∧
        (A.reachedSets start)[r]? = some (A.advance s a) := by
  have hrecent : (A.labelAutomaton naming (A.reachedSets start)).recent =
    (A.labelMoves (A.reachedSets start)).reverse := rfl
  rw [hrecent, List.mem_reverse, mem_labelMoves]
  simp only [idxOf?_eq_some_iff_getElem? (wf.nodup_reachedSets start), Label.symbol.injEq]
  constructor
  · rintro ⟨s, hs, _, ha, rfl, hr⟩
    exact ⟨ha, s, hs, hr⟩
  · rintro ⟨ha, s, hs, hr⟩
    exact ⟨s, hs, a, ha, rfl, hr⟩

theorem WellFormed.mem_gaps_labelAutomaton (wf : A.WellFormed) (hlt : start < A.stateCount)
    {naming : Naming} {p : State} {a : α} :
    (p, a) ∈ (A.labelAutomaton naming (A.reachedSets start)).gaps ↔
      a ∈ A.alphabet ∧ ∃ s, (A.reachedSets start)[p]? = some s ∧ A.advance s a = ∅ := by
  have halphabet : (A.labelAutomaton naming (A.reachedSets start)).alphabet = A.alphabet := rfl
  rw [mem_gaps, stateCount_labelAutomaton, halphabet]
  simp only [wf.mem_recent_labelAutomaton]
  constructor
  · rintro ⟨hp, ha, hnone⟩
    refine ⟨ha, _, List.getElem?_eq_getElem hp, ?_⟩
    by_contra hne
    have hmem := wf.advance_mem_reachedSets (List.getElem_mem hp) ha hne
    obtain ⟨r, hr⟩ := List.mem_iff_getElem?.1 hmem
    exact hnone r ⟨ha, _, List.getElem?_eq_getElem hp, hr⟩
  · rintro ⟨ha, s, hs, hdead⟩
    refine ⟨(List.getElem?_eq_some_iff.1 hs).1, ha, ?_⟩
    rintro r ⟨-, s', hs', hr⟩
    cases hs.symm.trans hs'
    rw [hdead] at hr
    exact wf.empty_not_mem_reachedSets hlt (List.mem_of_getElem? hr)

theorem WellFormed.gaps_labelAutomaton_eq_nil_iff (wf : A.WellFormed)
    (hlt : start < A.stateCount) (naming : Naming) :
    (A.labelAutomaton naming (A.reachedSets start)).gaps = [] ↔
      ¬ A.LeadsTo start ∅ := by
  rw [wf.leadsTo_empty_iff hlt, List.eq_nil_iff_forall_not_mem]
  constructor
  · rintro hnone ⟨s, hs, a, ha, hdead⟩
    obtain ⟨p, hp⟩ := List.mem_iff_getElem?.1 hs
    exact hnone (p, a) ((wf.mem_gaps_labelAutomaton hlt).2 ⟨ha, s, hp, hdead⟩)
  · rintro hnone ⟨p, a⟩ hgap
    obtain ⟨ha, s, hs, hdead⟩ := (wf.mem_gaps_labelAutomaton hlt).1 hgap
    exact hnone ⟨s, List.mem_of_getElem? hs, a, ha, hdead⟩

theorem getElem?_stateData_labelAutomaton {naming : Naming} {labels : List StateSet} {p : State}
    {s : StateSet} (hs : labels[p]? = some s) :
    (A.labelAutomaton naming labels).stateData[p]? =
      some ⟨A.containsAccepting s, some (naming.name A p s)⟩ := by
  have harray : (A.labelAutomaton naming labels).stateData =
    (A.labelStates naming labels).toArray := rfl
  simp [harray, labelStates, List.getElem?_zipIdx, hs]

theorem isAcceptingState_labelAutomaton {naming : Naming} {labels : List StateSet} {p : State}
    {s : StateSet} (hs : labels[p]? = some s) :
    (A.labelAutomaton naming labels).isAcceptingState p = A.containsAccepting s := by
  rw [isAcceptingState, getElem?_stateData_labelAutomaton hs]

end Automaton

/-! ## Determinizations with or without a sink -/

/-- Every derived state stands for its label: it moves and accepts as its label does. -/
structure Determinized.Follows {α : Type} [DecidableEq α] (d : Determinized α) (A : Automaton α)
    (start : State) : Prop where
  wellFormed : d.automaton.WellFormed
  kind_eq : d.automaton.kind = .deterministic
  alphabet_eq : d.automaton.alphabet = A.alphabet
  start_eq : d.automaton.start = some 0
  stateCount_eq : d.automaton.stateCount = d.labels.length
  labels_nodup : d.labels.Nodup
  labels_zero : d.labels[0]? = some (A.closure [start])
  mem_recent : ∀ {p r : State} {a : α}, ⟨p, .symbol a, r⟩ ∈ d.automaton.recent ↔
    a ∈ A.alphabet ∧ ∃ s, d.labels[p]? = some s ∧ d.labels[r]? = some (A.advance s a)
  accepting_eq : ∀ {p : State} {s : StateSet}, d.labels[p]? = some s →
    d.automaton.isAcceptingState p = A.containsAccepting s

namespace Determinized.Follows

variable {α : Type} [DecidableEq α] {d : Determinized α} {A : Automaton α} {start : State}

theorem exists_label (follows : d.Follows A start) {s : State}
    (hs : s < d.automaton.stateCount) : ∃ S, d.label? s = some S :=
  ⟨_, List.getElem?_eq_getElem (Nat.lt_of_lt_of_eq hs follows.stateCount_eq)⟩

theorem stateFor?_eq_some (follows : d.Follows A start)
    {S : StateSet} {s : State} : d.stateFor? S = some s ↔ d.label? s = some S :=
  idxOf?_eq_some_iff_getElem? follows.labels_nodup

theorem label?_inj (follows : d.Follows A start) {s t : State} {S : StateSet}
    (hs : d.label? s = some S) (ht : d.label? t = some S) : s = t := by
  rw [← follows.stateFor?_eq_some] at hs ht
  exact Option.some.inj (hs.symm.trans ht)

theorem isAccepting_iff (follows : d.Follows A start)
    {S : StateSet} {s : State} (hs : d.label? s = some S) :
    d.automaton.isAccepting s = .ok true ↔ ∃ q ∈ S, A.isAccepting q = .ok true := by
  rw [Automaton.isAccepting_eq_ok_true, follows.accepting_eq hs, Automaton.containsAccepting_iff]
  simp only [Automaton.isAccepting_eq_ok_true]

end Determinized.Follows

namespace Automaton

variable {α : Type} [DecidableEq α] {A : Automaton α} {start : State}

theorem WellFormed.follows_labelAutomaton (wf : A.WellFormed) (start : State) (naming : Naming) :
    Determinized.Follows ⟨A.labelAutomaton naming (A.reachedSets start), A.reachedSets start⟩
      A start where
  wellFormed := wf.labelAutomaton naming (wf.reachedSets_length_pos start)
  kind_eq := rfl
  alphabet_eq := rfl
  start_eq := rfl
  stateCount_eq := stateCount_labelAutomaton naming _
  labels_nodup := wf.nodup_reachedSets start
  labels_zero := wf.reachedSets_zero start
  mem_recent := wf.mem_recent_labelAutomaton
  accepting_eq := isAcceptingState_labelAutomaton

theorem mem_recent_withSink {e : Determinized α} (base : e.Follows A start) (hfresh : ∅ ∉ e.labels)
    (hgap : ∀ p a, (p, a) ∈ e.automaton.gaps ↔
      a ∈ A.alphabet ∧ ∃ s, e.labels[p]? = some s ∧ A.advance s a = ∅) {p r : State} {a : α} :
    ⟨p, .symbol a, r⟩ ∈ e.automaton.sinkMoves.reverse ++ e.automaton.recent ↔
      a ∈ A.alphabet ∧ ∃ s, (e.labels ++ [∅])[p]? = some s ∧
        (e.labels ++ [∅])[r]? = some (A.advance s a) := by
  rw [List.mem_append, List.mem_reverse, mem_sinkMoves, base.mem_recent, base.stateCount_eq,
    base.alphabet_eq]
  simp only [hgap, getElem?_concat_eq_some]
  -- With the sink as the state of the empty set, the gaps are moves like all others.
  constructor
  · rintro (⟨rfl, b, ha, hb, hp⟩ | ⟨ha, s, hs, hr⟩)
    · cases hb
      refine ⟨ha, ?_⟩
      rcases hp with rfl | ⟨-, s, hs, hdead⟩
      · exact ⟨∅, .inr ⟨rfl, rfl⟩, .inr ⟨rfl, advance_empty a⟩⟩
      · exact ⟨s, .inl hs, .inr ⟨rfl, hdead⟩⟩
    · exact ⟨ha, s, .inl hs, .inl hr⟩
  · rintro ⟨ha, s, hs | ⟨rfl, rfl⟩, hr⟩
    · rcases hr with hr | ⟨rfl, hdead⟩
      · exact .inr ⟨ha, s, hs, hr⟩
      · exact .inl ⟨rfl, a, ha, rfl, .inr ⟨ha, s, hs, hdead⟩⟩
    · rw [advance_empty] at hr
      rcases hr with hr | ⟨rfl, -⟩
      · exact absurd (List.mem_of_getElem? hr) hfresh
      · exact .inl ⟨rfl, a, ha, rfl, .inl rfl⟩

theorem follows_withSink {naming : Naming} {d e : Determinized α} (base : e.Follows A start)
    (hfresh : ∅ ∉ e.labels)
    (hgap : ∀ p a, (p, a) ∈ e.automaton.gaps ↔
      a ∈ A.alphabet ∧ ∃ s, e.labels[p]? = some s ∧ A.advance s a = ∅)
    (h : A.withSink naming e = .ok d) : d.Follows A start := by
  obtain ⟨-, rfl⟩ | ⟨hgaps, hlabels, hnamed⟩ := withSink_eq_ok.1 h
  · exact base
  · obtain ⟨hkind, halphabet, hstart, hrecent, hcount⟩ := frame_modifyState hnamed
    obtain ⟨hkind', halphabet', hstart'⟩ := e.automaton.frame_complete
    constructor
    · exact base.wellFormed.complete.modifyState hnamed
    · rw [hkind, hkind', base.kind_eq]
    · rw [halphabet, halphabet', base.alphabet_eq]
    · rw [hstart, hstart', base.start_eq]
    · rw [hcount, stateCount_complete hgaps, base.stateCount_eq, hlabels, List.length_append]
      rfl
    · rw [hlabels, List.nodup_append]
      refine ⟨base.labels_nodup, by simp, ?_⟩
      rintro s hs _ hempty rfl
      exact hfresh (List.mem_singleton.1 hempty ▸ hs)
    · rw [hlabels, getElem?_concat_eq_some]
      exact .inl base.labels_zero
    · intro p r a
      rw [hrecent, recent_complete hgaps, hlabels]
      exact mem_recent_withSink base hfresh hgap
    · intro p s hs
      rw [isAcceptingState_setName hnamed, isAcceptingState_complete]
      rw [hlabels, getElem?_concat_eq_some] at hs
      rcases hs with hs | ⟨rfl, rfl⟩
      · exact base.accepting_eq hs
      · rw [← base.stateCount_eq, isAcceptingState_stateCount]
        rfl

section

variable {complete : Bool} {naming : Naming} {d : Determinized α} (wf : A.WellFormed)
  (hstart : A.start = some start) (h : A.determinize complete naming = .ok d)

include wf hstart h

theorem WellFormed.follows_determinize : d.Follows A start := by
  have hlt := wf.start_lt start hstart
  have base := wf.follows_labelAutomaton start naming
  rcases determinize_cases hstart h with ⟨-, rfl⟩ | ⟨-, hsink⟩
  · exact base
  · exact follows_withSink base (wf.empty_not_mem_reachedSets hlt)
      (fun p a => wf.mem_gaps_labelAutomaton hlt) hsink

theorem WellFormed.labels_determinize :
    d.labels = A.reachedSets start ∧ ¬ (complete = true ∧ A.LeadsTo start ∅) ∨
      d.labels = A.reachedSets start ++ [∅] ∧ complete = true ∧ A.LeadsTo start ∅ := by
  have hgaps := wf.gaps_labelAutomaton_eq_nil_iff (wf.start_lt start hstart) naming
  rcases determinize_cases hstart h with ⟨hcomplete, rfl⟩ | ⟨hcomplete, hsink⟩
  · exact .inl ⟨rfl, fun hdead => by simp [hcomplete] at hdead⟩
  · obtain ⟨hnone, rfl⟩ | ⟨hsome, hlabels, -⟩ := withSink_eq_ok.1 hsink
    · exact .inl ⟨rfl, fun hdead => hgaps.1 hnone hdead.2⟩
    · exact .inr ⟨hlabels, hcomplete, not_not.1 (mt hgaps.2 hsome)⟩

/-- The search for labels lists the labels of all derived states but the sink. -/
theorem WellFormed.getElem?_reachedSets {s : State} {S : StateSet} :
    (A.reachedSets start)[s]? = some S ↔ d.label? s = some S ∧ d.sink? ≠ some s := by
  have hfresh := wf.empty_not_mem_reachedSets (wf.start_lt start hstart)
  have hsink : d.sink? = some s ↔ d.label? s = some ∅ :=
    (wf.follows_determinize hstart h).stateFor?_eq_some
  rw [ne_eq, hsink, Determinized.label?]
  constructor
  · intro hs
    have hne : S ≠ ∅ := fun hempty => hfresh (hempty ▸ List.mem_of_getElem? hs)
    have hlabel : d.labels[s]? = some S := by
      obtain ⟨hlabels, -⟩ | ⟨hlabels, -⟩ := wf.labels_determinize hstart h
      · rwa [hlabels]
      · rw [hlabels, getElem?_concat_eq_some]
        exact .inl hs
    refine ⟨hlabel, fun hempty => hne ?_⟩
    exact Option.some.inj (hlabel.symm.trans hempty)
  · rintro ⟨hlabel, hne⟩
    obtain ⟨hlabels, -⟩ | ⟨hlabels, -⟩ := wf.labels_determinize hstart h
    · rwa [hlabels] at hlabel
    · have hlast := hlabel
      rw [hlabels, getElem?_concat_eq_some] at hlast
      refine hlast.resolve_right fun hlast => hne ?_
      rw [hlabel, hlast.2]

theorem WellFormed.mem_labels_determinize {s : StateSet} :
    s ∈ d.labels ↔ A.LeadsTo start s ∧ (s = ∅ → complete = true) := by
  have hreached : s ∈ A.reachedSets start ↔ s ≠ ∅ ∧ A.LeadsTo start s :=
    wf.mem_reachedSets_iff_leadsTo (wf.start_lt start hstart)
  obtain ⟨hlabels, hnone⟩ | ⟨hlabels, hcomplete, hdead⟩ := wf.labels_determinize hstart h
  · rw [hlabels, hreached]
    constructor
    · exact fun ⟨hne, hleads⟩ => ⟨hleads, fun hempty => absurd hempty hne⟩
    · rintro ⟨hleads, hcomplete⟩
      exact ⟨fun hempty => hnone ⟨hcomplete hempty, hempty ▸ hleads⟩, hleads⟩
  · rw [hlabels, List.mem_append, hreached, List.mem_singleton]
    constructor
    · rintro (⟨-, hleads⟩ | rfl)
      · exact ⟨hleads, fun _ => hcomplete⟩
      · exact ⟨hdead, fun _ => hcomplete⟩
    · rintro ⟨hleads, -⟩
      by_cases hempty : s = ∅
      · exact .inr hempty
      · exact .inl ⟨hempty, hleads⟩

theorem WellFormed.leadsTo_of_label {p : State} {s : StateSet} (hs : d.label? p = some s) :
    A.LeadsTo start s :=
  ((wf.mem_labels_determinize hstart h).1 (List.mem_of_getElem? hs)).1

theorem WellFormed.mem_labels_iff_ne_empty (hpartial : complete = false) {s : StateSet}
    (hs : A.LeadsTo start s) : s ∈ d.labels ↔ s ≠ ∅ := by
  rw [wf.mem_labels_determinize hstart h, hpartial]
  simp [hs]

theorem WellFormed.isSome_sink?_iff :
    d.sink?.isSome ↔ complete = true ∧ A.LeadsTo start ∅ := by
  have hmem : d.sink?.isSome ↔ ∅ ∈ d.labels := by
    rw [Determinized.sink?, Determinized.stateFor?, List.isSome_idxOf?]
  rw [hmem, wf.mem_labels_determinize hstart h, and_comm]
  simp

theorem WellFormed.succ_eq_stateCount {s : State} (hs : d.label? s = some ∅) :
    s + 1 = d.automaton.stateCount := by
  have hfresh := wf.empty_not_mem_reachedSets (wf.start_lt start hstart)
  rw [(wf.follows_determinize hstart h).stateCount_eq]
  rw [Determinized.label?] at hs
  obtain ⟨hlabels, -⟩ | ⟨hlabels, -⟩ := wf.labels_determinize hstart h
  · rw [hlabels] at hs
    exact absurd (List.mem_of_getElem? hs) hfresh
  · rw [hlabels, getElem?_concat_eq_some] at hs
    rcases hs with hs | ⟨rfl, -⟩
    · exact absurd (List.mem_of_getElem? hs) hfresh
    · simp [hlabels]

end

theorem leadsTo_iff_run (hstart : A.start = some start) {s : StateSet} :
    A.LeadsTo start s ↔
      ∃ word : List α, (∀ a ∈ word, a ∈ A.alphabet) ∧ A.run word = .ok s := by
  simp only [leadsTo_iff_after, run_of_start hstart, Except.ok.injEq]

/-- The labels list the sets that runs lead to, each once; a sink stands for the dead runs. -/
theorem labels_enumerate_runs (built : A.Built) (hstart : A.start = some start) (complete : Bool)
    (naming : Naming) :
    ∃ d, A.determinize complete naming = .ok d ∧
      d.labels.length = d.automaton.stateCount ∧
      d.labels.Nodup ∧
      (∀ s < d.automaton.stateCount, ∃ S, d.label? s = some S ∧ d.stateFor? S = some s) ∧
      (∀ S s, d.stateFor? S = some s → d.label? s = some S) ∧
      (∀ S, S ≠ ∅ → (S ∈ d.labels ↔
        ∃ word : List α, (∀ a ∈ word, a ∈ A.alphabet) ∧ A.run word = .ok S)) ∧
      (∀ s S, d.label? s = some S →
        (d.automaton.isAccepting s = .ok true ↔ ∃ q ∈ S, A.isAccepting q = .ok true)) ∧
      (d.sink?.isSome ↔ complete = true ∧
        ∃ word : List α, (∀ a ∈ word, a ∈ A.alphabet) ∧ A.run word = .ok ∅) ∧
      ∀ s, d.sink? = some s →
        s + 1 = d.automaton.stateCount ∧ d.automaton.isAccepting s = .ok false ∧
          ∀ t, d.label? t = some ∅ ↔ t = s := by
  have wf := built.wellFormed
  obtain ⟨d, hd⟩ := exists_determinize hstart complete naming
  have follows := wf.follows_determinize hstart hd
  simp only [← leadsTo_iff_run hstart]
  refine ⟨d, hd, follows.stateCount_eq.symm, follows.labels_nodup, ?_, ?_, ?_, ?_,
    wf.isSome_sink?_iff hstart hd, ?_⟩
  · intro s hs
    have hlabel := List.getElem?_eq_getElem (Nat.lt_of_lt_of_eq hs follows.stateCount_eq)
    exact ⟨_, hlabel, follows.stateFor?_eq_some.2 hlabel⟩
  · exact fun S s => follows.stateFor?_eq_some.1
  · intro S hne
    rw [wf.mem_labels_determinize hstart hd]
    exact and_iff_left fun hempty => absurd hempty hne
  · exact fun s S => follows.isAccepting_iff
  · intro s hs
    have hempty := follows.stateFor?_eq_some.1 hs
    have hlast := wf.succ_eq_stateCount hstart hd hempty
    refine ⟨hlast, ?_, ?_⟩
    · rw [isAccepting_eq_ok, follows.accepting_eq hempty]
      exact ⟨hlast ▸ Nat.lt_succ_self s, rfl⟩
    · intro t
      constructor
      · exact fun ht => Nat.succ.inj ((wf.succ_eq_stateCount hstart hd ht).trans hlast.symm)
      · rintro rfl
        exact hempty

theorem labels_epsilonCycle :
    epsilonCycle.Built ∧ epsilonCycle.start = some 0 ∧
      ∃ d, epsilonCycle.determinize true .numbered = .ok d ∧
        .ofList [0, 1, 2] ∈ d.labels ∧ d.sink?.isSome := by
  refine ⟨built_epsilonCycle, rfl, ?_⟩
  obtain ⟨d, hd, -, -, -, -, hlabels, -, hsink, -⟩ :=
    labels_enumerate_runs built_epsilonCycle rfl true .numbered
  refine ⟨d, hd, ?_, ?_⟩
  · exact (hlabels _ (by decide)).2 ⟨['a'], by simp [epsilonCycle], by decide⟩
  · exact hsink.2 ⟨rfl, ['b'], by simp [epsilonCycle], by decide⟩

end Automaton

end Acceptors
