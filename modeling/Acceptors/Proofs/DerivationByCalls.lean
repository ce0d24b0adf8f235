import Acceptors.Proofs.DerivedStates
import Acceptors.Proofs.Frontier
import Acceptors.Proofs.RemovalByCalls

/-!
# Determinization by calls

The final list of labels begins with the labels found at any time.  A move that is added on the way
is therefore a move of the final table, which lists none twice, and the moves of one label are
complete when the next one is expanded.
-/

namespace Acceptors.Automaton

open Building

variable {α : Type} [DecidableEq α] {A : Automaton α} {naming : Naming} {s : StateSet}
  {p q start : State} {a : α} {f : Frontier} {labels expanded waiting : List StateSet}
  {moves : List (Transition α)}

/-! ## Derived automata on the way -/

/-- The move of a label under a symbol in the final table. -/
def labelMove? (A : Automaton α) (labels : List StateSet) (s : StateSet) (p : State) (a : α) :
    Option (Transition α) :=
  (labels.idxOf? (A.advance s a)).map fun q => ⟨p, .symbol a, q⟩

/-- The moves of the first labels in the final table. -/
def labelRows (A : Automaton α) (labels expanded : List StateSet) : List (Transition α) :=
  expanded.zipIdx.flatMap fun (s, p) => A.alphabet.filterMap (A.labelMove? labels s p)

theorem labelRows_self (A : Automaton α) (labels : List StateSet) :
    A.labelRows labels labels = A.labelMoves labels :=
  (A.labelMoves_eq_flatMap labels).symm

theorem labelRows_mono {later : List StateSet} (h : expanded <+: later) :
    A.labelRows labels expanded <+: A.labelRows labels later := by
  obtain ⟨more, rfl⟩ := h
  simp [labelRows, List.zipIdx_append]

theorem labelRows_reverse_cons (A : Automaton α) (labels expanded : List StateSet) (s : StateSet) :
    A.labelRows labels (s :: expanded).reverse =
      A.labelRows labels expanded.reverse ++
        A.alphabet.filterMap (A.labelMove? labels s expanded.length) := by
  simp [labelRows, List.zipIdx_append]

def derivedStage (A : Automaton α) (naming : Naming) (labels : List StateSet)
    (moves : List (Transition α)) : Automaton α :=
  { A.labelAutomaton naming labels with recent := moves.reverse }

/-- What is built when a label has moved under some symbols. -/
def expandedStage (A : Automaton α) (naming : Naming) (final : List StateSet) (s : StateSet)
    (p : State) (f : Frontier) (moves : List (Transition α)) (symbols : List α) : Automaton α :=
  A.derivedStage naming (A.discoverUnder s f symbols).labels
    (moves ++ symbols.filterMap (A.labelMove? final s p))

/-- What is built when a search has come so far. -/
def searchStage (A : Automaton α) (naming : Naming) (final : List StateSet)
    (search : Search StateSet) : Automaton α :=
  A.derivedStage naming search.found (A.labelRows final search.expanded.reverse)

@[simp] theorem stateCount_derivedStage :
    (A.derivedStage naming labels moves).stateCount = labels.length :=
  stateCount_labelAutomaton naming labels

theorem addState_derivedStage (t : StateSet) :
    (A.derivedStage naming labels moves).addState
        ⟨A.containsAccepting t, some (naming.name A labels.length t)⟩ =
      A.derivedStage naming (labels ++ [t]) moves := by
  simp [derivedStage, labelAutomaton, addState, labelStates, List.zipIdx_append]

theorem expandedStage_nil {final : List StateSet} (tracks : f.Tracks ⟨s :: expanded, waiting⟩) :
    A.expandedStage naming final s expanded.length f (A.labelRows final expanded.reverse) [] =
      A.searchStage naming final ⟨expanded, s :: waiting⟩ := by
  simp [expandedStage, searchStage, discoverUnder, tracks.labels_eq, Search.found]

theorem expandedStage_alphabet {final : List StateSet}
    (tracks : f.Tracks ⟨s :: expanded, waiting⟩) :
    A.expandedStage naming final s expanded.length f (A.labelRows final expanded.reverse)
        A.alphabet =
      A.searchStage naming final
        (Search.step ⟨expanded, s :: waiting⟩ (A.successors A.moves)) := by
  unfold expandedStage searchStage
  rw [← labelRows_reverse_cons, (tracks_step tracks).labels_eq]
  rfl

theorem builds_addDerived (A B : Automaton α) (naming : Naming) (t : StateSet) :
    (A.addDerived naming t).Builds B B.stateCount
      (B.addState ⟨A.containsAccepting t, some (naming.name A B.stateCount t)⟩) :=
  builds_nextState.bind ((builds_addState _).bind (builds_pure _))

theorem builds_newLabel (t : StateSet) :
    (A.addDerived naming t).Builds (A.derivedStage naming labels moves) labels.length
      (A.derivedStage naming (labels ++ [t]) moves) := by
  have hadd := builds_addDerived A (A.derivedStage naming labels moves) naming t
  rwa [stateCount_derivedStage, addState_derivedStage] at hadd

theorem builds_move (hp : p < labels.length) (hq : q < labels.length) (ha : a ∈ A.alphabet)
    (hnew : ⟨p, .symbol a, q⟩ ∉ moves) :
    (make (.addTransition p (.symbol a) q)).Builds (A.derivedStage naming labels moves) ()
      (A.derivedStage naming labels (moves ++ [⟨p, .symbol a, q⟩])) := by
  have hcall : p < (A.derivedStage naming labels moves).stateCount ∧
      q < (A.derivedStage naming labels moves).stateCount ∧
        (A.derivedStage naming labels moves).Permits (.symbol a) := by
    simpa using ⟨hp, hq, ha⟩
  have hmake := builds_addTransition hcall (by simpa [derivedStage] using hnew)
  simpa [derivedStage] using hmake

/-! ## Expansion -/

theorem labelMove?_eq_some {final : List StateSet} (hbegins : labels <+: final)
    (h : labels.idxOf? (A.advance s a) = some q) :
    A.labelMove? final s p a = some ⟨p, .symbol a, q⟩ := by
  simp [labelMove?, idxOf?_mono hbegins h]

section Expansion

-- All labels there will be.  The empty set is none of them, so that a move to it is left out.
variable {final : List StateSet} (hfinal : ∅ ∉ final)

include hfinal

theorem builds_expandUnder (hf : f.Indexed)
    (hbegins : (f.discover (A.advance s a)).labels <+: final) (hp : p < f.labels.length)
    (ha : a ∈ A.alphabet) (hnew : ∀ t ∈ A.labelMove? final s p a, t ∉ moves) :
    (A.expandUnder naming s p f a).Builds (A.derivedStage naming f.labels moves)
      (f.discover (A.advance s a))
      (A.derivedStage naming (f.discover (A.advance s a)).labels
        (moves ++ (A.labelMove? final s p a).toList)) := by
  unfold expandUnder
  by_cases hempty : (A.advance s a).isEmpty
  · have hnone : A.labelMove? final s p a = none := by
      simp [labelMove?, StateSet.isEmpty_iff.1 hempty, List.idxOf?_eq_none_iff.2 hfinal]
    rw [Frontier.discover_of_known (.inl hempty), hnone, if_pos hempty, Option.toList_none,
      List.append_nil]
    exact builds_pure f
  · rw [if_neg hempty, hf]
    cases hknown : f.labels.idxOf? (A.advance s a) with
    | some q =>
        obtain ⟨hq, hlabel, -⟩ := List.idxOf?_eq_some_iff.1 hknown
        rw [Frontier.discover_of_known (.inr (hlabel ▸ List.getElem_mem hq))] at hbegins ⊢
        have hmove := labelMove?_eq_some (p := p) hbegins hknown
        rw [hmove]
        exact (builds_move hp hq ha (hnew _ hmove)).bind (builds_pure f)
    | none =>
        have hmem : A.advance s a ∉ f.labels := List.idxOf?_eq_none_iff.1 hknown
        rw [Frontier.discover_of_new (not_or.2 ⟨hempty, hmem⟩)] at hbegins ⊢
        have hlast : (f.labels ++ [A.advance s a]).idxOf? (A.advance s a) =
            some f.labels.length := by
          simp [idxOf?_concat hmem]
        have hmove := labelMove?_eq_some (p := p) hbegins hlast
        rw [hmove]
        have hsource : p < (f.labels ++ [A.advance s a]).length := by
          simpa using Nat.lt_succ_of_lt hp
        have htarget : f.labels.length < (f.labels ++ [A.advance s a]).length := by simp
        exact (builds_newLabel _).bind
          ((builds_move hsource htarget ha (hnew _ hmove)).bind (builds_pure _))

theorem builds_expand (hf : f.Indexed) (hp : p < f.labels.length)
    (hbegins : (A.discoverUnder s f A.alphabet).labels <+: final)
    (hnodup : (moves ++ A.alphabet.filterMap (A.labelMove? final s p)).Nodup) :
    (A.alphabet.foldlM (A.expandUnder naming s p) f).Builds
      (A.expandedStage naming final s p f moves []) (A.discoverUnder s f A.alphabet)
      (A.expandedStage naming final s p f moves A.alphabet) := by
  apply builds_foldlM (A.discoverUnder s f) (A.expandedStage naming final s p f moves)
  intro done a later heq
  have hdone : A.discoverUnder s f (done ++ [a]) =
      (A.discoverUnder s f done).discover (A.advance s a) := by
    simp [discoverUnder]
  have hlater : (A.discoverUnder s f (done ++ [a])).labels <+: final := by
    refine (Frontier.labels_le_foldl _ (later.map (A.advance s))).trans ?_
    simpa [discoverUnder, heq] using hbegins
  have hlt : p < (A.discoverUnder s f done).labels.length :=
    hp.trans_le (Frontier.labels_le_foldl f _).length_le
  have hnew : ∀ t ∈ A.labelMove? final s p a,
      t ∉ moves ++ done.filterMap (A.labelMove? final s p) := by
    intro t ht hold
    rw [heq, List.filterMap_append, ← List.append_assoc, List.filterMap_cons_some ht,
      List.nodup_append] at hnodup
    exact hnodup.2.2 t hold t (by simp) rfl
  have hrow : moves ++ (done ++ [a]).filterMap (A.labelMove? final s p) =
      moves ++ done.filterMap (A.labelMove? final s p) ++ (A.labelMove? final s p a).toList := by
    cases hmove : A.labelMove? final s p a <;> simp [hmove]
  unfold expandedStage
  rw [hdone] at hlater ⊢
  rw [hrow]
  exact builds_expandUnder hfinal (hf.foldl_discover _) hlater hlt (by simp [heq]) hnew

theorem builds_step (naming : Naming) (hnodup : (A.labelMoves final).Nodup)
    (tracks : f.Tracks ⟨s :: expanded, waiting⟩)
    (hbegins : (Search.step ⟨expanded, s :: waiting⟩ (A.successors A.moves)).found <+: final) :
    (A.alphabet.foldlM (A.expandUnder naming s expanded.length) f).Builds
      (A.searchStage naming final ⟨expanded, s :: waiting⟩) (A.discoverUnder s f A.alphabet)
      (A.searchStage naming final
        (Search.step ⟨expanded, s :: waiting⟩ (A.successors A.moves))) := by
  rw [← expandedStage_nil tracks, ← expandedStage_alphabet tracks]
  apply builds_expand hfinal tracks.indexed
  · simp [tracks.labels_eq, Search.length_found]
    exact Nat.lt_add_right _ (Nat.lt_succ_self _)
  · rwa [(tracks_step tracks).labels_eq]
  · rw [← labelRows_self] at hnodup
    rw [← labelRows_reverse_cons]
    exact hnodup.sublist (labelRows_mono ((List.prefix_append _ _).trans hbegins)).sublist

/-- The exploration comes as far as the search does under the same limit. -/
theorem builds_explore (naming : Naming) (hnodup : (A.labelMoves final).Nodup) (limit : Nat)
    {search : Search StateSet} (tracks : f.Tracks search)
    (hbegins : (search.run (A.successors A.moves) limit).found <+: final) :
    ∃ g, (A.explore naming limit f).Builds (A.searchStage naming final search) g
        (A.searchStage naming final (search.run (A.successors A.moves) limit)) ∧
      g.Tracks (search.run (A.successors A.moves) limit) := by
  induction limit generalizing f search with
  | zero => exact ⟨f, builds_pure f, tracks⟩
  | succ limit ih =>
      obtain ⟨expanded, queue⟩ := search
      cases queue with
      | nil =>
          have hwaiting : f.waiting = [] := tracks.waiting_eq
          simp only [explore, hwaiting]
          exact ⟨f, builds_pure f, tracks⟩
      | cons s waiting =>
          have hwaiting : f.waiting =
            (s, expanded.length) :: waiting.zipIdx (expanded.length + 1) := tracks.waiting_eq
          have hrun : Search.run (A.successors A.moves) (limit + 1) ⟨expanded, s :: waiting⟩ =
              (Search.step ⟨expanded, s :: waiting⟩ (A.successors A.moves)).run
                (A.successors A.moves) limit := rfl
          rw [hrun] at hbegins ⊢
          have hstep := builds_step hfinal naming hnodup tracks.pop
            ((Search.found_prefix_run limit).trans hbegins)
          obtain ⟨g, hrest, htracks⟩ := ih (tracks_step tracks.pop) hbegins
          simp only [explore, hwaiting]
          exact ⟨g, hstep.bind hrest, htracks⟩

end Expansion

/-! ## The whole derivation -/

theorem builds_firstStart (h : A.alphabet.Nodup) (naming : Naming) (c : StateSet) :
    (make (.setStart 0)).Builds ((empty .deterministic A.alphabet).addState
      ⟨A.containsAccepting c, some (naming.name A 0 c)⟩) () (A.derivedStage naming [c] []) := by
  have hstage : A.derivedStage naming [c] [] =
      { (empty .deterministic A.alphabet).addState
        ⟨A.containsAccepting c, some (naming.name A 0 c)⟩ with start := some 0 } := by
    simp [derivedStage, labelAutomaton, labelStates, addState, empty, eraseDups_of_nodup h]
  rw [hstage]
  exact builds_setStart (by simp)

theorem WellFormed.builds_explore (wf : A.WellFormed) (hlt : start < A.stateCount)
    (naming : Naming) :
    ∃ g, (A.explore naming (Nat.pow 2 A.stateCount)
        (Frontier.empty.add (A.closure [start]) 0)).Builds
      (A.derivedStage naming [A.closure [start]] []) g
      (A.labelAutomaton naming (A.reachedSets start)) ∧
        g.labels = A.reachedSets start ∧ g.waiting = [] := by
  have bounded := wf.reached_bounded start
  have hreach := A.reachedSets_eq_reach start
  have hnodup := nodup_labelMoves (A.reachedSets start) wf.alphabet_nodup
  have hbegins := Search.found_prefix_reach bounded (Nat.pow 2 A.stateCount)
  rw [← hreach] at hbegins
  obtain ⟨g, hg, tracks⟩ := Automaton.builds_explore
    (wf.empty_not_mem_reachedSets hlt) naming hnodup _ (Frontier.tracks_start _) hbegins
  have hqueue := Search.queue_run_start_eq_nil bounded
  have hfound := (Search.reach_eq_found bounded).symm.trans hreach.symm
  have hexpanded : (Search.run (A.successors A.moves) (Nat.pow 2 A.stateCount)
      (Search.start [A.closure [start]])).expanded.reverse = A.reachedSets start := hreach.symm
  have hbefore : A.searchStage naming (A.reachedSets start) (Search.start [A.closure [start]]) =
      A.derivedStage naming [A.closure [start]] [] := by
    simp [searchStage, Search.start, Search.found, labelRows, List.eraseDups_cons]
  have hafter : A.searchStage naming (A.reachedSets start)
      (Search.run (A.successors A.moves) (Nat.pow 2 A.stateCount)
        (Search.start [A.closure [start]])) = A.labelAutomaton naming (A.reachedSets start) := by
    rw [searchStage, hfound, hexpanded, labelRows_self]
    rfl
  rw [hbefore, hafter] at hg
  refine ⟨g, hg, tracks.labels_eq.trans hfound, ?_⟩
  rw [tracks.waiting_eq, hqueue]
  rfl

theorem builds_closeByCalls {B : Automaton α} {e : Determinized α}
    (h : A.withSink naming ⟨B, f.labels⟩ = .ok e) :
    ∃ g, (A.closeByCalls naming f).Builds B g e.automaton ∧ g.labels = e.labels ∧
      g.waiting = f.waiting := by
  have hcomplete := builds_complete (A := B)
  obtain ⟨hgaps, rfl⟩ | ⟨hgaps, hlabels, hnamed⟩ := withSink_eq_ok.1 h
  · rw [complete_of_gaps_eq_nil hgaps] at hcomplete
    exact ⟨f, hcomplete.bind (builds_pure f), rfl, rfl⟩
  · rw [complete_of_gaps_ne_nil hgaps] at hcomplete hnamed
    exact ⟨{ f with labels := f.labels ++ [∅] },
      hcomplete.bind ((builds_setName hnamed).bind (builds_pure _)), hlabels.symm, rfl⟩

/-- Call by call the determinization builds the automaton that it writes at once. -/
theorem WellFormed.builds_deriveByCalls (wf : A.WellFormed) (hstart : A.start = some start)
    {complete : Bool} {d : Determinized α} (h : A.determinize complete naming = .ok d) :
    ∃ g, (A.deriveByCalls complete naming).Builds (empty .deterministic A.alphabet) g
        d.automaton ∧ g.labels = d.labels ∧ g.waiting = [] := by
  have hlt := wf.start_lt start hstart
  obtain ⟨f, hexplore, hlabels, hwaiting⟩ := wf.builds_explore hlt naming
  have hfirst := builds_addDerived A (empty .deterministic A.alphabet) naming (A.closure [start])
  have hbegin := builds_firstStart wf.alphabet_nodup naming (A.closure [start])
  have hderive : ∀ {g : Frontier} {B : Automaton α},
      (if complete then A.closeByCalls naming f else pure f).Builds
        (A.labelAutomaton naming (A.reachedSets start)) g B →
      (A.deriveByCalls complete naming).Builds (empty .deterministic A.alphabet) g B :=
    fun hclose => (builds_ofExcept (initial_eq_ok.2 hstart)).bind
      (hfirst.bind (hbegin.bind (hexplore.bind hclose)))
  rcases determinize_cases hstart h with ⟨rfl, rfl⟩ | ⟨rfl, hsink⟩
  · exact ⟨f, hderive (builds_pure f), hlabels, hwaiting⟩
  · rw [← hlabels] at hsink
    obtain ⟨g, hclose, hlabels', hwaiting'⟩ := builds_closeByCalls hsink
    rw [hlabels] at hclose
    exact ⟨g, hderive hclose, hlabels', hwaiting'.trans hwaiting⟩

end Acceptors.Automaton
