import Acceptors.Proofs.ConversionTables
import Acceptors.Proofs.SearchAlong

/-!
# Determinizations over corresponding sets

Two automata may keep different sets of states for the same runs.  If a map carries the sets of one
to those of the other, without confusing any two that runs lead to, then the two searches for labels
run in lockstep, and the numbered determinizations are the same automaton.  Only the labels show
which of the two was determinized: those of one are the images of those of the other.
-/

namespace Acceptors

/-- A determinization whose labels are replaced by their images. -/
def Determinized.mapLabels {α : Type} (φ : StateSet → StateSet) (d : Determinized α) :
    Determinized α :=
  ⟨d.automaton, d.labels.map φ⟩

namespace Automaton

variable {α : Type} [DecidableEq α] {φ : StateSet → StateSet} {A B : Automaton α} {p q : State}

/-- The map carries the sets that runs of `A` lead to, with their moves, to those of `B`. -/
structure Corresponds (φ : StateSet → StateSet) (A B : Automaton α) (p q : State) : Prop where
  alphabet_eq : B.alphabet = A.alphabet
  injOn : Set.InjOn φ {S | A.LeadsTo p S}
  map_empty : φ ∅ = ∅
  eq_empty : ∀ S, A.LeadsTo p S → φ S = ∅ → S = ∅
  closure_eq : B.closure [q] = φ (A.closure [p])
  advance_eq : ∀ S, A.LeadsTo p S → ∀ a ∈ A.alphabet, B.advance (φ S) a = φ (A.advance S a)
  accepting_eq : ∀ S, A.LeadsTo p S → B.containsAccepting (φ S) = A.containsAccepting S

namespace Corresponds

/-! ## The searches for labels -/

theorem isEmpty_eq (corr : Corresponds φ A B p q) {S : StateSet} (hS : A.LeadsTo p S) :
    (φ S).isEmpty = S.isEmpty := by
  rw [Bool.eq_iff_iff, StateSet.isEmpty_iff, StateSet.isEmpty_iff]
  constructor
  · exact corr.eq_empty S hS
  · rintro rfl
    exact corr.map_empty

theorem successors_eq (corr : Corresponds φ A B p q) {S : StateSet} (hS : A.LeadsTo p S) :
    B.successors B.moves (φ S) = (A.successors A.moves S).map φ := by
  have hmoves : B.alphabet.map (B.advance (φ S)) = (A.alphabet.map (A.advance S)).map φ := by
    rw [corr.alphabet_eq, List.map_map]
    exact List.map_congr_left fun a ha => corr.advance_eq S hS a ha
  have hsuccessors : B.successors B.moves (φ S) =
      (B.alphabet.map (B.advance (φ S))).filter fun T => !T.isEmpty := rfl
  rw [hsuccessors, hmoves, List.filter_map]
  congr 1
  refine List.filter_congr fun T hT => ?_
  obtain ⟨a, ha, rfl⟩ := List.mem_map.1 hT
  simp [corr.isEmpty_eq (hS.advance ha)]

theorem along (corr : Corresponds φ A B p q) :
    Search.Along φ (A.successors A.moves) (B.successors B.moves) [A.closure [p]] where
  injOn := corr.injOn.mono fun _ hS => leadsTo_of_reached hS
  next_eq _ hS := corr.successors_eq (leadsTo_of_reached hS)

theorem reachedSets_eq (corr : Corresponds φ A B p q) (wfA : A.WellFormed) (wfB : B.WellFormed) :
    B.reachedSets q = (A.reachedSets p).map φ := by
  have hseeds : [B.closure [q]] = [A.closure [p]].map φ := by
    rw [corr.closure_eq, List.map_singleton]
  have hbounded := wfB.reached_bounded q
  rw [hseeds] at hbounded
  rw [reachedSets_eq_reach, reachedSets_eq_reach, hseeds]
  exact corr.along.reach_map_of_bounded (wfA.reached_bounded p) hbounded

/-! ## The tables -/

variable {labels : List StateSet}

theorem labelMoves_eq (corr : Corresponds φ A B p q) (hlabels : ∀ S ∈ labels, A.LeadsTo p S) :
    B.labelMoves (labels.map φ) = A.labelMoves labels := by
  rw [labelMoves_eq_flatMap, labelMoves_eq_flatMap, List.zipIdx_map, List.flatMap_map,
    corr.alphabet_eq]
  refine List.flatMap_congr ?_
  rintro ⟨S, r⟩ hS
  have hleads : A.LeadsTo p S := hlabels S (List.fst_mem_of_mem_zipIdx hS)
  refine List.filterMap_congr fun a ha => ?_
  simp only [id_eq]
  rw [corr.advance_eq S hleads a ha,
    idxOf?_map_of_injOn corr.injOn hlabels (hleads.advance ha)]

theorem labelStates_eq (corr : Corresponds φ A B p q) (hlabels : ∀ S ∈ labels, A.LeadsTo p S) :
    B.labelStates .numbered (labels.map φ) = A.labelStates .numbered labels := by
  rw [labelStates, labelStates, List.zipIdx_map, List.map_map]
  refine List.map_congr_left ?_
  rintro ⟨S, r⟩ hS
  have hleads : A.LeadsTo p S := hlabels S (List.fst_mem_of_mem_zipIdx hS)
  simp only [Function.comp_apply, Prod.map, id_eq, corr.accepting_eq S hleads, Naming.name]

theorem labelAutomaton_eq (corr : Corresponds φ A B p q)
    (hlabels : ∀ S ∈ labels, A.LeadsTo p S) :
    B.labelAutomaton .numbered (labels.map φ) = A.labelAutomaton .numbered labels := by
  rw [labelAutomaton, labelAutomaton, corr.labelMoves_eq hlabels, corr.labelStates_eq hlabels,
    corr.alphabet_eq]

/-! ## The results -/

theorem withSink_mapLabels (hempty : φ ∅ = ∅) {d e : Determinized α}
    (h : A.withSink .numbered d = .ok e) :
    B.withSink .numbered (d.mapLabels φ) = .ok (e.mapLabels φ) := by
  obtain ⟨hgaps, rfl⟩ | ⟨hgaps, hlabels, hnamed⟩ := withSink_eq_ok.1 h
  · exact withSink_eq_ok.2 (.inl ⟨hgaps, rfl⟩)
  · refine withSink_eq_ok.2 (.inr ⟨hgaps, ?_, hnamed⟩)
    simp [Determinized.mapLabels, hlabels, hempty]

/-- The automaton is the same, and the labels are the images of the labels. -/
theorem determinize_eq (corr : Corresponds φ A B p q) (wfA : A.WellFormed) (wfB : B.WellFormed)
    (hp : A.start = some p) (hq : B.start = some q) {complete : Bool} {d : Determinized α}
    (h : A.determinize complete .numbered = .ok d) :
    B.determinize complete .numbered = .ok (d.mapLabels φ) := by
  have hlabels : ∀ S ∈ A.reachedSets p, A.LeadsTo p S :=
    fun S hS => wfA.leadsTo_of_mem_reachedSets hS
  have hbase : (⟨B.labelAutomaton .numbered (B.reachedSets q), B.reachedSets q⟩ :
      Determinized α) = Determinized.mapLabels φ
        ⟨A.labelAutomaton .numbered (A.reachedSets p), A.reachedSets p⟩ := by
    rw [corr.reachedSets_eq wfA wfB, corr.labelAutomaton_eq hlabels]
    rfl
  refine determinize_eq_ok.2 ⟨q, hq, _, rfl, ?_⟩
  rw [hbase]
  rcases determinize_cases hp h with ⟨hpartial, rfl⟩ | ⟨hcomplete, hsink⟩
  · exact .inl ⟨hpartial, rfl⟩
  · exact .inr ⟨hcomplete, withSink_mapLabels corr.map_empty hsink⟩

end Corresponds

end Automaton

end Acceptors
