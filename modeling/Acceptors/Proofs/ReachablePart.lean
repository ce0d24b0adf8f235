import Acceptors.Proofs.DerivedTable
import Acceptors.Proofs.Worklist
import Mathlib.Data.Set.Function

/-!
# Determinizations of deterministic automata

Where no transition is silent and no cell of the table holds two targets, a run that has not died
keeps one state.  The labels of a determinization are then the singletons of the states that the
start leads to, so that the derived states other than the sink are the reachable part of the source
under other numbers.
-/

namespace Acceptors

/-- The derived states other than the sink. -/
def Determinized.properStates {α : Type} (d : Determinized α) : Set State :=
  {s | s ∈ d.automaton.states ∧ d.sink? ≠ some s}

namespace Automaton

variable {α : Type} {A : Automaton α}

/-- Symbol transitions, in any number, lead from one state to another. -/
def SymbolReach (A : Automaton α) : State → State → Prop :=
  Relation.ReflTransGen fun p q => ∃ a, ⟨p, .symbol a, q⟩ ∈ A.recent

theorem SymbolReach.refl (q : State) : A.SymbolReach q q := Relation.ReflTransGen.refl

theorem SymbolReach.step {p q r : State} {a : α} (h : A.SymbolReach p q)
    (ht : ⟨q, .symbol a, r⟩ ∈ A.recent) : A.SymbolReach p r :=
  Relation.ReflTransGen.tail h ⟨a, ht⟩

theorem WellFormed.lt_of_symbolReach (wf : A.WellFormed) {p q : State} (h : A.SymbolReach p q)
    (hp : p < A.stateCount) : q < A.stateCount := by
  induction h with
  | refl => exact hp
  | tail _ hstep _ =>
      obtain ⟨a, ht⟩ := hstep
      exact wf.target_lt _ ht

@[simp] theorem containsAccepting_singleton (q : State) :
    A.containsAccepting (.singleton q) = A.isAcceptingState q := by
  rw [Bool.eq_iff_iff, containsAccepting_iff]
  simp

variable [DecidableEq α] {start q r : State} {a : α}

/-! ## Runs that keep one state -/

section

variable (wf : A.WellFormed) (free : A.IsEpsilonFree)

include wf free

theorem WellFormed.closure_of_free (hq : q < A.stateCount) : A.closure [q] = .singleton q := by
  refine StateSet.ext fun r => ?_
  rw [wf.mem_closure_singleton hq, free.epsilonReach_iff, StateSet.mem_singleton, eq_comm]

theorem WellFormed.mem_advance_singleton :
    r ∈ A.advance (.singleton q) a ↔ ⟨q, .symbol a, r⟩ ∈ A.recent := by
  simp [wf.mem_advance, free.epsilonReach_iff]

end

section

variable (wf : A.WellFormed) (deterministic : A.IsDeterministic)

include wf deterministic

theorem WellFormed.advance_singleton_iff :
    A.advance (.singleton q) a = .singleton r ↔ ⟨q, .symbol a, r⟩ ∈ A.recent := by
  obtain ⟨free, hone⟩ := wf.isDeterministic_iff_targets.1 deterministic
  constructor
  · intro heq
    rw [← wf.mem_advance_singleton free, heq, StateSet.mem_singleton]
  · intro ht
    refine StateSet.ext fun r' => ?_
    rw [wf.mem_advance_singleton free, StateSet.mem_singleton]
    constructor
    · exact fun ht' => hone q _ r' r ht' ht
    · rintro rfl
      exact ht

variable (hlt : start < A.stateCount)

include hlt

theorem WellFormed.eq_singleton_of_leadsTo {S : StateSet} (h : A.LeadsTo start S) (hne : S ≠ ∅) :
    ∃ q, A.SymbolReach start q ∧ S = .singleton q := by
  obtain ⟨free, -⟩ := wf.isDeterministic_iff_targets.1 deterministic
  induction h with
  | closure => exact ⟨start, .refl start, wf.closure_of_free free hlt⟩
  | @advance S a _ _ ih =>
      obtain ⟨q, hreach, rfl⟩ := ih (ne_empty_of_advance hne)
      obtain ⟨r, hr⟩ := StateSet.exists_mem_of_ne_empty hne
      have ht := (wf.mem_advance_singleton free).1 hr
      exact ⟨r, hreach.step ht, (wf.advance_singleton_iff deterministic).2 ht⟩

theorem WellFormed.leadsTo_singleton (h : A.SymbolReach start q) :
    A.LeadsTo start (.singleton q) := by
  obtain ⟨free, -⟩ := wf.isDeterministic_iff_targets.1 deterministic
  induction h with
  | refl => exact wf.closure_of_free free hlt ▸ .closure
  | tail _ hstep ih =>
      obtain ⟨a, ht⟩ := hstep
      have hadvance := (wf.advance_singleton_iff deterministic).2 ht
      exact hadvance ▸ ih.advance (wf.label_permitted _ ht)

theorem WellFormed.mem_reachedSets_iff_singleton {S : StateSet} :
    S ∈ A.reachedSets start ↔ ∃ q, A.SymbolReach start q ∧ S = .singleton q := by
  rw [wf.mem_reachedSets_iff_leadsTo hlt]
  constructor
  · exact fun ⟨hne, h⟩ => wf.eq_singleton_of_leadsTo deterministic hlt h hne
  · rintro ⟨q, hreach, rfl⟩
    exact ⟨StateSet.nonempty_of_mem (StateSet.mem_singleton.2 rfl),
      wf.leadsTo_singleton deterministic hlt hreach⟩

theorem WellFormed.length_reachedSets_le : (A.reachedSets start).length ≤ A.stateCount := by
  have hsubset : A.reachedSets start ⊆ A.states.map StateSet.singleton := by
    intro S hS
    obtain ⟨q, hreach, rfl⟩ := (wf.mem_reachedSets_iff_singleton deterministic hlt).1 hS
    exact List.mem_map_of_mem (mem_states.2 (wf.lt_of_symbolReach hreach hlt))
  calc (A.reachedSets start).length
      ≤ (A.states.map StateSet.singleton).length :=
        (List.subperm_of_subset (wf.nodup_reachedSets start) hsubset).length_le
    _ = A.stateCount := by rw [List.length_map, states, List.length_range]

end

/-! ## Derived states as source states -/

section

variable {complete : Bool} {naming : Naming} {d : Determinized α} (wf : A.WellFormed)
  (hstart : A.start = some start) (h : A.determinize complete naming = .ok d)

include wf hstart h

theorem WellFormed.mem_properStates {s : State} :
    s ∈ d.properStates ↔ ∃ S ∈ A.reachedSets start, d.label? s = some S := by
  have follows := wf.follows_determinize hstart h
  constructor
  · rintro ⟨hs, hsink⟩
    obtain ⟨S, hlabel⟩ := follows.exists_label (mem_states.1 hs)
    have hreached := (wf.getElem?_reachedSets hstart h).2 ⟨hlabel, hsink⟩
    exact ⟨S, List.mem_of_getElem? hreached, hlabel⟩
  · rintro ⟨S, hS, hlabel⟩
    obtain ⟨t, ht⟩ := List.mem_iff_getElem?.1 hS
    obtain ⟨hlabel', hsink⟩ := (wf.getElem?_reachedSets hstart h).1 ht
    cases follows.label?_inj hlabel hlabel'
    refine ⟨mem_states.2 ?_, hsink⟩
    rw [follows.stateCount_eq]
    exact (List.getElem?_eq_some_iff.1 hlabel).1

theorem WellFormed.stateCount_determinize_le (deterministic : A.IsDeterministic) :
    (complete = false → d.automaton.stateCount ≤ A.stateCount) ∧
      d.automaton.stateCount ≤ A.stateCount + 1 := by
  have hle := wf.length_reachedSets_le deterministic (wf.start_lt start hstart)
  rcases wf.stateCount_determinize hstart h with ⟨-, hcount⟩ | ⟨hsink, hcount⟩
  · exact ⟨fun _ => hcount ▸ hle, by omega⟩
  · have hcomplete := ((wf.isSome_sink?_iff hstart h).1 (Option.isSome_iff_ne_none.2 hsink)).1
    exact ⟨fun hpartial => by simp [hpartial] at hcomplete, by omega⟩

variable (deterministic : A.IsDeterministic)

include deterministic

theorem WellFormed.mem_properStates_iff_singleton {s : State} :
    s ∈ d.properStates ↔ ∃ q, A.SymbolReach start q ∧ d.label? s = some (.singleton q) := by
  rw [wf.mem_properStates hstart h]
  simp only [wf.mem_reachedSets_iff_singleton deterministic (wf.start_lt start hstart)]
  constructor
  · rintro ⟨_, ⟨q, hreach, rfl⟩, hlabel⟩
    exact ⟨q, hreach, hlabel⟩
  · rintro ⟨q, hreach, hlabel⟩
    exact ⟨_, ⟨q, hreach, rfl⟩, hlabel⟩

variable {member : State → State}
  (hmember : ∀ s ∈ d.properStates, d.label? s = some (.singleton (member s)))

include hmember

theorem WellFormed.member_eq_of_label {s : State} (hreach : A.SymbolReach start q)
    (hlabel : d.label? s = some (.singleton q)) : member s = q := by
  have hs := (wf.mem_properStates_iff_singleton hstart h deterministic).2 ⟨q, hreach, hlabel⟩
  exact StateSet.singleton_injective (Option.some.inj ((hmember s hs).symm.trans hlabel))

theorem WellFormed.bijOn_member :
    Set.BijOn member d.properStates {q | A.SymbolReach start q} := by
  have follows := wf.follows_determinize hstart h
  have hproper := fun s => wf.mem_properStates_iff_singleton hstart h deterministic (s := s)
  refine ⟨?_, ?_, ?_⟩
  · intro s hs
    obtain ⟨q, hreach, hlabel⟩ := (hproper s).1 hs
    exact wf.member_eq_of_label hstart h deterministic hmember hreach hlabel ▸ hreach
  · intro s hs t ht heq
    exact follows.label?_inj (hmember s hs) (heq ▸ hmember t ht)
  · intro q hreach
    have hreached := (wf.mem_reachedSets_iff_singleton deterministic
      (wf.start_lt start hstart)).2 ⟨q, hreach, rfl⟩
    obtain ⟨s, hs⟩ := List.mem_iff_getElem?.1 hreached
    have hlabel := ((wf.getElem?_reachedSets hstart h).1 hs).1
    exact ⟨s, (hproper s).2 ⟨q, hreach, hlabel⟩,
      wf.member_eq_of_label hstart h deterministic hmember hreach hlabel⟩

theorem WellFormed.start_member : d.automaton.start.map member = A.start := by
  have follows := wf.follows_determinize hstart h
  obtain ⟨free, -⟩ := wf.isDeterministic_iff_targets.1 deterministic
  have hlabel : d.label? 0 = some (.singleton start) :=
    follows.labels_zero.trans (congrArg some (wf.closure_of_free free (wf.start_lt start hstart)))
  rw [follows.start_eq, hstart, Option.map_some,
    wf.member_eq_of_label hstart h deterministic hmember (.refl start) hlabel]

theorem WellFormed.isAccepting_member {s : State} (hs : s ∈ d.properStates) :
    d.automaton.isAccepting s = A.isAccepting (member s) := by
  have follows := wf.follows_determinize hstart h
  have hreach := (wf.bijOn_member hstart h deterministic hmember).mapsTo hs
  have hlt := wf.lt_of_symbolReach hreach (wf.start_lt start hstart)
  rw [isAccepting_eq_ok.2 ⟨hlt, rfl⟩, isAccepting_eq_ok, follows.accepting_eq (hmember s hs)]
  exact ⟨mem_states.1 hs.1, containsAccepting_singleton _⟩

theorem WellFormed.mem_transitions_member {s t : State} (hs : s ∈ d.properStates)
    (ht : t ∈ d.properStates) (label : Label α) :
    ⟨s, label, t⟩ ∈ d.automaton.transitions ↔ ⟨member s, label, member t⟩ ∈ A.transitions := by
  have follows := wf.follows_determinize hstart h
  obtain ⟨free, -⟩ := wf.isDeterministic_iff_targets.1 deterministic
  rw [mem_transitions, mem_transitions]
  cases label with
  | epsilon =>
      exact iff_of_false (isEpsilonFree_iff.1 follows.isEpsilonFree s t)
        (isEpsilonFree_iff.1 free (member s) (member t))
  | symbol a =>
      rw [follows.mem_recent, ← wf.advance_singleton_iff deterministic]
      constructor
      · rintro ⟨-, S, hS, hT⟩
        cases (hmember s hs).symm.trans hS
        exact (Option.some.inj ((hmember t ht).symm.trans hT)).symm
      · intro hadvance
        have hmove := (wf.advance_singleton_iff deterministic).1 hadvance
        exact ⟨wf.label_permitted _ hmove, _, hmember s hs, hadvance ▸ hmember t ht⟩

end

/--
The determinization of a deterministic automaton is its reachable part: each derived state other
than the sink stands for one state that symbol transitions lead to from the start, and it moves and
accepts as that state does.
-/
theorem determinize_restricts (built : A.Built) (hstart : A.start = some start)
    (deterministic : A.IsDeterministic) (complete : Bool) (naming : Naming) :
    ∃ d, A.determinize complete naming = .ok d ∧ ∃ member : State → State,
      (∀ s ∈ d.properStates, d.label? s = some (.singleton (member s))) ∧
      Set.BijOn member d.properStates {q | A.SymbolReach start q} ∧
      d.automaton.start.map member = A.start ∧
      (∀ s ∈ d.properStates, d.automaton.isAccepting s = A.isAccepting (member s)) ∧
      (∀ s ∈ d.properStates, ∀ t ∈ d.properStates, ∀ label,
        ⟨s, label, t⟩ ∈ d.automaton.transitions ↔ ⟨member s, label, member t⟩ ∈ A.transitions) ∧
      (complete = false → d.automaton.stateCount ≤ A.stateCount) ∧
      d.automaton.stateCount ≤ A.stateCount + 1 := by
  have wf := built.wellFormed
  obtain ⟨d, hd⟩ := exists_determinize hstart complete naming
  have hsingletons : ∀ s ∈ d.properStates, ∃ q, d.label? s = some (.singleton q) := by
    intro s hs
    obtain ⟨q, -, hlabel⟩ := (wf.mem_properStates_iff_singleton hstart hd deterministic).1 hs
    exact ⟨q, hlabel⟩
  choose! member hmember using hsingletons
  refine ⟨d, hd, member, hmember, wf.bijOn_member hstart hd deterministic hmember,
    wf.start_member hstart hd deterministic hmember, ?_, ?_,
    wf.stateCount_determinize_le hstart hd deterministic⟩
  · exact fun s hs => wf.isAccepting_member hstart hd deterministic hmember hs
  · exact fun s hs t ht => wf.mem_transitions_member hstart hd deterministic hmember hs ht

/-- Deterministic by its table, though not by its kind; nothing leads to the last state. -/
def unreachedLast : Automaton Char where
  kind := .nondeterministic
  alphabet := ['a', 'b']
  start := some 1
  stateData := #[⟨true, none⟩, ⟨false, none⟩, ⟨true, none⟩]
  recent := [⟨2, .symbol 'a', 1⟩, ⟨0, .symbol 'b', 1⟩, ⟨1, .symbol 'a', 0⟩]

theorem built_unreachedLast : unreachedLast.Built := by
  have hedits : (empty .nondeterministic ['a', 'b']).editAll [.addState ⟨true, none⟩,
      .addState ⟨false, none⟩, .addState ⟨true, none⟩, .setStart 1,
      .addTransition 1 (.symbol 'a') 0, .addTransition 0 (.symbol 'b') 1,
      .addTransition 2 (.symbol 'a') 1] = .ok unreachedLast := by
    rfl
  exact (Built.empty _ _).editAll hedits

theorem determinize_restricts_unreachedLast :
    unreachedLast.Built ∧ unreachedLast.start = some 1 ∧ unreachedLast.IsDeterministic ∧
      ∃ d, unreachedLast.determinize true .numbered = .ok d ∧
        d.automaton.isAccepting 1 = unreachedLast.isAccepting 0 ∧
        ⟨1, .symbol 'b', 0⟩ ∈ d.automaton.transitions ∧
        unreachedLast.SymbolReach 1 0 ∧ ¬ unreachedLast.SymbolReach 1 2 := by
  have deterministic : unreachedLast.IsDeterministic := by decide
  refine ⟨built_unreachedLast, rfl, deterministic, ?_⟩
  obtain ⟨d, hd, member, hmember, hbij, -, haccepting, hmoves, -⟩ :=
    determinize_restricts built_unreachedLast rfl deterministic true .numbered
  have hshape : (unreachedLast.determinize true .numbered).map
      (fun d => (d.labels, d.automaton.states, d.sink?)) =
        .ok ([.singleton 1, .singleton 0, ∅], [0, 1, 2], some 2) := by decide
  rw [hd] at hshape
  obtain ⟨hlabels, hrest⟩ := Prod.mk.inj (Except.ok.inj hshape)
  obtain ⟨hstates, hsink⟩ := Prod.mk.inj hrest
  have hlabel : ∀ s, d.label? s = ([.singleton 1, .singleton 0, ∅] : List StateSet)[s]? :=
    fun s => congrArg (·[s]?) hlabels
  have hproper₀ : 0 ∈ d.properStates := ⟨by rw [hstates]; decide, by rw [hsink]; decide⟩
  have hproper₁ : 1 ∈ d.properStates := ⟨by rw [hstates]; decide, by rw [hsink]; decide⟩
  have hmember₀ : member 0 = 1 :=
    StateSet.singleton_injective (Option.some.inj ((hmember 0 hproper₀).symm.trans (hlabel 0)))
  have hmember₁ : member 1 = 0 :=
    StateSet.singleton_injective (Option.some.inj ((hmember 1 hproper₁).symm.trans (hlabel 1)))
  refine ⟨d, hd, ?_, ?_, ?_, ?_⟩
  · rw [haccepting 1 hproper₁, hmember₁]
  · rw [hmoves 1 hproper₁ 0 hproper₀, hmember₁, hmember₀]
    decide
  · exact hmember₁ ▸ hbij.mapsTo hproper₁
  · intro hreach
    obtain ⟨s, hs, htwo⟩ := hbij.surjOn hreach
    have hmem := List.mem_of_getElem? (hmember s hs)
    rw [hlabels, htwo] at hmem
    exact absurd hmem (by decide)

end Automaton

end Acceptors
