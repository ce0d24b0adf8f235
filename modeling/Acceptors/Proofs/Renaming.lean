import Acceptors.Proofs.Built
import Acceptors.Proofs.Correspondence
import Mathlib.Tactic.IntervalCases

/-!
# Renamed automata

Numbered determinization sees only the shape of the reachable part of an automaton.  If the
reachable states of one automaton are those of another under different numbers, the two searches
keep sets that are images of each other, and the results are the same, down to the order of the
transitions.  In what order transitions were added, what else the automata hold, and how the states
are numbered, does not show.
-/

namespace Acceptors

/-- The images of the members of a set. -/
def StateSet.image (f : State → State) (S : StateSet) : StateSet := .ofList (S.toList.map f)

@[simp] theorem StateSet.mem_image {f : State → State} {S : StateSet} {r : State} :
    r ∈ S.image f ↔ ∃ q ∈ S, f q = r := by
  simp [image, StateSet.mem_toList]

theorem StateSet.image_eq_empty_iff {f : State → State} {S : StateSet} :
    S.image f = ∅ ↔ S = ∅ := by
  simp only [eq_empty_iff, mem_image]
  constructor
  · intro h q hq
    exact h (f q) ⟨q, hq, rfl⟩
  · rintro h r ⟨q, hq, -⟩
    exact h q hq

theorem StateSet.image_injOn {f : State → State} {P : Set State} (hinj : Set.InjOn f P) :
    Set.InjOn (StateSet.image f) {S | ∀ q ∈ S, q ∈ P} := by
  have hsubset : ∀ S T : StateSet, (∀ q ∈ S, q ∈ P) → (∀ q ∈ T, q ∈ P) →
      S.image f = T.image f → ∀ q ∈ S, q ∈ T := by
    intro S T hS hT heq q hq
    obtain ⟨r, hr, hfr⟩ := mem_image.1 (heq ▸ mem_image.2 ⟨q, hq, rfl⟩)
    exact hinj (hT r hr) (hS q hq) hfr ▸ hr
  intro S hS T hT heq
  exact ext fun q => ⟨hsubset S T hS hT heq q, hsubset T S hT hS heq.symm q⟩

namespace Automaton

variable {α : Type}

/-- Transitions lead to the state from the start. -/
inductive Reachable (A : Automaton α) : State → Prop
  | start {q : State} (h : A.start = some q) : Reachable A q
  | next {q r : State} {label : Label α} (h : Reachable A q)
      (step : ⟨q, label, r⟩ ∈ A.transitions) : Reachable A r

/-- The reachable states of `A`, under other numbers, are those of `B`. -/
structure IsRenaming (f : State → State) (A B : Automaton α) : Prop where
  alphabet_eq : A.alphabet = B.alphabet
  start_eq : B.start = A.start.map f
  bijOn : Set.BijOn f {q | A.Reachable q} {q | B.Reachable q}
  accepting_iff : ∀ q, A.Reachable q →
    (A.isAccepting q = .ok true ↔ B.isAccepting (f q) = .ok true)
  step_iff : ∀ q r label, A.Reachable q → A.Reachable r →
    (⟨q, label, r⟩ ∈ A.transitions ↔ ⟨f q, label, f r⟩ ∈ B.transitions)

variable {A B : Automaton α} {f : State → State} {p q : State}

/-! ## Reachable states -/

theorem WellFormed.lt_of_reachable (wf : A.WellFormed) (h : A.Reachable q) :
    q < A.stateCount := by
  cases h with
  | start hstart => exact wf.start_lt _ hstart
  | next _ step => exact wf.target_lt _ (mem_transitions.1 step)

theorem Reachable.of_epsilonReach {r : State} (h : A.Reachable q) (hreach : A.EpsilonReach q r) :
    A.Reachable r := by
  induction hreach with
  | refl => exact h
  | tail _ step ih => exact ih.next (mem_transitions.2 step)

theorem WellFormed.reachable_of_leadsTo [DecidableEq α] (wf : A.WellFormed)
    (hp : A.start = some p) {S : StateSet} (hS : A.LeadsTo p S) : ∀ q ∈ S, A.Reachable q := by
  induction hS with
  | closure =>
      intro q hq
      have hreach := (wf.mem_closure_singleton (wf.start_lt p hp)).1 hq
      exact (Reachable.start hp).of_epsilonReach hreach
  | advance _ _ ih =>
      intro q hq
      obtain ⟨r, hr, r', step, hreach⟩ := wf.mem_advance.1 hq
      exact ((ih r hr).next (mem_transitions.2 step)).of_epsilonReach hreach

/-! ## What a renaming carries along -/

namespace IsRenaming

theorem start_eq_some (hf : IsRenaming f A B) (hp : A.start = some p) :
    B.start = some (f p) := by
  rw [hf.start_eq, hp, Option.map_some]

theorem reachable (hf : IsRenaming f A B) (hq : A.Reachable q) : B.Reachable (f q) :=
  hf.bijOn.mapsTo hq

theorem mem_recent_iff (hf : IsRenaming f A B) (hq : A.Reachable q) {label : Label α}
    {r' : State} : ⟨f q, label, r'⟩ ∈ B.recent ↔ ∃ r, ⟨q, label, r⟩ ∈ A.recent ∧ f r = r' := by
  constructor
  · intro step
    -- The transition leads to a reachable state, so that the target is some state's image.
    have hr' : B.Reachable r' := (hf.reachable hq).next (mem_transitions.2 step)
    obtain ⟨r, hr, rfl⟩ := hf.bijOn.surjOn hr'
    have hstep := (hf.step_iff q r label hq hr).2 (mem_transitions.2 step)
    exact ⟨r, mem_transitions.1 hstep, rfl⟩
  · rintro ⟨r, step, rfl⟩
    have hr : A.Reachable r := hq.next (mem_transitions.2 step)
    exact mem_transitions.1 ((hf.step_iff q r label hq hr).1 (mem_transitions.2 step))

theorem epsilonReach_iff (hf : IsRenaming f A B) (hq : A.Reachable q) {r' : State} :
    B.EpsilonReach (f q) r' ↔ ∃ r, A.EpsilonReach q r ∧ f r = r' := by
  constructor
  · intro hreach
    induction hreach with
    | refl => exact ⟨q, .refl q, rfl⟩
    | tail _ step ih =>
        obtain ⟨r, hr, rfl⟩ := ih
        obtain ⟨t, ht, rfl⟩ := (hf.mem_recent_iff (hq.of_epsilonReach hr)).1 step
        exact ⟨t, Relation.ReflTransGen.tail hr ht, rfl⟩
  · rintro ⟨r, hreach, rfl⟩
    induction hreach with
    | refl => exact .refl (f q)
    | tail hr step ih =>
        have ht := (hf.mem_recent_iff (hq.of_epsilonReach hr)).2 ⟨_, step, rfl⟩
        exact Relation.ReflTransGen.tail ih ht

variable [DecidableEq α]

theorem closure_eq (hf : IsRenaming f A B) (wfA : A.WellFormed) (wfB : B.WellFormed)
    (hp : A.start = some p) : B.closure [f p] = (A.closure [p]).image f := by
  have hstart : A.Reachable p := .start hp
  refine StateSet.ext fun r' => ?_
  rw [wfB.mem_closure_singleton (wfB.lt_of_reachable (hf.reachable hstart)),
    hf.epsilonReach_iff hstart, StateSet.mem_image]
  simp only [wfA.mem_closure_singleton (wfA.lt_of_reachable hstart)]

theorem advance_eq (hf : IsRenaming f A B) (wfA : A.WellFormed) (wfB : B.WellFormed)
    {S : StateSet} (hS : ∀ q ∈ S, A.Reachable q) (a : α) :
    B.advance (S.image f) a = (A.advance S a).image f := by
  refine StateSet.ext fun t' => ?_
  rw [wfB.mem_advance, StateSet.mem_image]
  simp only [StateSet.mem_image, wfA.mem_advance]
  constructor
  · rintro ⟨_, ⟨q, hq, rfl⟩, r', step, hreach⟩
    obtain ⟨r, hr, rfl⟩ := (hf.mem_recent_iff (hS q hq)).1 step
    have hreachable : A.Reachable r := (hS q hq).next (mem_transitions.2 hr)
    obtain ⟨t, ht, rfl⟩ := (hf.epsilonReach_iff hreachable).1 hreach
    exact ⟨t, ⟨q, hq, r, hr, ht⟩, rfl⟩
  · rintro ⟨t, ⟨q, hq, r, hr, ht⟩, rfl⟩
    have hreachable : A.Reachable r := (hS q hq).next (mem_transitions.2 hr)
    exact ⟨f q, ⟨q, hq, rfl⟩, f r, (hf.mem_recent_iff (hS q hq)).2 ⟨r, hr, rfl⟩,
      (hf.epsilonReach_iff hreachable).2 ⟨t, ht, rfl⟩⟩

omit [DecidableEq α] in
theorem containsAccepting_eq (hf : IsRenaming f A B) {S : StateSet}
    (hS : ∀ q ∈ S, A.Reachable q) : B.containsAccepting (S.image f) = A.containsAccepting S := by
  rw [Bool.eq_iff_iff, containsAccepting_iff, containsAccepting_iff]
  simp only [StateSet.mem_image, ← isAccepting_eq_ok_true]
  constructor
  · rintro ⟨_, ⟨q, hq, rfl⟩, haccepting⟩
    exact ⟨q, hq, (hf.accepting_iff q (hS q hq)).2 haccepting⟩
  · rintro ⟨q, hq, haccepting⟩
    exact ⟨f q, ⟨q, hq, rfl⟩, (hf.accepting_iff q (hS q hq)).1 haccepting⟩

theorem corresponds (hf : IsRenaming f A B) (wfA : A.WellFormed) (wfB : B.WellFormed)
    (hp : A.start = some p) : Corresponds (StateSet.image f) A B p (f p) where
  alphabet_eq := hf.alphabet_eq.symm
  injOn := (StateSet.image_injOn hf.bijOn.injOn).mono fun _ hS =>
    wfA.reachable_of_leadsTo hp hS
  map_empty := StateSet.image_eq_empty_iff.2 rfl
  eq_empty _ _ := StateSet.image_eq_empty_iff.1
  closure_eq := hf.closure_eq wfA wfB hp
  advance_eq _ hS a _ := hf.advance_eq wfA wfB (wfA.reachable_of_leadsTo hp hS) a
  accepting_eq _ hS := hf.containsAccepting_eq (wfA.reachable_of_leadsTo hp hS)

end IsRenaming

variable [DecidableEq α]

/--
Automata whose reachable parts are equal up to the numbers of their states have the same numbered
determinization, and its labels differ by the renaming.
-/
theorem determinize_of_isRenaming (hA : A.Built) (hB : B.Built) (hp : A.start = some p)
    (hf : IsRenaming f A B) (complete : Bool) :
    ∃ d e, A.determinize complete .numbered = .ok d ∧ B.determinize complete .numbered = .ok e ∧
      e.automaton = d.automaton ∧ ∀ s, e.label? s = (d.label? s).map (StateSet.image f) := by
  have corr := hf.corresponds hA.wellFormed hB.wellFormed hp
  obtain ⟨d, hd⟩ := exists_determinize hp complete .numbered
  have he := corr.determinize_eq hA.wellFormed hB.wellFormed hp (hf.start_eq_some hp) hd
  exact ⟨d, d.mapLabels (StateSet.image f), hd, he, rfl, fun s => List.getElem?_map⟩

def fromEnd (q : Nat) : Nat := 3 - q

/-- `epsilonCycle` with its states numbered from the end, its transitions added in another order,
and a state that nothing leads to. -/
def renumberedCycle : Automaton Char where
  kind := .epsilonNondeterministic
  alphabet := ['a', 'b']
  start := some 3
  stateData := #[⟨true, none⟩, ⟨true, none⟩, ⟨false, none⟩, ⟨false, some "start"⟩]
  recent := [⟨3, .epsilon, 2⟩, ⟨3, .symbol 'a', 1⟩, ⟨0, .symbol 'a', 3⟩, ⟨2, .epsilon, 3⟩,
    ⟨1, .symbol 'b', 3⟩, ⟨2, .symbol 'a', 2⟩]

theorem built_renumberedCycle : renumberedCycle.Built := by
  have hedits : (empty .epsilonNondeterministic ['a', 'b']).editAll [.addState ⟨true, none⟩,
      .addState ⟨true, none⟩, .addState ⟨false, none⟩, .addState ⟨false, some "start"⟩,
      .setStart 3, .addTransition 2 (.symbol 'a') 2, .addTransition 1 (.symbol 'b') 3,
      .addTransition 2 .epsilon 3, .addTransition 0 (.symbol 'a') 3,
      .addTransition 3 (.symbol 'a') 1, .addTransition 3 .epsilon 2] = .ok renumberedCycle := by
    rfl
  exact (Built.empty _ _).editAll hedits

theorem reachable_epsilonCycle_iff {q : Nat} : epsilonCycle.Reachable q ↔ q < 3 := by
  constructor
  · exact built_epsilonCycle.wellFormed.lt_of_reachable
  · intro hq
    have hstart : epsilonCycle.Reachable 0 := .start rfl
    have hone : ⟨0, .epsilon, 1⟩ ∈ epsilonCycle.transitions := by decide
    have htwo : ⟨0, .symbol 'a', 2⟩ ∈ epsilonCycle.transitions := by decide
    interval_cases q
    · exact hstart
    · exact hstart.next hone
    · exact hstart.next htwo

theorem reachable_renumberedCycle_iff {q : Nat} :
    renumberedCycle.Reachable q ↔ 1 ≤ q ∧ q < 4 := by
  constructor
  · intro h
    refine ⟨?_, built_renumberedCycle.wellFormed.lt_of_reachable h⟩
    cases h with
    | start hstart =>
        cases hstart
        decide
    | next _ step =>
        have hpos : ∀ t ∈ renumberedCycle.transitions, 1 ≤ t.target := by decide
        exact hpos _ step
  · rintro ⟨hpos, hlt⟩
    have hstart : renumberedCycle.Reachable 3 := .start rfl
    have hone : ⟨3, .symbol 'a', 1⟩ ∈ renumberedCycle.transitions := by decide
    have htwo : ⟨3, .epsilon, 2⟩ ∈ renumberedCycle.transitions := by decide
    interval_cases q
    · exact hstart.next hone
    · exact hstart.next htwo
    · exact hstart

theorem isRenaming_renumberedCycle : IsRenaming fromEnd epsilonCycle renumberedCycle where
  alphabet_eq := rfl
  start_eq := rfl
  bijOn := by
    refine ⟨fun q hq => ?_, fun q hq r hr heq => ?_, fun r hr => ?_⟩
    · have hlt := reachable_epsilonCycle_iff.1 hq
      have hends : 1 ≤ fromEnd q ∧ fromEnd q < 4 := by grind [fromEnd]
      exact reachable_renumberedCycle_iff.2 hends
    · have hqlt := reachable_epsilonCycle_iff.1 hq
      have hrlt := reachable_epsilonCycle_iff.1 hr
      grind [fromEnd]
    · have hends := reachable_renumberedCycle_iff.1 hr
      have hback : fromEnd (fromEnd r) = r := by grind [fromEnd]
      exact ⟨fromEnd r, reachable_epsilonCycle_iff.2 (by grind [fromEnd]), hback⟩
  accepting_iff q hq := by
    rw [reachable_epsilonCycle_iff] at hq
    interval_cases q <;> decide
  step_iff q r label hq hr := by
    rw [reachable_epsilonCycle_iff] at hq hr
    interval_cases q <;> interval_cases r <;>
      simp [transitions, epsilonCycle, renumberedCycle, fromEnd]

theorem determinize_renumberedCycle :
    epsilonCycle.Built ∧ renumberedCycle.Built ∧ epsilonCycle.start = some 0 ∧
      IsRenaming fromEnd epsilonCycle renumberedCycle ∧
      ∃ d e, epsilonCycle.determinize true .numbered = .ok d ∧
        renumberedCycle.determinize true .numbered = .ok e ∧ e.automaton = d.automaton ∧
        d.label? 0 = some (.ofList [0, 1]) ∧ e.label? 0 = some (.ofList [2, 3]) := by
  refine ⟨built_epsilonCycle, built_renumberedCycle, rfl, isRenaming_renumberedCycle, ?_⟩
  obtain ⟨d, e, hd, he, hsame, hlabels⟩ := determinize_of_isRenaming built_epsilonCycle
    built_renumberedCycle rfl isRenaming_renumberedCycle true
  have hlabel : (epsilonCycle.determinize true .numbered).map (·.label? 0) =
      .ok (some (.ofList [0, 1])) := by decide
  rw [hd] at hlabel
  have hfirst : d.label? 0 = some (.ofList [0, 1]) := Except.ok.inj hlabel
  refine ⟨d, e, hd, he, hsame, hfirst, ?_⟩
  rw [hlabels, hfirst]
  decide

end Automaton

end Acceptors
