import Acceptors.Proofs.ConversionTables
import Acceptors.Random.Automaton

/-!
# Automata that can be built

`Built` holds of the automata that calls, conversions and random draws can produce, in any order
and with any arguments.  All of them are well formed.
-/

namespace Acceptors

open Acceptors.Random

variable {α : Type} [DecidableEq α]

namespace Automaton

inductive Built : Automaton α → Prop
  | empty (kind : Kind) (alphabet : List α) : Built (empty kind alphabet)
  | edit {A B : Automaton α} {e : Edit α} {reply : Reply} (built : Built A)
      (h : A.edit e = .ok (reply, B)) : Built B
  | withoutEpsilon {A B : Automaton α} (built : Built A) (h : A.withoutEpsilon = .ok B) : Built B
  | determinize {A : Automaton α} {complete : Bool} {naming : Naming} {d : Determinized α}
      (built : Built A) (h : A.determinize complete naming = .ok d) : Built d.automaton
  | random {A : Automaton α} {σ : Type} [Source σ] {options : Options α} {source rest : σ}
      (h : (Random.automaton options).run source = .ok (.ok A, rest)) : Built A

theorem Built.editAll {A B : Automaton α} (built : A.Built) {es : List (Edit α)}
    (h : A.editAll es = .ok B) : B.Built := by
  induction es generalizing A with
  | nil =>
      cases h
      exact built
  | cons e es ih =>
      obtain ⟨⟨reply, C⟩, hC, hrest⟩ := bind_eq_ok.1 h
      exact ih (built.edit hC) hrest

theorem WellFormed.addTransitions {A B : Automaton α} (wf : A.WellFormed)
    {ts : List (Transition α)} {areNew : List Bool}
    (h : A.addTransitions ts = .ok (areNew, B)) : B.WellFormed := by
  induction ts generalizing A areNew with
  | nil =>
      cases h
      exact wf
  | cons t ts ih =>
      rw [addTransitions_cons, bind_eq_ok] at h
      obtain ⟨⟨isNew, C⟩, hC, hrest⟩ := h
      obtain ⟨⟨laterNew, D⟩, hD, heq⟩ := bind_eq_ok.1 hrest
      cases heq
      exact ih (wf.addTransition hC) hD

end Automaton

open Automaton

theorem Random.Outcome.wellFormed_build {options : Options α} {r : Outcome α} {A : Automaton α}
    (h : r.build options = .ok A) : A.WellFormed := by
  have hbase := (wellFormed_empty options.kind options.alphabet).addStates
    (r.accepting.map fun b => ⟨b, none⟩)
  rw [build] at h
  split at h
  · cases h
    exact hbase
  · obtain ⟨B, hB, hrest⟩ := bind_eq_ok.1 h
    obtain ⟨⟨areNew, C⟩, hC, heq⟩ := bind_eq_ok.1 hrest
    cases heq
    exact (hbase.setStart hB).addTransitions hC

theorem Random.wellFormed_automaton {σ : Type} [Source σ] {options : Options α}
    {source rest : σ} {A : Automaton α}
    (h : (Random.automaton options).run source = .ok (.ok A, rest)) : A.WellFormed := by
  rw [Random.automaton, StateT.run_bind, bind_eq_ok] at h
  obtain ⟨⟨r, s⟩, -, heq⟩ := h
  have hbuild : r.build options = .ok A := by
    have hpair := Except.ok.inj heq
    exact (Prod.mk.inj hpair).1
  exact r.wellFormed_build hbuild

namespace Automaton

theorem Built.wellFormed {A : Automaton α} (built : A.Built) : A.WellFormed := by
  induction built with
  | empty kind alphabet => exact wellFormed_empty kind alphabet
  | edit _ h wf => exact wf.edit h
  | withoutEpsilon _ h wf => exact wf.withoutEpsilon h
  | determinize _ h wf => exact wf.determinize h
  | random h => exact wellFormed_automaton h

/-- Two states that reach each other without reading, and one that accepts after `a`. -/
def epsilonCycle : Automaton Char where
  kind := .epsilonNondeterministic
  alphabet := ['a', 'b']
  start := some 0
  stateData := #[⟨false, none⟩, ⟨false, none⟩, ⟨true, none⟩]
  recent := [⟨2, .symbol 'b', 0⟩, ⟨1, .symbol 'a', 1⟩, ⟨0, .symbol 'a', 2⟩, ⟨1, .epsilon, 0⟩,
    ⟨0, .epsilon, 1⟩]

theorem built_epsilonCycle : epsilonCycle.Built := by
  have hedits : (empty .epsilonNondeterministic ['a', 'b']).editAll [.addState ⟨false, none⟩,
      .addState ⟨false, none⟩, .addState ⟨true, none⟩, .setStart 0, .addTransition 0 .epsilon 1,
      .addTransition 1 .epsilon 0, .addTransition 0 (.symbol 'a') 2,
      .addTransition 1 (.symbol 'a') 1, .addTransition 2 (.symbol 'b') 0] = .ok epsilonCycle := by
    rfl
  exact (Built.empty _ _).editAll hedits

end Automaton

end Acceptors
