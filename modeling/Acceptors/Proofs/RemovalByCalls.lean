import Acceptors.Conversions
import Acceptors.Proofs.Building
import Acceptors.Proofs.ConversionTables

/-!
# The removal of epsilon transitions by calls

The loops of the removal call for the states and the transitions that the table of `withoutEpsilon`
lists, and in the same order.  The table lists no transition twice, so that each call adds one.
-/

namespace Acceptors

theorem eraseDups_of_nodup {β : Type} [DecidableEq β] {items : List β} (h : items.Nodup) :
    items.eraseDups = items := by
  induction items with
  | nil => simp
  | cons b items ih =>
      obtain ⟨hb, hitems⟩ := List.nodup_cons.1 h
      have hkept : (items.filter fun c => !c == b) = items := by
        apply List.filter_eq_self.2
        intro c hc
        simp
        rintro rfl
        exact hb hc
      rw [List.eraseDups_cons, hkept, ih hitems]

namespace Automaton

open Building

variable {α : Type} {A B : Automaton α} {start q : State}

theorem fetch_eq_ok {data : StateData} : A.fetch q = .ok data ↔ A.stateData[q]? = some data := by
  unfold fetch
  cases A.stateData[q]? <;> simp

theorem exists_fetch (hq : q < A.stateCount) :
    ∃ data, A.fetch q = .ok data ∧ data.name = A.name? q := by
  have hdata := Array.getElem?_eq_getElem hq
  exact ⟨_, fetch_eq_ok.2 hdata, by simp [name?, hdata]⟩

variable [DecidableEq α]

theorem builds_addTransitions (ts : List (Transition α))
    (hcalls : ∀ t ∈ ts, t.source < A.stateCount ∧ t.target < A.stateCount ∧ A.Permits t.label)
    (hnodup : (ts.reverse ++ A.recent).Nodup) :
    (ts.forM fun t => make (.addTransition t.source t.label t.target)).Builds A ()
      { A with recent := ts.reverse ++ A.recent } := by
  apply builds_forM fun done => { A with recent := done.reverse ++ A.recent }
  intro done t later heq
  subst heq
  have hnew : t ∉ done.reverse ++ A.recent := by
    have hsplit : (done ++ t :: later).reverse ++ A.recent =
        later.reverse ++ t :: (done.reverse ++ A.recent) := by simp
    rw [hsplit] at hnodup
    exact (List.nodup_cons.1 hnodup.of_append_right).1
  have hstage := builds_addTransition (A := { A with recent := done.reverse ++ A.recent })
    (hcalls t (by simp)) hnew
  simpa using hstage

/-- The states of the removal and no transitions yet. -/
def closedStage (A : Automaton α) (closed : List (State × StateSet)) : Automaton α :=
  { empty .nondeterministic A.alphabet with stateData := (A.closedStates closed).toArray }

theorem closedStage_closed (h : A.alphabet.Nodup) (start : State) :
    A.closedStage A.closed =
      { A.closedAutomaton start with start := none, recent := [] } := by
  simp [closedStage, closedAutomaton, empty, eraseDups_of_nodup h]

theorem builds_closedStates :
    (A.closed.forM fun (q, s) => do
      let data ← ofExcept (A.fetch q)
      make (.addState ⟨A.containsAccepting s, data.name⟩)).Builds
      (empty .nondeterministic A.alphabet) () (A.closedStage A.closed) := by
  apply builds_forM A.closedStage
  rintro done ⟨q, s⟩ later heq
  have hq : q < A.stateCount := by
    have hmem : (q, s) ∈ A.closed := by simp [heq]
    obtain ⟨p, hp, hpair⟩ := List.mem_map.1 hmem
    cases hpair
    exact mem_states.1 hp
  obtain ⟨data, hdata, hname⟩ := exists_fetch hq
  have hstage : A.closedStage (done ++ [(q, s)]) =
      (A.closedStage done).addState ⟨A.containsAccepting s, data.name⟩ := by
    simp [closedStage, closedStates, addState, hname]
  rw [hstage]
  exact (builds_ofExcept hdata).bind (builds_make rfl (by simp))

theorem forM_closedMoves (closed : List (State × StateSet)) :
    (closed.forM fun (q, s) => A.alphabet.forM fun a =>
      (StateSet.ofList (A.moved s a)).toList.forM fun r =>
        (make (.addTransition q (.symbol a) r) : Building α Unit)) =
      (A.closedMoves closed).forM fun t => make (.addTransition t.source t.label t.target) := by
  simp only [closedMoves, forM_flatMap, List.forM_eq_forM, List.forM_map]
  rfl

/-- Call by call the removal builds the automaton that it writes at once. -/
theorem WellFormed.builds_removeByCalls (wf : A.WellFormed) (hstart : A.start = some start) :
    A.removeByCalls.Builds (empty .nondeterministic A.alphabet) () (A.closedAutomaton start) := by
  have wfE := wf.closedAutomaton hstart
  have hlt : start < (A.closedAutomaton start).stateCount := wfE.start_lt start rfl
  have hbegin : (make (.setStart start)).Builds (A.closedStage A.closed) ()
      { A.closedAutomaton start with recent := [] } := by
    rw [closedStage_closed wf.alphabet_nodup start]
    exact builds_setStart hlt
  have hmoves := builds_addTransitions (A := { A.closedAutomaton start with recent := [] })
    (A.closedMoves A.closed) (fun t ht => ?_) ?_
  · rw [List.append_nil] at hmoves
    unfold removeByCalls
    rw [forM_closedMoves]
    exact (builds_ofExcept (initial_eq_ok.2 hstart)).bind
      (builds_closedStates.bind (hbegin.bind hmoves))
  · have hrecent : t ∈ (A.closedAutomaton start).recent := List.mem_reverse.2 ht
    exact ⟨wfE.source_lt t hrecent, wfE.target_lt t hrecent, wfE.label_permitted t hrecent⟩
  · rw [List.append_nil]
    exact wfE.recent_nodup

end Automaton

end Acceptors
