import Acceptors.Proofs.RandomDeterminism
import Acceptors.Proofs.RandomGrowth

/-!
# Shapes of random automata

If there is room for its states, a random automaton is always drawn, and it has the shape that was
asked for.  Unless it is to be deterministic, the draws are known beforehand: first the flag of each
state, then the fate of each transition that is tried.  The automaton has the transitions that came
true at least once.
-/

namespace Acceptors

namespace Random

open Automaton

variable {σ α : Type} [Source σ] {o : Options α}

/-! ## Success -/

theorem always_tryAll {p : Option Probability} (hp : p.isSome) (ts : List (Transition α)) :
    Always (tryAll p ts : Draw σ _) fun _ => True := by
  refine (always_mapM (R := fun _ _ => True) (fun t => ?_) ts).imp fun _ _ => trivial
  exact always_bind ((always_flip hp).imp fun _ _ => always_pure trivial)

theorem always_draw_of_fits (htransition : o.transition.isSome) (hepsilon : o.epsilon.isSome)
    (haccepting : o.accepting.isSome) (hroom : Capacity.fits o.stateCount State.width) :
    Always (draw o : Draw σ _) fun _ => True := by
  have hsymbol : ∀ q a, Always (trySymbol o q a : Draw σ _) fun _ => True := by
    intro q a
    by_cases hkind : o.kind = .deterministic
    · exact (always_trySymbol hkind htransition q a).imp fun _ _ => trivial
    · rw [trySymbol, if_neg hkind]
      exact always_tryAll htransition _
  have hepsilons : ∀ q, Always (tryEpsilon o q : Draw σ _) fun _ => True := by
    intro q
    unfold tryEpsilon
    split
    · exact always_tryAll hepsilon _
    · exact always_pure trivial
  have hstate : ∀ q, Always (tryState o q : Draw σ _) fun _ => True := by
    intro q
    refine always_bind ((always_mapM (hsymbol q) o.alphabet).imp fun _ _ => ?_)
    exact always_bind ((hepsilons q).imp fun _ _ => always_pure trivial)
  refine always_bind ((always_reserve hroom).imp fun _ _ => ?_)
  refine always_bind ((always_flips haccepting o.stateCount).imp fun _ _ => ?_)
  exact always_bind ((always_mapM hstate _).imp fun _ _ => always_pure trivial)

/-! ## The draws in order -/

/-- The transitions from a state that are tried, each with its chance, if none is left out. -/
def Options.triedFrom (o : Options α) (q : State) : List (Transition α × Option Probability) :=
  (o.alphabet.flatMap fun a =>
    (List.range o.stateCount).map fun r => (⟨q, .symbol a, r⟩, o.transition)) ++
    if o.kind.allowsEpsilon then
      (List.range o.stateCount).map fun r => (⟨q, .epsilon, r⟩, o.epsilon)
    else []

def Options.tried (o : Options α) : List (Transition α × Option Probability) :=
  (List.range o.stateCount).flatMap o.triedFrom

/-- The chances in the order in which they are drawn: the flags come before the transitions. -/
def Options.chances (o : Options α) : List (Option Probability) :=
  List.replicate o.stateCount o.accepting ++ o.tried.map (·.2)

/-- Draws the fate of each transition. -/
def tryEach (items : List (Transition α × Option Probability)) :
    Draw σ (List (Transition α × Bool)) :=
  items.mapM fun item => do return (item.1, ← flip item.2)

theorem tryEach_map (p : Option Probability) (ts : List (Transition α)) :
    (tryEach (ts.map (·, p)) : Draw σ _) = tryAll p ts := by
  rw [tryEach, List.mapM_map]
  rfl

theorem tryEach_append (items later : List (Transition α × Option Probability)) :
    (tryEach (items ++ later) : Draw σ _) = do return (← tryEach items) ++ (← tryEach later) :=
  List.mapM_append

theorem tryEach_flatMap {β : Type} (f : β → List (Transition α × Option Probability))
    (bs : List β) :
    (tryEach (bs.flatMap f) : Draw σ _) = do return (← bs.mapM fun b => tryEach (f b)).flatten := by
  induction bs with
  | nil => rfl
  | cons b bs ih =>
      rw [List.flatMap_cons, tryEach_append, ih]
      simp only [List.mapM_cons, bind_assoc, pure_bind, List.flatten_cons]

section Nondeterministic

variable (hkind : o.kind ≠ .deterministic)

include hkind

theorem tryState_eq_tryEach (q : State) :
    (tryState o q : Draw σ _) = tryEach (o.triedFrom q) := by
  have hsymbol : ∀ a, (tryEach ((List.range o.stateCount).map fun r =>
      ((⟨q, .symbol a, r⟩ : Transition α), o.transition)) : Draw σ _) = trySymbol o q a := by
    intro a
    rw [trySymbol, if_neg hkind, ← tryEach_map, List.map_map]
    rfl
  have hepsilon : (tryEach (if o.kind.allowsEpsilon then
      (List.range o.stateCount).map fun r => (⟨q, .epsilon, r⟩, o.epsilon)
    else []) : Draw σ _) = tryEpsilon o q := by
    unfold tryEpsilon
    split
    · rw [← tryEach_map, List.map_map]
      rfl
    · rfl
  rw [Options.triedFrom, tryEach_append, tryEach_flatMap, hepsilon]
  simp only [hsymbol, tryState, bind_assoc, pure_bind]

theorem draw_eq_tryEach : (draw o : Draw σ _) = do
    reserve o.stateCount State.width
    let accepting ← (List.replicate o.stateCount o.accepting).mapM flip
    let trials ← tryEach o.tried
    return ⟨accepting, trials⟩ := by
  have hflips : (flips o.accepting o.stateCount : Draw σ _) =
      (List.replicate o.stateCount o.accepting).mapM flip := by
    have hconst : (List.range o.stateCount).map (fun _ => o.accepting) =
        List.replicate o.stateCount o.accepting := by simp
    rw [flips_eq_mapM, ← hconst, List.mapM_map]
    rfl
  have hstates : (tryState o : State → Draw σ _) = fun q => tryEach (o.triedFrom q) :=
    funext fun q => tryState_eq_tryEach hkind q
  rw [draw, hflips, hstates, Options.tried, tryEach_flatMap]
  simp only [bind_assoc, pure_bind]

end Nondeterministic

/-- The fates of the transitions are what their chances were answered with. -/
theorem run_tryEach {items : List (Transition α × Option Probability)}
    {trials : List (Transition α × Bool)} {s s' : σ}
    (h : (tryEach items).run s = .ok (trials, s')) :
    trials.map (·.1) = items.map (·.1) ∧
      ((items.map (·.2)).mapM flip).run s = .ok (trials.map (·.2), s') := by
  induction items generalizing trials s with
  | nil =>
      cases h
      exact ⟨rfl, rfl⟩
  | cons item items ih =>
      rw [tryEach, List.mapM_cons] at h
      obtain ⟨trial, s₁, hitem, h⟩ := run_bind_eq_ok.1 h
      obtain ⟨there, s₂, hflip, hitem⟩ := run_bind_eq_ok.1 hitem
      obtain ⟨later, s₃, hlater, h⟩ := run_bind_eq_ok.1 h
      cases hitem
      cases h
      obtain ⟨htransitions, hfates⟩ := ih hlater
      refine ⟨by simp [htransitions], ?_⟩
      rw [List.map_cons, List.mapM_cons]
      exact run_bind_eq_ok.2 ⟨there, s₁, hflip, run_bind_eq_ok.2 ⟨_, s', hfates, rfl⟩⟩

theorem run_draw_nondeterministic (hkind : o.kind ≠ .deterministic) {r : Outcome α} {s rest : σ}
    (h : (draw o).run s = .ok (r, rest)) :
    r.trials.map (·.1) = o.tried.map (·.1) ∧
      (o.chances.mapM flip).run s = .ok (r.accepting ++ r.trials.map (·.2), rest) := by
  rw [draw_eq_tryEach hkind] at h
  obtain ⟨⟨⟩, s₁, hreserve, h⟩ := run_bind_eq_ok.1 h
  obtain ⟨accepting, s₂, hflips, h⟩ := run_bind_eq_ok.1 h
  obtain ⟨trials, s₃, htrials, h⟩ := run_bind_eq_ok.1 h
  cases h
  obtain ⟨htransitions, hfates⟩ := run_tryEach htrials
  have hsame : s₁ = s := by
    unfold reserve at hreserve
    split at hreserve
    · cases hreserve
      rfl
    · cases hreserve
  refine ⟨htransitions, ?_⟩
  rw [Options.chances, List.mapM_append]
  exact run_bind_eq_ok.2 ⟨_, _, hsame ▸ hflips, run_bind_eq_ok.2 ⟨_, _, hfates, rfl⟩⟩

/-! ## The automaton -/

variable [DecidableEq α]

/-- What is asked for, whatever is drawn. -/
structure Options.IsShapeOf (o : Options α) (A : Automaton α) : Prop where
  wellFormed : A.WellFormed
  kind : A.kind = o.kind
  alphabet : A.alphabet = o.alphabet.eraseDups
  stateCount : A.stateCount = o.stateCount
  unnamed : ∀ data ∈ A.stateData, data.name = none
  start : A.start = if 0 < o.stateCount then some 0 else none
  epsilon : o.kind ≠ .epsilonNondeterministic → A.IsEpsilonFree

omit [DecidableEq α] in
theorem stateData_addStates (A : Automaton α) (data : List StateData) :
    (A.addStates data).stateData = A.stateData ++ data := by
  induction data generalizing A with
  | nil => simp [addStates]
  | cons d data ih =>
      have hcons : A.addStates (d :: data) = (A.addState d).addStates data := rfl
      rw [hcons, ih]
      simp [addState]

theorem stateData_started (accepting : List Bool) :
    (o.started accepting).stateData = (accepting.map fun b => ⟨b, none⟩).toArray := by
  have hdata : (o.withStates accepting).stateData =
      (accepting.map fun b => (⟨b, none⟩ : StateData)).toArray := by
    rw [Options.withStates, stateData_addStates]
    simp [Automaton.empty]
  unfold Options.started
  split
  · exact hdata
  · exact hdata

theorem start_started (accepting : List Bool) :
    (o.started accepting).start = if 0 < o.stateCount then some 0 else none := by
  obtain ⟨-, -, hstart, -⟩ :=
    frame_addStates (A := Automaton.empty o.kind o.alphabet) (accepting.map fun b => ⟨b, none⟩)
  unfold Options.started
  split
  · next hnone =>
      rw [hnone]
      exact hstart
  · next hsome => rw [if_pos (Nat.pos_of_ne_zero hsome)]

theorem isShapeOf_plusAll {r : Outcome α} (hlength : r.accepting.length = o.stateCount)
    (hadmits : ∀ t ∈ cameTrue r.trials, o.Admits t) :
    o.IsShapeOf ((o.started r.accepting).plusAll (cameTrue r.trials)) := by
  have frames := (frames_started hlength).plusAll (cameTrue r.trials)
  obtain ⟨-, -, hstart, hdata⟩ := (o.started r.accepting).frame_plusAll (cameTrue r.trials)
  have wf := Outcome.wellFormed_build (Outcome.build_eq hlength hadmits)
  constructor
  · exact wf
  · exact frames.kind
  · exact frames.alphabet
  · exact frames.stateCount
  · intro data hmem
    rw [hdata, stateData_started] at hmem
    simp only [List.mem_toArray, List.mem_map] at hmem
    obtain ⟨there, -, rfl⟩ := hmem
    rfl
  · rw [hstart, start_started]
  · intro hkind
    apply wf.isEpsilonFree
    rw [frames.kind]
    cases hother : o.kind with
    | deterministic => rfl
    | nondeterministic => rfl
    | epsilonNondeterministic => exact absurd hother hkind

theorem mem_transitions_plusAll {accepting : List Bool} {trials : List (Transition α × Bool)}
    {t : Transition α} :
    t ∈ ((o.started accepting).plusAll (cameTrue trials)).transitions ↔ (t, true) ∈ trials := by
  rw [mem_transitions, mem_recent_plusAll, recent_started, mem_cameTrue]
  exact or_iff_left List.not_mem_nil

theorem run_automaton {r : Outcome α} {source rest : σ}
    (hdraw : (draw o).run source = .ok (r, rest)) :
    (automaton o).run source =
      .ok (.ok ((o.started r.accepting).plusAll (cameTrue r.trials)), rest) := by
  obtain ⟨hlength, hadmits⟩ := gives_draw o source r rest hdraw
  refine run_bind_eq_ok.2 ⟨r, rest, hdraw, ?_⟩
  rw [Outcome.build_eq hlength fun t ht => hadmits _ (mem_cameTrue.1 ht)]
  rfl

theorem run_automaton_of_not_fits (hfull : ¬ Capacity.fits o.stateCount State.width) (source : σ) :
    (automaton o).run source = .error .capacity := by
  have hreserve : (reserve o.stateCount State.width : Draw σ Unit) = throw .capacity := by
    rw [reserve, if_neg hfull]
  rw [automaton, draw, hreserve]
  rfl

/--
Draws and calls in turn do the same as drawing first.  If there is room for the states, they give an
automaton of the shape that is asked for, whatever the source answers.  Its transitions are those of
which a trial came true.  Unless it is to be deterministic, the trials are of the listed transitions
in their order, and the source was asked for the flags and then for the fates of the trials and for
nothing else.  Without room nothing is drawn.
-/
theorem run_automatonByCalls (htransition : o.transition.isSome) (hepsilon : o.epsilon.isSome)
    (haccepting : o.accepting.isSome) (source : σ) :
    (automatonByCalls o : Draw σ _) = automaton o ∧
    (Capacity.fits o.stateCount State.width →
      ∃ r rest A, (draw o).run source = .ok (r, rest) ∧
        (automatonByCalls o).run source = .ok (.ok A, rest) ∧ o.IsShapeOf A ∧
          (∀ t, t ∈ A.transitions ↔ (t, true) ∈ r.trials) ∧
          (o.kind ≠ .deterministic → r.trials.map (·.1) = o.tried.map (·.1) ∧
            (o.chances.mapM flip).run source =
              .ok (r.accepting ++ r.trials.map (·.2), rest))) ∧
      (¬ Capacity.fits o.stateCount State.width →
        (automatonByCalls o).run source = .error .capacity) := by
  rw [automatonByCalls_eq]
  refine ⟨rfl, fun hroom => ?_, fun hfull => run_automaton_of_not_fits hfull source⟩
  obtain ⟨r, rest, hdraw, -⟩ := always_draw_of_fits htransition hepsilon haccepting hroom source
  obtain ⟨hlength, hadmits⟩ := gives_draw o source r rest hdraw
  have hshape := isShapeOf_plusAll hlength fun t ht => hadmits _ (mem_cameTrue.1 ht)
  refine ⟨r, rest, _, hdraw, run_automaton hdraw, hshape, ?_, ?_⟩
  · exact fun t => mem_transitions_plusAll
  · exact fun hkind => run_draw_nondeterministic hkind hdraw

/-- Every chance is certain. -/
def plentiful (kind : Kind) (alphabet : List Char) (stateCount : Nat) : Options Char :=
  { certain alphabet stateCount with kind }

theorem run_automatonByCalls_plentiful :
    (plentiful .epsilonNondeterministic ['a', 'b', 'a'] 2).transition.isSome ∧
      (plentiful .epsilonNondeterministic ['a', 'b', 'a'] 2).epsilon.isSome ∧
      (plentiful .epsilonNondeterministic ['a', 'b', 'a'] 2).accepting.isSome ∧
      ∃ A rest,
        (automatonByCalls (plentiful .epsilonNondeterministic ['a', 'b', 'a'] 2)).run
          (⟨[], 0, 0⟩ : WordSource) = .ok (.ok A, rest) ∧
        (plentiful .epsilonNondeterministic ['a', 'b', 'a'] 2).IsShapeOf A := by
  refine ⟨rfl, rfl, rfl, ?_⟩
  obtain ⟨-, rest, A, -, hrun, hshape, -⟩ :=
    (run_automatonByCalls (o := plentiful .epsilonNondeterministic ['a', 'b', 'a'] 2) rfl rfl rfl
      (⟨[], 0, 0⟩ : WordSource)).2.1 (by decide)
  exact ⟨A, rest, hrun, hshape⟩

/-- There is no room for so many states. -/
theorem run_automatonByCalls_without_room :
    (plentiful .nondeterministic [] 2305843009213693952).transition.isSome ∧
      (plentiful .nondeterministic [] 2305843009213693952).epsilon.isSome ∧
      (plentiful .nondeterministic [] 2305843009213693952).accepting.isSome ∧
      (automatonByCalls (plentiful .nondeterministic [] 2305843009213693952)).run
        (⟨[], 0, 0⟩ : WordSource) = .error .capacity := by
  refine ⟨rfl, rfl, rfl, ?_⟩
  rw [automatonByCalls_eq]
  exact run_automaton_of_not_fits (by decide) _

end Random

end Acceptors
