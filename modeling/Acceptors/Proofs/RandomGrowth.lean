import Acceptors.Proofs.RandomOutcomes
import Acceptors.Random.ByCalls

/-!
# Random automata grown by calls

Draws and calls take turns while a random automaton grows.  No call is ever refused, because every
transition that is tried has its ends among the states and a permitted label.  So the calls can wait
until all draws are made, and the automaton is the one that is built from their outcome.
-/

namespace Acceptors

namespace Random

open Automaton Growth

/-! ## What draws can give -/

/-- Whatever the draw gives has the property. -/
def Gives {σ β : Type} (x : Draw σ β) (P : β → Prop) : Prop :=
  ∀ s b s', x.run s = .ok (b, s') → P b

section

variable {σ β γ : Type} {x : Draw σ β} {P : β → Prop}

theorem gives_pure {b : β} (h : P b) : Gives (pure b : Draw σ β) P := by
  intro s c s' hrun
  cases hrun
  exact h

theorem Gives.bind {f : β → Draw σ γ} {R : γ → Prop} (h : Gives x P)
    (hf : ∀ b, P b → Gives (f b) R) : Gives (x >>= f) R := by
  intro s c s'' hrun
  obtain ⟨b, s', hx, hb⟩ := run_bind_eq_ok.1 hrun
  exact hf b (h s b s' hx) s' c s'' hb

/-- What follows a draw matters only for what the draw can give. -/
theorem Gives.bind_congr {f g : β → Draw σ γ} (h : Gives x P) (hfg : ∀ b, P b → f b = g b) :
    x >>= f = x >>= g := by
  funext s
  change x.run s >>= _ = x.run s >>= _
  cases hrun : x.run s with
  | error e => rfl
  | ok result => exact congrFun (hfg result.1 (h s result.1 result.2 hrun)) result.2

theorem gives_mapM_length {f : β → Draw σ γ} (items : List β) :
    Gives (items.mapM f) fun cs => cs.length = items.length := by
  induction items with
  | nil => exact gives_pure rfl
  | cons b items ih =>
      rw [List.mapM_cons]
      refine Gives.bind (P := fun _ => True) (fun _ _ _ _ => trivial) fun c _ => ?_
      refine ih.bind fun cs hcs => gives_pure ?_
      rw [List.length_cons, List.length_cons, hcs]

theorem flatten_mapM_singleton (f : β → Draw σ γ) (items : List β) :
    (do return (← items.mapM fun b => do return [← f b]).flatten) = items.mapM f := by
  induction items with
  | nil => rfl
  | cons b items ih =>
      simp only [List.mapM_cons, bind_assoc, pure_bind, List.flatten_cons, List.singleton_append]
      refine bind_congr fun c => ?_
      rw [← ih]
      simp only [bind_assoc, pure_bind]

end

/-! ## Draws and calls in turn -/

variable {σ α : Type} [DecidableEq α] {o : Options α}

/--
The computation draws what `d` draws, and adds the transitions that come true.  An automaton of the
right shape admits all that `d` can try.
-/
structure AddsDrawn (o : Options α) (x : Automaton α → Growth σ α (Automaton α))
    (d : Draw σ (List (Transition α × Bool))) : Prop where
  run : ∀ A, o.Frames A →
    (x A).run = d >>= fun trials => pure (.ok (A.plusAll (cameTrue trials)))
  admits : Gives d fun trials => ∀ trial ∈ trials, o.Admits trial.1

theorem addsDrawn_pure : AddsDrawn o pure (pure [] : Draw σ (List (Transition α × Bool))) where
  run _ _ := rfl
  admits := gives_pure (by simp)

theorem AddsDrawn.bind {x y : Automaton α → Growth σ α (Automaton α)}
    {d e : Draw σ (List (Transition α × Bool))} (hx : AddsDrawn o x d) (hy : AddsDrawn o y e) :
    AddsDrawn o (fun A => x A >>= y) (do return (← d) ++ (← e)) := by
  constructor
  · intro A frames
    rw [ExceptT.run_bind, hx.run A frames]
    simp only [bind_assoc, pure_bind]
    refine bind_congr fun trials => ?_
    rw [hy.run _ (frames.plusAll _)]
    simp only [cameTrue_append, plusAll_append]
  · refine hx.admits.bind fun trials htrials => hy.admits.bind fun trials' htrials' => ?_
    exact gives_pure (List.forall_mem_append.2 ⟨htrials, htrials'⟩)

theorem addsDrawn_foldlM {β : Type} {x : Automaton α → β → Growth σ α (Automaton α)}
    {d : β → Draw σ (List (Transition α × Bool))} (items : List β)
    (h : ∀ b ∈ items, AddsDrawn o (x · b) (d b)) :
    AddsDrawn o (fun A => items.foldlM x A) (do return (← items.mapM d).flatten) := by
  induction items with
  | nil => exact addsDrawn_pure
  | cons b items ih =>
      obtain ⟨hb, hitems⟩ := List.forall_mem_cons.1 h
      have hboth := hb.bind (ih hitems)
      simp only [List.foldlM_cons, List.mapM_cons, bind_assoc, pure_bind] at hboth ⊢
      exact hboth

/-! ## One transition, one symbol, one state -/

theorem run_addByCall {A : Automaton α} {t : Transition α} (frames : o.Frames A)
    (ht : o.Admits t) : (addByCall A t : Growth σ α (Automaton α)) = pure (A.plus t) := by
  rw [addByCall, addTransition_eq_plus (frames.admitted ht)]
  rfl

variable [Source σ]

theorem addsDrawn_tryByCall {p : Option Probability} {t : Transition α} (ht : o.Admits t) :
    AddsDrawn o (tryByCall p · t) (do return [(t, ← flip p)] : Draw σ _) := by
  constructor
  · intro A frames
    simp only [tryByCall, run_addByCall frames ht, ExceptT.run_bind]
    simp only [Growth.ofDraw, ExceptT.run_lift, bind_map_left, bind_assoc, pure_bind]
    refine bind_congr fun there => ?_
    cases there with
    | false => rfl
    | true => rfl
  · refine Gives.bind (P := fun _ => True) (fun _ _ _ _ => trivial) fun there _ => ?_
    exact gives_pure (List.forall_mem_singleton.2 ht)

theorem addsDrawn_tryAllByCalls {p : Option Probability} {ts : List (Transition α)}
    (hts : ∀ t ∈ ts, o.Admits t) : AddsDrawn o (tryAllByCalls p ts) (tryAll p ts : Draw σ _) := by
  have hadds := addsDrawn_foldlM (σ := σ) ts fun t ht => addsDrawn_tryByCall (p := p) (hts t ht)
  have htry := flatten_mapM_singleton (σ := σ) (fun t => do return (t, ← flip p)) ts
  simp only [bind_assoc, pure_bind] at htry
  rwa [htry] at hadds

variable (o)

theorem addsDrawn_trySymbolByCalls {q : State} (hq : q < o.stateCount) {a : α}
    (ha : a ∈ o.alphabet) :
    AddsDrawn o (trySymbolByCalls o q · a) (trySymbol o q a : Draw σ _) := by
  have hadmits : ∀ r, r < o.stateCount → o.Admits ⟨q, .symbol a, r⟩ :=
    fun r hr => ⟨⟨hq, hr⟩, List.mem_eraseDups.2 ha⟩
  unfold trySymbolByCalls trySymbol
  split
  · rw [dif_pos (Nat.zero_lt_of_lt hq)]
    constructor
    · intro A frames
      rw [dif_pos (Nat.zero_lt_of_lt hq)]
      simp only [Growth.ofDraw, ExceptT.run_bind, ExceptT.run_lift, bind_map_left, bind_assoc]
      refine bind_congr fun there => ?_
      cases there with
      | false => rfl
      | true =>
          simp only [if_true, ExceptT.run_bind, ExceptT.run_lift, bind_map_left, bind_assoc,
            pure_bind]
          refine bind_congr fun r => ?_
          rw [run_addByCall frames (hadmits r r.isLt)]
          rfl
    · refine Gives.bind (P := fun _ => True) (fun _ _ _ _ => trivial) fun there _ => ?_
      cases there with
      | false => exact gives_pure (by simp)
      | true =>
          refine Gives.bind (P := fun _ => True) (fun _ _ _ _ => trivial) fun r _ => ?_
          exact gives_pure (List.forall_mem_singleton.2 (hadmits r r.isLt))
  · apply addsDrawn_tryAllByCalls
    rw [List.forall_mem_map]
    exact fun r hr => hadmits r (List.mem_range.1 hr)

theorem addsDrawn_tryStateByCalls {q : State} (hq : q < o.stateCount) :
    AddsDrawn o (tryStateByCalls o · q) (tryState o q : Draw σ _) := by
  have hsymbols := addsDrawn_foldlM (σ := σ) o.alphabet fun a ha =>
    addsDrawn_trySymbolByCalls o hq ha
  have hepsilon : AddsDrawn o (fun A => if o.kind.allowsEpsilon then
      tryAllByCalls o.epsilon ((List.range o.stateCount).map fun r => ⟨q, .epsilon, r⟩) A
    else return A) (tryEpsilon o q : Draw σ _) := by
    unfold tryEpsilon
    split
    · next hallowed =>
        apply addsDrawn_tryAllByCalls
        rw [List.forall_mem_map]
        exact fun r hr => ⟨⟨hq, List.mem_range.1 hr⟩, hallowed⟩
    · exact addsDrawn_pure
  have hboth := hsymbols.bind hepsilon
  simp only [bind_assoc, pure_bind] at hboth
  exact hboth

/-! ## The whole automaton -/

theorem flips_eq_mapM (p : Option Probability) (count : Nat) :
    (flips p count : Draw σ _) = (List.range count).mapM fun _ => flip p := by
  cases p with
  | some p => rfl
  | none =>
      cases count with
      | zero => rfl
      | succ count =>
          rw [List.range_succ_eq_map, List.mapM_cons]
          rfl

omit [DecidableEq α] in
theorem run_addStatesByCalls (p : Option Probability) (count : Nat) (A : Automaton α) :
    (addStatesByCalls p count A : Growth σ α _).run =
      flips p count >>= fun flags => pure (.ok (A.addStates (flags.map fun b => ⟨b, none⟩))) := by
  rw [flips_eq_mapM, addStatesByCalls]
  induction List.range count generalizing A with
  | nil => rfl
  | cons _ items ih =>
      simp only [List.foldlM_cons, List.mapM_cons, ExceptT.run_bind, Growth.ofDraw,
        ExceptT.run_lift, bind_map_left, bind_assoc, pure_bind]
      refine bind_congr fun there => ?_
      exact ih (A.addState ⟨there, none⟩)

theorem gives_flips_length (p : Option Probability) (count : Nat) :
    Gives (flips p count : Draw σ _) fun flags => flags.length = count := by
  rw [flips_eq_mapM]
  simpa using gives_mapM_length (σ := σ) (f := fun _ => flip p) (List.range count)

/-- The trials of all states, as they are drawn. -/
def tryStates (o : Options α) : Draw σ (List (Transition α × Bool)) := do
  return (← (List.range o.stateCount).mapM (tryState o)).flatten

theorem addsDrawn_tryStates :
    AddsDrawn o (fun A => (List.range o.stateCount).foldlM (tryStateByCalls o) A)
      (tryStates o : Draw σ _) :=
  addsDrawn_foldlM _ fun _ hq => addsDrawn_tryStateByCalls o (List.mem_range.1 hq)

omit [DecidableEq α] in
theorem draw_eq_tryStates : (draw o : Draw σ _) = do
    reserve o.stateCount State.width
    let accepting ← flips o.accepting o.stateCount
    let trials ← tryStates o
    return ⟨accepting, trials⟩ := by
  simp only [draw, tryStates, bind_assoc, pure_bind]

/-- The flags are those of all states, and every transition that is tried is admitted. -/
theorem gives_draw : Gives (draw o : Draw σ _) fun r =>
    r.accepting.length = o.stateCount ∧ ∀ trial ∈ r.trials, o.Admits trial.1 := by
  rw [draw_eq_tryStates]
  refine Gives.bind (P := fun _ => True) (fun _ _ _ _ => trivial) fun _ _ => ?_
  refine (gives_flips_length _ _).bind fun accepting hlength => ?_
  exact (addsDrawn_tryStates o).admits.bind fun trials hadmits => gives_pure ⟨hlength, hadmits⟩

/-- No call is refused, so that drawing first and building later gives the same automaton. -/
theorem automatonByCalls_eq : (automatonByCalls o : Draw σ _) = automaton o := by
  have hstates := addsDrawn_tryStates (σ := σ) o
  unfold automatonByCalls growByCalls automaton
  rw [draw_eq_tryStates]
  simp only [Growth.ofDraw, ExceptT.run_bind, ExceptT.run_lift, bind_map_left, bind_assoc,
    pure_bind, run_addStatesByCalls]
  refine bind_congr fun _ => ?_
  refine (gives_flips_length _ _).bind_congr fun accepting hlength => ?_
  have hbuild : ∀ trials : List (Transition α × Bool), (∀ trial ∈ trials, o.Admits trial.1) →
      (pure ((⟨accepting, trials⟩ : Outcome α).build o) : Draw σ _) =
        pure (.ok ((o.started accepting).plusAll (cameTrue trials))) := by
    intro trials hadmits
    rw [Outcome.build_eq hlength fun t ht => hadmits _ (mem_cameTrue.1 ht)]
  rw [hstates.admits.bind_congr hbuild, ← Options.withStates]
  by_cases hnone : o.stateCount = 0
  · rw [if_pos hnone, Options.started, if_pos hnone, tryStates, hnone]
    rfl
  · rw [if_neg hnone, setStart_withStates hlength hnone]
    exact hstates.run _ (frames_started hlength)

end Random

end Acceptors
