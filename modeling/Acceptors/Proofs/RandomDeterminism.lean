import Acceptors.Proofs.DeterministicTables
import Acceptors.Proofs.RandomOutcomes

/-!
# Which random automata are deterministic

For each visit of a symbol a deterministic draw gives a state at most one target.  A symbol that the
options list twice is visited twice, although the automaton holds it once.  So the automaton is sure
to be deterministic exactly if no symbol is listed twice or there are no two states to choose from.
-/

namespace Acceptors

namespace Random

open Automaton

variable {α : Type} {o : Options α}

/-- The trials are in these cells and in this order, at most one in each, and lead to states. -/
def Visits (n : Nat) (cells : List (State × Label α)) (trials : List (Transition α × Bool)) :
    Prop :=
  (trials.map fun trial => trial.1.cell).Sublist cells ∧ ∀ trial ∈ trials, trial.1.target < n

theorem visits_nil (n : Nat) (cells : List (State × Label α)) : Visits n cells [] :=
  ⟨List.nil_sublist _, by simp⟩

theorem visits_flatten {β : Type} {n : Nat} {cells : β → List (State × Label α)} {items : List β}
    {results : List (List (Transition α × Bool))}
    (h : List.Forall₂ (fun b trials => Visits n (cells b) trials) items results) :
    Visits n (items.flatMap cells) results.flatten := by
  induction h with
  | nil => exact visits_nil n _
  | cons hb _ ih =>
      rw [List.flatMap_cons, List.flatten_cons]
      refine ⟨?_, List.forall_mem_append.2 ⟨hb.2, ih.2⟩⟩
      rw [List.map_append]
      exact hb.1.append ih.1

/-- The cells that a deterministic draw visits: a repeated symbol makes it return to its cell. -/
def Options.visited (o : Options α) : List (State × Label α) :=
  (List.range o.stateCount).flatMap fun q => o.alphabet.map fun a => (q, .symbol a)

theorem Options.mem_visited {p : State} {label : Label α} :
    (p, label) ∈ o.visited ↔ p < o.stateCount ∧ ∃ a ∈ o.alphabet, label = .symbol a := by
  simp only [visited, List.mem_flatMap, List.mem_range, List.mem_map, Prod.mk.injEq]
  constructor
  · rintro ⟨p, hp, a, ha, rfl, rfl⟩
    exact ⟨hp, a, ha, rfl⟩
  · rintro ⟨hp, a, ha, rfl⟩
    exact ⟨p, hp, a, ha, rfl, rfl⟩

theorem Options.nodup_visited (h : o.alphabet.Nodup) : o.visited.Nodup := by
  refine nodup_flatMap_of_key id Prod.fst ?_ ?_ ?_
  · intro p _ cell hcell
    obtain ⟨a, -, rfl⟩ := List.mem_map.1 hcell
    rfl
  · rw [List.map_id]
    exact List.nodup_range
  · exact fun p _ => h.map fun a b hab => Label.symbol.inj (Prod.mk.inj hab).2

/-! ## The trials of a deterministic draw -/

section Draws

variable {σ : Type} [Source σ] (hkind : o.kind = .deterministic)
  (htransition : o.transition.isSome)

include hkind

theorem tryEpsilon_of_deterministic (q : State) :
    (tryEpsilon o q : Draw σ (List (Transition α × Bool))) = pure [] := by
  rw [tryEpsilon, hkind]
  rfl

include htransition

theorem always_trySymbol (q : State) (a : α) :
    Always (trySymbol o q a : Draw σ (List (Transition α × Bool)))
      (Visits o.stateCount [(q, .symbol a)]) := by
  rw [trySymbol, if_pos hkind]
  split
  · next hpos =>
      refine always_bind ((always_flip htransition).imp fun there _ => ?_)
      cases there with
      | false => exact always_pure (visits_nil _ _)
      | true =>
          refine always_bind ((always_below hpos).imp fun r _ => always_pure ?_)
          exact ⟨List.Sublist.refl _, List.forall_mem_singleton.2 r.isLt⟩
  · exact always_pure (visits_nil _ _)

theorem always_tryState (q : State) :
    Always (tryState o q : Draw σ (List (Transition α × Bool)))
      (Visits o.stateCount (o.alphabet.map fun a => (q, .symbol a))) := by
  have hsymbols := always_mapM (always_trySymbol (σ := σ) hkind htransition q) o.alphabet
  rw [tryState, tryEpsilon_of_deterministic hkind]
  refine always_bind (hsymbols.imp fun symbols hvisits => ?_)
  refine always_bind (always_pure (always_pure ?_))
  rw [List.append_nil, List.map_eq_flatMap]
  exact visits_flatten hvisits

theorem always_draw (haccepting : o.accepting.isSome)
    (hroom : Capacity.fits o.stateCount State.width) :
    Always (draw o : Draw σ (Outcome α)) fun r =>
      r.accepting.length = o.stateCount ∧ Visits o.stateCount o.visited r.trials := by
  have htrials := always_mapM (always_tryState (σ := σ) hkind htransition)
    (List.range o.stateCount)
  rw [draw]
  refine always_bind ((always_reserve hroom).imp fun _ _ => ?_)
  refine always_bind ((always_flips haccepting o.stateCount).imp fun accepting hlength => ?_)
  refine always_bind (htrials.imp fun trials hvisits => always_pure ⟨hlength, ?_⟩)
  exact visits_flatten hvisits

end Draws

/-! ## The automaton of a deterministic draw -/

theorem Visits.kept {n : Nat} {cells : List (State × Label α)} {r : Outcome α}
    (h : Visits n cells r.trials) :
    (r.kept.map Transition.cell).Sublist cells ∧ ∀ t ∈ r.kept, t.target < n := by
  constructor
  · rw [Outcome.kept, List.map_map]
    exact (List.filter_sublist.map _).trans h.1
  · intro t ht
    obtain ⟨trial, htrial, rfl⟩ := List.mem_map.1 ht
    exact h.2 trial (List.mem_of_mem_filter htrial)

theorem Visits.mem_kept {r : Outcome α} (h : Visits o.stateCount o.visited r.trials)
    {p q : State} {label : Label α} (ht : ⟨p, label, q⟩ ∈ r.kept) :
    p < o.stateCount ∧ q < o.stateCount ∧ ∃ a ∈ o.alphabet, label = .symbol a := by
  obtain ⟨hp, hlabel⟩ := Options.mem_visited.1 (h.kept.1.subset (List.mem_map_of_mem ht))
  exact ⟨hp, h.kept.2 _ ht, hlabel⟩

/-- Without a repeated symbol no cell is visited twice, and one state is but one target. -/
theorem isDeterministic_of_visits {r : Outcome α} {A : Automaton α} (wf : A.WellFormed)
    (hvisits : Visits o.stateCount o.visited r.trials) (hrecent : ∀ t, t ∈ A.recent ↔ t ∈ r.kept)
    (h : o.alphabet.Nodup ∨ o.stateCount ≤ 1) : A.IsDeterministic := by
  rw [wf.isDeterministic_iff_cells, nodup_cells_iff wf.recent_nodup]
  simp only [IsEpsilonFree, hrecent]
  constructor
  · rintro ⟨p, label, q⟩ ht
    obtain ⟨-, -, a, -, rfl⟩ := hvisits.mem_kept ht
    rfl
  · intro p label q q' hq hq'
    rcases h with hnodup | hone
    · have hcells := hvisits.kept.1.nodup (o.nodup_visited hnodup)
      exact congrArg Transition.target (List.inj_on_of_nodup_map hcells hq hq' rfl)
    · have hlt := (hvisits.mem_kept hq).2.1
      have hlt' := (hvisits.mem_kept hq').2.1
      exact (Nat.lt_one_iff.1 (hlt.trans_le hone)).trans
        (Nat.lt_one_iff.1 (hlt'.trans_le hone)).symm

/-! ## A source that visits a repeated symbol twice -/

theorem exists_repeated {β : Type} {items : List β} (h : ¬ items.Nodup) :
    ∃ before b after, items = before ++ b :: after ∧ b ∈ before := by
  obtain ⟨b, htwice⟩ : ∃ b, [b, b].Sublist items := by
    simpa [List.nodup_iff_sublist] using h
  obtain ⟨front, back, rfl, hfront, hback⟩ := List.cons_sublist_iff.1 htwice
  obtain ⟨middle, after, rfl⟩ := List.append_of_mem (List.singleton_sublist.1 hback)
  exact ⟨front ++ middle, b, after, (List.append_assoc ..).symm, List.mem_append_left _ hfront⟩

/-- Every chance comes true.  So many numbers are drawn as zero, and all others as the greatest. -/
structure ZerosFirst where
  zeros : Nat

instance : Source ZerosFirst where
  flip _ s := (true, s)
  below n h s :=
    match s.zeros with
    | 0 => (⟨n - 1, Nat.sub_one_lt_of_lt h⟩, s)
    | zeros + 1 => (⟨0, h⟩, ⟨zeros⟩)

/-- The trial of a symbol whose target was drawn. -/
def found (q : State) (r : State) (a : α) : List (Transition α × Bool) :=
  [(⟨q, .symbol a, r⟩, true)]

theorem run_mapM_of_stationary {σ β γ : Type} {f : β → Draw σ γ} {g : β → γ} {s : σ}
    (h : ∀ b, (f b).run s = .ok (g b, s)) (items : List β) :
    (items.mapM f).run s = .ok (items.map g, s) := by
  induction items with
  | nil => rfl
  | cons b items ih =>
      rw [List.mapM_cons]
      exact run_bind_eq_ok.2 ⟨g b, s, h b, run_bind_eq_ok.2 ⟨_, s, ih, rfl⟩⟩

section Repetition

variable (hkind : o.kind = .deterministic) (htransition : o.transition.isSome)
  (hpos : 0 < o.stateCount)

include hkind htransition hpos

theorem run_trySymbol (s : ZerosFirst) (q : State) (a : α) :
    (trySymbol o q a).run s =
      .ok (found q (Source.below o.stateCount hpos s).1 a,
        (Source.below o.stateCount hpos s).2) := by
  obtain ⟨p, hp⟩ := Option.isSome_iff_exists.1 htransition
  rw [trySymbol, if_pos hkind, dif_pos hpos, hp]
  rfl

theorem run_symbols_zero (q : State) (symbols : List α) (zeros : Nat) :
    (symbols.mapM (trySymbol o q)).run (⟨symbols.length + zeros⟩ : ZerosFirst) =
      .ok (symbols.map (found q 0), ⟨zeros⟩) := by
  induction symbols with
  | nil =>
      rw [List.length_nil, Nat.zero_add]
      rfl
  | cons a symbols ih =>
      rw [List.mapM_cons, List.length_cons, Nat.add_right_comm]
      refine run_bind_eq_ok.2 ⟨found q 0 a, ⟨symbols.length + zeros⟩, ?_, ?_⟩
      · exact run_trySymbol hkind htransition hpos ⟨symbols.length + zeros + 1⟩ q a
      · exact run_bind_eq_ok.2 ⟨_, _, ih, rfl⟩

/-- The targets are zero before the repetition, and the greatest state from then on. -/
theorem exists_tryState_repeated {before after : List α} {a : α}
    (hsplit : o.alphabet = before ++ a :: after) (ha : a ∈ before) (q : State) :
    ∃ trials, (tryState o q).run (⟨before.length⟩ : ZerosFirst) = .ok (trials, ⟨0⟩) ∧
      (⟨q, .symbol a, 0⟩, true) ∈ trials ∧
        (⟨q, .symbol a, o.stateCount - 1⟩, true) ∈ trials := by
  let greatest := o.stateCount - 1
  have hzero := run_symbols_zero hkind htransition hpos q before 0
  have hgreatest : ((a :: after).mapM (trySymbol o q)).run (⟨0⟩ : ZerosFirst) =
      .ok ((a :: after).map (found q greatest), ⟨0⟩) :=
    run_mapM_of_stationary (run_trySymbol hkind htransition hpos ⟨0⟩ q) _
  have hsymbols : (o.alphabet.mapM (trySymbol o q)).run (⟨before.length⟩ : ZerosFirst) =
      .ok (before.map (found q 0) ++ (a :: after).map (found q greatest), ⟨0⟩) := by
    rw [hsplit, List.mapM_append]
    exact run_bind_eq_ok.2 ⟨_, _, hzero, run_bind_eq_ok.2 ⟨_, _, hgreatest, rfl⟩⟩
  refine ⟨(before.map (found q 0) ++ (a :: after).map (found q greatest)).flatten ++ [], ?_, ?_, ?_⟩
  · rw [tryState, tryEpsilon_of_deterministic hkind]
    exact run_bind_eq_ok.2 ⟨_, _, hsymbols, rfl⟩
  · have hbefore : found q 0 a ∈ before.map (found q 0) := List.mem_map_of_mem ha
    rw [List.append_nil, List.flatten_append]
    exact List.mem_append_left _ (List.mem_flatten_of_mem hbefore (List.mem_singleton.2 rfl))
  · have hlater : found q greatest a ∈ (a :: after).map (found q greatest) :=
      List.mem_map_of_mem List.mem_cons_self
    rw [List.append_nil, List.flatten_append]
    exact List.mem_append_right _ (List.mem_flatten_of_mem hlater (List.mem_singleton.2 rfl))

/-- The first state leads under the repeated symbol to the first and to the last state. -/
theorem exists_draw_repeated (haccepting : o.accepting.isSome)
    (hroom : Capacity.fits o.stateCount State.width) {before after : List α} {a : α}
    (hsplit : o.alphabet = before ++ a :: after) (ha : a ∈ before) :
    ∃ r rest, (draw o).run (⟨before.length⟩ : ZerosFirst) = .ok (r, rest) ∧
      ⟨0, .symbol a, 0⟩ ∈ r.kept ∧ ⟨0, .symbol a, o.stateCount - 1⟩ ∈ r.kept := by
  obtain ⟨p, hp⟩ := Option.isSome_iff_exists.1 haccepting
  have hreserve : (reserve o.stateCount State.width).run (⟨before.length⟩ : ZerosFirst) =
      .ok ((), ⟨before.length⟩) := by
    rw [reserve, if_pos hroom]
    rfl
  have hflips : (flips o.accepting o.stateCount).run (⟨before.length⟩ : ZerosFirst) =
      .ok ((List.range o.stateCount).map fun _ => true, ⟨before.length⟩) := by
    rw [hp]
    exact run_mapM_of_stationary (fun _ => rfl) _
  obtain ⟨first, hfirst, hzero, hgreatest⟩ :=
    exists_tryState_repeated hkind htransition hpos hsplit ha 0
  obtain ⟨n, hn⟩ := Nat.exists_eq_add_of_lt hpos
  have hrange : List.range o.stateCount = 0 :: (List.range n).map Nat.succ := by
    rw [hn, Nat.zero_add, List.range_succ_eq_map]
  obtain ⟨later, rest, hlater, -⟩ := always_mapM (always_tryState hkind htransition)
    ((List.range n).map Nat.succ) (⟨0⟩ : ZerosFirst)
  have htrials : ((List.range o.stateCount).mapM (tryState o)).run (⟨before.length⟩ : ZerosFirst) =
      .ok (first :: later, rest) := by
    rw [hrange, List.mapM_cons]
    exact run_bind_eq_ok.2 ⟨_, _, hfirst, run_bind_eq_ok.2 ⟨_, _, hlater, rfl⟩⟩
  refine ⟨⟨(List.range o.stateCount).map fun _ => true, (first :: later).flatten⟩, rest, ?_, ?_, ?_⟩
  · exact run_bind_eq_ok.2 ⟨_, _, hreserve, run_bind_eq_ok.2 ⟨_, _, hflips,
      run_bind_eq_ok.2 ⟨_, _, htrials, rfl⟩⟩⟩
  · exact Outcome.mem_kept.2 (List.mem_append_left _ hzero)
  · exact Outcome.mem_kept.2 (List.mem_append_left _ hgreatest)

end Repetition

/-! ## When every draw is deterministic -/

variable [DecidableEq α]

section Sureness

variable (hkind : o.kind = .deterministic) (htransition : o.transition.isSome)
  (haccepting : o.accepting.isSome) (hroom : Capacity.fits o.stateCount State.width)

include hkind htransition haccepting hroom

/-- From every source an automaton is drawn, with the transitions that came true. -/
theorem exists_run {σ : Type} [Source σ] (source : σ) :
    ∃ r rest A, (draw o).run source = .ok (r, rest) ∧
      (automaton o).run source = .ok (.ok A, rest) ∧
        Visits o.stateCount o.visited r.trials ∧ ∀ t, t ∈ A.recent ↔ t ∈ r.kept := by
  obtain ⟨r, rest, hdraw, hlength, hvisits⟩ :=
    always_draw hkind htransition haccepting hroom source
  have hadmitted : ∀ t ∈ r.kept, o.Admits t := by
    rintro ⟨p, label, q⟩ ht
    obtain ⟨hp, hq, a, ha, rfl⟩ := hvisits.mem_kept ht
    exact ⟨⟨hp, hq⟩, List.mem_eraseDups.2 ha⟩
  obtain ⟨A, hbuild, hrecent⟩ := r.exists_build hlength hadmitted
  refine ⟨r, rest, A, hdraw, ?_, hvisits, hrecent⟩
  exact run_bind_eq_ok.2 ⟨r, rest, hdraw, by rw [hbuild]; rfl⟩

theorem exists_not_isDeterministic (hrepeated : ¬ o.alphabet.Nodup) (htwo : 1 < o.stateCount) :
    ∃ (source rest : ZerosFirst) (A : Automaton α),
      (automaton o).run source = .ok (.ok A, rest) ∧ ¬ A.IsDeterministic := by
  obtain ⟨before, a, after, hsplit, ha⟩ := exists_repeated hrepeated
  obtain ⟨r, rest, hdraw, hzero, hgreatest⟩ := exists_draw_repeated hkind htransition
    (Nat.zero_lt_of_lt htwo) haccepting hroom hsplit ha
  obtain ⟨r', rest', A, hdraw', hrun, -, hrecent⟩ := exists_run hkind htransition haccepting hroom
    (⟨before.length⟩ : ZerosFirst)
  cases hdraw.symm.trans hdraw'
  refine ⟨⟨before.length⟩, rest, A, hrun, fun deterministic => ?_⟩
  have wf := wellFormed_automaton hrun
  have hcells := (wf.isDeterministic_iff_cells.1 deterministic).2
  have htargets := (nodup_cells_iff wf.recent_nodup).1 hcells _ _ _ _ ((hrecent _).2 hzero)
    ((hrecent _).2 hgreatest)
  exact Nat.ne_of_lt (Nat.sub_pos_of_lt htwo) htargets

end Sureness

/--
An automaton is always drawn.  It is sure to be deterministic exactly if no symbol is listed twice
or there are no two states.
-/
theorem automaton_isDeterministic_iff (hkind : o.kind = .deterministic)
    (htransition : o.transition.isSome) (haccepting : o.accepting.isSome)
    (hroom : Capacity.fits o.stateCount State.width) :
    (∀ (σ : Type) [Source σ] (source : σ), ∃ A rest,
        (automaton o).run source = .ok (.ok A, rest) ∧ A.IsDeterministic) ↔
      o.alphabet.Nodup ∨ o.stateCount ≤ 1 := by
  constructor
  · intro hall
    by_contra hnone
    obtain ⟨hrepeated, htwo⟩ := not_or.1 hnone
    obtain ⟨source, rest, A, hrun, hnot⟩ := exists_not_isDeterministic hkind htransition
      haccepting hroom hrepeated (Nat.lt_of_not_le htwo)
    obtain ⟨A', rest', hrun', hdeterministic⟩ := hall ZerosFirst source
    cases hrun.symm.trans hrun'
    exact hnot hdeterministic
  · intro h σ _ source
    obtain ⟨r, rest, A, -, hrun, hvisits, hrecent⟩ :=
      exists_run hkind htransition haccepting hroom source
    exact ⟨A, rest, hrun, isDeterministic_of_visits (wellFormed_automaton hrun) hvisits hrecent h⟩

/-- A deterministic automaton is to be drawn, and every chance is certain. -/
def certain (alphabet : List Char) (stateCount : Nat) : Options Char where
  alphabet := alphabet
  stateCount := stateCount
  kind := .deterministic
  transition := some (.ofHits UInt64.size)
  epsilon := some (.ofHits UInt64.size)
  accepting := some (.ofHits UInt64.size)

theorem automaton_isDeterministic_iff_certain :
    (certain ['a', 'b'] 3).kind = .deterministic ∧ (certain ['a', 'b'] 3).transition.isSome ∧
      (certain ['a', 'b'] 3).accepting.isSome ∧ Capacity.fits 3 State.width ∧
      (∀ (σ : Type) [Source σ] (source : σ), ∃ A rest,
        (automaton (certain ['a', 'b'] 3)).run source = .ok (.ok A, rest) ∧ A.IsDeterministic) ∧
      ¬ ∀ (σ : Type) [Source σ] (source : σ), ∃ A rest,
        (automaton (certain ['a', 'a'] 2)).run source = .ok (.ok A, rest) ∧ A.IsDeterministic := by
  refine ⟨rfl, rfl, rfl, by decide, ?_, ?_⟩
  · exact (automaton_isDeterministic_iff rfl rfl rfl (by decide)).2 (.inl (by decide))
  · exact mt (automaton_isDeterministic_iff rfl rfl rfl (by decide)).1 (by decide)

/-- A symbol that is listed twice can lead from one state to two. -/
theorem repeated_symbol_not_isDeterministic :
    ∃ A rest, (automaton (certain ['a', 'a'] 2)).run
        (⟨[0, 9223372036854775808, 0, 0], 0, 0⟩ : WordSource) = .ok (.ok A, rest) ∧
      A.kind = .deterministic ∧
      A.transitions = [⟨0, .symbol 'a', 0⟩, ⟨0, .symbol 'a', 1⟩, ⟨1, .symbol 'a', 0⟩] ∧
      ¬ A.IsDeterministic := by
  refine ⟨_, _, rfl, rfl, rfl, by decide⟩

end Random

end Acceptors
