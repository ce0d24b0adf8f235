import Acceptors.Automaton.Construction
import Mathlib.Data.List.Nodup

/-!
# What the calls do

One statement for each call that builds an automaton: when it succeeds, and what it then changes.
What a statement does not name is left as it was.
-/

namespace Acceptors.Automaton

variable {α : Type} {A B : Automaton α}

theorem bind_eq_ok {ε β γ : Type} {x : Except ε β} {f : β → Except ε γ} {c : γ} :
    (x >>= f) = .ok c ↔ ∃ b, x = .ok b ∧ f b = .ok c := by
  cases x with
  | error e => simp [bind, Except.bind]
  | ok b => simp [bind, Except.bind]

/-! ## Checks in a row -/

section

variable {ε β γ : Type} {x : Except ε Unit} {f : Unit → Except ε γ} {e : ε}

theorem checked_bind_eq_ok {c : γ} : (x >>= f) = .ok c ↔ x = .ok () ∧ f () = .ok c := by
  cases x with
  | error e' => simp [bind, Except.bind]
  | ok _ => simp [bind, Except.bind]

theorem checked_bind_eq_error :
    (x >>= f) = .error e ↔ x = .error e ∨ x = .ok () ∧ f () = .error e := by
  cases x with
  | error e' => simp [bind, Except.bind]
  | ok _ => simp [bind, Except.bind]

theorem forM_eq_ok {check : β → Except ε Unit} {items : List β} :
    items.forM check = .ok () ↔ ∀ b ∈ items, check b = .ok () := by
  induction items with
  | nil => simp [List.forM, pure, Except.pure]
  | cons b items ih =>
      change (check b >>= fun _ => items.forM check) = .ok () ↔ _
      rw [checked_bind_eq_ok, ih, List.forall_mem_cons]

/-- The first check that fails is the one whose error is shown. -/
theorem forM_eq_error {check : β → Except ε Unit} {items : List β} :
    items.forM check = .error e ↔ ∃ before b rest, items = before ++ b :: rest ∧
      (∀ c ∈ before, check c = .ok ()) ∧ check b = .error e := by
  constructor
  · intro h
    induction items with
    | nil => cases h
    | cons b items ih =>
        rcases checked_bind_eq_error.1 h with hb | ⟨hb, hrest⟩
        · exact ⟨[], b, items, rfl, by simp, hb⟩
        · obtain ⟨before, c, rest, rfl, hbefore, hc⟩ := ih hrest
          exact ⟨b :: before, c, rest, rfl, List.forall_mem_cons.2 ⟨hb, hbefore⟩, hc⟩
  · rintro ⟨before, b, rest, rfl, hbefore, hb⟩
    induction before with
    | nil => exact checked_bind_eq_error.2 (.inl hb)
    | cons c before ih =>
        obtain ⟨hc, hbefore⟩ := List.forall_mem_cons.1 hbefore
        exact checked_bind_eq_error.2 (.inr ⟨hc, ih hbefore⟩)

end

/-! ## States -/

@[simp] theorem mem_states {q : State} : q ∈ A.states ↔ q < A.stateCount := List.mem_range

@[simp] theorem contains_iff {q : State} : A.contains q ↔ q < A.stateCount := decide_eq_true_iff

theorem mem_transitions {t : Transition α} : t ∈ A.transitions ↔ t ∈ A.recent := List.mem_reverse

theorem check_eq_ok {q : State} : A.check q = .ok () ↔ q < A.stateCount := by
  simp only [check]
  split
  · next h => simpa using h
  · next h => simpa using h

theorem initial_eq_ok {q : State} : A.initial = .ok q ↔ A.start = some q := by
  cases h : A.start <;> simp [initial, h]

theorem initial_of_no_start (h : A.start = none) : A.initial = .error .noStartState := by
  simp [initial, h]

theorem check_bind_eq_ok {β : Type} {q : State} {f : Unit → Except (Refusal α) β} {b : β} :
    (A.check q >>= f) = .ok b ↔ q < A.stateCount ∧ f () = .ok b := by
  rw [checked_bind_eq_ok, check_eq_ok]

theorem forM_check_eq_ok {states : List State} :
    states.forM A.check = .ok () ↔ ∀ q ∈ states, q < A.stateCount := by
  simp only [forM_eq_ok, check_eq_ok]

theorem setStart_eq_ok {q : State} :
    A.setStart q = .ok B ↔ q < A.stateCount ∧ B = { A with start := some q } := by
  rw [setStart, check_bind_eq_ok, @eq_comm _ B]
  simp [pure, Except.pure]

theorem modifyState_eq_ok {q : State} {f : StateData → StateData} :
    A.modifyState q f = .ok B ↔
      q < A.stateCount ∧ B = { A with stateData := A.stateData.modify q f } := by
  rw [modifyState, check_bind_eq_ok, @eq_comm _ B]
  simp [pure, Except.pure]

@[simp] theorem stateCount_addState {data : StateData} :
    (A.addState data).stateCount = A.stateCount + 1 := Array.size_push _

theorem lt_stateCount_addState {data : StateData} {q : State} (hq : q < A.stateCount) :
    q < (A.addState data).stateCount := by
  rw [stateCount_addState]
  exact Nat.lt_succ_of_lt hq

theorem frame_addStates (data : List StateData) :
    (A.addStates data).kind = A.kind ∧ (A.addStates data).alphabet = A.alphabet ∧
      (A.addStates data).start = A.start ∧ (A.addStates data).recent = A.recent ∧
        (A.addStates data).stateCount = A.stateCount + data.length := by
  induction data generalizing A with
  | nil => exact ⟨rfl, rfl, rfl, rfl, rfl⟩
  | cons d data ih =>
      have hcons : A.addStates (d :: data) = (A.addState d).addStates data := rfl
      obtain ⟨hkind, halphabet, hstart, hrecent, hcount⟩ := ih (A := A.addState d)
      rw [hcons]
      refine ⟨hkind, halphabet, hstart, hrecent, ?_⟩
      rw [hcount, stateCount_addState, List.length_cons, Nat.add_assoc, Nat.add_comm 1]

theorem stateCount_modify {q : State} {f : StateData → StateData} :
    { A with stateData := A.stateData.modify q f }.stateCount = A.stateCount := Array.size_modify

theorem frame_modifyState {q : State} {f : StateData → StateData}
    (h : A.modifyState q f = .ok B) :
    B.kind = A.kind ∧ B.alphabet = A.alphabet ∧ B.start = A.start ∧ B.recent = A.recent ∧
      B.stateCount = A.stateCount := by
  obtain ⟨-, rfl⟩ := modifyState_eq_ok.1 h
  exact ⟨rfl, rfl, rfl, rfl, stateCount_modify⟩

/-! ## Accepting flags -/

theorem lt_of_isAcceptingState {q : State} (h : A.isAcceptingState q) : q < A.stateCount := by
  rw [isAcceptingState] at h
  split at h
  · next hdata => exact (Array.getElem?_eq_some_iff.1 hdata).1
  · contradiction

theorem isAcceptingState_stateCount (A : Automaton α) :
    A.isAcceptingState A.stateCount = false :=
  Bool.eq_false_iff.2 fun h => Nat.lt_irrefl _ (lt_of_isAcceptingState h)

theorem isAccepting_eq_ok {q : State} {accepting : Bool} :
    A.isAccepting q = .ok accepting ↔
      q < A.stateCount ∧ A.isAcceptingState q = accepting := by
  rw [isAccepting, check_bind_eq_ok]
  simp [pure, Except.pure]

theorem isAccepting_eq_ok_true {q : State} :
    A.isAccepting q = .ok true ↔ A.isAcceptingState q := by
  rw [isAccepting_eq_ok]
  exact ⟨fun h => h.2, fun h => ⟨lt_of_isAcceptingState h, h⟩⟩

theorem getElem?_stateData_of_modifyState {q : State} {f : StateData → StateData}
    (h : A.modifyState q f = .ok B) (p : State) :
    B.stateData[p]? = if q = p then A.stateData[p]?.map f else A.stateData[p]? := by
  obtain ⟨-, rfl⟩ := modifyState_eq_ok.1 h
  exact Array.getElem?_modify

theorem isAcceptingState_setName {q : State} {name : String} (h : A.setName q name = .ok B)
    (p : State) : B.isAcceptingState p = A.isAcceptingState p := by
  unfold isAcceptingState
  rw [getElem?_stateData_of_modifyState h]
  by_cases hp : q = p
  · rw [if_pos hp]
    cases A.stateData[p]? <;> rfl
  · rw [if_neg hp]

theorem isAcceptingState_setAccepting {q : State} {accepting : Bool}
    (h : A.setAccepting q accepting = .ok B) (p : State) :
    B.isAcceptingState p = if p = q then accepting else A.isAcceptingState p := by
  have hq : q < A.stateData.size := (modifyState_eq_ok.1 h).1
  unfold isAcceptingState
  rw [getElem?_stateData_of_modifyState h]
  by_cases hp : p = q
  · subst hp
    simp [hq]
  · rw [if_neg (Ne.symm hp), if_neg hp]

theorem isAcceptingState_addState (data : StateData) (p : State) :
    (A.addState data).isAcceptingState p =
      if p = A.stateCount then data.accepting else A.isAcceptingState p := by
  unfold isAcceptingState addState stateCount
  rw [Array.getElem?_push]
  by_cases hp : p = A.stateData.size
  · rw [if_pos hp, if_pos hp]
  · rw [if_neg hp, if_neg hp]

/-! ## Labels and transitions -/

/-- An automaton may have transitions under the symbols of its alphabet and, if its kind allows
it, under epsilon. -/
def Permits (A : Automaton α) : Label α → Prop
  | .symbol a => a ∈ A.alphabet
  | .epsilon => A.kind.allowsEpsilon = true

theorem permits_congr {B : Automaton α} (hkind : B.kind = A.kind)
    (halphabet : B.alphabet = A.alphabet) (label : Label α) :
    B.Permits label ↔ A.Permits label := by
  cases label with
  | symbol a => rw [Permits, Permits, halphabet]
  | epsilon => rw [Permits, Permits, hkind]

theorem isEpsilonFree_iff : A.IsEpsilonFree ↔ ∀ p q, ⟨p, .epsilon, q⟩ ∉ A.recent := by
  constructor
  · intro free p q ht
    exact Bool.noConfusion (free _ ht)
  · rintro hnone ⟨p, label, q⟩ ht
    cases label with
    | symbol a => rfl
    | epsilon => exact absurd ht (hnone p q)

variable [DecidableEq α]

@[simp] theorem mem_targets {p q : State} {label : Label α} :
    q ∈ A.targets p label ↔ ⟨p, label, q⟩ ∈ A.recent := by
  rw [targets, List.mem_filterMap]
  constructor
  · rintro ⟨⟨source, label', target⟩, ht, h⟩
    split at h
    · next hends =>
        obtain ⟨rfl, rfl⟩ := hends
        cases h
        exact ht
    · cases h
  · exact fun h => ⟨_, h, by simp⟩

theorem checkLabel_eq_ok {label : Label α} : A.checkLabel label = .ok () ↔ A.Permits label := by
  cases label with
  | symbol a => by_cases ha : a ∈ A.alphabet <;> simp [checkLabel, hasSymbol, Permits, ha]
  | epsilon => cases hkind : A.kind.allowsEpsilon <;> simp [checkLabel, Permits, hkind]

theorem addTransition_eq_ok {p q : State} {label : Label α} {isNew : Bool} :
    A.addTransition p label q = .ok (isNew, B) ↔
      (p < A.stateCount ∧ q < A.stateCount ∧ A.Permits label) ∧
        (⟨p, label, q⟩ ∈ A.recent ∧ isNew = false ∧ B = A ∨
          ⟨p, label, q⟩ ∉ A.recent ∧ isNew = true ∧
            B = { A with recent := ⟨p, label, q⟩ :: A.recent }) := by
  rw [addTransition, check_bind_eq_ok, check_bind_eq_ok, ← checkLabel_eq_ok, and_assoc, and_assoc]
  cases A.checkLabel label with
  | error refusal => simp [bind, Except.bind]
  | ok _ =>
      by_cases ht : ⟨p, label, q⟩ ∈ A.recent <;>
        simp [bind, Except.bind, pure, Except.pure, ht, @eq_comm _ B]

/-! ## Adding without a refusal -/

/-- The automaton with one more transition, if it does not have it already. -/
def plus (A : Automaton α) (t : Transition α) : Automaton α :=
  { A with recent := A.recent.insert t }

def plusAll (A : Automaton α) (ts : List (Transition α)) : Automaton α := ts.foldl plus A

theorem addTransition_eq_plus {t : Transition α}
    (h : t.source < A.stateCount ∧ t.target < A.stateCount ∧ A.Permits t.label) :
    A.addTransition t.source t.label t.target = .ok (decide (t ∉ A.recent), A.plus t) := by
  refine addTransition_eq_ok.2 ⟨h, ?_⟩
  by_cases ht : t ∈ A.recent
  · left
    simp [plus, ht]
  · right
    simp [plus, ht]

theorem frame_plusAll (A : Automaton α) (ts : List (Transition α)) :
    (A.plusAll ts).kind = A.kind ∧ (A.plusAll ts).alphabet = A.alphabet ∧
      (A.plusAll ts).start = A.start ∧ (A.plusAll ts).stateData = A.stateData := by
  induction ts generalizing A with
  | nil => exact ⟨rfl, rfl, rfl, rfl⟩
  | cons t ts ih => exact ih (A.plus t)

theorem plusAll_append (A : Automaton α) (ts us : List (Transition α)) :
    A.plusAll (ts ++ us) = (A.plusAll ts).plusAll us := List.foldl_append

theorem mem_recent_plusAll {ts : List (Transition α)} {t : Transition α} :
    t ∈ (A.plusAll ts).recent ↔ t ∈ ts ∨ t ∈ A.recent := by
  induction ts generalizing A with
  | nil => simp [plusAll]
  | cons u ts ih =>
      have hstep : t ∈ (A.plus u).recent ↔ t = u ∨ t ∈ A.recent := List.mem_insert_iff
      rw [plusAll, List.foldl_cons]
      exact ih.trans (by rw [hstep, List.mem_cons]; tauto)

theorem addTransitions_eq_plusAll {ts : List (Transition α)}
    (h : ∀ t ∈ ts, t.source < A.stateCount ∧ t.target < A.stateCount ∧ A.Permits t.label) :
    ∃ areNew, A.addTransitions ts = .ok (areNew, A.plusAll ts) := by
  induction ts generalizing A with
  | nil => exact ⟨[], rfl⟩
  | cons t ts ih =>
      obtain ⟨ht, hts⟩ := List.forall_mem_cons.1 h
      obtain ⟨areNew, hadd⟩ := ih (A := A.plus t) hts
      refine ⟨decide (t ∉ A.recent) :: areNew, ?_⟩
      rw [addTransitions_cons]
      exact bind_eq_ok.2 ⟨_, addTransition_eq_plus ht, bind_eq_ok.2 ⟨_, hadd, rfl⟩⟩

/-! ## Calls as data -/

section

variable {reply : Reply} {p q : State} {label : Label α}

omit [DecidableEq α] in
theorem edit_eq_done {x : Except (Refusal α) (Automaton α)} :
    (x >>= fun C => pure (Reply.done, C)) = .ok (reply, B) ↔ reply = .done ∧ x = .ok B := by
  rw [bind_eq_ok]
  constructor
  · rintro ⟨C, hC, heq⟩
    cases heq
    exact ⟨rfl, hC⟩
  · rintro ⟨rfl, hB⟩
    exact ⟨B, hB, rfl⟩

theorem edit_setStart_eq_ok :
    A.edit (.setStart q) = .ok (reply, B) ↔ reply = .done ∧ A.setStart q = .ok B := edit_eq_done

theorem edit_setAccepting_eq_ok {accepting : Bool} :
    A.edit (.setAccepting q accepting) = .ok (reply, B) ↔
      reply = .done ∧ A.setAccepting q accepting = .ok B := edit_eq_done

theorem edit_setName_eq_ok {name : String} :
    A.edit (.setName q name) = .ok (reply, B) ↔ reply = .done ∧ A.setName q name = .ok B :=
  edit_eq_done

theorem edit_addTransition_eq_ok :
    A.edit (.addTransition p label q) = .ok (reply, B) ↔
      ∃ isNew, reply = .isNew isNew ∧ A.addTransition p label q = .ok (isNew, B) := by
  rw [edit, bind_eq_ok]
  constructor
  · rintro ⟨⟨isNew, C⟩, hC, heq⟩
    cases heq
    exact ⟨isNew, rfl, hC⟩
  · rintro ⟨isNew, rfl, hB⟩
    exact ⟨(isNew, B), hB, rfl⟩

end

/-! ## Gaps and the sink -/

theorem mem_gaps {p : State} {a : α} :
    (p, a) ∈ A.gaps ↔
      p < A.stateCount ∧ a ∈ A.alphabet ∧ ∀ q, ⟨p, .symbol a, q⟩ ∉ A.recent := by
  simp only [gaps, List.mem_flatMap, List.mem_map, List.mem_filter, List.isEmpty_iff,
    List.eq_nil_iff_forall_not_mem, targets_moves, mem_targets, mem_states, Prod.mk.injEq]
  constructor
  · rintro ⟨p, hp, a, ha, rfl, rfl⟩
    exact ⟨hp, ha⟩
  · rintro ⟨hp, ha⟩
    exact ⟨p, hp, a, ha, rfl, rfl⟩

/-- Lists whose items show to which of them they belong have no item in common. -/
theorem nodup_flatMap_of_key {β γ κ : Type} {items : List β} {f : β → List γ} (tag : β → κ)
    (key : γ → κ) (hkey : ∀ b ∈ items, ∀ c ∈ f b, key c = tag b) (htags : (items.map tag).Nodup)
    (hlists : ∀ b ∈ items, (f b).Nodup) : (items.flatMap f).Nodup := by
  have hdistinct : items.Pairwise fun b b' => tag b ≠ tag b' := List.pairwise_map.1 htags
  refine List.nodup_flatMap.2 ⟨hlists, hdistinct.imp_of_mem fun hb hb' hne c hc hc' => ?_⟩
  exact hne ((hkey _ hb c hc).symm.trans (hkey _ hb' c hc'))

theorem nodup_gaps (h : A.alphabet.Nodup) : A.gaps.Nodup := by
  refine nodup_flatMap_of_key id Prod.fst ?_ ?_ ?_
  · intro p _ gap hgap
    obtain ⟨a, -, rfl⟩ := List.mem_map.1 hgap
    rfl
  · simpa [states] using List.nodup_range
  · exact fun p _ => (h.filter _).map fun a b hab => (Prod.mk.inj hab).2

/-- What completion adds besides the sink: the gaps routed to it, and its loops. -/
def sinkMoves (A : Automaton α) : List (Transition α) :=
  (A.gaps.map fun (p, a) => ⟨p, .symbol a, A.stateCount⟩) ++
    A.alphabet.map fun a => ⟨A.stateCount, .symbol a, A.stateCount⟩

theorem mem_sinkMoves {p q : State} {label : Label α} :
    ⟨p, label, q⟩ ∈ A.sinkMoves ↔
      q = A.stateCount ∧ ∃ a ∈ A.alphabet, label = .symbol a ∧
        (p = A.stateCount ∨ (p, a) ∈ A.gaps) := by
  simp only [sinkMoves, List.mem_append, List.mem_map, Transition.mk.injEq, Prod.exists]
  constructor
  · rintro (⟨p, a, hgap, rfl, rfl, rfl⟩ | ⟨a, ha, rfl, rfl, rfl⟩)
    · exact ⟨rfl, a, (mem_gaps.1 hgap).2.1, rfl, .inr hgap⟩
    · exact ⟨rfl, a, ha, rfl, .inl rfl⟩
  · rintro ⟨rfl, a, ha, rfl, rfl | hgap⟩
    · exact .inr ⟨a, ha, rfl, rfl, rfl⟩
    · exact .inl ⟨p, a, hgap, rfl, rfl, rfl⟩

theorem nodup_sinkMoves (h : A.alphabet.Nodup) : A.sinkMoves.Nodup := by
  refine List.nodup_append.2 ⟨(nodup_gaps h).map ?_, h.map ?_, ?_⟩
  · rintro ⟨p, a⟩ ⟨p', a'⟩ heq
    cases heq
    rfl
  · intro a b heq
    cases heq
    rfl
  · intro t hrouted u hloop heq
    obtain ⟨⟨p, a⟩, hgap, rfl⟩ := List.mem_map.1 hrouted
    obtain ⟨b, -, rfl⟩ := List.mem_map.1 hloop
    have hp : p = A.stateCount := congrArg Transition.source heq
    exact Nat.ne_of_lt (mem_gaps.1 hgap).1 hp

theorem complete_of_gaps_eq_nil (h : A.gaps = []) : A.complete = (none, A) := by
  simp [complete, h]

theorem complete_of_gaps_ne_nil (h : A.gaps ≠ []) :
    A.complete = (some A.stateCount,
      { A.addState ⟨false, none⟩ with recent := A.sinkMoves.reverse ++ A.recent }) := by
  rw [complete]
  split
  · contradiction
  · rfl

theorem frame_complete (A : Automaton α) :
    A.complete.2.kind = A.kind ∧ A.complete.2.alphabet = A.alphabet ∧
      A.complete.2.start = A.start := by
  by_cases hgaps : A.gaps = []
  · rw [complete_of_gaps_eq_nil hgaps]
    exact ⟨rfl, rfl, rfl⟩
  · rw [complete_of_gaps_ne_nil hgaps]
    exact ⟨rfl, rfl, rfl⟩

theorem recent_complete (hgaps : A.gaps ≠ []) :
    A.complete.2.recent = A.sinkMoves.reverse ++ A.recent := by
  rw [complete_of_gaps_ne_nil hgaps]

theorem stateCount_complete (hgaps : A.gaps ≠ []) :
    A.complete.2.stateCount = A.stateCount + 1 := by
  rw [complete_of_gaps_ne_nil hgaps]
  exact stateCount_addState

theorem isAcceptingState_complete (p : State) :
    A.complete.2.isAcceptingState p = A.isAcceptingState p := by
  by_cases hgaps : A.gaps = []
  · rw [complete_of_gaps_eq_nil hgaps]
  · rw [complete_of_gaps_ne_nil hgaps]
    refine (isAcceptingState_addState ⟨false, none⟩ p).trans ?_
    split
    · next hp =>
        -- The sink does not accept, as no unknown state does.
        rw [hp, isAcceptingState_stateCount]
    · rfl

end Acceptors.Automaton
