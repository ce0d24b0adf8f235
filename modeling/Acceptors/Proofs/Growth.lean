import Acceptors.Proofs.Histories
import Acceptors.Proofs.Paths

/-!
# Growth

A path stays a path when transitions are added, whatever cycles they close.  So a run of an
automaton that has grown keeps every state active that was active before, and no accepted word is
lost.  Calls that only touch what is stored for the states leave all runs as they were.
-/

namespace Acceptors.Automaton

variable {α : Type}

/-- The second automaton has the start, the transitions and the accepting states of the first. -/
structure GrowsTo (A B : Automaton α) : Prop where
  start_eq : B.start = A.start
  recent_subset : ∀ t ∈ A.recent, t ∈ B.recent
  accepting : ∀ q, A.isAcceptingState q → B.isAcceptingState q

/-- The two automata move alike, whatever is stored for their states. -/
structure MovesAlike (A B : Automaton α) : Prop where
  start_eq : B.start = A.start
  recent_eq : B.recent = A.recent

/-- The call takes nothing away: neither a start state nor an accepting flag. -/
def Edit.Adds : Edit α → Prop
  | .setStart _ => False
  | .setAccepting _ accepting => accepting = true
  | _ => True

/-- The call only touches what is stored for the states. -/
def Edit.OnStates : Edit α → Prop
  | .addState _ => True
  | .setAccepting _ _ => True
  | .setName _ _ => True
  | _ => False

variable {A B C : Automaton α} {start p q : State} {word : List α}

theorem GrowsTo.refl (A : Automaton α) : A.GrowsTo A := ⟨rfl, fun _ => id, fun _ => id⟩

theorem GrowsTo.trans (first : A.GrowsTo B) (second : B.GrowsTo C) : A.GrowsTo C where
  start_eq := second.start_eq.trans first.start_eq
  recent_subset t ht := second.recent_subset t (first.recent_subset t ht)
  accepting q hq := second.accepting q (first.accepting q hq)

theorem MovesAlike.refl (A : Automaton α) : A.MovesAlike A := ⟨rfl, rfl⟩

theorem MovesAlike.symm (alike : A.MovesAlike B) : B.MovesAlike A :=
  ⟨alike.start_eq.symm, alike.recent_eq.symm⟩

theorem MovesAlike.growsTo (alike : A.MovesAlike B)
    (hflags : ∀ q, A.isAcceptingState q → B.isAcceptingState q) : A.GrowsTo B where
  start_eq := alike.start_eq
  recent_subset t ht := by rwa [alike.recent_eq]
  accepting := hflags

theorem movesAlike_of_modifyState {f : StateData → StateData} (h : A.modifyState q f = .ok B) :
    A.MovesAlike B := by
  obtain ⟨-, -, hstart, hrecent, -⟩ := frame_modifyState h
  exact ⟨hstart, hrecent⟩

/-! ## Paths and runs -/

theorem Path.mono (h : ∀ t ∈ A.recent, t ∈ B.recent) {labels : List (Label α)}
    (path : A.Path p labels q) : B.Path p labels q := by
  induction path with
  | nil q => exact .nil q
  | cons step rest ih => exact .cons (mem_transitions.2 (h _ (mem_transitions.1 step))) ih

theorem Reads.mono (h : ∀ t ∈ A.recent, t ∈ B.recent) (reads : A.Reads p word q) :
    B.Reads p word q := by
  obtain ⟨labels, path, hspelled⟩ := reads
  exact ⟨labels, path.mono h, hspelled⟩

variable [DecidableEq α]

section

variable (wfA : A.WellFormed) (wfB : B.WellFormed) (hstart : A.start = some start)

include wfA wfB hstart

theorem GrowsTo.mem_after (grows : A.GrowsTo B) (h : q ∈ A.after start word) :
    q ∈ B.after start word := by
  have hB : B.start = some start := grows.start_eq.trans hstart
  rw [wfA.mem_after (wfA.start_lt start hstart)] at h
  rw [wfB.mem_after (wfB.start_lt start hB)]
  exact h.mono grows.recent_subset

theorem GrowsTo.run_subset (grows : A.GrowsTo B) (word : List α) :
    ∃ active later, A.run word = .ok active ∧ B.run word = .ok later ∧
      ∀ q ∈ active, q ∈ later := by
  have hB : B.start = some start := grows.start_eq.trans hstart
  refine ⟨_, _, run_of_start hstart word, run_of_start hB word, ?_⟩
  intro q hq
  exact grows.mem_after wfA wfB hstart hq

theorem GrowsTo.accepts (grows : A.GrowsTo B) (h : A.accepts word = .ok true) :
    B.accepts word = .ok true := by
  have hB : B.start = some start := grows.start_eq.trans hstart
  rw [accepts_of_start hstart, Except.ok.injEq, containsAccepting_iff] at h
  rw [accepts_of_start hB, Except.ok.injEq, containsAccepting_iff]
  obtain ⟨q, hq, haccepting⟩ := h
  exact ⟨q, grows.mem_after wfA wfB hstart hq, grows.accepting q haccepting⟩

theorem MovesAlike.after_eq (alike : A.MovesAlike B) (word : List α) :
    B.after start word = A.after start word := by
  have hB : B.start = some start := alike.start_eq.trans hstart
  apply StateSet.ext
  intro q
  rw [wfA.mem_after (wfA.start_lt start hstart), wfB.mem_after (wfB.start_lt start hB)]
  constructor
  · exact Reads.mono (by simp [alike.recent_eq])
  · exact Reads.mono (by simp [alike.recent_eq])

theorem MovesAlike.run_eq (alike : A.MovesAlike B) (word : List α) :
    B.run word = A.run word := by
  rw [run_of_start hstart, run_of_start (alike.start_eq.trans hstart),
    alike.after_eq wfA wfB hstart]

theorem MovesAlike.accepts_eq (alike : A.MovesAlike B)
    (hflags : ∀ q < A.stateCount, B.isAcceptingState q = A.isAcceptingState q)
    (word : List α) : B.accepts word = A.accepts word := by
  rw [accepts_of_start hstart, accepts_of_start (alike.start_eq.trans hstart),
    alike.after_eq wfA wfB hstart, Except.ok.injEq, Bool.eq_iff_iff, containsAccepting_iff,
    containsAccepting_iff]
  refine exists_congr fun q => and_congr_right fun hq => ?_
  rw [hflags q (wfA.lt_of_mem_after hq)]

end

/-! ## Calls -/

theorem perform_kept_or_edited (A : Automaton α) (e : Edit α) :
    (A.perform e).2 = A ∨ ∃ reply, A.edit e = .ok (reply, (A.perform e).2) := by
  rcases h : A.perform e with ⟨refusal | reply, B⟩
  · exact .inl (perform_eq_error_iff.1 h).2
  · exact .inr ⟨reply, perform_eq_ok_iff.1 h⟩

theorem movesAlike_edit {e : Edit α} {reply : Reply} (onStates : e.OnStates)
    (h : A.edit e = .ok (reply, B)) : A.MovesAlike B := by
  cases e with
  | addState data =>
      cases h
      exact ⟨rfl, rfl⟩
  | setAccepting q accepting =>
      exact movesAlike_of_modifyState (edit_setAccepting_eq_ok.1 h).2
  | setName q name => exact movesAlike_of_modifyState (edit_setName_eq_ok.1 h).2
  | setStart q => exact absurd onStates id
  | addTransition p label q => exact absurd onStates id
  | complete => exact absurd onStates id

theorem growsTo_complete (A : Automaton α) : A.GrowsTo A.complete.2 := by
  by_cases hgaps : A.gaps = []
  · rw [complete_of_gaps_eq_nil hgaps]
    exact .refl A
  · obtain ⟨-, -, hstart⟩ := A.frame_complete
    refine ⟨hstart, fun t ht => ?_, fun q hq => ?_⟩
    · rw [recent_complete hgaps]
      exact List.mem_append_right _ ht
    · rwa [isAcceptingState_complete]

theorem growsTo_edit {e : Edit α} {reply : Reply} (adds : e.Adds)
    (h : A.edit e = .ok (reply, B)) : A.GrowsTo B := by
  cases e with
  | addState data =>
      cases h
      refine ⟨rfl, fun _ => id, fun q hq => ?_⟩
      rw [isAcceptingState_addState, if_neg (lt_of_isAcceptingState hq).ne]
      exact hq
  | setStart q => exact absurd adds id
  | setAccepting q accepting =>
      have htrue : accepting = true := adds
      have hset := (edit_setAccepting_eq_ok.1 h).2
      apply (movesAlike_of_modifyState hset).growsTo
      intro p hp
      simp [isAcceptingState_setAccepting hset, htrue, hp]
  | setName q name =>
      have hnamed := (edit_setName_eq_ok.1 h).2
      apply (movesAlike_of_modifyState hnamed).growsTo
      intro p hp
      rwa [isAcceptingState_setName hnamed]
  | addTransition p label q =>
      obtain ⟨isNew, -, hadded⟩ := edit_addTransition_eq_ok.1 h
      obtain ⟨-, ⟨-, -, rfl⟩ | ⟨-, -, rfl⟩⟩ := addTransition_eq_ok.1 hadded
      · exact .refl _
      · exact ⟨rfl, fun t => List.mem_cons_of_mem _, fun _ => id⟩
  | complete =>
      cases h
      exact growsTo_complete A

/-! ## Calls that may be refused -/

theorem movesAlike_perform (A : Automaton α) (e : Edit α) (onStates : e.OnStates) :
    A.MovesAlike (A.perform e).2 := by
  rcases A.perform_kept_or_edited e with hkept | ⟨reply, hedit⟩
  · rw [hkept]
    exact .refl A
  · exact movesAlike_edit onStates hedit

theorem isAcceptingState_perform_setName (q : State) (name : String) (p : State) :
    (A.perform (.setName q name)).2.isAcceptingState p = A.isAcceptingState p := by
  rcases A.perform_kept_or_edited (.setName q name) with hkept | ⟨reply, hedit⟩
  · rw [hkept]
  · exact isAcceptingState_setName (edit_setName_eq_ok.1 hedit).2 p

/-- Seen backwards, a call that clears an accepting flag only adds. -/
theorem perform_clear_growsTo (q : State) : (A.perform (.setAccepting q false)).2.GrowsTo A := by
  apply (A.movesAlike_perform (.setAccepting q false) trivial).symm.growsTo
  intro p hp
  rcases A.perform_kept_or_edited (.setAccepting q false) with hkept | ⟨reply, hedit⟩
  · rwa [hkept] at hp
  · rw [isAcceptingState_setAccepting (edit_setAccepting_eq_ok.1 hedit).2] at hp
    split at hp
    · contradiction
    · exact hp

theorem growsTo_perform (A : Automaton α) (e : Edit α) (adds : e.Adds) :
    A.GrowsTo (A.perform e).2 := by
  rcases A.perform_kept_or_edited e with hkept | ⟨reply, hedit⟩
  · rw [hkept]
    exact .refl A
  · exact growsTo_edit adds hedit

theorem growsTo_performAll {edits : List (Edit α)} (adds : ∀ e ∈ edits, e.Adds) :
    A.GrowsTo (A.performAll edits) := by
  induction edits generalizing A with
  | nil => exact .refl A
  | cons e edits ih =>
      obtain ⟨hfirst, hrest⟩ := List.forall_mem_cons.1 adds
      exact (A.growsTo_perform e hfirst).trans (ih hrest)

/--
An added transition makes no active state inactive and loses no word, and neither does any history of
calls that take nothing away.  New states and names change nothing for words.  A new accepting state
loses no word, and clearing one gains none.
-/
theorem perform_monotone (built : A.Built) (hstart : A.start = some start) (word : List α) :
    (∀ p label q B, (A.perform (.addTransition p label q)).2 = B →
      (∃ active later, A.run word = .ok active ∧ B.run word = .ok later ∧
        ∀ r ∈ active, r ∈ later) ∧
      (A.accepts word = .ok true → B.accepts word = .ok true)) ∧
    (∀ data B, (A.perform (.addState data)).2 = B →
      B.run word = A.run word ∧ B.accepts word = A.accepts word) ∧
    (∀ q name B, (A.perform (.setName q name)).2 = B →
      B.run word = A.run word ∧ B.accepts word = A.accepts word) ∧
    (∀ q B, (A.perform (.setAccepting q true)).2 = B →
      B.run word = A.run word ∧ (A.accepts word = .ok true → B.accepts word = .ok true)) ∧
    (∀ q B, (A.perform (.setAccepting q false)).2 = B →
      B.run word = A.run word ∧ (B.accepts word = .ok true → A.accepts word = .ok true)) ∧
    (∀ edits B, (∀ e ∈ edits, e.Adds) → A.performAll edits = B →
      (∃ active later, A.run word = .ok active ∧ B.run word = .ok later ∧
        ∀ r ∈ active, r ∈ later) ∧
      (A.accepts word = .ok true → B.accepts word = .ok true)) := by
  have wf := built.wellFormed
  have hwf : ∀ e, (A.perform e).2.WellFormed := fun e => (built.perform e).wellFormed
  have hkept : ∀ e : Edit α, e.OnStates → (A.perform e).2.run word = A.run word := by
    intro e onStates
    exact (A.movesAlike_perform e onStates).run_eq wf (hwf e) hstart word
  refine ⟨?_, ?_, ?_, ?_, ?_, ?_⟩
  · rintro p label q _ rfl
    have grows := A.growsTo_perform (.addTransition p label q) trivial
    exact ⟨grows.run_subset wf (hwf _) hstart word, grows.accepts wf (hwf _) hstart⟩
  · rintro data _ rfl
    have alike := A.movesAlike_perform (.addState data) trivial
    refine ⟨hkept _ trivial, alike.accepts_eq wf (hwf _) hstart (fun q hq => ?_) word⟩
    exact (isAcceptingState_addState data q).trans (if_neg hq.ne)
  · rintro q name _ rfl
    have alike := A.movesAlike_perform (.setName q name) trivial
    refine ⟨hkept _ trivial, alike.accepts_eq wf (hwf _) hstart (fun p _ => ?_) word⟩
    exact isAcceptingState_perform_setName q name p
  · rintro q _ rfl
    have grows := A.growsTo_perform (.setAccepting q true) rfl
    exact ⟨hkept _ trivial, grows.accepts wf (hwf _) hstart⟩
  · rintro q _ rfl
    have hstart' : (A.perform (.setAccepting q false)).2.start = some start :=
      (A.movesAlike_perform (.setAccepting q false) trivial).start_eq.trans hstart
    exact ⟨hkept _ trivial, (perform_clear_growsTo q).accepts (hwf _) wf hstart'⟩
  · rintro edits _ adds rfl
    have grows := growsTo_performAll (A := A) adds
    have wfAll := (built.performAll edits).wellFormed
    exact ⟨grows.run_subset wf wfAll hstart word, grows.accepts wf wfAll hstart⟩

/-- The new epsilon transition makes the empty word accepted; a refused call is in the history. -/
theorem perform_monotone_epsilonCycle :
    epsilonCycle.Built ∧ epsilonCycle.start = some 0 ∧
      (∃ B, (epsilonCycle.perform (.addTransition 0 .epsilon 2)).2 = B ∧
        epsilonCycle.accepts [] = .ok false ∧ B.accepts [] = .ok true ∧
        epsilonCycle.accepts ['a'] = .ok true ∧ B.accepts ['a'] = .ok true) ∧
      (∃ B, epsilonCycle.performAll
          [.addTransition 0 .epsilon 2, .addTransition 7 .epsilon 0, .complete] = B ∧
        B.accepts ['a'] = .ok true) ∧
      ∃ B, (epsilonCycle.perform (.setAccepting 2 false)).2 = B ∧
        B.accepts ['a'] = .ok false ∧ B.run ['a'] = epsilonCycle.run ['a'] := by
  obtain ⟨hadded, -, -, -, hcleared, hall⟩ := perform_monotone built_epsilonCycle rfl ['a']
  obtain ⟨-, hkept⟩ := hadded 0 .epsilon 2 _ rfl
  obtain ⟨-, hkeptAll⟩ :=
    hall [.addTransition 0 .epsilon 2, .addTransition 7 .epsilon 0, .complete] _
      (by simp [Edit.Adds]) rfl
  obtain ⟨hrun, -⟩ := hcleared 2 _ rfl
  have haccepted : epsilonCycle.accepts ['a'] = .ok true := by decide
  exact ⟨built_epsilonCycle, rfl, ⟨_, rfl, by decide, by decide, haccepted, hkept haccepted⟩,
    ⟨_, rfl, hkeptAll haccepted⟩, _, rfl, by decide, hrun⟩

end Acceptors.Automaton
