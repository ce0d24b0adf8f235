import Acceptors.Proofs.Built

/-!
# Outcomes of random draws

`Always` says of a draw that it succeeds from every source and that what it gives has a property.
It has one rule for each way in which draws are put together.  The other half of a random automaton
is its construction: whatever was drawn between its states and under permitted labels is accepted,
and the transitions are those that came true.
-/

namespace Acceptors

namespace Random

/-- From every source the draw succeeds, and what it gives has the property. -/
def Always {σ β : Type} (x : Draw σ β) (P : β → Prop) : Prop :=
  ∀ s, ∃ b s', x.run s = .ok (b, s') ∧ P b

section

variable {σ β γ : Type} {x : Draw σ β} {P Q : β → Prop}

theorem Always.imp (h : Always x P) (hPQ : ∀ b, P b → Q b) : Always x Q := by
  intro s
  obtain ⟨b, s', hx, hb⟩ := h s
  exact ⟨b, s', hx, hPQ b hb⟩

theorem always_pure {b : β} (h : P b) : Always (pure b : Draw σ β) P :=
  fun s => ⟨b, s, rfl, h⟩

theorem run_bind_eq_ok {f : β → Draw σ γ} {s : σ} {c : γ × σ} :
    (x >>= f).run s = .ok c ↔ ∃ b s', x.run s = .ok (b, s') ∧ (f b).run s' = .ok c := by
  rw [StateT.run_bind, Automaton.bind_eq_ok, Prod.exists]

theorem always_bind {f : β → Draw σ γ} {R : γ → Prop} (h : Always x fun b => Always (f b) R) :
    Always (x >>= f) R := by
  intro s
  obtain ⟨b, s', hx, hf⟩ := h s
  obtain ⟨c, s'', hb, hc⟩ := hf s'
  exact ⟨c, s'', run_bind_eq_ok.2 ⟨b, s', hx, hb⟩, hc⟩

theorem always_mapM {f : β → Draw σ γ} {R : β → γ → Prop} (h : ∀ b, Always (f b) (R b))
    (items : List β) : Always (items.mapM f) (List.Forall₂ R items) := by
  induction items with
  | nil => exact always_pure .nil
  | cons b items ih =>
      rw [List.mapM_cons]
      refine always_bind ((h b).imp fun c hc => always_bind (ih.imp fun cs hcs => ?_))
      exact always_pure (.cons hc hcs)

end

/-! ## Single draws -/

section

variable {σ : Type}

theorem always_reserve {count width : Nat} (h : Capacity.fits count width) :
    Always (reserve count width : Draw σ Unit) fun _ => True := by
  rw [reserve, if_pos h]
  exact always_pure trivial

variable [Source σ]

theorem always_flip {p : Option Probability} (hp : p.isSome) :
    Always (flip p : Draw σ Bool) fun _ => True := by
  obtain ⟨p, rfl⟩ := Option.isSome_iff_exists.1 hp
  exact fun s => ⟨_, _, rfl, trivial⟩

theorem always_below {n : Nat} (h : 0 < n) : Always (below n h : Draw σ (Fin n)) fun _ => True :=
  fun _ => ⟨_, _, rfl, trivial⟩

theorem always_flips {p : Option Probability} (hp : p.isSome) (count : Nat) :
    Always (flips p count : Draw σ (List Bool)) fun flags => flags.length = count := by
  obtain ⟨p, rfl⟩ := Option.isSome_iff_exists.1 hp
  refine (always_mapM (fun _ => always_flip rfl) _).imp fun flags hflags => ?_
  simpa using hflags.length_eq.symm

end

/-! ## The frame -/

section

open Automaton

variable {α : Type} {o : Options α}

/-- The transitions whose trials came true. -/
def cameTrue (trials : List (Transition α × Bool)) : List (Transition α) :=
  (trials.filter (·.2)).map (·.1)

theorem mem_cameTrue {trials : List (Transition α × Bool)} {t : Transition α} :
    t ∈ cameTrue trials ↔ (t, true) ∈ trials := by
  simp [cameTrue]

theorem cameTrue_append (trials trials' : List (Transition α × Bool)) :
    cameTrue (trials ++ trials') = cameTrue trials ++ cameTrue trials' := by
  simp [cameTrue]

/-- The automaton of the drawn states, without a start. -/
def Options.withStates (o : Options α) [DecidableEq α] (accepting : List Bool) : Automaton α :=
  (Automaton.empty o.kind o.alphabet).addStates (accepting.map fun b => ⟨b, none⟩)

/-- The automaton before its first transition. -/
def Options.started (o : Options α) [DecidableEq α] (accepting : List Bool) : Automaton α :=
  if o.stateCount = 0 then o.withStates accepting
  else { o.withStates accepting with start := some 0 }

/-- The transition has its ends among the states, and its label is permitted. -/
def Options.Admits (o : Options α) [DecidableEq α] (t : Transition α) : Prop :=
  (t.source < o.stateCount ∧ t.target < o.stateCount) ∧
    (Automaton.empty o.kind o.alphabet).Permits t.label

variable [DecidableEq α]

/-- The automaton has the kind, the alphabet and the number of states that are asked for. -/
structure Options.Frames (o : Options α) (A : Automaton α) : Prop where
  kind : A.kind = o.kind
  alphabet : A.alphabet = (Automaton.empty o.kind o.alphabet).alphabet
  stateCount : A.stateCount = o.stateCount

theorem Options.Frames.plusAll {A : Automaton α} (frames : o.Frames A) (ts : List (Transition α)) :
    o.Frames (A.plusAll ts) := by
  obtain ⟨hkind, halphabet, -, hdata⟩ := A.frame_plusAll ts
  refine ⟨hkind.trans frames.kind, halphabet.trans frames.alphabet, ?_⟩
  rw [Automaton.stateCount, hdata]
  exact frames.stateCount

theorem Options.Frames.admitted {A : Automaton α} (frames : o.Frames A) {t : Transition α}
    (ht : o.Admits t) : t.source < A.stateCount ∧ t.target < A.stateCount ∧ A.Permits t.label := by
  rw [frames.stateCount]
  exact ⟨ht.1.1, ht.1.2, (permits_congr frames.kind frames.alphabet _).2 ht.2⟩

theorem recent_started (accepting : List Bool) : (o.started accepting).recent = [] := by
  obtain ⟨-, -, -, hrecent, -⟩ :=
    frame_addStates (A := Automaton.empty o.kind o.alphabet) (accepting.map fun b => ⟨b, none⟩)
  unfold Options.started
  split
  · exact hrecent
  · exact hrecent

variable {accepting : List Bool} (hlength : accepting.length = o.stateCount)

include hlength

theorem frames_withStates : o.Frames (o.withStates accepting) := by
  obtain ⟨hkind, halphabet, -, -, hcount⟩ :=
    frame_addStates (A := Automaton.empty o.kind o.alphabet) (accepting.map fun b => ⟨b, none⟩)
  refine ⟨hkind, halphabet, hcount.trans ?_⟩
  rw [List.length_map, hlength]
  exact Nat.zero_add _

theorem frames_started : o.Frames (o.started accepting) := by
  have frames := frames_withStates hlength
  unfold Options.started
  split
  · exact frames
  · exact ⟨frames.kind, frames.alphabet, frames.stateCount⟩

theorem setStart_withStates (hsome : o.stateCount ≠ 0) :
    (o.withStates accepting).setStart 0 = .ok (o.started accepting) := by
  rw [setStart_eq_ok, Options.started, if_neg hsome]
  exact ⟨(frames_withStates hlength).stateCount ▸ Nat.pos_of_ne_zero hsome, rfl⟩

end

/-! ## Building from an outcome -/

namespace Outcome

open Automaton

variable {α : Type} {o : Options α} {r : Outcome α}

/-- The transitions that came true, in the order of their trials. -/
def kept (r : Outcome α) : List (Transition α) := (r.trials.filter (·.2)).map (·.1)

theorem mem_kept {t : Transition α} : t ∈ r.kept ↔ (t, true) ∈ r.trials := mem_cameTrue

variable [DecidableEq α]

/-- The transitions are added to the drawn states, if a call would accept each. -/
theorem build_eq (hlength : r.accepting.length = o.stateCount)
    (hadmits : ∀ t ∈ cameTrue r.trials, o.Admits t) :
    r.build o = .ok ((o.started r.accepting).plusAll (cameTrue r.trials)) := by
  unfold build
  rw [← Options.withStates]
  by_cases hnone : o.stateCount = 0
  · have hempty : cameTrue r.trials = [] := by
      refine List.eq_nil_iff_forall_not_mem.2 fun t ht => ?_
      exact Nat.not_lt_zero _ (hnone ▸ (hadmits t ht).1.1)
    rw [if_pos hnone, hempty, Options.started, if_pos hnone]
    rfl
  · have hadmitted : ∀ t ∈ cameTrue r.trials, t.source < (o.started r.accepting).stateCount ∧
        t.target < (o.started r.accepting).stateCount ∧
          (o.started r.accepting).Permits t.label :=
      fun t ht => (frames_started hlength).admitted (hadmits t ht)
    obtain ⟨areNew, hadd⟩ := addTransitions_eq_plusAll hadmitted
    rw [if_neg hnone, setStart_withStates hlength hnone]
    exact bind_eq_ok.2 ⟨_, rfl, bind_eq_ok.2 ⟨_, hadd, rfl⟩⟩

/-- The transitions of the automaton are those that came true, if a call would accept each. -/
theorem exists_build (hlength : r.accepting.length = o.stateCount)
    (hkept : ∀ t ∈ r.kept, o.Admits t) :
    ∃ A, r.build o = .ok A ∧ ∀ t, t ∈ A.recent ↔ t ∈ r.kept := by
  refine ⟨_, build_eq hlength hkept, fun t => ?_⟩
  rw [mem_recent_plusAll, recent_started]
  exact or_iff_left List.not_mem_nil

end Outcome

end Random

end Acceptors
