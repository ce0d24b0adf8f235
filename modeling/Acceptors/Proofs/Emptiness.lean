import Acceptors.Proofs.AcceptedWords
import Acceptors.Proofs.Paths

/-!
# Emptiness

A path that visits no state twice has fewer transitions than there are states.  So if an automaton
accepts any word, it accepts one with fewer symbols than it has states, and the accepted words up to
that length decide whether there are any.  The bound is one on states and not on sets of them: it is
paths that are cut short, and not runs.
-/

namespace Acceptors

/-- Goes along a transition, or stays where the transition does not begin. -/
def Transition.follow {α : Type} (p : State) (t : Transition α) : State :=
  if t.source = p then t.target else p

namespace Automaton

variable {α : Type} {A : Automaton α} {p q start : State}

theorem Path.exists_follow {labels : List (Label α)} (h : A.Path p labels q) :
    ∃ ts : List (Transition α), (∀ t ∈ ts, t ∈ A.recent) ∧ ts.foldl Transition.follow p = q := by
  induction h with
  | nil q => exact ⟨[], by simp, rfl⟩
  | @cons p q r label labels step rest ih =>
      obtain ⟨ts, hts, hend⟩ := ih
      refine ⟨⟨p, label, q⟩ :: ts, List.forall_mem_cons.2 ⟨mem_transitions.1 step, hts⟩, ?_⟩
      simpa [Transition.follow] using hend

theorem exists_reads_follow {ts : List (Transition α)} (hts : ∀ t ∈ ts, t ∈ A.recent)
    (p : State) :
    ∃ word : List α, word.length ≤ ts.length ∧ A.Reads p word (ts.foldl Transition.follow p) := by
  induction ts generalizing p with
  | nil => exact ⟨[], Nat.le_refl 0, reads_nil_iff.2 (.refl p)⟩
  | cons t ts ih =>
      obtain ⟨ht, hrest⟩ := List.forall_mem_cons.1 hts
      obtain ⟨word, hlength, hread⟩ := ih hrest (Transition.follow p t)
      rw [List.foldl_cons, List.length_cons]
      by_cases hsource : t.source = p
      · obtain ⟨_, label, q⟩ := t
        cases hsource
        simp only [Transition.follow, if_true] at hread ⊢
        cases label with
        | epsilon => exact ⟨word, by omega, hread.epsilon ht⟩
        | symbol a => exact ⟨a :: word, by simpa using hlength, hread.symbol ht⟩
      · rw [Transition.follow, if_neg hsource] at hread ⊢
        exact ⟨word, by omega, hread⟩

theorem WellFormed.foldl_follow_lt (wf : A.WellFormed) (hp : p < A.stateCount)
    {ts : List (Transition α)} (hts : ∀ t ∈ ts, t ∈ A.recent) :
    ts.foldl Transition.follow p < A.stateCount := by
  induction ts generalizing p with
  | nil => exact hp
  | cons t ts ih =>
      obtain ⟨ht, hrest⟩ := List.forall_mem_cons.1 hts
      apply ih _ hrest
      unfold Transition.follow
      split
      · exact wf.target_lt t ht
      · exact hp

theorem WellFormed.leadsToAtMost_states (wf : A.WellFormed) (hp : p < A.stateCount) :
    LeadsToAtMost A.recent Transition.follow p A.stateCount := by
  intro states hnodup hreached
  apply length_le_of_nodup_of_lt hnodup
  intro q hq
  obtain ⟨ts, hts, rfl⟩ := hreached q hq
  exact wf.foldl_follow_lt hp hts

/-- What can be read between two states can be read in fewer steps than there are states. -/
theorem WellFormed.exists_short_reads (wf : A.WellFormed) (hp : p < A.stateCount) {word : List α}
    (h : A.Reads p word q) : ∃ short : List α, short.length < A.stateCount ∧ A.Reads p short q := by
  obtain ⟨labels, path, -⟩ := h
  obtain ⟨ts, hts, rfl⟩ := path.exists_follow
  obtain ⟨shortest, hover, hlength, hsame⟩ :=
    Acceptors.exists_short_word (wf.leadsToAtMost_states hp) hts
  obtain ⟨short, hle, hread⟩ := exists_reads_follow hover p
  exact ⟨short, by omega, hsame ▸ hread⟩

variable [DecidableEq α]

theorem WellFormed.accepts_eq_true_iff (wf : A.WellFormed) (hstart : A.start = some start)
    {word : List α} :
    A.accepts word = .ok true ↔ ∃ q, A.Reads start word q ∧ A.isAcceptingState q := by
  rw [accepts_of_start hstart, Except.ok.injEq, containsAccepting_iff]
  simp only [wf.mem_after (wf.start_lt start hstart)]

theorem WellFormed.exists_short_accepted (wf : A.WellFormed) (hstart : A.start = some start)
    {word : List α} (h : A.accepts word = .ok true) :
    ∃ short : List α, short.length < A.stateCount ∧ A.accepts short = .ok true := by
  obtain ⟨q, hread, haccepting⟩ := (wf.accepts_eq_true_iff hstart).1 h
  obtain ⟨short, hlength, hshort⟩ := wf.exists_short_reads (wf.start_lt start hstart) hread
  exact ⟨short, hlength, (wf.accepts_eq_true_iff hstart).2 ⟨q, hshort, haccepting⟩⟩

/--
The accepted words of fewer symbols than there are states are enough to tell whether any word is
accepted at all.
-/
theorem acceptedWords_decide_emptiness (built : A.Built) (hstart : A.start = some start) :
    ∃ accepted, A.acceptedWords (A.stateCount - 1) = .ok accepted ∧
      ((∃ word, A.accepts word = .ok true) → accepted ≠ []) ∧
      (∀ word ∈ accepted, word.length ≤ A.stateCount - 1 ∧ A.accepts word = .ok true) ∧
      (accepted = [] → ∀ word, A.accepts word = .ok false) := by
  have wf := built.wellFormed
  have hok := acceptedWords_of_start hstart (A.stateCount - 1)
  have hnonempty : (∃ word, A.accepts word = .ok true) →
      ∃ short, short ∈ (A.words (A.stateCount - 1)).filter fun w => A.accepts w = .ok true := by
    rintro ⟨word, haccepted⟩
    obtain ⟨short, hlength, hshort⟩ := wf.exists_short_accepted hstart haccepted
    exact ⟨short, (wf.mem_acceptedWords hstart hok).2 ⟨by omega, hshort⟩⟩
  refine ⟨_, hok, ?_, ?_, ?_⟩
  · intro h
    obtain ⟨short, hshort⟩ := hnonempty h
    exact List.ne_nil_of_mem hshort
  · exact fun word hword => (wf.mem_acceptedWords hstart hok).1 hword
  · intro hempty word
    rw [accepts_of_start hstart, Except.ok.injEq]
    by_contra hne
    have haccepted : A.accepts word = .ok true := by
      rw [accepts_of_start hstart, Except.ok.injEq]
      exact Bool.of_not_eq_false hne
    obtain ⟨short, hshort⟩ := hnonempty ⟨word, haccepted⟩
    rw [hempty] at hshort
    exact List.not_mem_nil hshort

/-- A chain of three states with epsilons back to its first, of which the last state accepts. -/
def chain : Automaton Char where
  kind := .epsilonNondeterministic
  alphabet := ['a']
  start := some 0
  stateData := #[⟨false, none⟩, ⟨false, none⟩, ⟨true, none⟩]
  recent := [⟨2, .epsilon, 0⟩, ⟨1, .epsilon, 0⟩, ⟨1, .symbol 'a', 2⟩, ⟨0, .symbol 'a', 1⟩]

theorem built_chain : chain.Built := by
  have hedits : (empty .epsilonNondeterministic ['a']).editAll [.addState ⟨false, none⟩,
      .addState ⟨false, none⟩, .addState ⟨true, none⟩, .setStart 0,
      .addTransition 0 (.symbol 'a') 1, .addTransition 1 (.symbol 'a') 2,
      .addTransition 1 .epsilon 0, .addTransition 2 .epsilon 0] = .ok chain := by rfl
  exact (Built.empty _ _).editAll hedits

/-- The bound is the least one: one symbol less, and nothing is found. -/
theorem acceptedWords_decide_emptiness_chain :
    chain.Built ∧ chain.start = some 0 ∧ chain.accepts ['a', 'a', 'a', 'a'] = .ok true ∧
      chain.acceptedWords (chain.stateCount - 2) = .ok [] ∧
      ∃ accepted, chain.acceptedWords (chain.stateCount - 1) = .ok accepted ∧ accepted ≠ [] := by
  have hlong : chain.accepts ['a', 'a', 'a', 'a'] = .ok true := by decide
  obtain ⟨accepted, hok, hnonempty, -⟩ := acceptedWords_decide_emptiness built_chain rfl
  exact ⟨built_chain, rfl, hlong, by decide, accepted, hok, hnonempty ⟨_, hlong⟩⟩

end Automaton

end Acceptors
