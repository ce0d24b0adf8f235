import Acceptors.Conversions
import Acceptors.Proofs.Search

/-!
# Frontiers

A determinization by calls looks up a label in a table and puts every new one on a list and on a
queue.  `Frontier.Tracks` relates these to the lists of the search that `reachedSets` performs: the
same labels are found, in the same order.
-/

namespace Acceptors

section Positions

variable {β : Type} [DecidableEq β] {items later : List β} {b c : β} {n : Nat}

theorem idxOf?_concat (hb : b ∉ items) :
    (items ++ [b]).idxOf? c = if b = c then some items.length else items.idxOf? c := by
  unfold List.idxOf?
  rw [List.findIdx?_append]
  by_cases hc : b = c
  · subst hc
    have hnone : items.findIdx? (· == b) = none := by
      simp
      exact fun d hd heq => hb (heq ▸ hd)
    simp [hnone]
  · simp [hc]

theorem idxOf?_mono (hbegins : items <+: later) (h : items.idxOf? b = some n) :
    later.idxOf? b = some n := by
  obtain ⟨more, rfl⟩ := hbegins
  unfold List.idxOf? at *
  simp [List.findIdx?_append, h]

end Positions

namespace Frontier

variable {f : Frontier} {s t : StateSet}

/-- The table holds the positions of the labels. -/
def Indexed (f : Frontier) : Prop := ∀ s, f.stateOf[s]? = f.labels.idxOf? s

/-- A set that is not empty and not known becomes a label that waits to be expanded. -/
def discover (f : Frontier) (t : StateSet) : Frontier :=
  if t.isEmpty ∨ t ∈ f.labels then f else f.add t f.labels.length

theorem discover_of_known (h : t.isEmpty ∨ t ∈ f.labels) : f.discover t = f := if_pos h

theorem discover_of_new (h : ¬ (t.isEmpty ∨ t ∈ f.labels)) :
    f.discover t = f.add t f.labels.length := if_neg h

theorem Indexed.add (hf : f.Indexed) (ht : t ∉ f.labels) : (f.add t f.labels.length).Indexed := by
  intro s
  simp [Frontier.add, Std.TreeMap.getElem?_insert, idxOf?_concat ht, hf s]

theorem Indexed.discover (hf : f.Indexed) (t : StateSet) : (f.discover t).Indexed := by
  by_cases h : t.isEmpty ∨ t ∈ f.labels
  · rw [discover_of_known h]
    exact hf
  · rw [discover_of_new h]
    exact hf.add fun ht => h (.inr ht)

theorem Indexed.foldl_discover (hf : f.Indexed) (sets : List StateSet) :
    (sets.foldl Frontier.discover f).Indexed := by
  induction sets generalizing f with
  | nil => exact hf
  | cons t sets ih => exact ih (hf.discover t)

/-- The sets that become labels, each of them once. -/
def fresh (f : Frontier) (sets : List StateSet) : List StateSet :=
  ((sets.filter fun t => !t.isEmpty).filter fun t => t ∉ f.labels).eraseDups

theorem fresh_cons_of_known (h : t.isEmpty ∨ t ∈ f.labels) (sets : List StateSet) :
    f.fresh (t :: sets) = f.fresh sets := by
  unfold fresh
  rcases h with hempty | hknown
  · simp [hempty]
  · by_cases hempty : t.isEmpty <;> simp [hempty, hknown]

theorem fresh_cons_of_new (h : ¬ (t.isEmpty ∨ t ∈ f.labels)) (sets : List StateSet) :
    f.fresh (t :: sets) = t :: (f.add t f.labels.length).fresh sets := by
  obtain ⟨hne, hnew⟩ := not_or.1 h
  unfold fresh
  rw [List.filter_cons_of_pos (by simp [Bool.eq_false_iff.2 hne]),
    List.filter_cons_of_pos (by simpa using hnew), List.eraseDups_cons, List.filter_filter]
  simp [add, and_comm, Bool.beq_eq_decide_eq]

theorem foldl_discover (f : Frontier) (sets : List StateSet) :
    (sets.foldl discover f).labels = f.labels ++ f.fresh sets ∧
      (sets.foldl discover f).waiting =
        f.waiting ++ (f.fresh sets).zipIdx f.labels.length := by
  induction sets generalizing f with
  | nil => simp [fresh]
  | cons t sets ih =>
      rw [List.foldl_cons, (ih _).1, (ih _).2]
      by_cases h : t.isEmpty ∨ t ∈ f.labels
      · rw [discover_of_known h, fresh_cons_of_known h]
        exact ⟨rfl, rfl⟩
      · rw [discover_of_new h, fresh_cons_of_new h]
        simp [add]

theorem labels_le_foldl (f : Frontier) (sets : List StateSet) :
    f.labels <+: (sets.foldl discover f).labels :=
  ⟨_, (f.foldl_discover sets).1.symm⟩

/-- The frontier has the labels that a search found, and those wait that it did not expand. -/
structure Tracks (f : Frontier) (s : Search StateSet) : Prop where
  labels_eq : f.labels = s.found
  waiting_eq : f.waiting = s.queue.zipIdx s.expanded.length
  indexed : f.Indexed

theorem tracks_start (c : StateSet) : (empty.add c 0).Tracks (Search.start [c]) where
  labels_eq := by
    simp [empty, add, Search.start, Search.found, List.eraseDups_cons]
  waiting_eq := by simp [empty, add, Search.start, List.eraseDups_cons]
  indexed := by
    have hempty : empty.Indexed := by simp [Indexed, empty]
    exact hempty.add (by simp [empty])

theorem Tracks.pop {expanded waiting : List StateSet} (tracks : f.Tracks ⟨expanded, s :: waiting⟩) :
    Tracks { f with waiting := waiting.zipIdx (expanded.length + 1) } ⟨s :: expanded, waiting⟩ where
  labels_eq := by simp [tracks.labels_eq, Search.found]
  waiting_eq := rfl
  indexed := tracks.indexed

end Frontier

namespace Automaton

variable {α : Type} [DecidableEq α] {A : Automaton α} {s : StateSet} {f : Frontier}
  {expanded waiting : List StateSet}

/-- The frontier after the moves of one label. -/
def discoverUnder (A : Automaton α) (s : StateSet) (f : Frontier) (symbols : List α) : Frontier :=
  (symbols.map (A.advance s)).foldl Frontier.discover f

theorem tracks_step (tracks : f.Tracks ⟨s :: expanded, waiting⟩) :
    (A.discoverUnder s f A.alphabet).Tracks
      (Search.step ⟨expanded, s :: waiting⟩ (A.successors A.moves)) := by
  have hfresh : f.fresh (A.alphabet.map (A.advance s)) =
      Search.fresh ⟨expanded, s :: waiting⟩ (A.successors A.moves) s := by
    have hnext : A.successors A.moves s =
        (A.alphabet.map (A.advance s)).filter fun t => !t.isEmpty := rfl
    unfold Frontier.fresh Search.fresh
    rw [hnext, tracks.labels_eq]
    simp [Search.found]
  obtain ⟨hlabels, hwaiting⟩ := f.foldl_discover (A.alphabet.map (A.advance s))
  rw [hfresh] at hlabels hwaiting
  constructor
  · rw [Search.found_step rfl]
    simpa [discoverUnder, tracks.labels_eq, Search.found] using hlabels
  · have hlength : expanded.length + 1 + waiting.length = f.labels.length := by
      simp [tracks.labels_eq, Search.length_found]
    simp [Search.step, List.zipIdx_append, hlength]
    rw [tracks.waiting_eq] at hwaiting
    exact hwaiting
  · exact tracks.indexed.foldl_discover _

end Automaton

end Acceptors
