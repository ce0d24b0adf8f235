import Acceptors.Proofs.Completion
import Acceptors.Proofs.DerivedStates

/-!
# Names of derived states

A derived state is named by its number or by the set that it stands for.  Sets are written with
commas between the names of their members, so that a set can be read back from its text as long as
no name holds a comma.
-/

namespace Acceptors

/-! ## Numbers and lists in text -/

theorem toString_injective : Function.Injective (toString : Nat → String) := by
  intro m n h
  have hdigits : Nat.toDigits 10 m = Nat.toDigits 10 n := by
    rw [← Nat.toList_repr, ← Nat.toList_repr]
    exact congrArg String.toList h
  have hread := congrArg (fun digits => Nat.ofDigitChars 10 digits 0) hdigits
  simpa only [Nat.ofDigitChars_ten_toDigits] using hread

theorem State.text_injective : Function.Injective State.text := fun p q h =>
  toString_injective (by simpa [State.text] using h)

theorem State.comma_not_mem_text (q : State) : ',' ∉ q.text.toList := by
  have hdigits : ',' ∉ (toString q).toList := by
    rw [Nat.toString_eq_repr, Nat.toList_repr]
    intro hmem
    have hdigit := Nat.isDigit_of_mem_toDigits (by decide) (by decide) hmem
    simp at hdigit
  simpa [State.text] using hdigits

/-- The blank after a comma is read as the beginning of the next item. -/
theorem intercalate_comma_blank (item : List Char) (items : List (List Char)) :
    [',', ' '].intercalate (item :: items) =
      [','].intercalate (item :: items.map fun rest => ' ' :: rest) := by
  induction items generalizing item with
  | nil => simp
  | cons next items ih =>
      rw [List.intercalate_cons_cons, ih next]
      cases items <;> simp [List.intercalate_cons_cons]

theorem splitOn_joined {item : List Char} {items : List (List Char)}
    (hplain : ∀ text ∈ item :: items, ',' ∉ text) :
    ([',', ' '].intercalate (item :: items)).splitOn ',' =
      item :: items.map fun rest => ' ' :: rest := by
  rw [intercalate_comma_blank]
  refine List.splitOn_intercalate ',' ?_ (by simp)
  simpa using hplain

theorem joined_injective {names names' : List String} (hne : names ≠ []) (hne' : names' ≠ [])
    (hplain : ∀ name ∈ names, ',' ∉ name.toList) (hplain' : ∀ name ∈ names', ',' ∉ name.toList)
    (h : ", ".intercalate names = ", ".intercalate names') : names = names' := by
  obtain ⟨first, rest, rfl⟩ := List.exists_cons_of_ne_nil hne
  obtain ⟨first', rest', rfl⟩ := List.exists_cons_of_ne_nil hne'
  have hsplit := congrArg (fun text => text.toList.splitOn ',') h
  simp only [String.toList_intercalate, List.map_cons] at hsplit
  rw [show ", ".toList = [',', ' '] from rfl, splitOn_joined (by simpa using hplain),
    splitOn_joined (by simpa using hplain'), List.cons.injEq] at hsplit
  have htexts : rest.map String.toList = rest'.map String.toList :=
    List.map_injective_iff.2 List.cons_injective hsplit.2
  rw [String.toList_inj.1 hsplit.1,
    List.map_injective_iff.2 (fun _ _ => String.toList_inj.1) htexts]

theorem StateSet.braced_cons_ne (name : String) (names : List String) :
    braced (name :: names) ≠ braced [] := by
  intro h
  -- The sign of the empty set does not begin with a brace.
  have hfirst := congrArg (fun text => text.toList.head?) h
  simp [braced] at hfirst

theorem StateSet.braced_injective {names names' : List String}
    (hplain : ∀ name ∈ names, ',' ∉ name.toList) (hplain' : ∀ name ∈ names', ',' ∉ name.toList)
    (h : braced names = braced names') : names = names' := by
  cases names with
  | nil =>
      cases names' with
      | nil => rfl
      | cons first' rest' => exact absurd h.symm (braced_cons_ne first' rest')
  | cons first rest =>
      cases names' with
      | nil => exact absurd h (braced_cons_ne first rest)
      | cons first' rest' =>
          apply joined_injective (by simp) (by simp) hplain hplain'
          simpa [braced] using h

/-! A name with a comma in it can make two sets look alike. -/

example : StateSet.braced ["a, b"] = StateSet.braced ["a", "b"] := by rfl

namespace Automaton

variable {α : Type} {A : Automaton α} {p q s : State}

/-! ## Names that tell sets apart -/

theorem stateName_of_name? {name : String} (h : A.name? q = some name) : A.stateName q = name := by
  rw [stateName, h, Option.getD_some]

theorem name?_setName {B : Automaton α} {name : String} (h : A.setName q name = .ok B) (p : State) :
    B.name? p = if p = q then some name else A.name? p := by
  have hq : q < A.stateData.size := (modifyState_eq_ok.1 h).1
  unfold name?
  rw [getElem?_stateData_of_modifyState h]
  by_cases hp : p = q
  · subst hp
    simp [hq]
  · rw [if_neg (Ne.symm hp), if_neg hp]

theorem lt_of_name? {name : String} (h : A.name? q = some name) : q < A.stateCount := by
  obtain ⟨data, hdata, -⟩ := Option.bind_eq_some_iff.1 h
  exact (Array.getElem?_eq_some_iff.1 hdata).1

/-- The search by name takes the first state of that name. -/
theorem stateNamed?_eq_some {name : String} (hs : A.name? s = some name)
    (honly : ∀ t, A.name? t = some name → t = s) : A.stateNamed? name = some s := by
  cases hfound : A.stateNamed? name with
  | none =>
      have hmissing := List.find?_eq_none.1 hfound s (mem_states.2 (lt_of_name? hs))
      simp [hs] at hmissing
  | some t =>
      have ht := List.find?_some hfound
      rw [honly t (by simpa using ht)]

/-- The states are shown under different names, and no name looks like a list of names. -/
structure HasPlainNames (A : Automaton α) : Prop where
  nodup : (A.states.map A.stateName).Nodup
  no_comma : ∀ q ∈ A.states, ',' ∉ (A.stateName q).toList

theorem hasPlainNames_of_unnamed (h : ∀ q ∈ A.states, A.name? q = none) : A.HasPlainNames := by
  have htext : ∀ q ∈ A.states, A.stateName q = q.text := by
    intro q hq
    rw [stateName, h q hq, Option.getD_none]
  constructor
  · rw [List.map_congr_left htext]
    exact List.nodup_range.map State.text_injective
  · intro q hq
    rw [htext q hq]
    exact q.comma_not_mem_text

namespace HasPlainNames

variable (plain : A.HasPlainNames)

include plain

theorem stateName_inj (hp : p < A.stateCount) (hq : q < A.stateCount)
    (h : A.stateName p = A.stateName q) : p = q :=
  List.inj_on_of_nodup_map plain.nodup (mem_states.2 hp) (mem_states.2 hq) h

section

variable {S T : StateSet} (hS : ∀ q ∈ S, q < A.stateCount)

include hS

theorem no_comma_of_mem {name : String} (h : name ∈ S.toList.map A.stateName) :
    ',' ∉ name.toList := by
  obtain ⟨q, hq, rfl⟩ := List.mem_map.1 h
  exact plain.no_comma q (mem_states.2 (hS q hq))

variable (hT : ∀ q ∈ T, q < A.stateCount)

include hT

theorem mem_of_map_stateName_eq (h : S.toList.map A.stateName = T.toList.map A.stateName)
    (hq : q ∈ S) : q ∈ T := by
  have hname : A.stateName q ∈ T.toList.map A.stateName := h ▸ List.mem_map_of_mem hq
  obtain ⟨p, hp, hpq⟩ := List.mem_map.1 hname
  exact plain.stateName_inj (hT p hp) (hS q hq) hpq ▸ hp

theorem describe_injective (h : A.describe S = A.describe T) : S = T := by
  have hnames := StateSet.braced_injective (fun name => plain.no_comma_of_mem hS)
    (fun name => plain.no_comma_of_mem hT) h
  apply StateSet.ext
  intro q
  constructor
  · exact plain.mem_of_map_stateName_eq hS hT hnames
  · exact plain.mem_of_map_stateName_eq hT hS hnames.symm

end

end HasPlainNames

/-- Names of the two kinds tell states apart that are told apart by their sets. -/
theorem eq_of_name_eq {naming : Naming} (hnames : naming = .numbered ∨ A.HasPlainNames)
    {S T : StateSet} (hS : ∀ q ∈ S, q < A.stateCount) (hT : ∀ q ∈ T, q < A.stateCount)
    (honly : S = T → p = q) (h : naming.name A p S = naming.name A q T) : p = q := by
  cases naming with
  | numbered => exact toString_injective (by simpa [Naming.name] using h)
  | sourceSets =>
      have plain := hnames.resolve_left (by decide)
      exact honly (plain.describe_injective hS hT h)

end Automaton

/-! ## Names in a determinization -/

/-- Every derived state has the name that its number or its label gives it. -/
def Determinized.IsNamedBy {α : Type} (d : Determinized α) (A : Automaton α) (naming : Naming) :
    Prop :=
  ∀ s S, d.label? s = some S → d.automaton.name? s = some (naming.name A s S)

namespace Automaton

variable {α : Type} [DecidableEq α] {A : Automaton α} {start q s : State} {naming : Naming}

theorem name?_complete (hs : s < A.stateCount) : A.complete.2.name? s = A.name? s := by
  by_cases hgaps : A.gaps = []
  · rw [complete_of_gaps_eq_nil hgaps]
  · rw [name?, name?, stateData_complete hgaps, Array.getElem?_push_lt hs,
      Array.getElem?_eq_getElem hs]

theorem isNamedBy_labelAutomaton (naming : Naming) (labels : List StateSet) :
    Determinized.IsNamedBy ⟨A.labelAutomaton naming labels, labels⟩ A naming := by
  intro s S hs
  rw [name?, getElem?_stateData_labelAutomaton hs]
  rfl

theorem isNamedBy_withSink {d e : Determinized α} (base : e.IsNamedBy A naming)
    (hcount : e.automaton.stateCount = e.labels.length) (h : A.withSink naming e = .ok d) :
    d.IsNamedBy A naming := by
  obtain ⟨-, rfl⟩ | ⟨-, hlabels, hnamed⟩ := withSink_eq_ok.1 h
  · exact base
  · intro s S hs
    rw [Determinized.label?, hlabels, getElem?_concat_eq_some] at hs
    rw [name?_setName hnamed]
    rcases hs with hs | ⟨rfl, rfl⟩
    · have hlt : s < e.automaton.stateCount := hcount ▸ (List.getElem?_eq_some_iff.1 hs).1
      rw [if_neg hlt.ne, name?_complete hlt, base s S hs]
    · rw [hcount, if_pos rfl]

section

variable {complete : Bool} {d : Determinized α} (hstart : A.start = some start)
  (h : A.determinize complete naming = .ok d)

include hstart h

theorem isNamedBy_determinize : d.IsNamedBy A naming := by
  have base := isNamedBy_labelAutomaton (A := A) naming (A.reachedSets start)
  rcases determinize_cases hstart h with ⟨-, rfl⟩ | ⟨-, hsink⟩
  · exact base
  · exact isNamedBy_withSink base (stateCount_labelAutomaton naming _) hsink

theorem WellFormed.eq_of_name?_eq (wf : A.WellFormed)
    (hnames : naming = .numbered ∨ A.HasPlainNames) {s t : State} {name : String}
    (hs : d.automaton.name? s = some name) (ht : d.automaton.name? t = some name) : s = t := by
  have follows := wf.follows_determinize hstart h
  have named := isNamedBy_determinize hstart h
  obtain ⟨S, hS⟩ := follows.exists_label (lt_of_name? hs)
  obtain ⟨T, hT⟩ := follows.exists_label (lt_of_name? ht)
  have hmembers : ∀ {p U}, d.label? p = some U → ∀ q ∈ U, q < A.stateCount :=
    fun hU => wf.lt_of_leadsTo (wf.leadsTo_of_label hstart h hU)
  refine eq_of_name_eq hnames (hmembers hS) (hmembers hT) ?_ ?_
  · rintro rfl
    exact follows.label?_inj hS hT
  · rw [named s S hS] at hs
    rw [named t T hT] at ht
    exact Option.some.inj (hs.trans ht.symm)

end

/--
With numbers for names, or with names in the source that tell its states apart and hold no comma,
each derived state is found again by its name.  The sink is named like the other states.
-/
theorem determinize_names_unique (built : A.Built) (hstart : A.start = some start)
    (complete : Bool) (naming : Naming)
    (hnames : naming = .numbered ∨ A.HasPlainNames ∨ ∀ q ∈ A.states, A.name? q = none) :
    ∃ d, A.determinize complete naming = .ok d ∧
      (d.automaton.states.map d.automaton.stateName).Nodup ∧
      (∀ s ∈ d.automaton.states,
        d.automaton.stateNamed? (d.automaton.stateName s) = some s) ∧
      ∀ sink, d.sink? = some sink → sink ∈ d.automaton.states ∧
        d.automaton.stateName sink = naming.name A sink ∅ ∧
        d.automaton.stateNamed? (naming.name A sink ∅) = some sink := by
  have wf := built.wellFormed
  obtain ⟨d, hd⟩ := exists_determinize hstart complete naming
  have follows := wf.follows_determinize hstart hd
  have named := isNamedBy_determinize hstart hd
  have hplain : naming = .numbered ∨ A.HasPlainNames :=
    hnames.imp_right fun h => h.elim id hasPlainNames_of_unnamed
  have hname : ∀ s ∈ d.automaton.states,
      d.automaton.name? s = some (d.automaton.stateName s) := by
    intro s hs
    obtain ⟨S, hS⟩ := follows.exists_label (mem_states.1 hs)
    rw [stateName_of_name? (named s S hS), named s S hS]
  have hfound : ∀ s ∈ d.automaton.states,
      d.automaton.stateNamed? (d.automaton.stateName s) = some s := by
    intro s hs
    exact stateNamed?_eq_some (hname s hs)
      fun t ht => wf.eq_of_name?_eq hstart hd hplain ht (hname s hs)
  refine ⟨d, hd, ?_, hfound, fun sink hsink => ?_⟩
  · refine List.nodup_range.map_on fun s hs t ht heq => ?_
    exact wf.eq_of_name?_eq hstart hd hplain (hname s hs) (heq ▸ hname t ht)
  · have hsinkName := named sink ∅ (follows.stateFor?_eq_some.1 hsink)
    have hmem : sink ∈ d.automaton.states := mem_states.2 (lt_of_name? hsinkName)
    have heq := stateName_of_name? hsinkName
    exact ⟨hmem, heq, heq ▸ hfound sink hmem⟩

/-- `epsilonCycle` with names, one of them the sign of the empty set. -/
def namedCycle : Automaton Char :=
  { epsilonCycle with
    stateData := #[⟨false, some "start"⟩, ⟨false, some "∅"⟩, ⟨true, some "end"⟩] }

theorem built_namedCycle : namedCycle.Built := by
  have hedits : epsilonCycle.editAll [.setName 0 "start", .setName 1 "∅", .setName 2 "end"] =
      .ok namedCycle := by
    rfl
  exact built_epsilonCycle.editAll hedits

/-- A state with the sign of the empty set for its name is not taken for the sink. -/
theorem determinize_names_unique_namedCycle :
    namedCycle.Built ∧ namedCycle.start = some 0 ∧ namedCycle.HasPlainNames ∧
      (∀ q ∈ epsilonCycle.states, epsilonCycle.name? q = none) ∧
      (∃ d, epsilonCycle.determinize false .sourceSets = .ok d ∧
        (d.automaton.states.map d.automaton.stateName).Nodup) ∧
      ∃ d, namedCycle.determinize true .sourceSets = .ok d ∧
        (d.automaton.states.map d.automaton.stateName).Nodup ∧
        d.sink?.isSome ∧ d.automaton.stateNamed? "∅" = d.sink? := by
  have plain : namedCycle.HasPlainNames := ⟨by decide, by decide⟩
  have unnamed : ∀ q ∈ epsilonCycle.states, epsilonCycle.name? q = none := by decide
  obtain ⟨d, hd, hunnamed, -⟩ := determinize_names_unique built_epsilonCycle rfl false .sourceSets
    (.inr (.inr unnamed))
  obtain ⟨e, he, hnodup, -, hsink⟩ := determinize_names_unique built_namedCycle rfl true .sourceSets
    (.inr (.inl plain))
  have hdead : namedCycle.LeadsTo 0 ∅ :=
    (leadsTo_iff_run rfl).2 ⟨['b'], by simp [namedCycle, epsilonCycle], by decide⟩
  have hsome : e.sink?.isSome :=
    (built_namedCycle.wellFormed.isSome_sink?_iff rfl he).2 ⟨rfl, hdead⟩
  obtain ⟨sink, hfound⟩ := Option.isSome_iff_exists.1 hsome
  obtain ⟨-, -, hname⟩ := hsink sink hfound
  exact ⟨built_namedCycle, rfl, plain, unnamed, ⟨d, hd, hunnamed⟩, e, he, hnodup, hsome,
    hname.trans hfound.symm⟩

end Automaton

end Acceptors
