import Acceptors.Toml.Strings

/-!
# Texts between quotes

A string is read in two steps.  `Enclosed` says of a raw text that the first step takes all of it
off the front of a text and stops at the quotes behind it.  `Means` says which characters the second
step makes of it.  Both are put together piece by piece.
-/

namespace Acceptors.Toml

/-! ## Items of a text -/

/-- The item reader takes these items off a text, each of them with at least one character. -/
inductive ReadsAs {β : Type} (item : Reader β) : List Char → List β → Prop where
  | nil : ReadsAs item [] []
  | cons {cs rest : List Char} {b : β} {bs : List β} (h : item cs = some (b, rest))
      (hlt : rest.length < cs.length) (hrest : ReadsAs item rest bs) : ReadsAs item cs (b :: bs)

theorem ReadsAs.readAllWithin {β : Type} {item : Reader β} {cs : List Char} {bs : List β}
    (h : ReadsAs item cs bs) {limit : Nat} (hlimit : cs.length ≤ limit) :
    readAllWithin item limit cs = some bs := by
  induction h generalizing limit with
  | nil => cases limit with | zero => rfl | succ limit => rfl
  | @cons cs rest b bs hitem hlt _ ih =>
      cases limit with
      | zero => omega
      | succ limit =>
          cases cs with
          | nil => simp at hlt
          | cons c cs =>
              have hrest : Toml.readAllWithin item limit rest = some bs := ih (by omega)
              simp [Toml.readAllWithin, hitem, hrest]

theorem ReadsAs.readAll {β : Type} {item : Reader β} {cs : List Char} {bs : List β}
    (h : ReadsAs item cs bs) : readAll item cs = some bs :=
  h.readAllWithin (Nat.le_refl _)

/-! ## Raw texts between quotes -/

/--
In the raw text at most `limit` quotes come in a row, `k` of them at its front, and its escapes are
whole.
-/
inductive Enclosed (q : Char) (escapes : Bool) (limit : Nat) : Nat → List Char → Prop where
  | nil {k : Nat} : Enclosed q escapes limit k []
  | quote {k : Nat} {raw : List Char} (h : Enclosed q escapes limit k raw) :
      Enclosed q escapes limit (k + 1) (q :: raw)
  | char {k : Nat} {c : Char} {raw : List Char} (hq : c ≠ q) (hc : escapes = true → c ≠ '\\')
      (h : Enclosed q escapes limit limit raw) : Enclosed q escapes limit k (c :: raw)
  | escape {k : Nat} {d : Char} {raw : List Char} (hescapes : escapes = true)
      (h : Enclosed q escapes limit limit raw) : Enclosed q escapes limit k ('\\' :: d :: raw)

section Enclosed

variable {q : Char} {escapes : Bool} {raw rest : List Char}

theorem untilQuote_cons {c : Char} {cs : List Char} (hcs : cs ≠ []) (hcq : c ≠ q)
    (hescape : ¬(escapes = true ∧ c = '\\')) :
    untilQuote q escapes (c :: cs) = (untilQuote q escapes cs).map (withFront [c]) := by
  cases cs with
  | nil => contradiction
  | cons d cs => rw [untilQuote, if_neg hcq, if_neg hescape]

theorem untilQuotes_cons {c : Char} {cs : List Char} (hcs : cs ≠ [])
    (hopen : ¬(c = q ∧ cs.take 2 = [q, q])) (hescape : ¬(escapes = true ∧ c = '\\')) :
    untilQuotes q escapes (c :: cs) = (untilQuotes q escapes cs).map (withFront [c]) := by
  cases cs with
  | nil => contradiction
  | cons d cs => rw [untilQuotes, if_neg hopen, if_neg hescape]

/-- The closing quotes come as soon as only quotes are left, at most two of which are text. -/
theorem untilQuotes_close (hrest : rest.head? ≠ some q) {n : Nat} (hn : n ≤ 2) :
    untilQuotes q escapes (List.replicate n q ++ q :: q :: q :: rest) =
      some (List.replicate n q, rest) := by
  have hstop : rest.takeWhile (· == q) = [] := by
    cases rest with
    | nil => rfl
    | cons c rest =>
        have hc : c ≠ q := by simpa using hrest
        simp [hc]
  match n, hn with
  | 0, _ => simp [untilQuotes, hstop]
  | 1, _ => simp [untilQuotes, hstop]
  | 2, _ => simp [untilQuotes, hstop]

theorem Enclosed.open_or_quotes {k : Nat} (h : Enclosed q escapes 2 k raw) (hk : k ≤ 1)
    (hq : q ≠ '\\') (text : List Char) :
    (raw ++ q :: text).take 2 ≠ [q, q] ∨ ∃ n ≤ 1, raw = List.replicate n q := by
  cases h with
  | nil => exact .inr ⟨0, by omega, rfl⟩
  | char hcq _ _ => simp [hcq]
  | escape _ _ => simp [Ne.symm hq]
  | quote h =>
      cases h with
      | nil => exact .inr ⟨1, by omega, rfl⟩
      | quote _ => omega
      | char hcq _ _ => simp [hcq]
      | escape _ _ => simp [Ne.symm hq]

variable (hq : q ≠ '\\')

include hq

theorem untilQuote_of_enclosed (h : Enclosed q escapes 0 0 raw) (rest : List Char) :
    untilQuote q escapes (raw ++ q :: rest) = some (raw, rest) := by
  have hclose : untilQuote q escapes (q :: rest) = some ([], rest) := by
    cases rest with
    | nil => simp [untilQuote]
    | cons d rest => simp [untilQuote]
  have hrun : ∀ k raw, Enclosed q escapes 0 k raw → k = 0 →
      untilQuote q escapes (raw ++ q :: rest) = some (raw, rest) := by
    intro k raw h
    induction h with
    | nil => exact fun _ => hclose
    | quote _ _ => intro hk; contradiction
    | @char k c raw hcq hc _ ih =>
        have hescape : ¬(escapes = true ∧ c = '\\') := fun h => hc h.1 h.2
        intro _
        rw [List.cons_append, untilQuote_cons (by simp) hcq hescape, ih rfl]
        rfl
    | @escape k d raw hescapes _ ih =>
        intro _
        rw [List.cons_append, List.cons_append, untilQuote, if_neg (Ne.symm hq),
          if_pos ⟨hescapes, rfl⟩, ih rfl]
        rfl
  exact hrun 0 raw h rfl

/-- Up to two quotes at the end of the raw text stand before the three that close it. -/
theorem untilQuotes_of_enclosed {k : Nat} (h : Enclosed q escapes 2 k raw) (hk : k ≤ 2)
    (hrest : rest.head? ≠ some q) :
    untilQuotes q escapes (raw ++ q :: q :: q :: rest) = some (raw, rest) := by
  induction h with
  | nil => exact untilQuotes_close hrest (Nat.zero_le 2)
  | @quote k raw h ih =>
      have hescape : ¬(escapes = true ∧ q = '\\') := fun h => hq h.2
      -- Two more quotes follow this one only if the raw text has nothing but quotes left.
      rcases h.open_or_quotes (by omega) hq (q :: q :: rest) with hopen | ⟨n, hn, rfl⟩
      · rw [List.cons_append, untilQuotes_cons (by simp) (fun h => hopen h.2) hescape,
          ih (by omega)]
        rfl
      · exact untilQuotes_close hrest (Nat.succ_le_succ hn)
  | @char k c raw hcq hc _ ih =>
      have hescape : ¬(escapes = true ∧ c = '\\') := fun h => hc h.1 h.2
      rw [List.cons_append, untilQuotes_cons (by simp) (fun h => hcq h.1) hescape,
        ih (Nat.le_refl 2)]
      rfl
  | @escape k d raw hescapes _ ih =>
      rw [List.cons_append, List.cons_append, untilQuotes, if_neg (fun h => hq h.1.symm),
        if_pos ⟨hescapes, rfl⟩, ih (Nat.le_refl 2)]
      rfl

end Enclosed

/-! ## What raw texts stand for -/

/-- The pieces of the raw text are these characters. -/
def Means (escapes lines : Bool) (raw cs : List Char) : Prop :=
  ∃ pieces, ReadsAs (rawPiece escapes lines) raw pieces ∧ pieces.flatten = cs

section Means

variable {escapes lines : Bool} {raw rest cs : List Char}

theorem Means.meaning (h : Means escapes lines raw cs) :
    meaning escapes lines raw = some (String.ofList cs) := by
  obtain ⟨pieces, hreads, rfl⟩ := h
  rw [Toml.meaning, hreads.readAll]
  rfl

theorem means_nil : Means escapes lines [] [] := ⟨[], .nil, rfl⟩

theorem Means.cons {front : List Char} (h : rawPiece escapes lines raw = some (front, rest))
    (hlt : rest.length < raw.length) (hrest : Means escapes lines rest cs) :
    Means escapes lines raw (front ++ cs) := by
  obtain ⟨pieces, hreads, rfl⟩ := hrest
  exact ⟨front :: pieces, .cons h hlt hreads, rfl⟩

theorem Means.text {c : Char} (hc : isText c = true) (hescape : escapes = true → c ≠ '\\')
    (h : Means escapes lines raw cs) : Means escapes lines (c :: raw) (c :: cs) := by
  have hne : ¬(escapes = true ∧ c = '\\') := fun h => hescape h.1 h.2
  have hpiece : rawPiece escapes lines (c :: raw) = some ([c], raw) := by
    simp only [rawPiece, if_neg hne, if_pos hc]
  exact h.cons hpiece (Nat.lt_succ_self _)

theorem Means.newline (h : Means escapes true raw cs) :
    Means escapes true ('\n' :: raw) ('\n' :: cs) := by
  have hpiece : rawPiece escapes true ('\n' :: raw) = some (['\n'], raw) := by
    simp [rawPiece, isText, newline?]
  exact h.cons hpiece (Nat.lt_succ_self _)

/-- Without escapes every character of a raw text stands for itself. -/
theorem means_literal (h : ∀ c ∈ cs, isText c = true ∨ lines = true ∧ c = '\n') :
    Means false lines cs cs := by
  induction cs with
  | nil => exact means_nil
  | cons c cs ih =>
      obtain ⟨hc, hcs⟩ := List.forall_mem_cons.1 h
      rcases hc with htext | ⟨rfl, rfl⟩
      · exact (ih hcs).text htext (by simp)
      · exact (ih hcs).newline

/-- No letter of an escape continues a line. -/
theorem Means.escaped {c d : Char} {tail : List Char}
    (hescaped : Toml.escaped (d :: tail) = some (c, raw)) (hlength : raw.length ≤ tail.length)
    (hd : isBlank d = false ∧ d ≠ '\n' ∧ d ≠ '\r') (h : Means true lines raw cs) :
    Means true lines ('\\' :: d :: tail) (c :: cs) := by
  have hline : newline? (skipBlanks (d :: tail)) = none := by
    simp [skipBlanks, hd.1, newline?, hd.2.1, hd.2.2]
  have hpiece : rawPiece true lines ('\\' :: d :: tail) = some ([c], raw) := by
    cases lines with
    | false => simp [rawPiece, hescaped]
    | true => simp [rawPiece, hline, hescaped]
  refine h.cons hpiece ?_
  simp only [List.length_cons]
  omega

end Means

/-! ## Strings -/

section Strings

variable {q : Char} {escapes : Bool} {raw rest cs : List Char}

theorem lineString_of_enclosed (hq : q ≠ '\\') (h : Enclosed q escapes 0 0 raw)
    (hmeans : Means escapes false raw cs) (rest : List Char) :
    lineString q escapes (raw ++ q :: rest) = some (String.ofList cs, rest) := by
  rw [lineString, untilQuote_of_enclosed hq h rest]
  simp [hmeans.meaning]

theorem newline?_cons {c : Char} (hnewline : c ≠ '\n') (hreturn : c ≠ '\r') (cs : List Char) :
    newline? (c :: cs) = none := by
  simp [newline?, hnewline, hreturn]

theorem linesString_of_enclosed (hq : q ≠ '\\') (h : Enclosed q escapes 2 2 raw)
    (hmeans : Means escapes true raw cs) (hrest : rest.head? ≠ some q) {text : List Char}
    (hbegin : (newline? text).getD text = raw ++ q :: q :: q :: rest) :
    linesString q escapes text = some (String.ofList cs, rest) := by
  rw [linesString, hbegin, untilQuotes_of_enclosed hq h (Nat.le_refl 2) hrest]
  simp [hmeans.meaning]

theorem Enclosed.take_two_ne (hq : q ≠ '\\') (h : Enclosed q escapes 0 0 raw)
    (hrest : rest.head? ≠ some q) : (raw ++ q :: rest).take 2 ≠ [q, q] := by
  cases h with
  | nil =>
      cases rest with
      | nil => simp
      | cons c rest => simpa using hrest
  | char hcq _ _ => simp [hcq]
  | escape _ _ => simp [Ne.symm hq]

/-- One quote begins a string on one line unless two more follow it. -/
theorem string_double {text : List Char} (h : text.take 2 ≠ ['"', '"']) :
    string ('"' :: text) = lineString '"' true text := by
  rw [string]
  rintro tail rfl
  exact h rfl

theorem string_single {text : List Char} (h : text.take 2 ≠ ['\'', '\'']) :
    string ('\'' :: text) = lineString '\'' false text := by
  rw [string]
  rintro tail rfl
  exact h rfl

end Strings

end Acceptors.Toml
