import Acceptors.Proofs.QuotedTexts
import Acceptors.Toml.Quote
import Mathlib.Tactic.SplitIfs

/-!
# Written strings are read back

Whatever form a string is written in, its raw text keeps between the quotes of that form and stands
for the characters of the string.  With escapes this holds of every text; without them it is what
the choice of the form makes sure of.
-/

namespace Acceptors.Toml

theorem isText_of_not_needsEscape {c : Char} (h : needsEscape c = false) (hc : c ≠ '\n') :
    isText c = true := by
  have hc : (c.toNat < 0x20 → c = '\t') ∧ c.toNat ≠ 0x7F := by simpa [needsEscape, hc] using h
  rcases Nat.lt_or_ge c.toNat 0x20 with hlow | hhigh
  · simp [isText, hc.1 hlow]
  · simp [isText, hhigh, hc.2]

section Escapes

variable {lines : Bool} {raw cs : List Char}

theorem hexValue?_hexDigit : ∀ n < 16, hexValue? (hexDigit n) = some n := by decide

theorem escaped_control {c : Char} (hc : c.toNat < 256) (raw : List Char) :
    Toml.escaped ('u' :: '0' :: '0' :: hexDigit (c.toNat / 16) :: hexDigit (c.toNat % 16) :: raw) =
      some (c, raw) := by
  have hhigh := hexValue?_hexDigit (c.toNat / 16) (by omega)
  have hlow := hexValue?_hexDigit (c.toNat % 16) (by omega)
  have hzero : hexValue? '0' = some 0 := by decide
  have hnumber : hexNumber? ['0', '0', hexDigit (c.toNat / 16), hexDigit (c.toNat % 16)] =
      some c.toNat := by
    simp [hexNumber?, hzero, hhigh, hlow]
    omega
  have hvalid : c.toNat.isValidChar := c.valid
  simp [Toml.escaped, codePoint, hnumber, hvalid]

theorem toNat_lt_of_needsEscape {c : Char} (h : needsEscape c = true) : c.toNat < 256 := by
  simp [needsEscape] at h
  omega

theorem Means.escapeChar (c : Char) (h : Means true lines raw cs) :
    Means true lines (escapeChar lines c ++ raw) (c :: cs) := by
  have hletter : ∀ {c d : Char}, Toml.escaped (d :: raw) = some (c, raw) →
      isBlank d = false ∧ d ≠ '\n' ∧ d ≠ '\r' → Means true lines ('\\' :: d :: raw) (c :: cs) :=
    fun hescaped hd => h.escaped hescaped (Nat.le_refl _) hd
  unfold Toml.escapeChar
  split_ifs with hb ht hn hlines hf hr hslash hcontrol
  · subst hb
    exact hletter rfl (by decide)
  · subst ht
    exact hletter rfl (by decide)
  · subst hn hlines
    exact h.newline
  · subst hn
    exact hletter rfl (by decide)
  · subst hf
    exact hletter rfl (by decide)
  · subst hr
    exact hletter rfl (by decide)
  · subst hslash
    exact hletter rfl (by decide)
  · have hlength : raw.length ≤ ('0' :: '0' :: hexDigit (c.toNat / 16) ::
        hexDigit (c.toNat % 16) :: raw).length := by
      simp only [List.length_cons]
      omega
    exact h.escaped (escaped_control (toNat_lt_of_needsEscape hcontrol) raw) hlength (by decide)
  · exact h.text (isText_of_not_needsEscape (eq_false_of_ne_true hcontrol) hn) fun _ => hslash

theorem means_escape (lines : Bool) (n : Nat) (cs : List Char) :
    Means true lines (escape lines n cs) cs := by
  induction cs generalizing n with
  | nil => exact means_nil
  | cons c cs ih =>
      unfold escape
      split_ifs with hquote hfew
      · subst hquote
        exact (ih _).text rfl (by decide)
      · subst hquote
        exact (ih _).escaped rfl (Nat.le_refl _) (by decide)
      · exact (ih _).escapeChar c

end Escapes

/-! ## Written strings keep between their quotes -/

/-- How many double quotes may come in a row. -/
def quotesInRow (lines : Bool) : Nat := if lines then 2 else 0

theorem hexDigit_ne : ∀ n < 16, hexDigit n ≠ '"' ∧ hexDigit n ≠ '\\' := by decide

theorem Enclosed.escapeChar {lines : Bool} {limit k : Nat} {c : Char} {raw : List Char}
    (hc : c ≠ '"') (h : Enclosed '"' true limit limit raw) :
    Enclosed '"' true limit k (escapeChar lines c ++ raw) := by
  unfold Toml.escapeChar
  split_ifs with hb ht hn hlines hf hr hslash hcontrol
  · exact .escape rfl h
  · exact .escape rfl h
  · exact .char (by decide) (by decide) h
  · exact .escape rfl h
  · exact .escape rfl h
  · exact .escape rfl h
  · exact .escape rfl h
  · have hsmall := toNat_lt_of_needsEscape hcontrol
    obtain ⟨hhigh, hhigh'⟩ := hexDigit_ne (c.toNat / 16) (by omega)
    obtain ⟨hlow, hlow'⟩ := hexDigit_ne (c.toNat % 16) (by omega)
    refine .escape rfl (.char (by decide) (by decide) (.char (by decide) (by decide) ?_))
    exact .char hhigh (fun _ => hhigh') (.char hlow (fun _ => hlow') h)
  · exact .char hc (fun _ => hslash) h

theorem enclosed_escape (lines : Bool) (n : Nat) (cs : List Char) :
    Enclosed '"' true (quotesInRow lines) (quotesInRow lines - n) (escape lines n cs) := by
  -- The `n` quotes written last and the quotes that may still follow add up to the limit.
  induction cs generalizing n with
  | nil => exact .nil
  | cons c cs ih =>
      unfold escape
      split_ifs with hquote hfew
      · have hk : quotesInRow lines - n = quotesInRow lines - (n + 1) + 1 := by
          obtain ⟨rfl, hn⟩ : lines = true ∧ n < 2 := by simpa using hfew
          simp only [quotesInRow, if_true]
          omega
        rw [hk]
        exact .quote (ih (n + 1))
      · exact .escape rfl (ih 0)
      · exact (ih 0).escapeChar hquote

theorem le_longestRunFrom (q : Char) (current best : Nat) (cs : List Char) :
    best ≤ longestRunFrom q current best cs := by
  induction cs generalizing current best with
  | nil => exact Nat.le_refl _
  | cons c cs ih =>
      unfold longestRunFrom
      split_ifs
      · exact Nat.le_trans (Nat.le_max_left _ _) (ih _ _)
      · exact ih _ _

theorem enclosed_of_longestRunFrom {q : Char} {limit current best : Nat} {cs : List Char}
    (h : longestRunFrom q current best cs ≤ limit) :
    Enclosed q false limit (limit - current) cs := by
  induction cs generalizing current best with
  | nil => exact .nil
  | cons c cs ih =>
      unfold longestRunFrom at h
      split_ifs at h with hc
      · subst hc
        -- The run with this quote counts among the best, so that it is within the limit.
        have hknown := le_longestRunFrom c (current + 1) (max best (current + 1)) cs
        have hk : limit - current = limit - (current + 1) + 1 := by omega
        rw [hk]
        exact .quote (ih h)
      · exact .char hc (by simp) (ih h)

theorem enclosed_of_longestRun {q : Char} {limit : Nat} {cs : List Char}
    (h : longestRun q cs ≤ limit) : Enclosed q false limit limit cs :=
  enclosed_of_longestRunFrom h

/-! ## Forms -/

theorem form_literal {cs : List Char} (h : Form.of cs = .literal) :
    (∀ c ∈ cs, needsEscape c = false) ∧ '\n' ∉ cs ∧ longestRun '\'' cs = 0 := by
  unfold Form.of at h
  simp only at h
  split_ifs at h with hbasic hliteral
  simpa [and_assoc] using hliteral

theorem form_literalLines {cs : List Char} (h : Form.of cs = .literalLines) :
    (∀ c ∈ cs, needsEscape c = false) ∧ longestRun '\'' cs ≤ 2 := by
  unfold Form.of at h
  simp only at h
  split_ifs at h with hbasic hliteral hlines hliteralLines
  simpa using hliteralLines

/-- A text without a line break is written without one at its front. -/
theorem newline?_escape {cs : List Char} (h : '\n' ∉ cs) (text : List Char) :
    newline? (escape true 0 cs ++ '"' :: text) = none := by
  cases cs with
  | nil => rfl
  | cons c cs =>
      have hc : c ≠ '\n' := fun hc => h (hc ▸ List.mem_cons_self)
      unfold escape
      split_ifs with hquote hfew
      · rfl
      · contradiction
      · unfold escapeChar
        split_ifs with hb ht hf hr hslash hcontrol
        · rfl
        · rfl
        · rfl
        · rfl
        · rfl
        · rfl
        · exact newline?_cons hc hr _

theorem newline?_literal {cs : List Char} (hcontrol : ∀ c ∈ cs, needsEscape c = false)
    (h : '\n' ∉ cs) (text : List Char) : newline? (cs ++ '\'' :: text) = none := by
  cases cs with
  | nil => rfl
  | cons c cs =>
      have hplain := hcontrol c List.mem_cons_self
      apply newline?_cons
      · rintro rfl
        exact h List.mem_cons_self
      · rintro rfl
        contradiction

/-- The line break that opens a string of lines is the one that its reader skips. -/
theorem skip_opening {cs text : List Char} (h : '\n' ∉ cs → newline? text = none) :
    (newline? (opening cs ++ text)).getD (opening cs ++ text) = text := by
  unfold opening
  split
  · rfl
  · next hnone =>
      rw [List.nil_append, h (by simpa using hnone)]
      rfl

/-- A written string is read back, and what follows it is left. -/
theorem string_quote (cs rest : List Char) (hdouble : rest.head? ≠ some '"')
    (hsingle : rest.head? ≠ some '\'') :
    string (quote cs ++ rest) = some (String.ofList cs, rest) := by
  have hbasic := enclosed_escape false 0 cs
  have hlines := enclosed_escape true 0 cs
  unfold quote
  cases hform : Form.of cs with
  | basic =>
      have htext : ['"'] ++ escape false 0 cs ++ ['"'] ++ rest =
          '"' :: (escape false 0 cs ++ '"' :: rest) := by simp
      simp only [htext]
      rw [string_double (hbasic.take_two_ne (by decide) hdouble)]
      exact lineString_of_enclosed (by decide) hbasic (means_escape false 0 cs) rest
  | literal =>
      obtain ⟨hcontrol, hline, hsingles⟩ := form_literal hform
      have hliteral := enclosed_of_longestRun (Nat.le_of_eq hsingles)
      have htext : ['\''] ++ cs ++ ['\''] ++ rest = '\'' :: (cs ++ '\'' :: rest) := by simp
      simp only [htext]
      rw [string_single (hliteral.take_two_ne (by decide) hsingle)]
      refine lineString_of_enclosed (by decide) hliteral (means_literal fun c hc => .inl ?_) rest
      exact isText_of_not_needsEscape (hcontrol c hc) (ne_of_mem_of_not_mem hc hline)
  | basicLines =>
      have htext : ['"', '"', '"'] ++ opening cs ++ escape true 0 cs ++ ['"', '"', '"'] ++ rest =
          '"' :: '"' :: '"' :: (opening cs ++ (escape true 0 cs ++ '"' :: '"' :: '"' :: rest)) := by
        simp
      simp only [htext]
      exact linesString_of_enclosed (by decide) hlines (means_escape true 0 cs) hdouble
        (skip_opening fun hline => newline?_escape hline _)
  | literalLines =>
      obtain ⟨hcontrol, hsingles⟩ := form_literalLines hform
      have htext : ['\'', '\'', '\''] ++ opening cs ++ cs ++ ['\'', '\'', '\''] ++ rest =
          '\'' :: '\'' :: '\'' :: (opening cs ++ (cs ++ '\'' :: '\'' :: '\'' :: rest)) := by simp
      simp only [htext]
      refine linesString_of_enclosed (by decide) (enclosed_of_longestRun hsingles)
        (means_literal fun c hc => ?_) hsingle
        (skip_opening fun hline => newline?_literal hcontrol hline _)
      by_cases hline : c = '\n'
      · exact .inr ⟨rfl, hline⟩
      · exact .inl (isText_of_not_needsEscape (hcontrol c hc) hline)

end Acceptors.Toml
