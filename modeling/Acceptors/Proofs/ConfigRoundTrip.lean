import Acceptors.Config
import Acceptors.Proofs.WrittenStrings

/-!
# Configurations survive being written and read

A written configuration is a document of eight lines.  Each line is read back for itself, whatever
follows it, so that the whole document is read as these lines.  Put together they are the table that
the configuration is decoded from.
-/

namespace Acceptors

namespace Toml

/-! ## Keys -/

theorem isBareKey_facts {c : Char} (h : isBareKey c = true) :
    isBlank c = false ∧ c ≠ '[' ∧ c ≠ '#' ∧ c ≠ '\n' ∧ c ≠ '\r' ∧ c ≠ '"' ∧ c ≠ '\'' := by
  refine ⟨?_, ?_, ?_, ?_, ?_, ?_, ?_⟩
  · cases hblank : isBlank c with
    | false => rfl
    | true =>
        rcases (by simpa [isBlank] using hblank : c = ' ' ∨ c = '\t') with rfl | rfl
        · contradiction
        · contradiction
  all_goals
    rintro rfl
    contradiction

/-- The characters of a bare key, of which there is at least one. -/
structure IsBare (k : List Char) : Prop where
  ne_nil : k ≠ []
  bare : ∀ c ∈ k, isBareKey c = true

section Bare

variable {k rest : List Char} (bare : IsBare k)

include bare

theorem IsBare.append_ne_bracket (rest more : List Char) : k ++ rest ≠ '[' :: more := by
  obtain ⟨c, k, rfl⟩ := List.exists_cons_of_ne_nil bare.ne_nil
  obtain ⟨-, hbracket, -⟩ := isBareKey_facts (bare.bare c List.mem_cons_self)
  intro h
  exact hbracket (List.cons.inj h).1

theorem skipBlanks_bare (rest : List Char) : skipBlanks (k ++ rest) = k ++ rest := by
  obtain ⟨c, k, rfl⟩ := List.exists_cons_of_ne_nil bare.ne_nil
  obtain ⟨hblank, -⟩ := isBareKey_facts (bare.bare c List.mem_cons_self)
  simp [skipBlanks, hblank]

theorem simpleKey_bare (hrest : rest.takeWhile isBareKey = []) :
    simpleKey (k ++ rest) = some (String.ofList k, rest) := by
  have hfront : (k ++ rest).takeWhile isBareKey = k := by
    rw [List.takeWhile_append_of_pos bare.bare, hrest, List.append_nil]
  obtain ⟨c, k, rfl⟩ := List.exists_cons_of_ne_nil bare.ne_nil
  obtain ⟨-, -, -, -, -, hdouble, hsingle⟩ := isBareKey_facts (bare.bare c List.mem_cons_self)
  unfold simpleKey
  split
  · next h => exact absurd (List.cons.inj h).1 hdouble
  · next h => exact absurd (List.cons.inj h).1 hsingle
  · rw [hfront]
    simp

theorem key_bare {d : Char} {text : List Char} (hrest : rest.takeWhile isBareKey = [])
    (hskip : skipBlanks rest = d :: text) (hd : d ≠ '.') (limit : Nat) :
    key (limit + 1) (k ++ rest) = some ([String.ofList k], d :: text) := by
  unfold key
  rw [skipBlanks_bare bare, simpleKey_bare bare hrest]
  simp [hskip, hd]

theorem lineEnd?_bare (rest : List Char) : lineEnd? (k ++ rest) = none := by
  unfold lineEnd?
  rw [skipBlanks_bare bare]
  obtain ⟨c, k, rfl⟩ := List.exists_cons_of_ne_nil bare.ne_nil
  obtain ⟨-, -, hcomment, hnewline, hreturn, -⟩ := isBareKey_facts (bare.bare c List.mem_cons_self)
  have hskip : skipComment (c :: k ++ rest) = c :: k ++ rest := by simp [skipComment, hcomment]
  rw [hskip]
  exact newline?_cons hnewline hreturn _

end Bare

/-! ## Lines -/

/-- The text of a value, which is read back if a line break follows. -/
structure ReadsBack (written : List Char) (v : Value) : Prop where
  skipBlanks : ∀ rest, skipBlanks (written ++ '\n' :: rest) = written ++ '\n' :: rest
  value : ∀ rest, value nestingLimit (written ++ '\n' :: rest) = some (v, '\n' :: rest)

theorem readsBack_bool (b : Bool) : ReadsBack (Config.writtenBool b) (.boolean b) := by
  constructor
  · intro rest
    cases b with
    | false => rfl
    | true => rfl
  · intro rest
    cases b with
    | false => rfl
    | true => rfl

theorem quote_eq_cons (cs : List Char) :
    ∃ q text, quote cs = q :: text ∧ (q = '"' ∨ q = '\'') := by
  unfold quote
  cases Form.of cs with
  | basic => exact ⟨'"', _, rfl, .inl rfl⟩
  | literal => exact ⟨'\'', _, rfl, .inr rfl⟩
  | basicLines => exact ⟨'"', _, rfl, .inl rfl⟩
  | literalLines => exact ⟨'\'', _, rfl, .inr rfl⟩

theorem value_quoted {q : Char} (hq : q = '"' ∨ q = '\'') (text : List Char) :
    value nestingLimit (q :: text) =
      (string (q :: text)).map fun (s, rest) => (.string s, rest) := by
  rcases hq with rfl | rfl
  · rfl
  · rfl

theorem readsBack_string (s : String) : ReadsBack (Config.writtenString s) (.string s) := by
  obtain ⟨q, text, hquote, hq⟩ := quote_eq_cons s.toList
  unfold Config.writtenString
  constructor
  · intro rest
    have hblank : isBlank q = false := by
      rcases hq with rfl | rfl
      · rfl
      · rfl
    simp [hquote, skipBlanks, hblank]
  · intro rest
    have hread := string_quote s.toList ('\n' :: rest) (by simp) (by simp)
    rw [hquote, List.cons_append] at hread ⊢
    rw [value_quoted hq, hread, String.ofList_toList]
    rfl

theorem line_assignment {k : String} (bare : IsBare k.toList) {written : List Char} {v : Value}
    (back : ReadsBack written v) (rest : List Char) :
    line (Config.assignmentLine k written ++ rest) = some (.assignment [k] v, rest) := by
  have hline : Config.assignmentLine k written ++ rest =
      k.toList ++ ' ' :: '=' :: ' ' :: (written ++ '\n' :: rest) := by
    simp [Config.assignmentLine]
  generalize htail : ' ' :: '=' :: ' ' :: (written ++ '\n' :: rest) = tail at hline
  have hkey : key nestingLimit (k.toList ++ tail) =
      some ([k], '=' :: ' ' :: (written ++ '\n' :: rest)) := by
    rw [← String.ofList_toList (s := k), String.toList_ofList]
    exact key_bare bare (htail ▸ rfl) (htail ▸ rfl) (by decide) 78
  have hvalue : value nestingLimit (skipBlanks (' ' :: (written ++ '\n' :: rest))) =
      some (v, '\n' :: rest) := by
    have hblank : skipBlanks (' ' :: (written ++ '\n' :: rest)) =
      skipBlanks (written ++ '\n' :: rest) := rfl
    rw [hblank, back.skipBlanks, back.value]
  have hassignment : assignment (value nestingLimit) (k.toList ++ tail) =
      some (([k], v), '\n' :: rest) := by
    simp [assignment, hkey, after?, hvalue]
  rw [hline]
  unfold line
  rw [skipBlanks_bare bare]
  split
  · next h => exact absurd h (bare.append_ne_bracket _ _)
  · next h => exact absurd h (bare.append_ne_bracket _ _)
  · rw [lineEnd?_bare bare, hassignment]
    rfl

theorem line_empty (rest : List Char) : line ('\n' :: rest) = some (.empty, rest) := rfl

theorem line_header {k : String} (bare : IsBare k.toList) (rest : List Char) :
    line ('[' :: (k.toList ++ ']' :: '\n' :: rest)) = some (.header [k], rest) := by
  have hkey : key nestingLimit (k.toList ++ ']' :: '\n' :: rest) =
      some ([k], ']' :: '\n' :: rest) := by
    rw [← String.ofList_toList (s := k), String.toList_ofList]
    exact key_bare bare rfl rfl (by decide) 78
  have hone : ∀ more, k.toList ++ ']' :: '\n' :: rest ≠ '[' :: more := bare.append_ne_bracket _
  have hskip : skipBlanks ('[' :: (k.toList ++ ']' :: '\n' :: rest)) =
    '[' :: (k.toList ++ ']' :: '\n' :: rest) := rfl
  unfold line
  rw [hskip]
  split
  · next h => exact absurd (List.cons.inj h).2 (hone _)
  · next h =>
      cases (List.cons.inj h).2
      rw [hkey]
      rfl
  · next hno => exact absurd rfl (hno _)

/-- A line that is read whatever follows it is read first, and the others are read after it. -/
theorem ReadsAs.line {text rest : List Char} {l : Line} {ls : List Line}
    (hline : line (text ++ rest) = some (l, rest)) (htext : text ≠ [])
    (h : ReadsAs line rest ls) : ReadsAs line (text ++ rest) (l :: ls) := by
  refine .cons hline ?_ h
  have := List.length_pos_iff.2 htext
  rw [List.length_append]
  omega

end Toml

namespace Config

open Toml

/-! ## The document of a configuration -/

/-- The lines of a written configuration. -/
def lines (c : Config) : List Line := [
  .assignment ["complete_dfa"] (.boolean c.completeDFA),
  .assignment ["state_naming"] (.string c.naming.text),
  .empty,
  .header ["logger"],
  .assignment ["enabled"] (.boolean c.logger.enabled),
  .assignment ["log_file"] (.boolean c.logger.logFile),
  .assignment ["log_directory"] (.string c.logger.logDirectory),
  .assignment ["log_level"] (.string c.logger.logLevel.text)]

theorem readsAs_assignment {k : String} (bare : IsBare k.toList) {written rest : List Char}
    {v : Value} (back : ReadsBack written v) {ls : List Line} (h : ReadsAs line rest ls) :
    ReadsAs line (assignmentLine k written ++ rest) (.assignment [k] v :: ls) :=
  .line (line_assignment bare back rest) (by simp [assignmentLine]) h

theorem isBare_of_all {k : String} (hne : k.toList ≠ []) (h : k.toList.all isBareKey = true) :
    IsBare k.toList :=
  ⟨hne, List.all_eq_true.1 h⟩

/-- The text of the section of the logger. -/
def loggerText (c : LoggerConfig) : List Char :=
  assignmentLine "enabled" (writtenBool c.enabled) ++
  (assignmentLine "log_file" (writtenBool c.logFile) ++
  (assignmentLine "log_directory" (writtenString c.logDirectory) ++
  (assignmentLine "log_level" (writtenString c.logLevel.text) ++ [])))

theorem readsAs_loggerText (c : LoggerConfig) : ReadsAs line (loggerText c) [
    .assignment ["enabled"] (.boolean c.enabled),
    .assignment ["log_file"] (.boolean c.logFile),
    .assignment ["log_directory"] (.string c.logDirectory),
    .assignment ["log_level"] (.string c.logLevel.text)] := by
  apply readsAs_assignment (isBare_of_all (by decide) (by decide)) (readsBack_bool c.enabled)
  apply readsAs_assignment (isBare_of_all (by decide) (by decide)) (readsBack_bool c.logFile)
  apply readsAs_assignment (isBare_of_all (by decide) (by decide)) (readsBack_string c.logDirectory)
  apply readsAs_assignment (isBare_of_all (by decide) (by decide)) (readsBack_string c.logLevel.text)
  exact .nil

theorem toList_write (c : Config) : c.write.toList =
    assignmentLine "complete_dfa" (writtenBool c.completeDFA) ++
    (assignmentLine "state_naming" (writtenString c.naming.text) ++
    (['\n'] ++ (('[' :: ("logger".toList ++ [']', '\n'])) ++ loggerText c.logger))) := by
  simp only [write, loggerText, String.toList_ofList, List.append_assoc, List.append_nil]
  rfl

/-- The written text is read as its lines. -/
theorem readsAs_write (c : Config) : ReadsAs line c.write.toList c.lines := by
  rw [toList_write]
  apply readsAs_assignment (isBare_of_all (by decide) (by decide)) (readsBack_bool c.completeDFA)
  apply readsAs_assignment (isBare_of_all (by decide) (by decide)) (readsBack_string c.naming.text)
  apply ReadsAs.line (line_empty _) (by simp)
  refine ReadsAs.line ?_ (by simp) (readsAs_loggerText c.logger)
  have hheader := line_header (k := "logger") (isBare_of_all (by decide) (by decide))
    (loggerText c.logger)
  simpa using hheader

/-! ## The table of a configuration -/

def entries (c : Config) : Entries := [
  ("complete_dfa", .boolean c.completeDFA),
  ("state_naming", .string c.naming.text),
  ("logger", .table .header [
    ("enabled", .boolean c.logger.enabled),
    ("log_file", .boolean c.logger.logFile),
    ("log_directory", .string c.logger.logDirectory),
    ("log_level", .string c.logger.logLevel.text)])]

theorem ofDocument?_write (c : Config) : ofDocument? c.write = some c.entries := by
  have hmark : skipMark c.write.toList = c.write.toList := by
    rw [toList_write]
    rfl
  unfold ofDocument?
  rw [hmark, (readsAs_write c).readAll]
  rfl

theorem ofText?_text_naming (naming : Naming) : Naming.ofText? naming.text = some naming := by
  cases naming with
  | numbered => rfl
  | sourceSets => rfl

theorem ofText?_text_level (level : Log.Level) : Log.Level.ofText? level.text = some level := by
  cases level with
  | debug => rfl
  | info => rfl
  | warn => rfl
  | error => rfl

theorem ofValue?_logger (c : LoggerConfig) : LoggerConfig.ofValue? (.table .header [
    ("enabled", .boolean c.enabled), ("log_file", .boolean c.logFile),
    ("log_directory", .string c.logDirectory), ("log_level", .string c.logLevel.text)]) =
      some c := by
  have hlevel : asChoice? Log.Level.ofText? (.string c.logLevel.text) = some c.logLevel :=
    ofText?_text_level c.logLevel
  unfold LoggerConfig.ofValue?
  simp [fields?, List.lookup_cons, orDefault, asBool?, asString?, hlevel]

theorem ofValue?_entries (c : Config) : ofValue? (.table .header c.entries) = some c := by
  have hnaming : asChoice? Naming.ofText? (.string c.naming.text) = some c.naming :=
    ofText?_text_naming c.naming
  unfold ofValue?
  simp [fields?, entries, List.lookup_cons, orDefault, asBool?, hnaming, ofValue?_logger]

end Config

end Acceptors
