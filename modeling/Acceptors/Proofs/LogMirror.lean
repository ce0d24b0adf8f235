import Acceptors.Config
import Acceptors.Proofs.Construction

/-!
# Log files mirror messages

A logger writes every message to its file and shows those from its threshold on.  A text that is
written to a file is either held back or has reached it, in the order of the calls.  So when the
logger is closed, the file has the lines of all messages, and without styles the lines that were
shown are those of the messages from the threshold on.
-/

namespace Acceptors

/-! ## Entries of a tree -/

namespace Files.Tree

theorem lookup_map_replace {entries : List (Location × Entry)} {l : Location} (e : Entry)
    (h : (entries.lookup l).isSome) :
    (entries.map fun (m, d) => if m = l then (m, e) else (m, d)).lookup l = some e := by
  induction entries with
  | nil => contradiction
  | cons entry entries ih =>
      obtain ⟨m, d⟩ := entry
      by_cases hm : m = l
      · simp [hm]
      · have hne : (l == m) = false := by simp [Ne.symm hm]
        rw [List.lookup_cons, hne] at h
        rw [List.map_cons]
        simp only [if_neg hm, List.lookup_cons, hne]
        exact ih h

theorem find?_put {t : Tree} {l : Location} (hl : l.isAbove = false) (e : Entry) :
    (t.put l e).find? l = some e := by
  have hfind : ∀ t : Tree, t.find? l = t.entries.lookup l := by
    intro t
    simp [find?, hl]
  rw [hfind]
  unfold put
  split
  · next hsome =>
      rw [hfind] at hsome
      exact lookup_map_replace e hsome
  · next hnone =>
      rw [hfind, Option.not_isSome_iff_eq_none] at hnone
      simp [List.lookup_append, hnone]

theorem isAbove_of_createFile {t t' : Tree} {path : String} {l : Location}
    (h : t.createFile path = some (t', l)) : l.isAbove = false := by
  unfold createFile at h
  obtain ⟨-, -, h⟩ := Option.bind_eq_some_iff.1 h
  obtain ⟨name, -, h⟩ := Option.bind_eq_some_iff.1 h
  obtain ⟨⟨t₁, directory⟩, -, h⟩ := Option.bind_eq_some_iff.1 h
  have hmade : ∀ e, t.find? l = e → e ≠ some .directory → l.isAbove = false := by
    intro e hfind hne
    cases habove : l.isAbove with
    | false => rfl
    | true =>
        rw [find?, if_pos habove] at hfind
        exact absurd hfind.symm hne
  dsimp only at h
  split at h
  · contradiction
  · split at h
    · contradiction
    · next content hfind =>
        cases h
        exact hmade _ hfind (by simp)
    · next hfind =>
        split at h
        · cases h
          exact hmade _ hfind (by simp)
        · contradiction

end Files.Tree

namespace Log

open Automaton

/-! ## Files that hold texts back -/

namespace LogFile

/-- All that was written to the file, be it held back or not. -/
def content (f : LogFile) : String := f.written ++ f.pending

/-- `g` is the file after a text was written to it. -/
structure Takes (f : LogFile) (s : String) (g : LogFile) : Prop where
  location : g.location = f.location
  content : g.content = f.content ++ s

variable {f g : LogFile} {s : String}

theorem Takes.trans {h : LogFile} {s' : String} (hfg : f.Takes s g) (hgh : g.Takes s' h) :
    f.Takes (s ++ s') h := by
  constructor
  · exact hgh.location.trans hfg.location
  · rw [hgh.content, hfg.content, String.append_assoc]

theorem takes_hold (f : LogFile) (s : String) : f.Takes s (f.hold s) :=
  ⟨rfl, String.append_assoc.symm⟩

theorem takes_flush (f : LogFile) : f.Takes "" f.flush := by
  constructor
  · rfl
  · simp [content, flush]

/-- A text may go past what is held back only if nothing is held back. -/
theorem takes_direct (h : f.pending = "" ∨ s = "") :
    f.Takes s { f with written := f.written ++ s } := by
  constructor
  · rfl
  · rcases h with h | h
    · simp [content, h]
    · simp [content, h]

theorem takes_write (f : LogFile) (s : String) : f.Takes s (f.write s) := by
  unfold write
  simp only
  split
  · exact f.takes_hold s
  · next hlong =>
      by_cases hfull : f.room - f.pending.utf8ByteSize < s.utf8ByteSize
      · rw [if_pos hfull]
        have hflushed : f.flush.Takes s
            (if f.flush.room ≤ s.utf8ByteSize then
              { f.flush with written := f.flush.written ++ s }
            else f.flush.hold s) := by
          split
          · exact takes_direct (.inl rfl)
          · exact f.flush.takes_hold s
        simpa using f.takes_flush.trans hflushed
      · rw [if_neg hfull]
        split
        · next hroom =>
            -- The text fills the room that is left exactly, so that it is all of the room.
            apply takes_direct
            rw [← String.utf8ByteSize_eq_zero_iff, ← String.utf8ByteSize_eq_zero_iff]
            omega
        · exact f.takes_hold s

theorem takes_writeLine (f : LogFile) (line : String) : f.Takes (line ++ "\n") (f.writeLine line) :=
  (f.takes_write line).trans ((f.write line).takes_write "\n")

end LogFile

/-! ## Messages and their lines -/

/-- The message that a call logs, if it logs one. -/
def Call.message? : Call → Option Message
  | log level text => some ⟨level, text⟩
  | debug text => some ⟨.debug, text⟩
  | info text => some ⟨.info, text⟩
  | warn text => some ⟨.warn, text⟩
  | error text => some ⟨.error, text⟩
  | group level g => some ⟨level, g.text⟩
  | flush => none

def messages (calls : List Call) : List Message := calls.filterMap Call.message?

/-- The lines of a message: the tag of its level, the name of the logger, and the text. -/
def Message.lines (name : String) (m : Message) : String :=
  "[" ++ m.level.tag ++ "] " ++ name ++ ": " ++ m.text ++ "\n"

/-- The lines of messages one after the other. -/
def linesOf (name : String) (ms : List Message) : String := String.join (ms.map (Message.lines name))

theorem linesOf_singleton (name : String) (m : Message) : linesOf name [m] = m.lines name := by
  simp [linesOf]

theorem linesOf_append (name : String) (ms later : List Message) :
    linesOf name (ms ++ later) = linesOf name ms ++ linesOf name later := by
  rw [linesOf, List.map_append, String.join_append]
  rfl

theorem messages_cons (c : Call) (calls : List Call) :
    messages (c :: calls) = c.message?.toList ++ messages calls := by
  cases hc : c.message? with
  | none => simp [messages, hc]
  | some m => simp [messages, hc]

theorem prefix_lines (name : String) (m : Message) :
    plainPrefix name m.level ++ " " ++ m.text ++ "\n" = m.lines name := by
  simp [plainPrefix, Message.lines, String.append_assoc]

/-- Without styles the two prefixes are the same text. -/
theorem shownPrefix_plain (name : String) (level : Level) :
    shownPrefix false name level = plainPrefix name level := by
  simp [shownPrefix, plainPrefix, Level.styledTag, styled, String.append_assoc]

/--
What became of a logger with a file that logged the messages: what was shown, and the logger
afterwards.
-/
structure Logged (l : Logger) (f : LogFile) (ms : List Message) (result : String × Logger) :
    Prop where
  file : ∃ g, f.Takes (linesOf l.name ms) g ∧ result.2 = { l with file := some g }
  shown : l.styles = false →
    result.1 = linesOf l.name (ms.filter (·.level.shownAt l.threshold))

variable {l : Logger} {f : LogFile} (hfile : l.file = some f)

include hfile

theorem logged_log (m : Message) : Logged l f [m] (l.log m) := by
  constructor
  · refine ⟨f.writeLine (plainPrefix l.name m.level ++ " " ++ m.text), ?_, ?_⟩
    · rw [linesOf_singleton, ← prefix_lines]
      exact f.takes_writeLine _
    · simp [Logger.log, hfile]
  · intro hstyles
    simp only [Logger.log, hstyles, shownPrefix_plain, prefix_lines]
    cases hshown : m.level.shownAt l.threshold with
    | true => simp [hshown, linesOf_singleton]
    | false => simp [hshown, linesOf]

theorem logged_call (c : Call) : Logged l f c.message?.toList (l.call c) := by
  cases c with
  | log level text => exact logged_log hfile _
  | debug text => exact logged_log hfile _
  | info text => exact logged_log hfile _
  | warn text => exact logged_log hfile _
  | error text => exact logged_log hfile _
  | group level g => exact logged_log hfile _
  | flush =>
      constructor
      · exact ⟨f.flush, f.takes_flush, by simp [Logger.call, Logger.flush, hfile]⟩
      · exact fun _ => rfl

theorem logged_callAll (calls : List Call) : Logged l f (messages calls) (l.callAll calls) := by
  induction calls generalizing l f with
  | nil =>
      constructor
      · refine ⟨f, ⟨rfl, ?_⟩, ?_⟩
        · exact String.append_empty.symm
        · rw [← hfile]
          rfl
      · exact fun _ => rfl
  | cons c calls ih =>
      obtain ⟨⟨g, hg, hlogger⟩, hshown⟩ := logged_call hfile c
      obtain ⟨⟨h, hh, hlast⟩, hrest⟩ := ih (l := { l with file := some g }) rfl
      have hcons : l.callAll (c :: calls) = ((l.call c).1 ++ ((l.call c).2.callAll calls).1,
        ((l.call c).2.callAll calls).2) := rfl
      rw [messages_cons, hcons, hlogger]
      constructor
      · refine ⟨h, ?_, hlast⟩
        rw [linesOf_append]
        exact hg.trans hh
      · intro hstyles
        rw [List.filter_append, linesOf_append, ← hshown hstyles, ← hrest hstyles]

/-! ## Loggers with a file -/

omit hfile

theorem toFile_eq_ok {threshold : Level} {name : String} {styles : Bool} {path : String}
    {t t' : Files.Tree} (h : Logger.toFile threshold name styles path t = .ok (l, t')) :
    ∃ location : Files.Location,
      l = ⟨threshold, name, styles, some (.fresh location)⟩ ∧ location.isAbove = false := by
  unfold Logger.toFile at h
  obtain ⟨t₁, -, h⟩ := bind_eq_ok.1 h
  split at h
  · next t₂ location hcreate =>
      cases h
      exact ⟨location, rfl, Files.Tree.isAbove_of_createFile hcreate⟩
  · cases h

/-- The logger was made for a path, or as a configuration asks for one with a file. -/
inductive Opened (threshold : Level) (name : String) (styles : Bool) :
    Logger → Files.Tree → Prop where
  | ofPath {path : String} {t t' : Files.Tree} {l : Logger}
      (h : Logger.toFile threshold name styles path t = .ok (l, t')) :
      Opened threshold name styles l t'
  | ofConfig {c : LoggerConfig} {stamp : String} {t t' : Files.Tree} {l : Logger}
      (hlevel : c.logLevel = threshold) (hfile : c.logFile = true)
      (h : c.openLogger name stamp styles t = .ok (some l, t')) :
      Opened threshold name styles l t'

section Opened

variable {threshold : Level} {name : String} {styles : Bool} {t : Files.Tree}

theorem Opened.eq_fresh (opened : Opened threshold name styles l t) :
    ∃ location : Files.Location,
      l = ⟨threshold, name, styles, some (.fresh location)⟩ ∧ location.isAbove = false := by
  cases opened with
  | ofPath h => exact toFile_eq_ok h
  | ofConfig hlevel hfile h =>
      unfold LoggerConfig.openLogger at h
      split at h
      · cases h
      · obtain ⟨⟨l', t'⟩, hmade, heq⟩ := bind_eq_ok.1 h
        cases heq
        exact hlevel ▸ toFile_eq_ok hmade

/--
When the logger is closed, the file holds the lines of all messages in the order of the calls, and
without styles the lines that were shown are those of the messages from the threshold on.
-/
theorem callAll_mirrors (opened : Opened threshold name styles l t) (calls : List Call) :
    (∃ f, (l.callAll calls).2.close.file = some f ∧ f.pending = "" ∧
      f.written = linesOf name (messages calls) ∧
      ((l.callAll calls).2.close.save t).find? f.location =
        some (.file (linesOf name (messages calls)))) ∧
      (styles = false → (l.callAll calls).1 =
        linesOf name ((messages calls).filter (·.level.shownAt threshold))) := by
  obtain ⟨location, rfl, hlocation⟩ := opened.eq_fresh
  obtain ⟨⟨g, hg, hlast⟩, hshown⟩ :=
    logged_callAll (l := ⟨threshold, name, styles, some (.fresh location)⟩) rfl calls
  constructor
  · have hcontent : g.content = linesOf name (messages calls) := by
      rw [hg.content]
      exact String.empty_append
    have hclosed : ((⟨threshold, name, styles, some (.fresh location)⟩ : Logger).callAll
        calls).2.close = ⟨threshold, name, styles, some g.flush⟩ := by
      rw [hlast]
      rfl
    rw [hclosed]
    refine ⟨g.flush, rfl, rfl, hcontent, ?_⟩
    rw [← hcontent]
    refine Files.Tree.find?_put ?_ _
    exact hg.location ▸ hlocation
  · exact hshown

end Opened

theorem callAll_mirrors_three_calls :
    ∃ l t, Opened .warn "run" false l t ∧
      (l.callAll [.debug "low", .group .error ⟨"Stats", [("states", "3")]⟩, .warn "high"]).1 =
        "[ERR] run: Stats \x7b\n  states: 3\n\x7d\n[WAR] run: high\n" ∧
      ((l.callAll [.debug "low", .group .error ⟨"Stats", [("states", "3")]⟩,
        .warn "high"]).2.close.file.map LogFile.written) =
        some "[DBG] run: low\n[ERR] run: Stats \x7b\n  states: 3\n\x7d\n[WAR] run: high\n" := by
  have hmade : Logger.toFile .warn "run" false "run.txt" .empty =
      .ok (⟨.warn, "run", false, some (.fresh "run.txt")⟩, .put .empty "run.txt" (.file "")) := by
    decide +kernel
  have opened := Opened.ofPath hmade
  obtain ⟨⟨f, hfile, -, hwritten, -⟩, hshown⟩ := callAll_mirrors opened
    [.debug "low", .group .error ⟨"Stats", [("states", "3")]⟩, .warn "high"]
  refine ⟨_, _, opened, ?_, ?_⟩
  · rw [hshown rfl]
    decide +kernel
  · rw [hfile, Option.map_some, hwritten]
    decide +kernel

end Log

end Acceptors
