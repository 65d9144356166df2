import Mathlib.Data.List.TakeWhile
import Multidrop.Command.Lines
import Multidrop.Proofs.Pieces

/-!
# Commands of a File

The lines of a file are its pieces, cut behind each line feed. Those that hold
anything but blanks are its commands, in the order of the file, and nothing
else is: no line is lost, none is cut in two and none is joined to another.
All that is added is a line feed behind the last line, where it has none and is
a command.

A line is either a text with its line feed, or the text behind the last one.
In both cases its command is the text with a line feed. So the commands of a
file are known from its first line and from what is behind it, and the rest is
induction over the lines.

## Main definitions

* `linesOfFile`, `isKept`: The lines of a file, and those that are commands.
* `missingEnd`: The line feed that the last of some lines is without.
* `IsCommand`: A text that is not blank and its line feed.

## Theorems

* `commandLines_eq`: The commands are the lines that are kept.
* `commandLines_text`, `commandLines_append`: The commands of a file, by its
  first line.
* `commandLines_flatten`: Commands are read back.
* `commands_kept`: Every command of a file, and nothing else.
-/

namespace Multidrop

namespace Text

/-- Nothing is left of a list without the elements at its ends that satisfy a
    test just if all its elements do. -/
theorem trimList_isEmpty {α : Type} (p : α → Bool) (xs : List α) :
    (trimList p xs).isEmpty = xs.all p := by
  -- If not all do, the first that does not is still there when the front is gone.
  have hfront : (xs.dropWhile p).all p = xs.all p := by
    rw [List.all_eq_not_any_not, List.any_dropWhile, Bool.not_not]
  rw [Bool.eq_iff_iff, List.isEmpty_iff, trimList, List.reverse_eq_nil_iff,
    List.dropWhile_eq_nil_iff, ← hfront, List.all_eq_true]
  simp only [List.mem_reverse]

end Text

namespace Command

/-- The lines of a file, each with the line feed that ends it. -/
def linesOfFile (file : List UInt8) : List (List UInt8) :=
  pieces (· == lineFeed) file

/-- Whether a line holds anything but blanks. -/
def isKept (line : List UInt8) : Bool :=
  line.any (!Text.isBlankByte ·)

/-- The line feed that the last of some lines is without, if it is. -/
def missingEnd (lines : List (List UInt8)) : List UInt8 :=
  match lines.getLast? with
  | some line => if line.getLast? = some lineFeed then [] else [lineFeed]
  | none => []

/-- A text that is not blank, and a line feed behind it. -/
def IsCommand (line : List UInt8) : Prop :=
  ∃ text, line = text ++ [lineFeed] ∧ lineFeed ∉ text ∧
    ∃ byte ∈ text, Text.isBlankByte byte = false

/-- The command that a text is, if it is not blank. -/
def commandOf (text : List UInt8) : List (List UInt8) :=
  if isKept text then [text ++ [lineFeed]] else []

variable {text : List UInt8}

/-! ### Lines -/

theorem splitLines_text (h : lineFeed ∉ text) (hne : text ≠ []) : splitLines text = [text] := by
  induction text with
  | nil => exact absurd rfl hne
  | cons byte text ih =>
      rw [List.mem_cons, not_or] at h
      rw [splitLines, if_neg (Ne.symm h.1)]
      cases text with
      | nil => rfl
      | cons next text => rw [ih h.2 (List.cons_ne_nil _ _)]

theorem splitLines_append (h : lineFeed ∉ text) (rest : List UInt8) :
    splitLines (text ++ lineFeed :: rest) = (text ++ [lineFeed]) :: splitLines rest := by
  induction text with
  | nil => rw [List.nil_append, splitLines, if_pos rfl, List.nil_append]
  | cons byte text ih =>
      rw [List.mem_cons, not_or] at h
      rw [List.cons_append, splitLines, if_neg (Ne.symm h.1), ih h.2, List.cons_append]

theorem getLast?_ne (h : lineFeed ∉ text) : text.getLast? ≠ some lineFeed :=
  fun hlast => h (List.mem_of_getLast? hlast)

/-- Within a text no line ends. -/
theorem ends_nothing (h : lineFeed ∉ text) : ∀ byte ∈ text, (byte == lineFeed) = false := by
  intro byte hbyte
  exact beq_false_of_ne fun heq => h (heq ▸ hbyte)

theorem linesOfFile_text (h : lineFeed ∉ text) (hne : text ≠ []) : linesOfFile text = [text] :=
  pieces_open (ends_nothing h) hne

theorem linesOfFile_append (h : lineFeed ∉ text) (rest : List UInt8) :
    linesOfFile (text ++ lineFeed :: rest) = (text ++ [lineFeed]) :: linesOfFile rest :=
  pieces_append (ends_nothing h) (beq_self_eq_true _) rest

/-- Induction over the lines of a file. -/
@[elab_as_elim]
theorem lines_induction {motive : List UInt8 → Prop} (nil : motive [])
    (text : ∀ text, lineFeed ∉ text → text ≠ [] → motive text)
    (line : ∀ text rest, lineFeed ∉ text → motive rest → motive (text ++ lineFeed :: rest))
    (file : List UInt8) : motive file := by
  have hfree : ∀ {text : List UInt8}, (∀ byte ∈ text, (byte == lineFeed) = false) →
      lineFeed ∉ text := fun h hmem => absurd (h lineFeed hmem) (by decide)
  induction file using pieces_induction (· == lineFeed) with
  | nil => exact nil
  | opened rest hne h => exact text rest (hfree h) hne
  | closed front last rest h hlast ih =>
      rw [beq_iff_eq.mp hlast]
      exact line front rest (hfree h) ih

/-- A file is cut into its pieces. -/
theorem splitLines_eq (file : List UInt8) : splitLines file = linesOfFile file := by
  induction file using lines_induction with
  | nil => rfl
  | text text h hne => rw [splitLines_text h hne, linesOfFile_text h hne]
  | line text rest h ih => rw [splitLines_append h, linesOfFile_append h, ih]

/-! ### Commands -/

/-- A line feed is a blank, so it does not make a line a command. -/
theorem isKept_append_lineFeed (text : List UInt8) :
    isKept (text ++ [lineFeed]) = isKept text := by
  have hblank : isKept [lineFeed] = false := by decide
  rw [isKept, List.any_append, ← isKept, ← isKept, hblank, Bool.or_false]

theorem terminated_text (h : lineFeed ∉ text) : terminated text = text ++ [lineFeed] :=
  if_neg (getLast?_ne h)

theorem terminated_line (text : List UInt8) :
    terminated (text ++ [lineFeed]) = text ++ [lineFeed] :=
  if_pos List.getLast?_concat

/-- The commands of a file are the lines that are kept, each with a line feed. -/
theorem commandLines_eq (file : List UInt8) :
    commandLines file = ((linesOfFile file).filter isKept).map terminated := by
  have hkept : (fun line => !(Text.trimBytes line).isEmpty) = isKept := by
    funext line
    rw [Text.trimBytes, Text.trimList_isEmpty, isKept, List.not_all_eq_any_not]
  rw [commandLines, hkept, splitLines_eq]

theorem commandLines_text (h : lineFeed ∉ text) : commandLines text = commandOf text := by
  rw [commandLines_eq, commandOf]
  by_cases hne : text = []
  · -- Nothing is no line, and would be none that is kept.
    rw [hne]
    rfl
  · rw [linesOfFile_text h hne, List.filter_cons, List.filter_nil]
    split
    · exact congrArg (fun line => [line]) (terminated_text h)
    · rfl

theorem commandLines_append (h : lineFeed ∉ text) (rest : List UInt8) :
    commandLines (text ++ lineFeed :: rest) = commandOf text ++ commandLines rest := by
  rw [commandLines_eq, commandLines_eq, commandOf, linesOfFile_append h, List.filter_cons,
    isKept_append_lineFeed]
  split
  · rw [List.map_cons, terminated_line, List.singleton_append]
  · rfl

theorem isCommand_of_mem (h : lineFeed ∉ text) {line : List UInt8} (hline : line ∈ commandOf text) :
    IsCommand line := by
  rw [commandOf] at hline
  split at hline
  · rename_i hkept
    rcases List.any_eq_true.mp hkept with ⟨byte, hbyte, hblank⟩
    exact ⟨text, List.mem_singleton.mp hline, h, byte, hbyte, Bool.not_eq_true' _ ▸ hblank⟩
  · exact absurd hline List.not_mem_nil

theorem isCommand_commandLines (file : List UInt8) :
    ∀ line ∈ commandLines file, IsCommand line := by
  induction file using lines_induction with
  | nil => exact nofun
  | text text h _ =>
      rw [commandLines_text h]
      exact fun _ => isCommand_of_mem h
  | line text rest h ih =>
      rw [commandLines_append h, List.forall_mem_append]
      exact ⟨fun _ => isCommand_of_mem h, ih⟩

/-- Commands are read back. By induction on the commands, each of which is a line
    in front of the others. -/
theorem commandLines_flatten {lines : List (List UInt8)} (h : ∀ line ∈ lines, IsCommand line) :
    commandLines lines.flatten = lines := by
  induction lines with
  | nil => rfl
  | cons line lines ih =>
      rw [List.forall_mem_cons] at h
      rcases h.1 with ⟨text, hline, hfree, byte, hbyte, hblank⟩
      have hkept : isKept text = true :=
        List.any_eq_true.mpr ⟨byte, hbyte, by rw [hblank]; rfl⟩
      rw [List.flatten_cons, hline, List.append_assoc, List.singleton_append,
        commandLines_append hfree, ih h.2, commandOf, if_pos hkept, List.singleton_append]

/-! ### What is added -/

theorem missingEnd_text (h : lineFeed ∉ text) : missingEnd [text] = [lineFeed] :=
  if_neg (getLast?_ne h)

/-- A line that has its line feed is without none, and those behind it decide. -/
theorem missingEnd_cons (text : List UInt8) (lines : List (List UInt8)) :
    missingEnd ((text ++ [lineFeed]) :: lines) = missingEnd lines := by
  cases lines with
  | nil => exact if_pos List.getLast?_concat
  | cons line lines => rw [missingEnd, List.getLast?_cons_cons, missingEnd]

/-- All commands together are the lines that are kept, with the line feed that is
    missing. -/
theorem flatten_commandLines (file : List UInt8) :
    (commandLines file).flatten =
      ((linesOfFile file).filter isKept).flatten ++
        missingEnd ((linesOfFile file).filter isKept) := by
  induction file using lines_induction with
  | nil => rfl
  | text text h hne =>
      -- This is the last line, and the only one that may be without its line feed.
      rw [commandLines_text h, commandOf, linesOfFile_text h hne, List.filter_cons,
        List.filter_nil]
      split
      · rw [missingEnd_text h, List.flatten_singleton, List.flatten_singleton]
      · rfl
  | line text rest h ih =>
      rw [commandLines_append h, List.flatten_append, ih, commandOf, linesOfFile_append h,
        List.filter_cons, isKept_append_lineFeed]
      split
      · rw [missingEnd_cons, List.flatten_singleton, List.flatten_cons, ← List.append_assoc]
      · rfl

/-- Every command of a file, and nothing else. A command is a text that is not
    blank and the line feed behind it. The commands are those lines of the file
    that are not blank, in order, each with a line feed; all together they are what
    is left of the file without its blank lines, with a line feed behind it if the
    last line that is left has none. And the commands of that are the same again. -/
theorem commands_kept (file : List UInt8) :
    (∀ line ∈ commandLines file, IsCommand line) ∧ (linesOfFile file).flatten = file ∧
    (let kept := (linesOfFile file).filter isKept
     commandLines file = kept.map terminated ∧
      (commandLines file).flatten = kept.flatten ++ missingEnd kept) ∧
    commandLines (commandLines file).flatten = commandLines file :=
  ⟨isCommand_commandLines file, flatten_pieces _ file,
    ⟨commandLines_eq file, flatten_commandLines file⟩,
    commandLines_flatten (isCommand_commandLines file)⟩

/-- A blank line goes, a carriage return in front of a line feed stays, and the
    last line gets its end. -/
example : commandLines [0x61, 0x0d, 0x0a, 0x20, 0x0a, 0x62] =
    [[0x61, 0x0d, 0x0a], [0x62, 0x0a]] := by
  decide

end Command

end Multidrop
