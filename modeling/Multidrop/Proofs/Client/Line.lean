import Multidrop.Client.Line

/-!
# What Taking a Line Takes

Taking a line cuts the buffer in three: line ends at the front, the line with
the end behind it, and what remains. Where there is no line, only the line
ends at the front are taken.

The lines of a sequence of bytes are what stands between its line ends, if that
is not empty; what stands behind the last one is no line yet. To take bytes
from the front that end with a line leaves the lines behind it as they are, and
so does taking line ends. So what was taken one after another yields the lines
that a split of all of it would.

## Main definitions

* `lines`: The lines of a sequence of bytes.
* `Yields`: Bytes at the front hold some lines, and no part of another.

## Theorems

* `takeLine_some`: The parts of a buffer that a line was taken from.
* `takeLine_none`: The parts of one that holds no line.
* `takeLine_ne_nil`: A line that is taken is not empty.
* `Yields.append`: Bytes taken one after another.
-/

namespace Multidrop

namespace Client

/-- The lines of a sequence of bytes: the longest parts without a line end that
    are not empty and stand in front of one. -/
def lines (bytes : List UInt8) : List (List UInt8) :=
  (bytes.splitOnP endsLine).dropLast.filter (· ≠ [])

example : lines [0x61, 0x0d, 0x0a, 0x0a, 0x62, 0x0a, 0x63] = [[0x61], [0x62]] := by
  decide

/-- Bytes hold some lines and end with the last of them, or with line ends. So
    the lines of what stands behind them are not changed by them. Bytes without
    lines are line ends. -/
structure Yields (bytes : List UInt8) (held : List (List UInt8)) : Prop where
  lines_append : ∀ rest, lines (bytes ++ rest) = held ++ lines rest
  blank : held = [] → bytes.all endsLine = true

variable {buffer rest : List UInt8}

theorem takeLine_some {line : List UInt8} (h : takeLine buffer = (some line, rest)) :
    ∃ blanks last, buffer = blanks ++ (line ++ [last]) ++ rest ∧ blanks.all endsLine = true ∧
      line.all (!endsLine ·) = true ∧ endsLine last = true := by
  unfold takeLine at h
  have hblanks := List.takeWhile_append_dropWhile (p := endsLine) (l := buffer)
  generalize buffer.dropWhile endsLine = trimmed at h hblanks
  have hline := List.takeWhile_append_dropWhile (p := (!endsLine ·)) (l := trimmed)
  -- What is left begins with the byte that ends the line, if anything is left.
  have hlast := List.head?_dropWhile_not (!endsLine ·) trimmed
  simp only [] at h
  split at h
  · simp only [Prod.mk.injEq, reduceCtorEq, false_and] at h
  · rename_i last rest' hdrop
    rw [Prod.mk.injEq, Option.some.injEq] at h
    rw [hdrop] at hline hlast
    simp only [List.head?_cons, Bool.not_eq_eq_eq_not, Bool.not_false] at hlast
    refine ⟨buffer.takeWhile endsLine, last, ?_, List.all_takeWhile, ?_, hlast⟩
    · rw [← h.1, ← h.2, List.append_assoc, List.append_assoc, List.singleton_append, hline,
        hblanks]
    · rw [← h.1]
      exact List.all_takeWhile

theorem takeLine_none (h : takeLine buffer = (none, rest)) :
    ∃ blanks, buffer = blanks ++ rest ∧ blanks.all endsLine = true := by
  unfold takeLine at h
  refine ⟨buffer.takeWhile endsLine, ?_, List.all_takeWhile⟩
  have hblanks := List.takeWhile_append_dropWhile (p := endsLine) (l := buffer)
  generalize buffer.dropWhile endsLine = trimmed at h hblanks
  simp only [] at h
  split at h
  · rw [Prod.mk.injEq] at h
    rw [← h.2, hblanks]
  · simp only [Prod.mk.injEq, reduceCtorEq, false_and] at h

/-- A line that is taken is not empty, since no line end is left in front of
    it. -/
theorem takeLine_ne_nil {line : List UInt8} (h : takeLine buffer = (some line, rest)) :
    line ≠ [] := by
  unfold takeLine at h
  have hfirst := List.head?_dropWhile_not endsLine buffer
  generalize buffer.dropWhile endsLine = trimmed at h hfirst
  simp only [] at h
  split at h
  · simp only [Prod.mk.injEq, reduceCtorEq, false_and] at h
  · rename_i last rest' hdrop
    rw [Prod.mk.injEq, Option.some.injEq] at h
    rw [← h.1]
    cases trimmed with
    | nil => exact absurd hdrop nofun
    | cons first more =>
        -- The first byte that is left is no line end, so it belongs to the line.
        simp only [List.head?_cons] at hfirst
        rw [List.takeWhile_cons_of_pos (by rw [hfirst]; rfl)]
        exact List.cons_ne_nil _ _

/-! ### Lines -/

/-- A line end parts the lines in front of it from those behind it. -/
theorem lines_append_cons (front : List UInt8) {last : UInt8} (hlast : endsLine last = true)
    (rest : List UInt8) :
    lines (front ++ last :: rest) =
      (front.splitOnP endsLine).filter (· ≠ []) ++ lines rest := by
  rw [lines, List.splitOnP_append_cons front rest hlast,
    List.dropLast_append_of_ne_nil (List.splitOnP_ne_nil _ _), List.filter_append, lines]

theorem yields_nil : Yields [] [] :=
  ⟨fun _ => rfl, fun _ => rfl⟩

variable {bytes more : List UInt8} {held later : List (List UInt8)}

theorem yields_of_eq_nil (h : bytes = []) : Yields bytes [] :=
  h ▸ yields_nil

theorem Yields.append (h : Yields bytes held) (hmore : Yields more later) :
    Yields (bytes ++ more) (held ++ later) where
  lines_append rest := by
    rw [List.append_assoc, h.lines_append, hmore.lines_append, List.append_assoc]
  blank hnone := by
    rw [List.append_eq_nil_iff] at hnone
    rw [List.all_append, h.blank hnone.1, hmore.blank hnone.2]
    rfl

theorem yields_end {last : UInt8} (hlast : endsLine last = true) : Yields [last] [] where
  lines_append rest := lines_append_cons [] hlast rest
  blank _ := by rw [List.all_cons, hlast, List.all_nil]; rfl

/-- Line ends hold no lines. By induction on how many there are. -/
theorem yields_blanks {blanks : List UInt8} (h : blanks.all endsLine = true) :
    Yields blanks [] := by
  induction blanks with
  | nil => exact yields_nil
  | cons last blanks ih =>
      rw [List.all_cons, Bool.and_eq_true] at h
      exact (yields_end h.1).append (ih h.2)

/-- Bytes without a line end hold one line, if one follows and they are not
    empty. -/
theorem yields_line {line : List UInt8} {last : UInt8} (hline : line.all (!endsLine ·) = true)
    (hne : line ≠ []) (hlast : endsLine last = true) : Yields (line ++ [last]) [line] where
  lines_append rest := by
    -- Nothing parts the line itself, and the end behind it parts it from the rest.
    have hsingle : line.splitOnP endsLine = [line] := by
      refine List.splitOnP_eq_singleton fun byte hbyte => ?_
      have hnot := List.all_eq_true.mp hline byte hbyte
      rw [Bool.not_eq_true'] at hnot
      exact hnot
    have hkept : [line].filter (· ≠ []) = [line] :=
      List.filter_cons_of_pos (decide_eq_true hne)
    rw [List.append_assoc, List.singleton_append, lines_append_cons line hlast, hsingle, hkept]
  blank h := absurd h (List.cons_ne_nil _ _)

end Client

end Multidrop
