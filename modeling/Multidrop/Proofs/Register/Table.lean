import Multidrop.Register.Table

/-!
# What a Table Holds

A table into which rows were put one after another holds for each register
what the last of its rows reported. `get?` says what that is, so this is all
there is to know about a table.

## Main definitions

* `latest`: What the last of some rows for a register reported.

## Theorems

* `get?_insert`: What is held after one row more.
* `get?_insertAll`: What is held after many.
-/

namespace Multidrop

namespace Register

/-- What the last of some rows for a register reported. -/
def latest (rows : List Row) (register : UInt32) : Option Entry :=
  (rows.reverse.find? (·.1 == register)).map (·.2)

theorem find?_row (row : Row) (rows : List Row) (register : UInt32) :
    (row :: rows).find? (·.1 == register) =
      if row.1 = register then some row else rows.find? (·.1 == register) := by
  rw [List.find?_cons]
  by_cases h : row.1 = register
  · rw [if_pos h, beq_iff_eq.mpr h]
  · rw [if_neg h, beq_eq_false_iff_ne.mpr h]

/-- The row that was put in is found, and the rows of other registers are
    found as before. -/
theorem find?_insertRow (row : Row) (rows : List Row) (register : UInt32) :
    (insertRow row rows).find? (·.1 == register) =
      if row.1 = register then some row else rows.find? (·.1 == register) := by
  induction rows with
  | nil => rw [insertRow, find?_row]
  | cons first rest ih =>
      rw [insertRow]
      by_cases hlt : row.1 < first.1
      · -- The row goes in front of all others.
        rw [if_pos hlt, find?_row]
      · rw [if_neg hlt]
        by_cases heq : row.1 = first.1
        · -- The row that gives way is for the register that is put in.
          rw [if_pos heq, find?_row, find?_row]
          by_cases h : row.1 = register
          · rw [if_pos h, if_pos h]
          · rw [if_neg h, if_neg h, if_neg (fun hfirst => h (heq.trans hfirst))]
        · rw [if_neg heq, find?_row, find?_row, ih]
          by_cases h : row.1 = register
          · rw [if_pos h, if_pos h, if_neg (fun hfirst => heq (h.trans hfirst.symm))]
          · rw [if_neg h, if_neg h]

namespace Table

theorem get?_empty (register : UInt32) : empty.get? register = none := rfl

theorem get?_insert (t : Table) (row : Row) (register : UInt32) :
    (t.insert row.1 row.2).get? register =
      if row.1 = register then some row.2 else t.get? register := by
  rw [get?, insert, find?_insertRow]
  by_cases h : row.1 = register
  · rw [if_pos h, if_pos h]
    rfl
  · rw [if_neg h, if_neg h, get?]

theorem insertAll_append (t : Table) (rows more : List Row) :
    t.insertAll (rows ++ more) = (t.insertAll rows).insertAll more :=
  List.foldl_append

/-- Rows that are put in one after another leave what the last one for a
    register reported, and what was there before where there is none. -/
theorem get?_insertAll (t : Table) (rows : List Row) (register : UInt32) :
    (t.insertAll rows).get? register = (latest rows register).or (t.get? register) := by
  induction rows generalizing t with
  | nil => rfl
  | cons row rows ih =>
      have hcons : t.insertAll (row :: rows) = (t.insert row.1 row.2).insertAll rows := rfl
      rw [hcons, ih, get?_insert, latest, latest, List.reverse_cons, List.find?_append, find?_row,
        List.find?_nil]
      cases rows.reverse.find? (·.1 == register) with
      | some found => rfl
      | none =>
          -- The first row counts only if no later one is for its register.
          by_cases h : row.1 = register
          · rw [if_pos h, if_pos h]
            rfl
          · rw [if_neg h, if_neg h]
            rfl

end Table

end Register

end Multidrop
