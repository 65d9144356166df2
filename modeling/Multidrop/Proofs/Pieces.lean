import Mathlib.Data.List.SplitBy

/-!
# Pieces of a List

A list in which some elements end a piece, as a line feed ends a line, is cut
behind each of them. The last piece may be without an end, and there is no
piece behind the last end. So a list is empty, or one piece without an end, or
begins with a piece that has one, and what holds of pieces is shown by
induction over these three.

## Main definitions

* `pieces`: The pieces of a list.

## Theorems

* `flatten_pieces`: The pieces make up the list.
* `pieces_open`, `pieces_append`: A piece without an end, and one with it.
* `pieces_induction`: Induction over the pieces.
-/

namespace Multidrop

variable {α : Type} {ends : α → Bool} {front xs : List α} {last : α}

/-- The pieces of a list, cut behind each element that ends one. -/
def pieces (ends : α → Bool) (xs : List α) : List (List α) :=
  xs.splitBy fun x _ => !ends x

/-- The pieces make up the list. -/
theorem flatten_pieces (ends : α → Bool) (xs : List α) : (pieces ends xs).flatten = xs :=
  List.flatten_splitBy _ xs

/-- Nothing is cut in front of the last element. -/
theorem isChain_append_singleton (h : ∀ x ∈ front, ends x = false) (last : α) :
    (front ++ [last]).IsChain fun x _ => !ends x := by
  induction front with
  | nil => exact List.isChain_singleton last
  | cons x front ih =>
      rw [List.forall_mem_cons] at h
      rw [List.cons_append, List.isChain_cons]
      exact ⟨fun _ _ => by rw [h.1]; rfl, ih h.2⟩

/-- Elements that end nothing are one piece. -/
theorem pieces_open (h : ∀ x ∈ xs, ends x = false) (hne : xs ≠ []) : pieces ends xs = [xs] := by
  refine List.splitBy_of_isChain hne ?_
  have hsplit := List.dropLast_append_getLast hne
  rw [← hsplit]
  exact isChain_append_singleton (fun x hx => h x (List.dropLast_subset xs hx)) _

/-- The first end ends the first piece. -/
theorem pieces_append (h : ∀ x ∈ front, ends x = false) (hlast : ends last = true)
    (rest : List α) :
    pieces ends (front ++ last :: rest) = (front ++ [last]) :: pieces ends rest := by
  have hsplit : front ++ last :: rest = (front ++ [last]) ++ rest := by
    rw [List.append_assoc, List.singleton_append]
  have hne : front ++ [last] ≠ [] := List.append_ne_nil_of_right_ne_nil _ (List.cons_ne_nil _ _)
  -- No relation holds between the end and what stands behind it.
  have hcut : ∀ x ∈ (front ++ [last]).getLast?, ∀ y ∈ rest.head?, (!ends x) = false := by
    intro x hx _ _
    rw [List.getLast?_concat, Option.mem_some_iff] at hx
    rw [← hx, hlast]
    rfl
  rw [hsplit, pieces, List.splitBy_append hcut,
    List.splitBy_of_isChain hne (isChain_append_singleton h last), List.singleton_append, pieces]

/-- What holds of no piece and of one without an end, and of a piece with its end
    in front of others if it holds of these, holds of all lists. -/
@[elab_as_elim]
theorem pieces_induction (ends : α → Bool) {motive : List α → Prop} (nil : motive [])
    (opened : ∀ xs, xs ≠ [] → (∀ x ∈ xs, ends x = false) → motive xs)
    (closed : ∀ front last rest, (∀ x ∈ front, ends x = false) → ends last = true →
      motive rest → motive (front ++ last :: rest))
    (xs : List α) : motive xs := by
  -- What was passed without an end is kept in front of what is still to come.
  suffices hfront : ∀ front, (∀ x ∈ front, ends x = false) → motive (front ++ xs) from
    hfront [] nofun
  induction xs with
  | nil =>
      intro front hfront
      rw [List.append_nil]
      cases front with
      | nil => exact nil
      | cons x front => exact opened _ (List.cons_ne_nil _ _) hfront
  | cons x xs ih =>
      intro front hfront
      cases hx : ends x with
      | true => exact closed front x xs hfront hx (ih [] nofun)
      | false =>
          have hlonger : ∀ y ∈ front ++ [x], ends y = false := by
            rw [List.forall_mem_append, List.forall_mem_singleton]
            exact ⟨hfront, hx⟩
          have hmotive := ih (front ++ [x]) hlonger
          rw [List.append_assoc, List.singleton_append] at hmotive
          exact hmotive

end Multidrop
