import Mathlib.Data.List.DropRight
import Multidrop.Proofs.Pieces
import Multidrop.Proofs.Varuint.Form

/-!
# Numbers One Behind the Other

One decoder takes a whole stream of numbers. A number ends with the first byte
that announces no other, so the stream is cut behind each of these, and along
every piece the decoder says what a reader would say to the piece alone. For
that it has to be as new behind each number, in range or not, and all that it
says depends on the piece it is in.

It counts the bytes of the number in progress, and each is shifted by seven
places more than the one in front of it. While numbers end in time the shift
stays far below the width of a word. But the decoder does not stop at a number
that is overlong, and is not as new behind it: pushed on, it counts on, until
a byte announces no other. So how far a byte is shifted is told by the bytes
since the last one that closed a number, and has no bound.

## Main definitions

* `Decoder.after`: A decoder behind some bytes.
* `Decoder.Pushes`: All that a push can do.
* `Decoder.seen`: What is seen of a decoder along some bytes.
* `views`: The same of a piece alone.
* `InStream`: A push into a stream of numbers.
* `unfinished`: The bytes of the number in progress.

## Theorems

* `seen_piece`: A decoder that is as new along one piece.
* `streams`: A decoder along a stream of numbers.
* `consumed_after`: A decoder counts the bytes of the number in progress.
* `shift_in_range`: How far a push shifts.
* `shift_leaves_range`: Ten bytes that bring it out of range.
-/

namespace Multidrop

namespace Varuint

/-- Whether a byte announces no other, so that a number ends with it. -/
def closes (byte : UInt8) : Bool :=
  byte &&& 0x80 = 0

/-- A piece begins with as many bytes that announce another one as a number may
    have. -/
def Overruns (piece : List UInt8) : Prop :=
  maxSize ≤ piece.length ∧ Open (piece.take maxSize)

/-- A decoder behind some bytes, whatever it said to them. -/
def Decoder.after (d : Decoder) (bytes : List UInt8) : Decoder :=
  bytes.foldl (fun d byte => (d.push byte).2) d

/-- What is seen of a decoder along some bytes: what it says to each, and how many
    bytes it has taken of the number in progress. -/
def Decoder.seen (d : Decoder) (bytes : List UInt8) : List (Except Error (Option UInt32) × Nat) :=
  (d.pushAll bytes).map fun step => (step.1, step.2.consumed)

/-- What there is to see along a piece: at its last byte what the piece is read as,
    and nothing yet at the others; and how many bytes of it are unfinished. -/
def views (piece : List UInt8) : List (Except Error (Option UInt32) × Nat) :=
  piece.mapIdx fun place byte =>
    (if place + 1 = piece.length then (read piece).1 else .ok none,
      if closes byte then 0 else place + 1)

/-- The bytes of the number in progress: those behind the last byte that closes
    one. -/
def unfinished (bytes : List UInt8) : List UInt8 :=
  bytes.rtakeWhile (!closes ·)

/-- All that a push can do. Only a byte that closes the number makes the decoder as
    new. -/
inductive Decoder.Pushes (d : Decoder) (byte : UInt8) :
    Except Error (Option UInt32) × Decoder → Prop where
  | number (n : UInt32) (h : closes byte = true) : Pushes d byte (.ok (some n), {})
  | outOfRange (n : UInt64) (h : closes byte = true) : Pushes d byte (.error (.outOfRange n), {})
  | more (d' : Decoder) (h : closes byte = false) (hconsumed : d'.consumed = d.consumed + 1)
      (hshort : d'.consumed < maxSize) : Pushes d byte (.ok none, d')
  | overlong (d' : Decoder) (h : closes byte = false) (hconsumed : d'.consumed = d.consumed + 1)
      (hlong : maxSize ≤ d'.consumed) : Pushes d byte (.error .overlong, d')

/-- A push into a stream of numbers: it completes a number, in range or not, and
    leaves the decoder as new, or leaves a number in progress. -/
def InStream : Except Error (Option UInt32) × Decoder → Prop
  | (.ok (some _), d) => d = {}
  | (.error (.outOfRange _), d) => d = {}
  | (.ok none, d) => d.consumed ≠ 0
  | (.error .overlong, _) => False

instance (piece : List UInt8) : Decidable (Overruns piece) :=
  inferInstanceAs (Decidable (_ ∧ ∀ byte ∈ _, _))

variable {taken piece front bytes : List UInt8} {byte last : UInt8} {d : Decoder}
  {step : Except Error (Option UInt32) × Decoder}

theorem closes_iff : closes byte = true ↔ byte &&& 0x80 = 0 :=
  decide_eq_true_iff

theorem not_closes_iff : closes byte = false ↔ byte &&& 0x80 ≠ 0 :=
  decide_eq_false_iff_not

theorem open_iff : Open bytes ↔ ∀ byte ∈ bytes, closes byte = false := by
  simp only [Open, not_closes_iff]

/-! ### Pushes -/

theorem Decoder.push_pushes (d : Decoder) (byte : UInt8) : d.Pushes byte (d.push byte) := by
  simp only [Decoder.push]
  by_cases hbyte : byte &&& 0x80 = 0
  · rw [if_pos hbyte]
    split
    · exact .number _ (closes_iff.mpr hbyte)
    · exact .outOfRange _ (closes_iff.mpr hbyte)
  · rw [if_neg hbyte]
    split
    · rename_i hlong
      exact .overlong _ (not_closes_iff.mpr hbyte) rfl hlong
    · rename_i hshort
      exact .more _ (not_closes_iff.mpr hbyte) rfl (Nat.not_le.mp hshort)

/-- A decoder counts, and begins anew behind a byte that closes a number. -/
theorem consumed_push (d : Decoder) (byte : UInt8) :
    (d.push byte).2.consumed = if closes byte then 0 else d.consumed + 1 := by
  have hpushes := d.push_pushes byte
  generalize d.push byte = step at hpushes
  cases hpushes with
  | number n h => rw [if_pos h]
  | outOfRange n h => rw [if_pos h]
  | more d' h hconsumed _ => rw [hconsumed, h, if_neg Bool.false_ne_true]
  | overlong d' h hconsumed _ => rw [hconsumed, h, if_neg Bool.false_ne_true]

theorem after_append (d : Decoder) (first second : List UInt8) :
    d.after (first ++ second) = (d.after first).after second :=
  List.foldl_append

theorem after_cons (d : Decoder) (byte : UInt8) (bytes : List UInt8) :
    d.after (byte :: bytes) = (d.push byte).2.after bytes := rfl

theorem after_snoc (d : Decoder) (bytes : List UInt8) (byte : UInt8) :
    d.after (bytes ++ [byte]) = ((d.after bytes).push byte).2 :=
  after_append d bytes [byte]

theorem pushAll_append (d : Decoder) (first second : List UInt8) :
    d.pushAll (first ++ second) = d.pushAll first ++ (d.after first).pushAll second := by
  induction first generalizing d with
  | nil => rfl
  | cons byte first ih => exact congrArg (d.push byte :: ·) (ih _)

theorem seen_cons (d : Decoder) (byte : UInt8) (bytes : List UInt8) :
    d.seen (byte :: bytes) =
      ((d.push byte).1, (d.push byte).2.consumed) :: (d.push byte).2.seen bytes := rfl

theorem seen_append (d : Decoder) (first second : List UInt8) :
    d.seen (first ++ second) = d.seen first ++ (d.after first).seen second := by
  rw [Decoder.seen, pushAll_append, List.map_append, ← Decoder.seen, ← Decoder.seen]

/-- Whatever a push does, it is one into a stream unless it is overlong. -/
theorem Decoder.Pushes.inStream (h : d.Pushes byte step) (hstep : step.1 ≠ .error .overlong) :
    InStream step := by
  cases h with
  | number n _ => exact rfl
  | outOfRange n _ => exact rfl
  | more d' _ hconsumed _ =>
      change d'.consumed ≠ 0
      omega
  | overlong d' _ _ _ => exact hstep rfl

/-- Each step of a run is a push. -/
theorem exists_pushes (h : step ∈ d.pushAll bytes) :
    ∃ d' byte, Decoder.Pushes d' byte step := by
  induction bytes generalizing d with
  | nil => exact absurd h List.not_mem_nil
  | cons byte bytes ih =>
      rcases List.mem_cons.mp h with hfirst | hrest
      · exact ⟨d, byte, hfirst ▸ d.push_pushes byte⟩
      · exact ih hrest

/-! ### Along a piece -/

/-- Bytes that all announce another one are taken, as long as there may be one. By
    induction on the bytes, each of which is held with those taken before. -/
theorem seen_open (h : Open bytes) (hlength : (taken ++ bytes).length < maxSize) :
    (Decoder.holding taken).seen bytes =
        bytes.mapIdx (fun place _ => (.ok none, taken.length + (place + 1))) ∧
      (Decoder.holding taken).after bytes = Decoder.holding (taken ++ bytes) := by
  induction bytes generalizing taken with
  | nil =>
      rw [List.append_nil]
      exact ⟨rfl, rfl⟩
  | cons byte bytes ih =>
      rcases open_cons.mp h with ⟨hbyte, hrest⟩
      have hsplit : taken ++ byte :: bytes = (taken ++ [byte]) ++ bytes := by
        rw [List.append_assoc, List.singleton_append]
      have hshort : taken.length + 1 < maxSize := by
        rw [List.length_append, List.length_cons] at hlength
        omega
      -- Seen from the bytes behind the first, one more is taken already.
      have hcount : ∀ place, (taken ++ [byte]).length + (place + 1) =
          taken.length + (place + 1 + 1) := by
        intro place
        rw [List.length_append, List.length_singleton]
        omega
      rw [hsplit] at hlength ⊢
      rcases ih hrest hlength with ⟨hseen, hafter⟩
      refine ⟨?_, by rw [after_cons, push_open hbyte hshort, hafter]⟩
      have hfirst : (Decoder.holding (taken ++ [byte])).consumed = taken.length + (0 + 1) :=
        List.length_append
      rw [seen_cons, push_open hbyte hshort, hseen, List.mapIdx_cons, hfirst]
      simp only [hcount]

/-- A decoder that is as new holds what it takes, and counts from the first. -/
theorem seen_new (h : Open bytes) (hlength : bytes.length < maxSize) :
    Decoder.seen {} bytes = bytes.mapIdx (fun place _ => (.ok none, place + 1)) ∧
      Decoder.after {} bytes = Decoder.holding bytes := by
  have hopen := @seen_open [] bytes h hlength
  simp only [List.length_nil, Nat.zero_add, List.nil_append] at hopen
  exact hopen

/-- Along a piece that is not closed there is nothing to see yet. -/
theorem views_open (h : Open piece) (hlength : piece.length < maxSize) :
    views piece = piece.mapIdx fun place _ => (.ok none, place + 1) := by
  rw [views, List.mapIdx_eq_mapIdx_iff]
  intro place hplace
  have hbyte := open_iff.mp h piece[place] (List.getElem_mem hplace)
  rw [read_open h hlength, ite_self, hbyte, if_neg Bool.false_ne_true]

/-- A piece that is closed is read to its end. -/
theorem read_piece (h : Open front) (hlast : closes last = true)
    (hlength : front.length < maxSize) :
    (read (front ++ [last])).1 = verdict (value (front ++ [last])) := by
  have hclosed : Closed (front ++ [last]) := Closed.of_open h (closes_iff.mp hlast)
  have hshort : (front ++ [last]).length ≤ maxSize := by
    rw [List.length_append, List.length_singleton]
    exact hlength
  have hread := read_closed hclosed hshort []
  rw [List.append_nil] at hread
  rw [hread]

/-- Along a piece that is closed there is something to see at the last byte. -/
theorem views_closed (h : Open front) (hlast : closes last = true)
    (hlength : front.length < maxSize) :
    views (front ++ [last]) =
      front.mapIdx (fun place _ => (.ok none, place + 1)) ++
        [(verdict (value (front ++ [last])), 0)] := by
  rw [views, List.mapIdx_concat, List.length_append, List.length_singleton, if_pos rfl,
    read_piece h hlast hlength, if_pos hlast]
  congr 1
  -- No byte in front of the last stands where the piece ends.
  rw [List.mapIdx_eq_mapIdx_iff]
  intro place hplace
  have hbyte := open_iff.mp h front[place] (List.getElem_mem hplace)
  rw [if_neg (by omega), hbyte, if_neg Bool.false_ne_true]

/-- A decoder that is as new says along one piece what a reader says to the piece,
    and is as new behind it. -/
theorem seen_piece (h : Open front) (hlast : closes last = true)
    (hlength : front.length < maxSize) :
    Decoder.seen {} (front ++ [last]) = views (front ++ [last]) ∧
      Decoder.after {} (front ++ [last]) = {} := by
  have hpush := push_closed (closes_iff.mp hlast) hlength
  rcases seen_new h hlength with ⟨hseen, hafter⟩
  constructor
  · rw [seen_append, hafter, hseen, seen_cons, hpush, views_closed h hlast hlength]
    rfl
  · rw [after_snoc, hafter, hpush]

/-- A piece that does not overrun has room for one byte behind those that announce
    another one. -/
theorem length_lt_of_not_overruns (h : Open front) (hfront : front <+: piece)
    (hfits : ¬ Overruns piece) : front.length < maxSize := by
  rcases hfront with ⟨back, hpiece⟩
  refine Nat.lt_of_not_le fun hlong => hfits ⟨?_, ?_⟩
  · rw [← hpiece, List.length_append]
    omega
  · rw [← hpiece, List.take_append_of_le_length hlong]
    exact fun byte hbyte => h byte (List.mem_of_mem_take hbyte)

/-- Along a piece nothing is overlong unless the piece is. -/
theorem views_ne_overlong (h : (read piece).1 ≠ .error .overlong) :
    ∀ view ∈ views piece, view.1 ≠ .error .overlong := by
  intro view hview
  rcases List.mem_mapIdx.mp hview with ⟨place, hplace, hat⟩
  rw [← hat]
  split
  · exact h
  · exact nofun

theorem verdict_ne_overlong (n : Nat) : verdict n ≠ .error .overlong := by
  intro h
  rw [verdict] at h
  split at h
  · simp only [reduceCtorEq] at h
  · simp only [Except.error.injEq, reduceCtorEq] at h

/-! ### Along a stream -/

/-- A decoder says along a stream what a reader says to its pieces, and to none of
    them that it is overlong. By induction over the pieces, behind each of which the
    decoder is as new. -/
theorem seen_stream (h : ∀ piece ∈ pieces closes bytes, ¬ Overruns piece) :
    Decoder.seen {} bytes = (pieces closes bytes).flatMap views ∧
      ∀ piece ∈ pieces closes bytes, (read piece).1 ≠ .error .overlong := by
  induction bytes using pieces_induction closes with
  | nil => exact ⟨rfl, nofun⟩
  -- The last piece may lack its end, and then no verdict was given on it.
  | opened piece hne hopen =>
      rw [pieces_open hopen hne, List.forall_mem_singleton] at h ⊢
      rw [← open_iff] at hopen
      have hlength := length_lt_of_not_overruns hopen (List.prefix_refl piece) h
      rw [List.flatMap_singleton, views_open hopen hlength, read_open hopen hlength]
      exact ⟨(seen_new hopen hlength).1, nofun⟩
  -- A piece with its end is decided by it, and the next one begins anew.
  | closed front last rest hopen hlast ih =>
      rw [pieces_append hopen hlast, List.forall_mem_cons] at h ⊢
      rw [← open_iff] at hopen
      have hlength := length_lt_of_not_overruns hopen (List.prefix_append front [last]) h.1
      have hsplit : front ++ last :: rest = (front ++ [last]) ++ rest := by
        rw [List.append_assoc, List.singleton_append]
      rcases seen_piece hopen hlast hlength with ⟨hseen, hafter⟩
      rcases ih h.2 with ⟨hrest, hoverlong⟩
      refine ⟨?_, ?_, hoverlong⟩
      · rw [hsplit, seen_append, hseen, hafter, hrest, List.flatMap_cons]
      · rw [read_piece hopen hlast hlength]
        exact verdict_ne_overlong _

/-- One decoder takes a whole stream of numbers. Where no piece begins with five
    bytes that announce another one, it says at the last byte of each piece what a
    reader says to the piece alone, and nothing yet at all others; it has taken as
    many bytes as the piece in progress has; and where it said something, a number
    or that it is out of range, it is as new. -/
theorem streams (bytes : List UInt8) (h : ∀ piece ∈ pieces closes bytes, ¬ Overruns piece) :
    Decoder.seen {} bytes = (pieces closes bytes).flatMap views ∧
      ∀ step ∈ Decoder.pushAll {} bytes, InStream step := by
  rcases seen_stream h with ⟨hseen, hoverlong⟩
  refine ⟨hseen, fun step hstep => ?_⟩
  rcases exists_pushes hstep with ⟨d, byte, hpushes⟩
  apply hpushes.inStream
  -- What it said is among what is seen along some piece.
  have hview : (step.1, step.2.consumed) ∈ Decoder.seen {} bytes :=
    List.mem_map.mpr ⟨step, hstep, rfl⟩
  rw [hseen, List.mem_flatMap] at hview
  rcases hview with ⟨piece, hpiece, hview⟩
  exact views_ne_overlong (hoverlong piece hpiece) _ hview

/-- Two numbers, one that is out of range, and the beginning of another. -/
theorem streams_out_of_range :
    (∀ piece ∈ pieces closes [0x85, 0x01, 0x07, 0xff, 0xff, 0xff, 0xff, 0x7f, 0x80],
        ¬ Overruns piece) ∧
      Decoder.seen {} [0x85, 0x01, 0x07, 0xff, 0xff, 0xff, 0xff, 0x7f, 0x80] =
        [(.ok none, 1), (.ok (some 0x85), 0), (.ok (some 7), 0), (.ok none, 1), (.ok none, 2),
          (.ok none, 3), (.ok none, 4), (.error (.outOfRange 0x7ffffffff), 0), (.ok none, 1)] ∧
      ∀ step ∈ Decoder.pushAll {} [0x85, 0x01, 0x07, 0xff, 0xff, 0xff, 0xff, 0x7f, 0x80],
        InStream step := by
  have hfits : ∀ piece ∈ pieces closes [0x85, 0x01, 0x07, 0xff, 0xff, 0xff, 0xff, 0x7f, 0x80],
      ¬ Overruns piece := by
    decide +kernel
  rcases streams _ hfits with ⟨hseen, hsteps⟩
  refine ⟨hfits, ?_, hsteps⟩
  rw [hseen]
  decide +kernel

/-! ### How far a push shifts -/

/-- A decoder counts the bytes of the number in progress, whatever it said to them
    and to those in front of them. -/
theorem consumed_after (bytes : List UInt8) :
    (Decoder.after {} bytes).consumed = (unfinished bytes).length := by
  induction bytes using List.reverseRecOn with
  | nil => rfl
  | append_singleton bytes byte ih =>
      rw [after_snoc, consumed_push, ih, unfinished, unfinished, List.rtakeWhile_concat]
      cases closes byte with
      | true => rfl
      | false =>
          rw [if_neg Bool.false_ne_true, Bool.not_false, if_pos rfl, List.length_append]
          rfl

/-- A push says that a number is overlong just if the decoder has taken so many
    bytes. -/
theorem overlong_iff (d : Decoder) (byte : UInt8) :
    (d.push byte).1 = .error .overlong ↔ maxSize ≤ (d.push byte).2.consumed := by
  have hpushes := d.push_pushes byte
  generalize d.push byte = step at hpushes
  cases hpushes with
  | number n _ => exact iff_of_false nofun (Nat.not_succ_le_zero 4)
  | outOfRange n _ => exact iff_of_false nofun (Nat.not_succ_le_zero 4)
  | more d' _ _ hshort => exact iff_of_false nofun (Nat.not_le.mpr hshort)
  | overlong d' _ _ hlong => exact iff_of_true rfl hlong

/-- What was said last is what was said to the last byte. -/
theorem getLast?_pushAll (bytes : List UInt8) (byte : UInt8) :
    (Decoder.pushAll {} (bytes ++ [byte])).getLast? =
      some ((Decoder.after {} bytes).push byte) := by
  rw [pushAll_append]
  exact List.getLast?_concat

/-- Whatever bytes a decoder was fed, and whatever it said to them, the next push
    shifts within a word just if fewer than ten bytes have announced another one
    since the last that did not. It shifts by no more than four groups just if the
    push in front of it did not say that the number is overlong. -/
theorem shift_in_range (bytes : List UInt8) :
    (7 * (Decoder.after {} bytes).consumed < 64 ↔ (unfinished bytes).length < 10) ∧
    (7 * (Decoder.after {} bytes).consumed ≤ 28 ↔
      ∀ step ∈ (Decoder.pushAll {} bytes).getLast?, step.1 ≠ .error .overlong) := by
  constructor
  · rw [consumed_after]
    omega
  · cases bytes using List.reverseRecOn with
    | nil => exact iff_of_true (by decide) nofun
    | append_singleton bytes byte =>
        rw [after_snoc, getLast?_pushAll]
        simp only [Option.mem_some_iff, forall_eq', Ne, overlong_iff, maxSize]
        omega

/-- Ten bytes that announce another one, behind which a push would shift by more
    than a word has. -/
theorem shift_leaves_range :
    ¬ 7 * (Decoder.after {} (List.replicate 10 0x80)).consumed < 64 := by
  decide

end Varuint

end Multidrop
