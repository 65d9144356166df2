import Multidrop.Varuint

/-!
# The Form of Numbers

How a list of bytes can begin, as far as numbers go. A byte whose top bit is
set announces another one. So a list begins with a number that is closed
within as many bytes as a number may have, or it ends before a number is
closed, or so many bytes announce another one that no number can follow.
`form` says that there is no fourth way.

A reader finds out which of the three it is. What it has taken of a number is
all it knows, so `Decoder.holding` is a decoder as a function of the bytes it
was fed, and each of the three is read by induction on the bytes still to
come.

## Main definitions

* `value`: What some groups stand for.
* `Open`: Bytes that all announce another one.
* `Closed`: Bytes of which all but the last announce another one.
* `Form`: How a list begins.
* `Decoder.holding`: A decoder that has taken some bytes.

## Theorems

* `form`: Every list begins in one of three ways.
* `read_closed`, `read_open`, `read_endless`: What a reader makes of each.
-/

namespace Multidrop

namespace Varuint

/-- What some groups stand for, the least significant first. -/
def value : List UInt8 → Nat
  | [] => 0
  | byte :: rest => (byte &&& 0x7f).toNat + 128 * value rest

/-- Bytes that all announce another one. -/
def Open (bytes : List UInt8) : Prop :=
  ∀ byte ∈ bytes, byte &&& 0x80 ≠ 0

/-- Bytes of which all but the last announce another one. -/
inductive Closed : List UInt8 → Prop where
  | last {byte : UInt8} (h : byte &&& 0x80 = 0) : Closed [byte]
  | more {byte : UInt8} {rest : List UInt8} (h : byte &&& 0x80 ≠ 0) (hrest : Closed rest) :
      Closed (byte :: rest)

/-- How a list of bytes begins, where a number may have `limit` bytes. -/
inductive Form (limit : Nat) (bytes : List UInt8) : Prop where
  | closed (number rest : List UInt8) (h : Closed number) (hlength : number.length ≤ limit)
      (hbytes : bytes = number ++ rest)
  | opened (h : Open bytes) (hlength : bytes.length < limit)
  | endless (number rest : List UInt8) (h : Open number) (hlength : number.length = limit)
      (hbytes : bytes = number ++ rest)

theorem open_nil : Open [] := by
  intro byte hbyte
  exact absurd hbyte List.not_mem_nil

theorem open_cons {byte : UInt8} {rest : List UInt8} :
    Open (byte :: rest) ↔ byte &&& 0x80 ≠ 0 ∧ Open rest := by
  simp only [Open, List.forall_mem_cons]

theorem open_append {first second : List UInt8} :
    Open (first ++ second) ↔ Open first ∧ Open second := by
  simp only [Open, List.forall_mem_append]

theorem Closed.ne_nil {bytes : List UInt8} (h : Closed bytes) : bytes ≠ [] := by
  cases h with
  | last _ => exact List.cons_ne_nil _ _
  | more _ _ => exact List.cons_ne_nil _ _

/-- An open beginning is closed by a byte that announces no other. -/
theorem Closed.of_open {bytes : List UInt8} {byte : UInt8} (h : Open bytes)
    (hbyte : byte &&& 0x80 = 0) : Closed (bytes ++ [byte]) := by
  induction bytes with
  | nil => exact .last hbyte
  | cons first bytes ih =>
      rcases open_cons.mp h with ⟨hfirst, hrest⟩
      exact .more hfirst (ih hrest)

/-- Every list begins in one of three ways. By induction on the list, each of
    whose bytes leaves one less to come. -/
theorem form (limit : Nat) (bytes : List UInt8) : Form limit bytes := by
  induction bytes generalizing limit with
  | nil =>
      cases limit with
      | zero => exact .endless [] [] open_nil rfl rfl
      | succ limit => exact .opened open_nil (Nat.succ_pos limit)
  | cons byte bytes ih =>
      cases limit with
      | zero => exact .endless [] (byte :: bytes) open_nil rfl rfl
      | succ limit =>
          -- The first byte ends the number, or the bytes behind it say what this is.
          by_cases hbyte : byte &&& 0x80 = 0
          · exact .closed [byte] bytes (.last hbyte) (Nat.succ_le_succ (Nat.zero_le limit)) rfl
          · cases ih limit with
            | closed number rest h hlength hbytes =>
                refine .closed (byte :: number) rest (.more hbyte h) (Nat.succ_le_succ hlength) ?_
                rw [hbytes, List.cons_append]
            | opened h hlength =>
                exact .opened (open_cons.mpr ⟨hbyte, h⟩) (Nat.succ_lt_succ hlength)
            | endless number rest h hlength hbytes =>
                refine .endless (byte :: number) rest (open_cons.mpr ⟨hbyte, h⟩)
                  (congrArg Nat.succ hlength) ?_
                rw [hbytes, List.cons_append]

/-- A group takes seven bits. -/
theorem shiftLeft_group (n count : Nat) :
    n <<< (7 * (count + 1)) = 128 * n <<< (7 * count) := by
  rw [Nat.mul_succ, Nat.shiftLeft_add, Nat.shiftLeft_eq (n <<< (7 * count)), Nat.mul_comm]

/-- The groups behind others weigh as much more as those take bits. -/
theorem value_append (first second : List UInt8) :
    value (first ++ second) = value first + value second <<< (7 * first.length) := by
  induction first with
  | nil => simp only [List.nil_append, value, List.length_nil, Nat.mul_zero, Nat.shiftLeft_zero,
      Nat.zero_add]
  | cons byte first ih =>
      rw [List.cons_append, value, value, ih, List.length_cons, shiftLeft_group, Nat.mul_add,
        Nat.add_assoc]

theorem group_lt (byte : UInt8) : (byte &&& 0x7f).toNat < 128 := by
  have hle : (byte &&& 0x7f).toNat ≤ (0x7f : UInt8).toNat := by
    rw [UInt8.toNat_and]
    exact Nat.and_le_right
  exact Nat.lt_succ_of_le hle

theorem value_lt (bytes : List UInt8) : value bytes < 1 <<< (7 * bytes.length) := by
  induction bytes with
  | nil => exact Nat.one_pos
  | cons byte bytes ih =>
      have hgroup := group_lt byte
      rw [value, List.length_cons, shiftLeft_group]
      omega

/-- A decoder that has taken some bytes. -/
def Decoder.holding (taken : List UInt8) : Decoder where
  value := UInt64.ofNat (Varuint.value taken)
  consumed := taken.length

/-- What a reader says to a number that is complete. -/
def verdict (n : Nat) : Except Error (Option UInt32) :=
  if n < UInt32.size then .ok (some (UInt32.ofNat n)) else .error (.outOfRange (UInt64.ofNat n))

variable {taken number bytes rest : List UInt8} {byte : UInt8}

theorem shiftLeft_le {m n i j : Nat} (h : m ≤ n) (hij : i ≤ j) : m <<< i ≤ n <<< j := by
  rw [Nat.shiftLeft_eq, Nat.shiftLeft_eq]
  exact Nat.mul_le_mul h (Nat.pow_le_pow_right (by decide) hij)

/-- A group goes in front of the ones taken before it. -/
theorem or_group (byte : UInt8) (htaken : taken.length < maxSize) :
    UInt64.ofNat (value taken) ||| ((byte &&& 0x7f).toUInt64 <<< (7 * taken.length).toUInt64) =
      UInt64.ofNat (value (taken ++ [byte])) := by
  have hgroup := group_lt byte
  have hshift : 7 * taken.length ≤ 28 := by
    simp only [maxSize] at htaken
    omega
  have hn : value taken < 1 <<< 28 :=
    Nat.lt_of_lt_of_le (value_lt taken) (shiftLeft_le (Nat.le_refl 1) hshift)
  -- The highest group stands at bit 28, far from the end of the word.
  have hle : (byte &&& 0x7f).toNat <<< (7 * taken.length) ≤ 128 <<< 28 :=
    shiftLeft_le (Nat.le_of_lt hgroup) hshift
  have hvalue : value (taken ++ [byte]) =
      value taken + (byte &&& 0x7f).toNat <<< (7 * taken.length) := by
    rw [value_append, value, value, Nat.mul_zero, Nat.add_zero]
  have hsum : value taken + (byte &&& 0x7f).toNat <<< (7 * taken.length) < UInt64.size :=
    Nat.lt_of_lt_of_le (Nat.add_lt_add_of_lt_of_le hn hle) (by decide)
  -- Nothing is shifted out, and the bits below the group are all its own.
  have hbelow := value_lt taken
  rw [Nat.one_shiftLeft] at hbelow
  rw [hvalue]
  apply UInt64.toNat_inj.mp
  rw [UInt64.toNat_or, UInt64.toNat_shiftLeft, UInt8.toNat_toUInt64, Nat.toUInt64,
    UInt64.toNat_ofNat_of_lt' (Nat.lt_of_le_of_lt hshift (by decide)),
    UInt64.toNat_ofNat_of_lt' (Nat.lt_of_lt_of_le hn (by decide)),
    UInt64.toNat_ofNat_of_lt' hsum, Nat.mod_eq_of_lt (show 7 * taken.length < 64 by omega),
    Nat.mod_eq_of_lt (Nat.lt_of_le_of_lt hle (by decide)), Nat.or_comm,
    ← Nat.shiftLeft_add_eq_or_of_lt hbelow, Nat.add_comm]

/-- A byte that announces another one is kept. -/
theorem push_open (hbyte : byte &&& 0x80 ≠ 0) (htaken : taken.length + 1 < maxSize) :
    (Decoder.holding taken).push byte = (.ok none, Decoder.holding (taken ++ [byte])) := by
  have hor := or_group byte (Nat.lt_of_succ_lt htaken)
  simp only [Decoder.push, Decoder.holding, hor, if_neg hbyte, if_neg (Nat.not_le.mpr htaken),
    List.length_append, List.length_cons, List.length_nil, Nat.zero_add]

/-- The last byte that a number may have must not announce another one. -/
theorem push_endless (hbyte : byte &&& 0x80 ≠ 0) (htaken : taken.length + 1 = maxSize) :
    ((Decoder.holding taken).push byte).1 = .error .overlong := by
  have hfull : (Decoder.holding taken).consumed + 1 ≥ maxSize := Nat.le_of_eq htaken.symm
  simp only [Decoder.push, if_neg hbyte, if_pos hfull]

/-- A byte that announces no other closes the number. -/
theorem push_closed (hbyte : byte &&& 0x80 = 0) (htaken : taken.length < maxSize) :
    (Decoder.holding taken).push byte = (verdict (value (taken ++ [byte])), {}) := by
  have hor := or_group byte htaken
  have hlt : value (taken ++ [byte]) < UInt64.size := by
    have hshift : 7 * (taken ++ [byte]).length ≤ 35 := by
      rw [List.length_append, List.length_singleton]
      simp only [maxSize] at htaken
      omega
    have hpow : 1 <<< (7 * (taken ++ [byte]).length) ≤ 1 <<< 35 :=
      shiftLeft_le (Nat.le_refl 1) hshift
    exact Nat.lt_of_lt_of_le (value_lt (taken ++ [byte])) (Nat.le_trans hpow (by decide))
  -- The comparison of words is the comparison of what they hold.
  have hrange : UInt64.ofNat (value (taken ++ [byte])) ≤ 0xffffffff ↔
      value (taken ++ [byte]) < UInt32.size := by
    rw [UInt64.le_iff_toNat_le, UInt64.toNat_ofNat_of_lt' hlt]
    exact Nat.lt_succ_iff.symm
  simp only [Decoder.push, Decoder.holding, hor, if_pos hbyte, hrange, verdict]
  by_cases hsmall : value (taken ++ [byte]) < UInt32.size
  · rw [if_pos hsmall, if_pos hsmall, UInt64.toUInt32_ofNat']
  · rw [if_neg hsmall, if_neg hsmall]

/-- A number that goes on behind bytes taken already is read to its end. -/
theorem readFrom_closed (h : Closed number) (hlength : (taken ++ number).length ≤ maxSize)
    (rest : List UInt8) :
    readFrom (Decoder.holding taken) (number ++ rest) =
      (verdict (value (taken ++ number)), rest) := by
  induction h generalizing taken with
  | @last byte hbyte =>
      have htaken : taken.length < maxSize := by
        rw [List.length_append, List.length_singleton] at hlength
        exact hlength
      rw [List.singleton_append, readFrom, push_closed hbyte htaken, verdict]
      by_cases hsmall : value (taken ++ [byte]) < UInt32.size
      · rw [if_pos hsmall]
      · rw [if_neg hsmall]
  | @more byte number hbyte hclosed ih =>
      have hsplit : taken ++ byte :: number = (taken ++ [byte]) ++ number := by
        rw [List.append_assoc, List.singleton_append]
      have hpos := List.length_pos_iff.mpr hclosed.ne_nil
      -- The byte is added to those taken, and the rest is read behind them.
      have htaken : taken.length + 1 < maxSize := by
        rw [List.length_append, List.length_cons] at hlength
        omega
      rw [List.cons_append, readFrom, push_open hbyte htaken]
      simp only []
      rw [ih (by rw [← hsplit]; exact hlength), hsplit]

/-- Bytes that all announce another one are used up, and no number yet. -/
theorem readFrom_open (h : Open bytes) (hlength : (taken ++ bytes).length < maxSize) :
    readFrom (Decoder.holding taken) bytes = (.ok none, []) := by
  induction bytes generalizing taken with
  | nil => rfl
  | cons byte bytes ih =>
      rcases open_cons.mp h with ⟨hbyte, hrest⟩
      have htaken : taken.length + 1 < maxSize := by
        rw [List.length_append, List.length_cons] at hlength
        omega
      rw [readFrom, push_open hbyte htaken]
      refine ih hrest ?_
      rw [List.append_assoc, List.singleton_append]
      exact hlength

/-- Too many bytes that announce another one are an error. -/
theorem readFrom_endless (h : Open number) (hne : number ≠ [])
    (hlength : (taken ++ number).length = maxSize) (rest : List UInt8) :
    readFrom (Decoder.holding taken) (number ++ rest) = (.error .overlong, rest) := by
  induction number generalizing taken with
  | nil => exact absurd rfl hne
  | cons byte number ih =>
      rcases open_cons.mp h with ⟨hbyte, hrest⟩
      rw [List.length_append, List.length_cons] at hlength
      by_cases hnil : number = []
      · -- This is the last byte that a number may have.
        have htaken : taken.length + 1 = maxSize := by
          rw [hnil, List.length_nil] at hlength
          exact hlength
        have hpush := push_endless hbyte htaken
        rw [hnil, List.singleton_append, readFrom]
        split
        · rename_i hpush'
          rw [hpush'] at hpush
          simp only [reduceCtorEq] at hpush
        · rename_i hpush'
          rw [hpush'] at hpush
          simp only [reduceCtorEq] at hpush
        · rename_i e d hpush'
          rw [hpush'] at hpush
          rw [Except.error.inj hpush]
      · have hpos := List.length_pos_iff.mpr hnil
        rw [List.cons_append, readFrom, push_open hbyte (by omega)]
        refine ih hrest hnil ?_
        rw [List.append_assoc, List.singleton_append, List.length_append, List.length_cons]
        exact hlength

/-- Closed bytes in front of a list are read, as the number they stand for if
    that is in range, and what follows them is left. -/
theorem read_closed (h : Closed number) (hlength : number.length ≤ maxSize)
    (rest : List UInt8) : read (number ++ rest) = (verdict (value number), rest) := by
  have hempty : ([] ++ number).length ≤ maxSize := hlength
  exact readFrom_closed h hempty rest

/-- A list that ends before a number is closed is used up. -/
theorem read_open (h : Open bytes) (hlength : bytes.length < maxSize) :
    read bytes = (.ok none, []) := by
  have hempty : ([] ++ bytes).length < maxSize := hlength
  exact readFrom_open h hempty

/-- As many bytes as a number may have are taken where all of them announce
    another one. -/
theorem read_endless (h : Open number) (hlength : number.length = maxSize)
    (rest : List UInt8) : read (number ++ rest) = (.error .overlong, rest) := by
  have hne : number ≠ [] := by
    intro hnil
    rw [hnil] at hlength
    exact absurd hlength (by decide)
  have hempty : ([] ++ number).length = maxSize := hlength
  exact readFrom_endless h hne hempty rest

end Varuint

end Multidrop
