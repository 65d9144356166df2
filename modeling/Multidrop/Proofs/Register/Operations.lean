import Mathlib.Data.List.Forall2
import Multidrop.Proofs.Register.Request
import Multidrop.Proofs.Register.Value

/-!
# Operations Are Read Back

What a device receives of a request is bytes. Each operation is written with an
identifier, which tells how it goes on: with one number or two, and with values
whose width and count are known by then. So the first operation is read back from
the bytes it begins, whatever follows, and from that, one after another, all of
them: two requests with the same bytes ask for the same things.

What is not in the bytes is whether an answer is wanted. It is told by the last
operation that says anything about it, be it by asking or by reading. An operation
that is refused is in neither: the request behind it is the one in front of it.

## Main definitions

* `Operation.Refused`: Operations that are refused, and why.
* `Operation.read?`: The operation that some bytes begin with.
* `Request.taken`: The operations that were not refused when they were tried.

## Theorems

* `attempt_error_iff`, `attempt_refused`: What is refused, and what comes of it.
* `Operation.read?_encode`: An operation is read back from what it begins.
* `flatten_inj`: So are all operations of a run.
* `attemptAll_bytes`, `expectsResponse_iff`: The request behind a run.
* `operations_decodable`: Requests and the operations they were built from.
-/

namespace Multidrop

namespace Register

variable {op : Operation} {ops : List Operation} {expected : Kind} {values : List Value}
  {bytes : List UInt8} {e : Error}

/-! ### What is refused -/

/-- Operations that are refused: writing no values, and writing values of which one is
    not of the type of the first. The first such value is told by its place. -/
inductive Operation.Refused : Operation → Error → Prop
  | empty (start : UInt32) : Refused (.writeMultiple start []) .emptyValues
  | mixed (start : UInt32) {first other : Value} {same rest : List Value}
      (hsame : ∀ v ∈ same, v.kind = first.kind) (hother : other.kind ≠ first.kind) :
      Refused (.writeMultiple start (first :: (same ++ other :: rest)))
        (.mixedKinds first.kind other.kind (same.length + 1))

theorem firstOfOtherKind_eq_none_iff {index : Nat} :
    firstOfOtherKind expected index values = none ↔ ∀ v ∈ values, v.kind = expected := by
  induction values generalizing index with
  | nil => exact ⟨fun _ v hv => absurd hv List.not_mem_nil, fun _ => rfl⟩
  | cons v values ih =>
      rw [firstOfOtherKind, List.forall_mem_cons]
      by_cases hkind : v.kind = expected
      · rw [if_pos hkind, ih]
        exact ⟨fun h => ⟨hkind, h⟩, fun h => h.2⟩
      · rw [if_neg hkind]
        exact ⟨nofun, fun h => absurd h.1 hkind⟩

theorem firstOfOtherKind_eq_some_iff {index place : Nat} {found : Kind} :
    firstOfOtherKind expected index values = some (place, found) ↔
      ∃ same other rest, values = same ++ other :: rest ∧ (∀ v ∈ same, v.kind = expected) ∧
        other.kind ≠ expected ∧ found = other.kind ∧ place = same.length + index := by
  induction values generalizing index with
  | nil =>
      refine ⟨nofun, fun h => ?_⟩
      rcases h with ⟨same, other, rest, hvalues, -⟩
      exact absurd hvalues (List.append_ne_nil_of_right_ne_nil _ (List.cons_ne_nil _ _)).symm
  | cons v values ih =>
      rw [firstOfOtherKind]
      by_cases hkind : v.kind = expected
      · -- A value of the kind expected is one more in front of the first other.
        rw [if_pos hkind, ih]
        constructor
        · rintro ⟨same, other, rest, hvalues, hsame, hother, hfound, hplace⟩
          refine ⟨v :: same, other, rest, by rw [hvalues]; rfl,
            List.forall_mem_cons.mpr ⟨hkind, hsame⟩, hother, hfound, ?_⟩
          rw [hplace, List.length_cons]
          omega
        · rintro ⟨same, other, rest, hvalues, hsame, hother, hfound, hplace⟩
          cases same with
          | nil =>
              rw [List.nil_append, List.cons.injEq] at hvalues
              exact absurd (hvalues.1 ▸ hkind) hother
          | cons first same =>
              rw [List.cons_append, List.cons.injEq] at hvalues
              refine ⟨same, other, rest, hvalues.2, (List.forall_mem_cons.mp hsame).2, hother,
                hfound, ?_⟩
              rw [hplace, List.length_cons]
              omega
      · -- This is the first other one, so no value can stand in front of it.
        rw [if_neg hkind, Option.some.injEq, Prod.mk.injEq]
        constructor
        · rintro ⟨hplace, hfound⟩
          exact ⟨[], v, values, rfl, fun w hw => absurd hw List.not_mem_nil, hkind, hfound.symm,
            by rw [← hplace, List.length_nil, Nat.zero_add]⟩
        · rintro ⟨same, other, rest, hvalues, hsame, hother, hfound, hplace⟩
          cases same with
          | nil =>
              rw [List.nil_append, List.cons.injEq] at hvalues
              rw [hfound, hplace, List.length_nil, Nat.zero_add, hvalues.1]
              exact ⟨rfl, rfl⟩
          | cons first same =>
              rw [List.cons_append, List.cons.injEq] at hvalues
              exact absurd (hvalues.1 ▸ (List.forall_mem_cons.mp hsame).1) hkind

/-- Values have a type in common just if there are some and all are of it. -/
theorem commonKind_ok_iff {kind : Kind} :
    commonKind values = .ok kind ↔ values ≠ [] ∧ ∀ v ∈ values, v.kind = kind := by
  cases values with
  | nil => exact ⟨nofun, fun h => absurd rfl h.1⟩
  | cons first values =>
      rw [commonKind, List.forall_mem_cons]
      rcases hother : firstOfOtherKind first.kind 1 values with _ | ⟨place, found⟩
      · have hsame := firstOfOtherKind_eq_none_iff.mp hother
        simp only [Except.ok.injEq]
        exact ⟨fun h => ⟨List.cons_ne_nil _ _, h, h ▸ hsame⟩, fun h => h.2.1⟩
      · simp only [reduceCtorEq, false_iff]
        rintro ⟨-, hfirst, hvalues⟩
        rw [hfirst, firstOfOtherKind_eq_none_iff.mpr hvalues] at hother
        exact absurd hother nofun

/-- An operation has no sub-frame just if it is refused. -/
theorem encode_error_iff : op.encode = .error e ↔ op.Refused e := by
  constructor
  · intro hencode
    cases op with
    | readSingle register kind => exact absurd hencode nofun
    | readMultiple register count kind => exact absurd hencode nofun
    | writeSingle register value => exact absurd hencode nofun
    | expectResponse expect => exact absurd hencode nofun
    -- Only several values at once can be refused: none at all, or of mixed kinds.
    | writeMultiple start values =>
        cases values with
        | nil =>
            simp only [Operation.encode, commonKind, Except.error.injEq] at hencode
            rw [← hencode]
            exact .empty start
        | cons first values =>
            rw [Operation.encode, commonKind] at hencode
            rcases hother : firstOfOtherKind first.kind 1 values with _ | ⟨place, found⟩
            · simp only [hother, reduceCtorEq] at hencode
            · simp only [hother, Except.error.injEq] at hencode
              rcases firstOfOtherKind_eq_some_iff.mp hother with
                ⟨same, other, rest, hvalues, hsame, hkind, hfound, hplace⟩
              rw [← hencode, hvalues, hfound, hplace]
              exact .mixed start hsame hkind
  · intro hrefused
    cases hrefused with
    | empty start => rfl
    | @mixed start first other same rest hsame hother =>
        have hfirst : firstOfOtherKind first.kind 1 (same ++ other :: rest) =
            some (same.length + 1, other.kind) :=
          firstOfOtherKind_eq_some_iff.mpr ⟨same, other, rest, rfl, hsame, hother, rfl, rfl⟩
        simp only [Operation.encode, commonKind, hfirst]

/-! ### What is read back -/

/-- The number that some bytes begin with. -/
def number? (bytes : List UInt8) : Option (UInt32 × List UInt8) :=
  match Varuint.read bytes with
  | (.ok (some n), rest) => some (n, rest)
  | _ => none

@[simp]
theorem number?_encode (n : UInt32) (rest : List UInt8) :
    number? (Varuint.encode n ++ rest) = some (n, rest) := by
  rw [number?, Varuint.read_encode]

/-- The operation that some bytes begin with, and what is behind it. -/
def Operation.read? (bytes : List UInt8) : Option (Operation × List UInt8) := do
  let (id, rest) ← number? bytes
  let (register, rest) ← number? rest
  let kind := Kind.ofTag id
  if Subframe.base id = Subframe.readSingle then
    return (.readSingle register kind, rest)
  else if Subframe.base id = Subframe.readMultiple then
    let (count, rest) ← number? rest
    return (.readMultiple register count kind, rest)
  else if Subframe.base id = Subframe.writeSingle then
    let (value, rest) ← Value.decode kind rest
    return (.writeSingle register value, rest)
  else if Subframe.base id = Subframe.writeMultiple then
    let (count, rest) ← number? rest
    let (values, rest) ← Value.decodeMany kind count.toNat rest
    return (.writeMultiple register values, rest)
  else none

/-- Whether an operation reads registers. -/
def Operation.reads : Operation → Bool
  | .readSingle .. => true
  | .readMultiple .. => true
  | _ => false

/-- Whether an operation writes registers. -/
def Operation.writes : Operation → Bool
  | .writeSingle .. => true
  | .writeMultiple .. => true
  | _ => false

/-- Whether an operation reads or writes registers. The others only tell whether an
    answer is wanted. -/
def Operation.transfers (op : Operation) : Bool :=
  op.reads || op.writes

/-- The number of values that are written can be told. -/
def Operation.Countable : Operation → Prop
  | .writeMultiple _ values => values.length < UInt32.size
  | _ => True

/-- An identifier tells its group and the type. -/
theorem id_parts (group : UInt32) (hgroup : group ∈ [Subframe.readSingle, Subframe.readMultiple,
    Subframe.writeSingle, Subframe.writeMultiple]) (kind : Kind) :
    Subframe.base (group + kind.tag) = group ∧ Kind.ofTag (group + kind.tag) = kind := by
  simp only [List.mem_cons, List.not_mem_nil, or_false] at hgroup
  rcases hgroup with hgroup | hgroup | hgroup | hgroup
  all_goals
    rw [hgroup]
    cases kind with
    | _ => decide

/-- An operation is read back from the bytes it begins. -/
theorem Operation.read?_encode (h : op.encode = .ok bytes) (htransfers : op.transfers)
    (hcount : op.Countable) (rest : List UInt8) : read? (bytes ++ rest) = some (op, rest) := by
  cases op with
  -- The id is a base that no other operation has, with the kind in its low bits.
  | readSingle register kind =>
      have hid := id_parts Subframe.readSingle (by decide) kind
      simp only [encode, Except.ok.injEq] at h
      simp only [← h, read?, List.append_assoc, number?_encode, Option.bind_eq_bind,
        Option.bind_some, hid.1, hid.2, if_true, Option.pure_def]
  | readMultiple register count kind =>
      have hid := id_parts Subframe.readMultiple (by decide) kind
      have hbase : Subframe.readMultiple ≠ Subframe.readSingle := by decide
      simp only [encode, Except.ok.injEq] at h
      simp only [← h, read?, List.append_assoc, number?_encode, Option.bind_eq_bind,
        Option.bind_some, hid.1, hid.2, if_neg hbase, if_true, Option.pure_def]
  | writeSingle register value =>
      have hid := id_parts Subframe.writeSingle (by decide) value.kind
      have hread : Subframe.writeSingle ≠ Subframe.readSingle := by decide
      have hreads : Subframe.writeSingle ≠ Subframe.readMultiple := by decide
      simp only [encode, Except.ok.injEq] at h
      simp only [← h, read?, List.append_assoc, number?_encode, Option.bind_eq_bind,
        Option.bind_some, hid.1, hid.2, if_neg hread, if_neg hreads, if_true,
        Value.decode_encode, Option.pure_def]
  | writeMultiple start values =>
      have hread : Subframe.writeMultiple ≠ Subframe.readSingle := by decide
      have hreads : Subframe.writeMultiple ≠ Subframe.readMultiple := by decide
      have hwrite : Subframe.writeMultiple ≠ Subframe.writeSingle := by decide
      rcases hcommon : commonKind values with e | kind
      · simp only [encode, hcommon, reduceCtorEq] at h
      · have hid := id_parts Subframe.writeMultiple (by decide) kind
        have hvalues := (commonKind_ok_iff.mp hcommon).2
        -- The count is written as a word, and has to come back as it was.
        have hlength : values.length.toUInt32.toNat = values.length :=
          UInt32.toNat_ofNat_of_lt' hcount
        simp only [encode, hcommon, Except.ok.injEq] at h
        simp only [← h, read?, List.append_assoc, number?_encode, Option.bind_eq_bind,
          Option.bind_some, hid.1, hid.2, if_neg hread, if_neg hreads, if_neg hwrite,
          if_true, hlength, Value.decodeMany_encode hvalues, Option.pure_def]
  | expectResponse expect => exact absurd htransfers Bool.false_ne_true

/-- Operations of which each has the sub-frame next to it. -/
abbrev Encoded (ops : List Operation) (pieces : List (List UInt8)) : Prop :=
  List.Forall₂ (fun op piece => op.encode = .ok piece) ops pieces

/-- Operations are read back from their bytes, one after another. By induction on the
    first run. -/
theorem flatten_inj {ops ops' : List Operation} {pieces pieces' : List (List UInt8)}
    (h : Encoded ops pieces) (h' : Encoded ops' pieces')
    (hops : ∀ op ∈ ops, op.transfers ∧ op.Countable)
    (hops' : ∀ op ∈ ops', op.transfers ∧ op.Countable)
    (hbytes : pieces.flatten = pieces'.flatten) : ops = ops' := by
  have hnil : Operation.read? [] = none := rfl
  induction h generalizing ops' pieces' with
  | nil =>
      cases h' with
      | nil => rfl
      | @cons op' piece' ops' pieces' hencode' h' =>
          have hop' := hops' op' List.mem_cons_self
          have hread' := Operation.read?_encode hencode' hop'.1 hop'.2 pieces'.flatten
          rw [← List.flatten_cons, ← hbytes, List.flatten_nil, hnil] at hread'
          exact absurd hread' nofun
  | @cons op piece ops pieces hencode h ih =>
      -- Both runs begin with what is read from the same bytes, and go on with the rest.
      have hop := hops op List.mem_cons_self
      have hread := Operation.read?_encode hencode hop.1 hop.2 pieces.flatten
      rw [← List.flatten_cons, hbytes] at hread
      cases h' with
      | nil =>
          rw [List.flatten_nil, hnil] at hread
          exact absurd hread nofun
      | @cons op' piece' ops' pieces' hencode' h' =>
          have hop' := hops' op' List.mem_cons_self
          have hread' := Operation.read?_encode hencode' hop'.1 hop'.2 pieces'.flatten
          -- Read twice from the same bytes, it is the same operation with the same rest.
          rw [← List.flatten_cons, hread, Option.some.injEq, Prod.mk.injEq] at hread'
          have hrest := ih h' (fun op hmem => hops op (List.mem_cons_of_mem _ hmem))
            (fun op hmem => hops' op (List.mem_cons_of_mem _ hmem)) hread'.2
          rw [hread'.1, hrest]

/-- What asks only for an answer has no bytes, so it can be left out. -/
theorem Encoded.transfers {pieces : List (List UInt8)} (h : Encoded ops pieces) :
    ∃ left, Encoded (ops.filter Operation.transfers) left ∧ left.flatten = pieces.flatten := by
  induction h with
  | nil => exact ⟨[], .nil, rfl⟩
  | @cons op piece ops pieces hencode h ih =>
      rcases ih with ⟨left, hleft, hflatten⟩
      by_cases htransfers : op.transfers
      · refine ⟨piece :: left, ?_, by rw [List.flatten_cons, List.flatten_cons, hflatten]⟩
        rw [List.filter_cons_of_pos htransfers]
        exact .cons hencode hleft
      · refine ⟨left, by rwa [List.filter_cons_of_neg htransfers], ?_⟩
        have hnone : piece = [] := by
          cases op with
          | expectResponse expect =>
              rw [Operation.encode, Except.ok.injEq] at hencode
              exact hencode.symm
          | _ => exact absurd rfl htransfers
        rw [List.flatten_cons, hnone, List.nil_append, hflatten]

/-! ### Runs of operations -/

namespace Request

variable {r : Request}

theorem attempt_of_error (h : op.encode = .error e) : r.attempt op = (.error e, r) := by
  simp only [attempt, apply, h]

theorem attempt_of_ok (h : op.encode = .ok bytes) :
    r.attempt op = (.ok (), {
      bytes := r.bytes ++ bytes
      expectsResponse := op.expectation.getD r.expectsResponse }) := by
  simp only [attempt, apply, h]

/-- Trying an operation fails just if it is refused. -/
theorem attempt_error_iff : (r.attempt op).1 = .error e ↔ op.Refused e := by
  rw [← encode_error_iff]
  rcases hencode : op.encode with e' | bytes
  · rw [attempt_of_error hencode, Except.error.injEq, Except.error.injEq]
  · rw [attempt_of_ok hencode]
    exact ⟨nofun, nofun⟩

/-- A refused operation leaves the request as it was. -/
theorem attempt_refused (h : op.Refused e) : (r.attempt op).2 = r := by
  rw [attempt_of_error (encode_error_iff.mpr h)]

/-- The operations that were not refused when they were tried one after another. -/
def taken (r : Request) (ops : List Operation) : List Operation :=
  (ops.zip (r.attempts ops)).filterMap fun (op, step) => if step.1.isOk then some op else none

theorem taken_of_error (h : op.encode = .error e) : r.taken (op :: ops) = r.taken ops := by
  have hstep := attempt_of_error (r := r) h
  simp only [taken, attempts, hstep, List.zip_cons_cons, List.filterMap_cons, Except.isOk,
    Except.toBool, Bool.false_eq_true, if_false]

theorem taken_of_ok (h : op.encode = .ok bytes) :
    r.taken (op :: ops) = op :: (r.attempt op).2.taken ops := by
  have hstep := attempt_of_ok (r := r) h
  simp only [taken, attempts, hstep, List.zip_cons_cons, List.filterMap_cons, Except.isOk,
    Except.toBool, if_true]

theorem taken_subset (hmem : op ∈ r.taken ops) : op ∈ ops := by
  rcases List.mem_filterMap.mp hmem with ⟨⟨tried, step⟩, hpair, hsome⟩
  simp only [Option.ite_none_right_eq_some, Option.some.injEq] at hsome
  exact hsome.2 ▸ (List.of_mem_zip hpair).1

/-- Behind a run of operations are the sub-frames of those that were not refused. -/
theorem attemptAll_bytes (r : Request) (ops : List Operation) :
    ∃ pieces, Encoded (r.taken ops) pieces ∧
      (r.attemptAll ops).bytes = r.bytes ++ pieces.flatten := by
  induction ops generalizing r with
  | nil => exact ⟨[], .nil, (List.append_nil _).symm⟩
  | cons op ops ih =>
      rcases ih (r.attempt op).2 with ⟨pieces, hpieces, hbytes⟩
      rw [attemptAll, List.foldl_cons, ← attemptAll, hbytes]
      rcases hencode : op.encode with e | bytes
      · rw [attempt_of_error hencode] at hpieces ⊢
        rw [taken_of_error hencode]
        exact ⟨pieces, hpieces, rfl⟩
      · refine ⟨bytes :: pieces, ?_, ?_⟩
        · rw [taken_of_ok hencode]
          exact .cons hencode hpieces
        · rw [attempt_of_ok hencode, List.flatten_cons, List.append_assoc]

/-- The operations that tell whether an answer is wanted. -/
theorem expectation_cases (op : Operation) :
    op.expectation = none ∧ op.writes ∧ ¬ op.reads ∧ op ≠ .expectResponse true ∨
    op.expectation = some true ∧ ¬ op.writes ∧ (op.reads ∨ op = .expectResponse true) ∨
    op.expectation = some false ∧ ¬ op.writes ∧ ¬ op.reads ∧ op ≠ .expectResponse true := by
  cases op with
  | readSingle => exact Or.inr (Or.inl ⟨rfl, nofun, Or.inl rfl⟩)
  | readMultiple => exact Or.inr (Or.inl ⟨rfl, nofun, Or.inl rfl⟩)
  | writeSingle => exact Or.inl ⟨rfl, rfl, nofun, nofun⟩
  | writeMultiple => exact Or.inl ⟨rfl, rfl, nofun, nofun⟩
  | expectResponse expect =>
      cases expect with
      | true => exact Or.inr (Or.inl ⟨rfl, nofun, Or.inr rfl⟩)
      | false => exact Or.inr (Or.inr ⟨rfl, nofun, nofun, nofun⟩)

/-- Trying an operation leaves wanted what the operation tells, if it does. -/
theorem attempt_expectsResponse :
    (r.attempt op).2.expectsResponse = op.expectation.getD r.expectsResponse := by
  rcases hencode : op.encode with e | bytes
  · -- Only writes are refused, and they do not tell.
    have hrefused := encode_error_iff.mp hencode
    rw [attempt_refused hrefused]
    cases hrefused with
    | empty => rfl
    | mixed => rfl
  · rw [attempt_of_ok hencode]

/-- An answer is wanted behind some operations: of those that tell, the last one is a
    read or asks for it. -/
def Wanted (ops : List Operation) : Prop :=
  ∃ earlier last later, ops = earlier ++ last :: later ∧
    (last.reads ∨ last = .expectResponse true) ∧ ∀ op ∈ later, op.writes

theorem not_wanted_nil : ¬ Wanted [] := by
  rintro ⟨earlier, last, later, hops, -⟩
  exact absurd hops (List.append_ne_nil_of_right_ne_nil _ (List.cons_ne_nil _ _)).symm

theorem wanted_cons_iff :
    Wanted (op :: ops) ↔
      Wanted ops ∨ (op.reads ∨ op = .expectResponse true) ∧ ∀ op ∈ ops, op.writes := by
  constructor
  · rintro ⟨earlier, last, later, hops, hlast, hlater⟩
    cases earlier with
    | nil =>
        rw [List.nil_append, List.cons.injEq] at hops
        rw [hops.1, hops.2]
        exact Or.inr ⟨hlast, hlater⟩
    | cons first earlier =>
        rw [List.cons_append, List.cons.injEq] at hops
        exact Or.inl ⟨earlier, last, later, hops.2, hlast, hlater⟩
  · rintro (⟨earlier, last, later, hops, hlast, hlater⟩ | ⟨hasks, hwrites⟩)
    · exact ⟨op :: earlier, last, later, by rw [hops]; rfl, hlast, hlater⟩
    · exact ⟨[], op, ops, rfl, hasks, hwrites⟩

/-- Whether an answer is wanted behind a run: one of it tells, or none does and one was
    wanted before. -/
theorem expectsResponse_iff :
    (r.attemptAll ops).expectsResponse = true ↔
      Wanted ops ∨ r.expectsResponse = true ∧ ∀ op ∈ ops, op.writes := by
  induction ops generalizing r with
  | nil =>
      have hnone : ∀ op ∈ ([] : List Operation), op.writes := fun op hop =>
        absurd hop List.not_mem_nil
      rw [attemptAll, List.foldl_nil]
      exact ⟨fun h => Or.inr ⟨h, hnone⟩, fun h => (h.resolve_left not_wanted_nil).1⟩
  | cons op ops ih =>
      rw [attemptAll, List.foldl_cons, ← attemptAll, ih, attempt_expectsResponse,
        wanted_cons_iff, List.forall_mem_cons, or_assoc]
      refine or_congr_right ?_
      -- A write leaves the decision to what was before, and nothing else does.
      rcases expectation_cases op with ⟨htells, hwrites, hreads, hexpect⟩ |
        ⟨htells, hwrites, hasks⟩ | ⟨htells, hwrites, hreads, hexpect⟩
      · simp only [htells, Option.getD_none, hwrites, hreads, hexpect, Bool.false_eq_true, or_self,
          false_and, true_and, false_or]
      · simp only [htells, Option.getD_some, hwrites, hasks, Bool.false_eq_true, false_and,
          and_false, or_false]
      · simp only [htells, Option.getD_some, hwrites, hreads, hexpect, Bool.false_eq_true, or_self,
          false_and, and_false]

/-- Requests and the operations they were built from. Trying an operation fails just if
    there are no values to write, or values of several types, and leaves the request as it
    was. Behind a run of operations, the request has the sub-frames of those that were not
    refused, one behind the other; no other reads and writes have the same bytes; and an
    answer is wanted just if a read or asking for it was the last to tell. -/
theorem operations_decodable :
    (∀ (r : Request) (op : Operation) (e : Error),
      ((r.attempt op).1 = .error e ↔ op.Refused e) ∧
      ((r.attempt op).1 = .error e → (r.attempt op).2 = r)) ∧
    ∀ ops : List Operation, (∀ op ∈ ops, op.Countable) →
      (∃ pieces, Encoded (taken {} ops) pieces ∧ (attemptAll {} ops).bytes = pieces.flatten) ∧
      (∀ ops' : List Operation, (∀ op ∈ ops', op.Countable) →
        ((attemptAll {} ops).bytes = (attemptAll {} ops').bytes ↔
          (taken {} ops).filter Operation.transfers =
            (taken {} ops').filter Operation.transfers)) ∧
      ((attemptAll {} ops).expectsResponse = true ↔ Wanted ops) := by
  -- What is left without those that have no bytes are the same bytes.
  have hleft : ∀ ops, ∃ pieces, Encoded ((taken {} ops).filter Operation.transfers) pieces ∧
      (attemptAll {} ops).bytes = pieces.flatten := by
    intro ops
    rcases attemptAll_bytes {} ops with ⟨pieces, hpieces, hbytes⟩
    rcases hpieces.transfers with ⟨left, hleft, hflatten⟩
    exact ⟨left, hleft, hbytes.trans hflatten.symm⟩
  have hcountable : ∀ ops : List Operation, (∀ op ∈ ops, op.Countable) →
      ∀ op ∈ (taken {} ops).filter Operation.transfers, op.transfers ∧ op.Countable := by
    intro ops hops op hop
    rcases List.mem_filter.mp hop with ⟨hmem, htransfers⟩
    exact ⟨htransfers, hops op (taken_subset hmem)⟩
  refine ⟨fun r op e => ⟨attempt_error_iff, fun h => attempt_refused (attempt_error_iff.mp h)⟩,
    fun ops hops => ⟨attemptAll_bytes {} ops, fun ops' hops' => ⟨?_, ?_⟩, ?_⟩⟩
  · intro hbytes
    rcases hleft ops with ⟨pieces, hpieces, hflatten⟩
    rcases hleft ops' with ⟨pieces', hpieces', hflatten'⟩
    rw [hflatten, hflatten'] at hbytes
    exact flatten_inj hpieces hpieces' (hcountable ops hops) (hcountable ops' hops') hbytes
  · intro hsame
    rcases hleft ops with ⟨pieces, hpieces, hflatten⟩
    rcases hleft ops' with ⟨pieces', hpieces', hflatten'⟩
    rw [hsame] at hpieces
    -- An operation has one encoding, so the same operations have the same pieces.
    have hunique := Relator.RightUnique.forall₂ fun (op : Operation) (piece piece' : List UInt8)
        (hpiece : op.encode = .ok piece) (hpiece' : op.encode = .ok piece') =>
      Except.ok.inj (hpiece.symm.trans hpiece')
    rw [hflatten, hflatten', hunique hpieces hpieces']
  · rw [expectsResponse_iff]
    exact ⟨fun h => h.resolve_right fun hwanted => absurd hwanted.1 nofun, Or.inl⟩

/-- Two runs that write not-a-numbers with different bits, one of them with an operation
    that is refused. -/
theorem operations_decodable_refused :
    let mixed := .writeMultiple 5 [.int8 1, .int16 2]
    let ops := [mixed, .readSingle 2 .float, .expectResponse false,
      .writeSingle 7 (.float 0x7fc00001)]
    let others := [.readSingle 2 .float, .writeSingle 7 (.float 0x7fc00000)]
    attempt {} mixed = (.error (.mixedKinds .int8 .int16 1), {}) ∧
    taken {} ops =
      [.readSingle 2 .float, .expectResponse false, .writeSingle 7 (.float 0x7fc00001)] ∧
    (attemptAll {} ops).bytes ≠ (attemptAll {} others).bytes ∧
    (attemptAll {} others).expectsResponse = true := by
  intro mixed ops others
  have hmixed := (operations_decodable.1 {} mixed (.mixedKinds .int8 .int16 1)).2 rfl
  -- The two sequences differ in the bits of a value that is not a number.
  have hfew : ∀ op ∈ ops ++ others, op.Countable := by
    simp only [mixed, ops, others, Operation.Countable, List.cons_append, List.nil_append,
      List.forall_mem_cons, List.not_mem_nil, false_implies, implies_true, and_true]
    decide
  rcases List.forall_mem_append.mp hfew with ⟨hops, hothers⟩
  have hinj := (operations_decodable.2 ops hops).2.1 others hothers
  have hwanted := (operations_decodable.2 others hothers).2.2
  refine ⟨Prod.ext rfl hmixed, rfl, fun h => absurd (hinj.mp h) ?_, hwanted.mpr ?_⟩
  · have hkept : (taken {} ops).filter Operation.transfers =
        [.readSingle 2 .float, .writeSingle 7 (.float 0x7fc00001)] := rfl
    have hothersKept : (taken {} others).filter Operation.transfers = others := rfl
    rw [hkept, hothersKept]
    decide
  · exact ⟨[], .readSingle 2 .float, [.writeSingle 7 (.float 0x7fc00000)], rfl, Or.inl rfl,
      by decide⟩

end Request

end Register

end Multidrop
