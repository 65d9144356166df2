import Mathlib.Data.List.Forall2
import Multidrop.Command.Registers
import Multidrop.Proofs.Call.Sending
import Multidrop.Proofs.Command.Configure
import Multidrop.Proofs.Register.Operations

/-!
# All Values Are Written, or None

All values of a command are read from its arguments before the bus is connected to,
and then sent in one frame. One value that is none of its type ends the command before
that, and values that are too many for a frame end it when the link is already held
but nothing was queued. So a device gets all values, in their order and in a single
frame, or it gets nothing and the arguments are to blame.

## Main definitions

* `Spell`: The values that the arguments spell.
* `writeOf`, `writeForm`, `writeSize`: The write of values, its payload, and how long that
  is.
* `Comes`: What a call that sends one frame comes to on a course.
* `Posts`: What becomes of a job that does.
* `World.Obliging`, `World.Prompt`: A bridge that accepts bytes, and one that does so at
  once.
* `World.Accepts`: Whoever sends something on the bridge gets it sent.

## Theorems

* `parseValues_of_spell`, `parseValues_of_not_spell`: What the arguments ask for.
* `writeForm_fits_iff`: Which values fit a frame.
* `read?_writeForm`: What a device reads back from the payload.
* `follow_comes`, `follow_prompt`: What a call that sends one frame comes to.
* `perform_posts`: What becomes of a job that does.
* `written_whole`: All values are written, or none.
-/

namespace Multidrop

namespace Command

open Register (Kind Value Operation Request)

/-! ### What the arguments ask for -/

variable {kind : Kind} {text : String} {texts : List String} {value : Value} {values : List Value}
  {failure : Failure}

/-- A value that was read is of the type asked for. -/
theorem kind_of_parseValue {text : List Char} (h : parseValue? kind text = some value) :
    value.kind = kind := by
  cases kind with
  | _ =>
      rcases Option.map_eq_some_iff.mp h with ⟨n, _, hvalue⟩
      rw [← hvalue]
      rfl

/-- The values that texts spell, blanks around them aside. -/
abbrev Spell (kind : Kind) (texts : List String) (values : List Value) : Prop :=
  List.Forall₂ (fun text value => parseValue? kind (Text.trim text).toList = some value)
    texts values

theorem parseValues_of_spell (h : Spell kind texts values) :
    parseValues kind texts = .ok values := by
  induction h with
  | nil => rfl
  | cons hvalue h ih =>
      rw [parseValues, hvalue]
      simp only [ih]
      rfl

/-- Where one text spells no value, the arguments are to blame. -/
theorem parseValues_of_not_spell (h : ∀ values, ¬ Spell kind texts values) :
    ∃ failure, parseValues kind texts = .error failure ∧ failure.code = usage := by
  induction texts with
  | nil => exact absurd .nil (h [])
  | cons text texts ih =>
      rw [parseValues]
      rcases hvalue : parseValue? kind (Text.trim text).toList with _ | value
      · exact ⟨_, rfl, rfl⟩
      · rcases ih fun values hvalues => h (value :: values) (.cons hvalue hvalues) with
          ⟨failure, hfailure, hcode⟩
        simp only [hfailure]
        exact ⟨failure, rfl, hcode⟩

theorem kinds_of_spell (h : Spell kind texts values) : ∀ v ∈ values, v.kind = kind := by
  induction h with
  | nil => exact fun v hv => absurd hv List.not_mem_nil
  | cons hvalue h ih => exact List.forall_mem_cons.mpr ⟨kind_of_parseValue hvalue, ih⟩

/-- The payload that writes values of a type from a register on: a single one, or how
    many they are and then all of them. -/
def writeForm (kind : Kind) (register : UInt32) (values : List Value) : List UInt8 :=
  match values with
  | [value] =>
      Varuint.encode (Subframe.writeSingle + kind.tag) ++ Varuint.encode register ++ value.encode
  | values =>
      Varuint.encode (Subframe.writeMultiple + kind.tag) ++ Varuint.encode register ++
        Varuint.encode values.length.toUInt32 ++ values.flatMap Value.encode

/-- How long a payload is that writes a number of values. -/
def writeSize (kind : Kind) (register : UInt32) (count : Nat) : Nat :=
  1 + Varuint.size register + count * kind.width +
    if count = 1 then 0 else Varuint.groupCount count

theorem size_id (kind : Kind) : Varuint.size (Subframe.writeSingle + kind.tag) = 1 ∧
    Varuint.size (Subframe.writeMultiple + kind.tag) = 1 := by
  constructor
  · rw [Varuint.size, Varuint.groupCount, if_pos]
    cases kind with
    | _ => decide
  · rw [Varuint.size, Varuint.groupCount, if_pos]
    cases kind with
    | _ => decide

theorem length_writeForm (hvalues : values ≠ []) (hkinds : ∀ v ∈ values, v.kind = kind)
    (hcount : values.length < UInt32.size) (register : UInt32) :
    (writeForm kind register values).length = writeSize kind register values.length := by
  rw [writeForm.eq_def]
  split
  · -- A single value stands without a count, which is one byte the less.
    rename_i value
    have hkind := hkinds value List.mem_cons_self
    simp only [List.length_append, Varuint.length_encode, size_id, Value.length_encode, hkind,
      writeSize, List.length_singleton, if_true]
    omega
  · rename_i hmany
    have hsize : Varuint.size values.length.toUInt32 = Varuint.groupCount values.length :=
      congrArg Varuint.groupCount (UInt32.toNat_ofNat_of_lt' hcount)
    -- Several values have their number in front.
    have hone : values.length ≠ 1 := by
      intro hone
      rcases List.length_eq_one_iff.mp hone with ⟨value, hvalue⟩
      exact hmany value hvalue
    simp only [List.length_append, Varuint.length_encode, size_id,
      Value.length_flatMap_encode hkinds, writeSize, if_neg hone, hsize]
    omega

/-- What fits a frame is told by the number of values. -/
theorem writeForm_fits_iff (hvalues : values ≠ []) (hkinds : ∀ v ∈ values, v.kind = kind)
    (register : UInt32) :
    (writeForm kind register values).length ≤ Frame.maxPayload ↔
      writeSize kind register values.length ≤ Frame.maxPayload := by
  by_cases hcount : values.length < UInt32.size
  · rw [length_writeForm hvalues hkinds hcount]
  · -- So many values are too long on their own.
    have hsize : UInt32.size ≤ values.length := Nat.not_lt.mp hcount
    have hmany : values.length ≤ values.length * kind.width :=
      Nat.le_mul_of_pos_right _ (Value.width_pos kind)
    have hlong : Frame.maxPayload < UInt32.size := by decide
    have hform : values.length * kind.width ≤ (writeForm kind register values).length := by
      rw [← Value.length_flatMap_encode hkinds, writeForm.eq_def]
      split
      · rw [List.flatMap_singleton, List.length_append]
        exact Nat.le_add_left _ _
      · rw [List.length_append]
        exact Nat.le_add_left _ _
    rw [writeSize]
    constructor
    · intro h
      omega
    · intro h
      omega

/-- The operation that writes values from a register on. -/
def writeOf (register : UInt32) (values : List Value) : Operation :=
  match values with
  | [value] => .writeSingle register value
  | values => .writeMultiple register values

theorem encode_writeOf (hvalues : values ≠ []) (hkinds : ∀ v ∈ values, v.kind = kind)
    (register : UInt32) :
    (writeOf register values).encode = .ok (writeForm kind register values) := by
  match values, hvalues, hkinds with
  | [value], _, hkinds =>
      rw [writeOf, Operation.encode, hkinds value List.mem_cons_self]
      rfl
  | first :: second :: more, hvalues, hkinds =>
      have hcommon : Register.commonKind (first :: second :: more) = .ok kind :=
        Register.commonKind_ok_iff.mpr ⟨hvalues, hkinds⟩
      simp only [writeOf, Operation.encode, hcommon]
      rfl

theorem expectation_writeOf (register : UInt32) (values : List Value) :
    (writeOf register values).expectation = none := by
  rw [writeOf.eq_def]
  split
  · rfl
  · rfl

/-- A device reads back from the payload all values, in their order. -/
theorem read?_writeForm (hvalues : values ≠ []) (hkinds : ∀ v ∈ values, v.kind = kind)
    (hcount : values.length < UInt32.size) (register : UInt32) :
    Operation.read? (writeForm kind register values) = some (writeOf register values, []) := by
  have htransfers : (writeOf register values).transfers = true ∧
      (writeOf register values).Countable := by
    rw [writeOf.eq_def]
    split
    · exact ⟨rfl, trivial⟩
    · exact ⟨rfl, hcount⟩
  have hread := Operation.read?_encode (encode_writeOf hvalues hkinds register) htransfers.1
    htransfers.2 []
  rw [List.append_nil] at hread
  exact hread

/-- What is asked for is one write, and an answer just if there is to be one. -/
theorem operations_of_spell {order : WriteRegisters} (h : Spell order.kind order.values values) :
    order.operations = .ok [writeOf order.register values, .expectResponse order.ack] := by
  rw [WriteRegisters.operations, parseValues_of_spell h]
  rfl

theorem applyAll_writeOf (hvalues : values ≠ []) (hkinds : ∀ v ∈ values, v.kind = kind)
    (register : UInt32) (ack : Bool) :
    Request.applyAll {} [writeOf register values, .expectResponse ack] =
      .ok { bytes := writeForm kind register values, expectsResponse := ack } := by
  have hwrite : Request.apply {} (writeOf register values) =
      .ok { bytes := writeForm kind register values } := by
    simp only [Request.apply, encode_writeOf hvalues hkinds, expectation_writeOf, List.nil_append,
      Option.getD_none]
  rw [Request.applyAll, hwrite]
  simp only [Request.applyAll, Request.apply, Operation.encode, Operation.expectation,
    List.append_nil, Option.getD_some]

/-! ### What a call that sends one frame comes to -/

variable {task : Task} {f : Frame} {c : Call} {bus : Bus} {course : List Happening}
  {obliges : Prop}

/-- How many turns there are on a course. -/
def turns (course : List Happening) : Nat :=
  course.countP fun
    | .turn => true
    | .outside .. => false

/-- What a call that sends one frame comes to on a course, where nothing that is sent
    fails if the wires are obliging. -/
inductive Comes (task : Task) (f : Frame) (obliges : Prop) : Followed → Prop where
  | halted {c : Call} {bus : Bus} {log : List Deed} (h : c.Sends task f bus) :
      Comes task f obliges { seat := .running c, bus, log }
  | refused {client : Client} {moment : Duration} {e : Frame.Error} {bus : Bus} {log : List Deed}
      {rest : List Happening} (hencode : f.encode = .error e) (hsent : bus.wire.sent = []) :
      Comes task f obliges
        { seat := .ended client (.finished moment (.error (.frame e))), bus, log, rest }
  | failed {client : Client} {moment : Duration} {e : Link.Error} {bus : Bus} {log : List Deed}
      {rest : List Happening} (hfits : f.Fits) (hsent : bus.wire.sent <+: f.bytes)
      (hfails : ¬ obliges) :
      Comes task f obliges { seat := .ended client (.finished moment (.error e)), bus, log, rest }
  | sent {client : Client} {moment : Duration} {result : Call.Result} {bus : Bus}
      {log : List Deed} {rest : List Happening} (hfits : f.Fits) (hsent : bus.wire.sent = f.bytes)
      (hresult : task.receives = false → result = .ok .done) :
      Comes task f obliges { seat := .ended client (.finished moment result), bus, log, rest }

theorem Comes.after {followed : Followed} (h : Comes task f obliges followed) (deed : Deed) :
    Comes task f obliges (followed.after deed) := by
  cases h with
  | halted h => exact .halted h
  | refused hencode hsent => exact .refused hencode hsent
  | failed hfits hsent hfails => exact .failed hfits hsent hfails
  | sent hfits hsent hresult => exact .sent hfits hsent hresult

theorem drift_obliging {wire : Wire} (h : wire.Obliging) (now : Duration) (bus : Bus) :
    (bus.drift now wire).wire.Obliging :=
  ⟨h.writes, h.flushes⟩

theorem drift_prompt {wire : Wire} (h : wire.Prompt) (now : Duration) (bus : Bus) :
    (bus.drift now wire).wire.Prompt :=
  ⟨h.credit, h.writes, h.flushes⟩

/-- By induction on the course. -/
theorem follow_comes (h : c.Sends task f bus) (hrequest : task.isRequest = true)
    (hbus : obliges → bus.wire.Obliging)
    (hcourse : obliges → ∀ now wire, .outside now wire ∈ course → wire.Obliging) :
    Comes task f obliges (follow c bus course) := by
  induction course generalizing c bus with
  | nil => exact .halted h
  | cons happening course ih =>
      have hrest : obliges → ∀ now wire, .outside now wire ∈ course → wire.Obliging :=
        fun hall now wire hmem => hcourse hall now wire (List.mem_cons_of_mem _ hmem)
      cases happening with
      -- Outside, the clock and the wire change, and what has been sent stays.
      | outside now wire =>
          rw [follow]
          exact ih (h.drift now wire)
            (fun hall => drift_obliging (hcourse hall now wire List.mem_cons_self) now bus) hrest
      | turn =>
          have hleft : obliges → (c.step 0 bus).2.wire.Obliging := fun hall =>
            Call.step_obliging (h.sound hrequest) 0 (hbus hall)
          have hstep := h.step hrequest
          rw [follow]
          generalize c.step 0 bus = turn at hstep hleft
          cases hstep with
          -- A call that goes on has the rest of the course before it.
          | again hnext hcloser => exact (ih hnext hleft hrest).after _
          | waiting hstays hcloser => exact (ih hstays hleft hrest).after _
          | refused hencode hsent => exact .refused hencode hsent
          | failed hfits hsent hfails =>
              exact .failed hfits hsent fun hall => hfails (hbus hall)
          | sent hfits hsent hresult => exact .sent hfits hsent hresult

/-- On wires that are prompt, all turns that are left are taken if there are as many. -/
theorem follow_prompt (h : c.Sends task f bus) (hrequest : task.isRequest = true)
    (hbus : bus.wire.Prompt) (hcourse : ∀ now wire, .outside now wire ∈ course → wire.Prompt)
    (hturns : c.turnsLeft f bus ≤ turns course) {next : Call}
    (hhalted : (follow c bus course).seat = .running next) :
    next.turnsLeft f (follow c bus course).bus = 0 := by
  induction course generalizing c bus with
  -- No turn is left on the course, so none is left of the call.
  | nil =>
      rw [follow] at hhalted ⊢
      rw [← Host.Seat.running.inj hhalted]
      exact Nat.le_zero.mp hturns
  | cons happening course ih =>
      have hrest : ∀ now wire, .outside now wire ∈ course → wire.Prompt :=
        fun now wire hmem => hcourse now wire (List.mem_cons_of_mem _ hmem)
      cases happening with
      | outside now wire =>
          have hwire := drift_prompt (hcourse now wire List.mem_cons_self) now bus
          rw [follow] at hhalted ⊢
          exact ih (h.drift now wire) hwire hrest hturns hhalted
      | turn =>
          have hleft := Call.step_prompt (h.sound hrequest) 0 hbus
          have hstep := h.step hrequest
          -- This turn is taken off both counts.
          have hfewer : c.turnsLeft f bus - 1 ≤ turns course := by
            rw [turns, List.countP_cons_of_pos rfl] at hturns
            exact Nat.sub_le_of_le_add hturns
          rw [follow] at hhalted ⊢
          generalize c.step 0 bus = turn at hstep hleft hhalted ⊢
          cases hstep with
          | again hnext hcloser =>
              exact ih hnext hleft hrest ((hcloser hbus).trans hfewer) hhalted
          | waiting hstays hcloser =>
              exact ih hstays hleft hrest ((hcloser hbus).trans hfewer) hhalted
          -- A call that has ended is no longer running.
          | refused hencode hsent => cases hhalted
          | failed hfits hsent hfails => cases hhalted
          | sent hfits hsent hresult => cases hhalted

/-! ### What becomes of a request -/

variable {context : String} {prompt : Prop}

/-- What becomes of a job that sends one frame, on wires that may be obliging or prompt. -/
inductive Posts (task : Task) (f : Frame) (context : String) (obliges prompt : Prop) :
    Except Failure (Answer × Host) × World → Prop where
  /-- The course is over before the job is. -/
  | halted {c : Call} {left : World} (hhalted : left.halted = some c)
      (hsent : sentOf left.log <+: Frame.group [f])
      (hprompt : prompt → f.Fits ∧ sentOf left.log = f.bytes ∧ task.receives = true) :
      Posts task f context obliges prompt (.error (.ofLink context .closed), left)
  | refused {e : Frame.Error} {left : World} (hhalted : left.halted = none)
      (hencode : f.encode = .error e) (hsent : sentOf left.log = []) :
      Posts task f context obliges prompt (.error (.ofLink context (.frame e)), left)
  | failed {e : Link.Error} {left : World} (hhalted : left.halted = none) (hfits : f.Fits)
      (hsent : sentOf left.log <+: f.bytes) (hfails : ¬ obliges) :
      Posts task f context obliges prompt (.error (.ofLink context e), left)
  | sent {result : Except Failure (Answer × Host)} {left : World} (hhalted : left.halted = none)
      (hfits : f.Fits) (hsent : sentOf left.log = f.bytes)
      (hresult : task.receives = false → ∃ h, result = .ok (.done, h)) :
      Posts task f context obliges prompt (result, left)

/-- The bridge accepts bytes, now and after whatever happens: nothing that is sent
    fails. -/
structure World.Obliging (w : World) (wire : Wire) : Prop where
  wire : wire.Obliging
  course : ∀ now changed, .outside now changed ∈ w.course → changed.Obliging

/-- The bridge accepts bytes at once, and there is time for a frame. -/
structure World.Prompt (w : World) (wire : Wire) : Prop where
  wire : wire.Prompt
  course : ∀ now changed, .outside now changed ∈ w.course → changed.Prompt
  turns : Call.requestTurns ≤ turns w.course

/-- A call begins on the bus as it is, or as it was changed before. -/
theorem opening_cases (bus : Bus) (course : List Happening) :
    World.opening bus course = (bus, course) ∨
      ∃ now wire rest, course = .outside now wire :: rest ∧
        World.opening bus course = (bus.drift now wire, rest) := by
  rw [World.opening.eq_def]
  split
  · rename_i now wire rest
    exact Or.inr ⟨now, wire, rest, rfl, rfl⟩
  · exact Or.inl rfl

variable {owner : Client} {h : Host} {w : World}

/-- What a call that sends one frame comes to in a world, where it begins. -/
theorem opened_comes (hframes : task.frames h.bus.link owner = [f]) (htraffic : h.bus.traffic = [])
    (hfree : h.bus.lock.holder = none) (hrequest : task.isRequest = true) :
    let opened := World.opening h.bus w.course
    let f' := follow { task, client := owner, started := opened.1.now } opened.1 opened.2
    Comes task f (w.Obliging h.bus.wire) f' ∧
      (w.Prompt h.bus.wire → ∀ next, f'.seat = .running next → next.turnsLeft f f'.bus = 0) := by
  intro opened f'
  -- The call begins on the bus as it is, or on one that the course changed just before.
  have hsends : ∀ {bus : Bus} {course : List Happening}, opened = (bus, course) →
      bus.link = h.bus.link → bus.traffic = [] → bus.lock.holder = none →
      (w.Obliging h.bus.wire → bus.wire.Obliging) → (w.Prompt h.bus.wire → bus.wire.Prompt) →
      (∀ now wire, .outside now wire ∈ course → .outside now wire ∈ w.course) →
      turns course = turns w.course →
      Comes task f (w.Obliging h.bus.wire) f' ∧
        (w.Prompt h.bus.wire → ∀ next, f'.seat = .running next →
          next.turnsLeft f f'.bus = 0) := by
    intro bus course hopened hlink htraffic hfree hobliging hprompt hmem hturns
    have hbegun : Call.Sends task f { task, client := owner, started := bus.now } bus :=
      Call.sends_begun (hlink ▸ hframes) htraffic hfree bus.now
    simp only [f', hopened]
    refine ⟨follow_comes hbegun hrequest hobliging
      fun hall now wire hwire => hall.course now wire (hmem now wire hwire), fun hall next => ?_⟩
    exact follow_prompt hbegun hrequest (hprompt hall)
      (fun now wire hwire => hall.course now wire (hmem now wire hwire))
      (hturns ▸ (Call.turnsLeft_le rfl).trans hall.turns)
  -- Either way the turns of the course are those of the world.
  rcases opening_cases h.bus w.course with hopened | ⟨now, wire, rest, hcourse, hopened⟩
  · exact hsends hopened rfl htraffic hfree (fun hall => hall.wire) (fun hall => hall.wire)
      (fun _ _ hmem => hmem) rfl
  · have hfirst : .outside now wire ∈ w.course := hcourse ▸ List.mem_cons_self
    refine hsends hopened rfl htraffic hfree
      (fun hall => drift_obliging (hall.course now wire hfirst) now h.bus)
      (fun hall => drift_prompt (hall.course now wire hfirst) now h.bus)
      (fun _ _ hmem => hcourse ▸ List.mem_cons_of_mem _ hmem) ?_
    rw [hcourse]
    exact (List.countP_cons_of_neg Bool.false_ne_true).symm

/-- What a job has sent is in the log of its world. -/
theorem sentOf_perform (build : Build) (context : String) (hclients : h.clients = [owner])
    (hidle : owner.writeBuffer = []) (htraffic : h.bus.traffic = [])
    (hrequest : task.isRequest = true) (hbuilt : task.Built) (hlog : w.log = []) :
    let ran := w.run (perform (World.surroundings build) context task none h)
    sentOf ran.2.log = ran.2.bus.wire.sent := by
  have hcarries : h.bus.Carries owner [] :=
    ⟨[], fun f hf => absurd hf List.not_mem_nil, htraffic, hidle⟩
  have hbegun := h.bus.sent_prefix_traffic
  rw [htraffic] at hbegun
  have hsent : sentOf w.log = h.bus.wire.sent := by
    rw [hlog, List.prefix_nil.mp hbegun]
    rfl
  have hsame : h.clients = [{ owner with
      readBuffer := owner.readBuffer, writeBuffer := owner.writeBuffer }] := hclients
  have hperforms := perform_performs build task hsame hcarries hsent hbuilt
    (fun cause htask => by rw [htask] at hrequest; exact absurd hrequest Bool.false_ne_true)
    (fun source htask => by rw [htask] at hrequest; exact absurd hrequest Bool.false_ne_true)
    none context
  intro ran
  generalize hran : w.run (perform (World.surroundings build) context task none h) = out
    at hperforms
  have hout : ran = out := hran
  rw [hout]
  cases hperforms with
  | halted hsince hhalted htask hlimit hsound hreception => exact hsince.sent
  | failed hsince hhalted hwhy => exact hsince.sent
  | done hsince hhalted hdrained => exact hsince.sent

/-- What becomes of a job that sends one frame, on any course. -/
theorem perform_posts (build : Build) (context : String) (hclients : h.clients = [owner])
    (hidle : owner.writeBuffer = []) (hframes : task.frames h.bus.link owner = [f])
    (htraffic : h.bus.traffic = []) (hfree : h.bus.lock.holder = none)
    (hrequest : task.isRequest = true) (hbuilt : task.Built) (hlog : w.log = []) :
    Posts task f context (w.Obliging h.bus.wire) (w.Prompt h.bus.wire)
      (w.run (perform (World.surroundings build) context task none h)) := by
  have hsentOf := sentOf_perform build context hclients hidle htraffic hrequest hbuilt hlog
  have hcomes := opened_comes (w := w) hframes htraffic hfree hrequest
  rw [World.run_perform_alone context task none hclients] at hsentOf ⊢
  -- From here on only what the call has come to matters.
  generalize World.opening h.bus w.course = opened at hcomes hsentOf ⊢
  rcases opened with ⟨opened, course⟩
  simp only at hcomes hsentOf ⊢
  rcases hcomes with ⟨hcomes, hprompt⟩
  generalize follow { task, client := owner, started := opened.now } opened course = followed
    at hcomes hprompt hsentOf ⊢
  cases hcomes with
  | halted hsends =>
      refine .halted rfl (hsentOf ▸ hsends.sent_prefix) fun hall => ?_
      rcases hsends.sent_of_turnsLeft (hprompt hall _ rfl) with ⟨hfits, hsent, hreceives⟩
      exact ⟨hfits, hsentOf.trans hsent, hreceives⟩
  | refused hencode hsent => exact .refused rfl hencode (hsentOf.trans hsent)
  | failed hfits hsent hfails =>
      exact .failed rfl hfits (hsentOf ▸ hsent) hfails
  | sent hfits hsent hresult =>
      rename_i client moment result bus log rest
      cases result with
      | error e =>
          refine .sent rfl hfits (hsentOf.trans hsent) fun hnone => ?_
          cases hresult hnone
      | ok answer =>
          refine .sent rfl hfits (hsentOf.trans hsent) fun hnone => ?_
          have hanswer := hresult hnone
          rw [Except.ok.injEq] at hanswer
          rw [hanswer]
          exact ⟨_, rfl⟩

/-! ### Writing registers -/

/-- Where the arguments spell values and the bus can be connected to, what becomes of
    the command is what becomes of its request. -/
theorem run_writeRegisters (build : Build) {common : Common} {order : WriteRegisters} {w : World}
    {timeout : Duration} {request : Request} {host : Host} {operations : List Operation}
    (htimeout : parseDuration order.timeout = .ok timeout)
    (hoperations : order.operations = .ok operations)
    (hrequest : Request.applyAll {} operations = .ok request)
    (hhost : w.run (openHost (World.surroundings build) common order.target { timeout }) =
      (.ok host, w)) :
    let ran := w.run (order.run (World.surroundings build) common)
    match w.run (perform (World.surroundings build) "register write failed" (.ofRequest request)
      none host) with
    | (.error failure, left) => ran = (.error failure, left)
    | (.ok (answer, _), left) => ran.2 = left ∧ (answer = .done → ran.1 = .ok ()) := by
  intro ran
  simp only [ran]
  rw [WriteRegisters.run, World.run_bind, World.run_orFail, htimeout]
  simp only
  rw [World.run_bind, World.run_orFail, hoperations]
  simp only
  rw [World.run_bind, buildRequest, World.run_orFail, hrequest]
  simp only
  rw [World.run_bind, hhost]
  simp only
  rw [World.run_bind]
  rcases w.run (perform (World.surroundings build) "register write failed" (.ofRequest request)
    none host) with ⟨failure | ⟨answer, h⟩, left⟩
  · rfl
  · -- What is printed of an answer changes nothing.
    simp only
    split
    · exact ⟨rfl, fun _ => rfl⟩
    · rename_i reply hreply
      split
      · exact ⟨rfl, fun hdone => by rw [hdone] at hreply; exact absurd hreply nofun⟩
      · exact ⟨rfl, fun _ => rfl⟩

/-- Where the arguments spell no values, the command ends before anything else. -/
theorem run_unspelled (build : Build) {common : Common} {order : WriteRegisters} {w : World}
    {timeout : Duration} {failure : Failure}
    (htimeout : parseDuration order.timeout = .ok timeout)
    (hoperations : order.operations = .error failure) :
    w.run (order.run (World.surroundings build) common) = (.error failure, w) := by
  rw [WriteRegisters.run, World.run_bind, World.run_orFail, htimeout]
  simp only
  rw [World.run_bind, World.run_orFail, hoperations]
  rfl

/-- The frame that writes values to the device asked for. -/
def WriteRegisters.frame (common : Common) (order : WriteRegisters) (values : List Value) :
    Frame where
  source := common.source
  destination := order.target
  payload := writeForm order.kind order.register values
  requestReply := order.ack

theorem World.Prompt.obliging {wire : Wire} (h : w.Prompt wire) : w.Obliging wire :=
  ⟨h.wire.obliging, fun now changed hmem => (h.course now changed hmem).obliging⟩

theorem ofRequest_task (bytes : List UInt8) (ack : Bool) (link : Link) (owner : Client) :
    let task := Task.ofRequest { bytes, expectsResponse := ack }
    task.isRequest = true ∧ task.receives = ack ∧
      task.frames link owner = [owner.frame link bytes ack] := by
  cases ack with
  | true => exact ⟨rfl, rfl, rfl⟩
  | false => exact ⟨rfl, rfl, rfl⟩

theorem built_ofRequest {request : Request} (h : request.Built) :
    (Task.ofRequest request).Built := by
  rw [Task.ofRequest]
  split
  · exact ⟨request, h, rfl⟩
  · exact ⟨request, h, rfl⟩

/-- A frame to a device that is not fit to be sent is too long, and the arguments are
    to blame. -/
theorem usage_of_refused {common : Common} {order : WriteRegisters} {e : Frame.Error}
    (hsource : common.source ≤ Frame.broadcast) (htarget : order.target ≤ Frame.broadcast)
    (hencode : (order.frame common values).encode = .error e) (context : String) :
    (Failure.ofLink context (.frame e)).code = usage := by
  have hlong : Frame.maxPayload < (order.frame common values).payload.length := by
    refine Nat.not_le.mp fun hshort => ?_
    have hfits : (order.frame common values).Fits := ⟨hsource, hshort, htarget⟩
    rw [Frame.encode_of_fits hfits] at hencode
    exact absurd hencode nofun
  rw [Frame.encode_of_long hsource hlong, Except.error.injEq] at hencode
  rw [← hencode]
  rfl

/-- The command comes to its end on a bridge that accepts bytes, or the bridge does so at
    once. -/
def World.Accepts (w : World) (wire : Wire) (after : World) : Prop :=
  w.Prompt wire ∨ w.Obliging wire ∧ after.halted = none

/-- What becomes of the frame of a command whose arguments spell values. -/
theorem spelled_posts (build : Build) {common : Common} {order : WriteRegisters}
    (hfresh : w.Fresh) {timeout : Duration} {endpoint : Transport.Endpoint} {wire : Wire}
    (htimeout : parseDuration order.timeout = .ok timeout)
    (htarget : order.target ≤ Frame.broadcast) (hsource : common.source ≤ Frame.broadcast)
    (hendpoint : common.endpoint = .ok endpoint) (hbridge : w.bridge endpoint = .ok wire)
    (hsent : wire.sent = []) (hspell : Spell order.kind order.values values)
    (hvalues : values ≠ []) {f : Frame} (hframe : f = order.frame common values)
    {ran : Except Failure Unit × World}
    (hrun : w.run (order.run (World.surroundings build) common) = ran) :
    sentOf ran.2.log <+: Frame.group [f] ∧
      (w.Accepts wire ran.2 →
        (f.Fits → sentOf ran.2.log = f.bytes ∧ (order.ack = false → ran.1 = .ok ())) ∧
        (¬ f.Fits → ∃ failure, ran.1 = .error failure ∧ failure.code = usage)) := by
  have hkinds := kinds_of_spell hspell
  have hbuild := applyAll_writeOf hvalues hkinds order.register order.ack
  have hclient : Client.create order.target { timeout } =
      .ok { destination := order.target, config := { timeout } } :=
    create_client htarget (show 3 * Varuint.maxSize + 100 ≤ Frame.maxPayload by decide)
  have hhost := run_openHost build hendpoint hbridge hsource hclient
  have hran := run_writeRegisters build htimeout (operations_of_spell hspell) hbuild hhost
  -- The request is a query or a write, and sends one frame in both cases.
  rcases ofRequest_task (writeForm order.kind order.register values) order.ack
    { config := common.linkConfig } { destination := order.target, config := { timeout } } with
    ⟨hrequest, hreceives, hframes⟩
  have hposts := perform_posts (f := f) (w := w) build "register write failed"
    (h := { bus := { link := { config := common.linkConfig }, wire },
            clients := [{ destination := order.target, config := { timeout } }] })
    rfl rfl (hframe ▸ hframes) (by rw [Bus.traffic, hsent]; rfl) rfl hrequest
    (built_ofRequest ⟨_, hbuild⟩) hfresh.log
  simp only [hrun] at hran
  generalize w.run (perform _ _ _ none _) = done at hran hposts
  -- What the job comes to decides what the command comes to.
  cases hposts with
  | halted hhalted hbegun hall =>
      simp only at hran
      rw [hran]
      refine ⟨hbegun, fun haccepts => ?_⟩
      rcases haccepts with hprompt | ⟨_, hended⟩
      · -- All turns are taken, so only the answer is missing.
        rcases hall hprompt with ⟨hfits, hwhole, hwaits⟩
        refine ⟨fun _ => ⟨hwhole, fun hack => ?_⟩, fun hnot => absurd hfits hnot⟩
        exact absurd (hack.symm.trans (hreceives.symm.trans hwaits)) Bool.false_ne_true
      · cases hhalted.symm.trans hended
  | refused hhalted hencode hnothing =>
      -- The frame was refused, so it does not fit, and the arguments are to blame.
      have hnot : ¬ f.Fits := fun hfits => by
        rw [Frame.encode_of_fits hfits] at hencode
        cases hencode
      simp only at hran
      rw [hran, hnothing]
      exact ⟨List.nil_prefix, fun _ => ⟨fun hfits => absurd hfits hnot,
        fun _ => ⟨_, rfl, usage_of_refused hsource htarget (hframe ▸ hencode) _⟩⟩⟩
  | failed hhalted hfits hbegun hfails =>
      simp only at hran
      rw [hran]
      -- A bridge that accepts bytes does not fail, so only the beginning is claimed.
      refine ⟨(Call.group_singleton hfits).symm ▸ hbegun, fun haccepts => ?_⟩
      rcases haccepts with hprompt | ⟨hobliging, _⟩
      · exact absurd hprompt.obliging hfails
      · exact absurd hobliging hfails
  | sent hhalted hfits hwhole hresult =>
      rename_i result left
      -- All of the frame went out. Without an answer to wait for, that is success.
      have hleft : ran.2 = left ∧ (order.ack = false → ran.1 = .ok ()) := by
        rcases result with failure | ⟨answer, h⟩
        · refine ⟨congrArg Prod.snd hran, fun hack => ?_⟩
          rcases hresult (hreceives.trans hack) with ⟨h, hdone⟩
          cases hdone
        · refine ⟨hran.1, fun hack => hran.2 ?_⟩
          rcases hresult (hreceives.trans hack) with ⟨h', hdone⟩
          exact congrArg Prod.fst (Except.ok.inj hdone)
      rw [hleft.1, hwhole]
      exact ⟨(Call.group_singleton hfits).symm ▸ List.prefix_refl _,
        fun _ => ⟨fun _ => ⟨rfl, hleft.2⟩, fun hnot => absurd hfits hnot⟩⟩

/-- As many values as fit a frame can be counted. -/
theorem count_lt_of_writeSize {kind : Kind} {register : UInt32} {count : Nat}
    (h : writeSize kind register count ≤ Frame.maxPayload) : count < UInt32.size := by
  have hwidth : count ≤ count * kind.width := Nat.le_mul_of_pos_right _ (Value.width_pos kind)
  have hmax : Frame.maxPayload < UInt32.size := by decide
  rw [writeSize] at h
  omega

/-- The frame of a command fits when what it writes does. -/
theorem frame_fits_iff {common : Common} {order : WriteRegisters}
    (htarget : order.target ≤ Frame.broadcast) (hsource : common.source ≤ Frame.broadcast)
    (hvalues : values ≠ []) (hkinds : ∀ v ∈ values, v.kind = order.kind) :
    (order.frame common values).Fits ↔
      writeSize order.kind order.register values.length ≤ Frame.maxPayload := by
  rw [← writeForm_fits_iff hvalues hkinds]
  exact ⟨fun hfits => hfits.2.1, fun hshort => ⟨hsource, hshort, htarget⟩⟩

/-- All values of a command are written in one frame, or nothing is sent. On any course,
    where the timeout is valid, there are values and the bus can be connected to:

    If the arguments spell values of the type asked for and these fit a frame, then what
    was sent is a beginning of the frame with all of them, addressed to the target and
    asking for an answer just if one is to be shown. On a bridge that accepts bytes it is
    the whole frame, a strict reader finds that frame and no other in it, the device reads
    all values from its payload in their order, and without an answer to wait for all goes
    well. Otherwise nothing is sent, and on a bridge that accepts bytes the command fails
    and blames the arguments. -/
theorem written_whole (build : Build) (common : Common) (order : WriteRegisters) (w : World)
    (hfresh : w.Fresh) {timeout : Duration} {endpoint : Transport.Endpoint} {wire : Wire}
    (htimeout : parseDuration order.timeout = .ok timeout) (hsome : order.values ≠ [])
    (htarget : order.target ≤ Frame.broadcast) (hsource : common.source ≤ Frame.broadcast)
    (hendpoint : common.endpoint = .ok endpoint) (hbridge : w.bridge endpoint = .ok wire)
    (hsent : wire.sent = []) :
    let ran := w.run (order.run (World.surroundings build) common)
    (∀ values, Spell order.kind order.values values →
      writeSize order.kind order.register values.length ≤ Frame.maxPayload →
      let f := order.frame common values
      sentOf ran.2.log <+: f.bytes ∧ Frame.decoded f.bytes = [f.arrived] ∧
      Operation.read? f.payload = some (writeOf order.register values, []) ∧
      (w.Accepts wire ran.2 →
        sentOf ran.2.log = f.bytes ∧ (order.ack = false → ran.1 = .ok ()))) ∧
    ((∀ values, Spell order.kind order.values values →
        Frame.maxPayload < writeSize order.kind order.register values.length) →
      sentOf ran.2.log = [] ∧
      (w.Accepts wire ran.2 → ∃ failure, ran.1 = .error failure ∧ failure.code = usage)) := by
  intro ran
  have hnonempty : ∀ {values}, Spell order.kind order.values values → values ≠ [] := by
    intro values hspell hnone
    rw [hnone] at hspell
    exact hsome (List.forall₂_nil_right_iff.mp hspell)
  have hran : w.run (order.run (World.surroundings build) common) = ran := rfl
  have hposts := fun {values} (hspell : Spell order.kind order.values values) =>
    spelled_posts build hfresh htimeout htarget hsource hendpoint hbridge hsent hspell
      (hnonempty hspell) (f := order.frame common values) rfl hran
  have hfits_iff : ∀ {values} (hspell : Spell order.kind order.values values),
      (order.frame common values).Fits ↔
        writeSize order.kind order.register values.length ≤ Frame.maxPayload :=
    fun hspell => frame_fits_iff htarget hsource (hnonempty hspell) (kinds_of_spell hspell)
  -- Values that fit a frame first, then those that do not and words that are no values.
  constructor
  · intro values hspell hsize f
    have hfits : f.Fits := (hfits_iff hspell).mpr hsize
    rcases hposts hspell with ⟨hbegun, haccepts⟩
    have hdecoded : Frame.decoded ([f].flatMap Frame.bytes) = [f].map Frame.arrived :=
      Frame.decoded_flatMap fun g hg => List.mem_singleton.mp hg ▸ hfits
    rw [List.flatMap_singleton] at hdecoded
    rw [Call.group_singleton hfits] at hbegun
    exact ⟨hbegun, hdecoded,
      read?_writeForm (hnonempty hspell) (kinds_of_spell hspell) (count_lt_of_writeSize hsize)
        order.register,
      fun hall => (haccepts hall).1 hfits⟩
  · intro hlong
    by_cases hspelled : ∃ values, Spell order.kind order.values values
    · rcases hspelled with ⟨values, hspell⟩
      have hnot : ¬ (order.frame common values).Fits := fun hfits =>
        absurd ((hfits_iff hspell).mp hfits) (Nat.not_le.mpr (hlong values hspell))
      rcases hposts hspell with ⟨hbegun, haccepts⟩
      rw [Call.group_of_not_fits hnot] at hbegun
      exact ⟨List.prefix_nil.mp hbegun, fun hall => (haccepts hall).2 hnot⟩
    · -- A value that is none ends the command before anything else.
      rcases parseValues_of_not_spell fun values hspell => hspelled ⟨values, hspell⟩ with
        ⟨failure, hfailure, hcode⟩
      have hoperations : order.operations = .error failure := by
        rw [WriteRegisters.operations, hfailure]
        rfl
      have hends : ran = (.error failure, w) := run_unspelled build htimeout hoperations
      have hnothing : sentOf w.log = [] := by
        rw [hfresh.log]
        rfl
      rw [hends]
      exact ⟨hnothing, fun _ => ⟨failure, rfl, hcode⟩⟩

/-- A bridge that accepts bytes for as long as a frame may take. -/
def welcoming : World where
  files := fun _ => .ok []
  bridge := fun _ => .ok {}
  course := List.replicate Call.requestTurns .turn

/-- Two values for device 5, the second one with a blank in front of it. -/
def twoForDeviceFive : WriteRegisters where
  target := 5
  register := 7
  kind := .int16
  values := ["-2", " 300"]
  ack := false
  timeout := "50ms"

/-- The same with a second value that is none. -/
def oneForDeviceFive : WriteRegisters :=
  { twoForDeviceFive with values := ["-2", "x"] }

/-- Two values are written, but none where the second one is not a value. -/
theorem written_whole_two_values :
    let ran := welcoming.run (twoForDeviceFive.run (World.surroundings ⟨"", ""⟩) onSocket)
    let refused := welcoming.run (oneForDeviceFive.run (World.surroundings ⟨"", ""⟩) onSocket)
    (sentOf ran.2.log = (twoForDeviceFive.frame onSocket [.int16 (-2), .int16 300]).bytes ∧
      ran.1 = .ok ()) ∧
    sentOf refused.2.log = [] ∧ ∃ failure, refused.1 = .error failure ∧ failure.code = usage := by
  intro ran refused
  have hspell : Spell .int16 ["-2", " 300"] [.int16 (-2), .int16 300] :=
    .cons (by decide) (.cons (by decide) .nil)
  have hsize : writeSize .int16 7 2 ≤ Frame.maxPayload := by
    have hregister : Varuint.size 7 = 1 := by
      rw [Varuint.size, Varuint.groupCount]
      rfl
    have hcount : Varuint.groupCount 2 = 1 := by
      rw [Varuint.groupCount]
      rfl
    rw [writeSize, hregister, hcount]
    decide
  have hturns : turns welcoming.course = Call.requestTurns := by
    rw [turns, welcoming, List.countP_replicate, if_pos rfl]
  have hcourse : ∀ now changed, .outside now changed ∈ welcoming.course → changed.Prompt := by
    intro now changed hmem
    cases List.eq_of_mem_replicate hmem
  have hprompt : welcoming.Prompt {} :=
    ⟨⟨rfl, List.forall_mem_nil _, List.forall_mem_nil _⟩, hcourse, Nat.le_of_eq hturns.symm⟩
  have htimeout : parseDuration "50ms" = .ok 50000000 := rfl
  have hendpoint : onSocket.endpoint = .ok (.unix "/a") := rfl
  -- One word that is no value is enough to refuse all of them.
  have hnone : ∀ values, ¬ Spell .int16 ["-2", "x"] values := by
    intro values hvalues
    cases hvalues with
    | cons _ hrest =>
        cases hrest with
        | cons hx _ =>
            rw [show parseValue? .int16 (Text.trim "x").toList = none by decide] at hx
            cases hx
  constructor
  · rcases (written_whole ⟨"", ""⟩ onSocket twoForDeviceFive welcoming ⟨rfl, rfl, rfl⟩ htimeout
      (by decide) (by decide) (by decide) hendpoint rfl rfl).1 _ hspell hsize with
      ⟨_, _, _, haccepts⟩
    rcases haccepts (Or.inl hprompt) with ⟨hsent, hdone⟩
    exact ⟨hsent, hdone rfl⟩
  · have hlong : ∀ values, Spell oneForDeviceFive.kind oneForDeviceFive.values values →
        Frame.maxPayload < writeSize oneForDeviceFive.kind oneForDeviceFive.register values.length :=
      fun values hvalues => absurd hvalues (hnone values)
    have hrefused := (written_whole ⟨"", ""⟩ onSocket oneForDeviceFive welcoming ⟨rfl, rfl, rfl⟩
      htimeout (by decide) (by decide) (by decide) hendpoint rfl rfl).2 hlong
    exact ⟨hrefused.1, hrefused.2 (Or.inl hprompt)⟩

end Command

end Multidrop
