import Mathlib.Algebra.GroupWithZero.Nat
import Mathlib.Data.List.Forall2
import Mathlib.Logic.Relation
import Multidrop.Wire

/-!
# How Arrivals Are Cut

Bytes come as the operating system happens to deliver them. An arrival of bytes
may as well come as two at the same moment, and the call that reads an arrival
may be interrupted once before. Two scripts that differ in nothing else have the
same normal form: every byte arrives alone, and no call is interrupted where the
next arrival comes at the same moment.

So two wires are told apart by their normal forms and not by their scripts. What
a writer sees of them is the same, and the scripts that come on stay alike. What
a reader gets is not, since a read never crosses the end of an arrival: `Meet`
lists how the fronts of the two scripts can differ.

## Main definitions

* `Arrivals.Cut`, `Arrivals.Recut`: What scripts may differ in.
* `Arrivals.plain`: The normal form.
* `Arrival.Meets`: Arrivals that differ only behind their first byte.
* `Arrivals.Meet`: How the fronts of two scripts can differ.
* `Wire.Alike`: Wires that differ in how the arrivals are cut.

## Theorems

* `Arrivals.Recut.plain`: Scripts that differ in the cuts have one normal form.
* `Arrivals.meet`: The ways in which the fronts of two such scripts differ.
* `Wire.Alike.write`, `Wire.Alike.flush`: A writer cannot tell them apart.
* `Wire.Alike.read`: Neither can a reader who meets the same arrival.
-/

namespace Multidrop

/-- The first byte of an arrival of bytes as an arrival of its own. -/
def Arrival.front : Arrival → Arrival
  | .data first _ => .data first []
  | .ended => .ended
  | .fault cause => .fault cause

theorem Arrival.front_front (arrival : Arrival) : arrival.front.front = arrival.front := by
  cases arrival with
  | data first more => rfl
  | ended => rfl
  | fault cause => rfl

/-- Two arrivals a reader meets as the same: their bytes begin alike, or they are
    one arrival that has no bytes. -/
inductive Arrival.Meets : Arrival → Arrival → Prop where
  | data (first : UInt8) (more more' : List UInt8) : Meets (.data first more) (.data first more')
  | ended : Meets .ended .ended
  | fault (cause : Transport.Fault) : Meets (.fault cause) (.fault cause)

theorem Arrival.meets_of_front {arrival arrival' : Arrival}
    (h : arrival.front = arrival'.front) : arrival.Meets arrival' := by
  cases arrival with
  | data first more =>
      cases arrival' with
      | data first' more' =>
          rw [front, front, data.injEq] at h
          rw [h.1]
          exact .data first' more more'
      | ended => exact absurd h nofun
      | fault cause => exact absurd h nofun
  | ended =>
      cases arrival' with
      | data first' more' => exact absurd h nofun
      | ended => exact .ended
      | fault cause => exact absurd h nofun
  | fault cause =>
      cases arrival' with
      | data first' more' => exact absurd h nofun
      | ended => exact absurd h nofun
      | fault cause' =>
          rw [fault.inj h]
          exact .fault cause'

namespace Arrivals

/-- What can be done to a script: an arrival of bytes is cut in two, or, if
    `interrupts`, the call that reads an arrival is interrupted before it. -/
inductive Cut (interrupts : Bool) : Arrivals → Arrivals → Prop where
  | data (before after : Arrivals) (moment : Duration) (first next : UInt8)
      (front back : List UInt8) :
      Cut interrupts (before ++ (moment, .data first (front ++ next :: back)) :: after)
        (before ++ (moment, .data first front) :: (moment, .data next back) :: after)
  | interrupt (before after : Arrivals) (moment : Duration) (arrival : Arrival)
      {cause : Transport.Fault} (hkind : cause.kind = .interrupted) (h : interrupts = true) :
      Cut interrupts (before ++ (moment, arrival) :: after)
        (before ++ (moment, .fault cause) :: (moment, arrival) :: after)

/-- Two scripts differ in nothing but that: one comes from the other by any number
    of cuts, made or undone. -/
def Recut (interrupts : Bool) : Arrivals → Arrivals → Prop :=
  Relation.EqvGen (Cut interrupts)

/-- The moment of the first arrival. -/
def moment? (script : Arrivals) : Option Duration :=
  script.head?.map (·.1)

/-- Put an arrival before others that are in normal form. -/
def put (interrupts : Bool) (entry : Duration × Arrival) (later : Arrivals) : Arrivals :=
  match entry.2 with
  | .data first more => (first :: more).map (fun byte => (entry.1, .data byte [])) ++ later
  | .ended => entry :: later
  | .fault cause =>
    if interrupts = true ∧ cause.kind = .interrupted ∧ later.moment? = some entry.1 then later
    else entry :: later

/-- The normal form of a script: every byte arrives alone. If `interrupts`, no
    call is interrupted where the next arrival comes at the same moment. -/
def plain (interrupts : Bool) (script : Arrivals) : Arrivals :=
  script.foldr (put interrupts) []

/-- A script that starts with what is left of an arrival of bytes. -/
def leaving (moment : Duration) (bytes : List UInt8) (later : Arrivals) : Arrivals :=
  match bytes with
  | [] => later
  | next :: left => (moment, .data next left) :: later

/-- What follows the first byte of an arrival of bytes, or any other arrival. -/
def behind (moment : Duration) (arrival : Arrival) (later : Arrivals) : Arrivals :=
  match arrival with
  | .data _ more => leaving moment more later
  | .ended => later
  | .fault _ => later

theorem behind_front (moment : Duration) (arrival : Arrival) (later : Arrivals) :
    behind moment arrival.front later = later := by
  cases arrival with
  | data first more => rfl
  | ended => rfl
  | fault cause => rfl

/-- Nothing is due. -/
def Idle (now : Duration) (script : Arrivals) : Prop :=
  ∀ moment, script.moment? = some moment → now < moment

variable {interrupts : Bool} {now moment : Duration} {arrival : Arrival}
  {entry : Duration × Arrival} {script script' later later' : Arrivals}

/-! ### The normal form -/

theorem plain_cons (interrupts : Bool) (entry : Duration × Arrival) (later : Arrivals) :
    plain interrupts (entry :: later) = put interrupts entry (later.plain interrupts) := rfl

@[simp]
theorem moment_put (interrupts : Bool) (entry : Duration × Arrival) (later : Arrivals) :
    (put interrupts entry later).moment? = some entry.1 := by
  unfold put
  split
  · rfl
  · rfl
  · split
    · rename_i h
      exact h.2.2
    · rfl

theorem moment_foldr (interrupts : Bool) (script last : Arrivals) :
    (script.foldr (put interrupts) last).moment? = moment? (script ++ last) := by
  cases script with
  | nil => rfl
  | cons entry later => exact moment_put interrupts entry _

/-- The normal form starts when the script does. -/
theorem moment_plain (interrupts : Bool) (script : Arrivals) :
    (script.plain interrupts).moment? = script.moment? := by
  rw [plain, moment_foldr, List.append_nil]

/-- An arrival can be put before others in normal form, or before all of what
    they are the normal form of. -/
theorem foldr_put (interrupts : Bool) (entry : Duration × Arrival) (later last : Arrivals) :
    (put interrupts entry later).foldr (put interrupts) last =
      put interrupts entry (later.foldr (put interrupts) last) := by
  rcases entry with ⟨moment, arrival⟩
  cases arrival with
  | data first more =>
      simp only [put, List.foldr_append]
      -- Bytes that arrive alone are put one by one.
      induction first :: more with
      | nil => rfl
      | cons byte rest ih =>
          rw [List.map_cons, List.foldr_cons, ih]
          rfl
  | ended => rfl
  | fault cause =>
      simp only [put]
      by_cases h : interrupts = true ∧ cause.kind = .interrupted ∧ later.moment? = some moment
      · -- The call is left out before the others, and so it is before more of them.
        have hmoment : moment? (later.foldr (put interrupts) last) = some moment := by
          rw [moment_foldr]
          cases later with
          | nil => exact absurd h.2.2 nofun
          | cons entry later => exact h.2.2
        rw [if_pos h, if_pos ⟨h.1, h.2.1, hmoment⟩]
      · rw [if_neg h]
        rfl

theorem foldr_plain (interrupts : Bool) (script last : Arrivals) :
    (script.plain interrupts).foldr (put interrupts) last =
      script.foldr (put interrupts) last := by
  induction script with
  | nil => rfl
  | cons entry later ih => rw [plain_cons, foldr_put, ih, List.foldr_cons]

/-- Scripts that are alike stay alike when the same, or something like it, is put
    behind them. -/
theorem plain_append (h : script.plain interrupts = script'.plain interrupts)
    (hlater : later.plain interrupts = later'.plain interrupts) :
    plain interrupts (script ++ later) = plain interrupts (script' ++ later') := by
  have happend (front back : Arrivals) : plain interrupts (front ++ back) =
      (front.plain interrupts).foldr (put interrupts) (back.plain interrupts) := by
    rw [foldr_plain, plain, List.foldr_append, plain]
  rw [happend, happend, h, hlater]

theorem moment_startingAt (now : Duration) (script : Arrivals) :
    (script.startingAt now).moment? = script.moment?.map (now + ·) := by
  cases script with
  | nil => rfl
  | cons entry later => rfl

/-- Where a script starts has no part in how it is cut. -/
theorem plain_startingAt (interrupts : Bool) (now : Duration) (script : Arrivals) :
    (script.startingAt now).plain interrupts = (script.plain interrupts).startingAt now := by
  induction script with
  | nil => rfl
  | cons entry later ih =>
      rcases entry with ⟨moment, arrival⟩
      have hstart : startingAt now ((moment, arrival) :: later) =
          (now + moment, arrival) :: startingAt now later := rfl
      rw [hstart, plain_cons, plain_cons, ih]
      cases arrival with
      -- Bytes keep their order, and all of them are moved by as much.
      | data first more =>
          simp only [put, startingAt, List.map_append, List.map_map]
          rfl
      | ended => rfl
      | fault cause =>
          -- A call is left out for two moments being the same, and both are moved.
          have hsame : moment? ((plain interrupts later).startingAt now) = some (now + moment) ↔
              (plain interrupts later).moment? = some moment := by
            rw [moment_startingAt]
            cases (plain interrupts later).moment? with
            | none => exact Iff.intro nofun nofun
            | some next =>
                rw [Option.map_some, Option.some.injEq, Option.some.injEq]
                exact Nat.add_left_cancel_iff
          simp only [put, hsame]
          split
          · rfl
          · rfl

/-- Scripts that differ in the cuts have one normal form. By induction on how
    they come to differ. -/
theorem Recut.plain (h : Recut interrupts script script') :
    script.plain interrupts = script'.plain interrupts := by
  induction h with
  | refl script => rfl
  | symm script script' h ih => exact ih.symm
  | trans script script' script'' h h' ih ih' => exact ih.trans ih'
  | rel script script' hcut =>
      cases hcut with
      | data before after moment first next front back =>
          refine plain_append rfl ?_
          simp only [plain_cons, put, List.map_cons, List.map_append, List.cons_append,
            List.append_assoc]
      | @interrupt before after moment arrival cause hkind hinterrupts =>
          refine plain_append rfl ?_
          have hfirst := moment_put interrupts (moment, arrival) (after.plain interrupts)
          exact (if_pos ⟨hinterrupts, hkind, hfirst⟩).symm

/-! ### The fronts of two scripts -/

/-- How the fronts of two scripts can differ that have one normal form. -/
inductive Meet (interrupts : Bool) (now : Duration) : Arrivals → Arrivals → Prop where
  | idle {script script' : Arrivals} (h : script.Idle now) (h' : script'.Idle now) :
      Meet interrupts now script script'
  /-- A call is interrupted that reads the first one. -/
  | first {moment : Duration} {cause : Transport.Fault} {later script' : Arrivals}
      (hdue : ¬ now < moment) (hkind : cause.kind = .interrupted) (h : interrupts = true)
      (halike : later.plain interrupts = script'.plain interrupts) :
      Meet interrupts now ((moment, .fault cause) :: later) script'
  /-- A call is interrupted that reads the second one. -/
  | second {moment : Duration} {cause : Transport.Fault} {script later' : Arrivals}
      (hdue : ¬ now < moment) (hkind : cause.kind = .interrupted) (h : interrupts = true)
      (halike : script.plain interrupts = later'.plain interrupts) :
      Meet interrupts now script ((moment, .fault cause) :: later')
  | both {moment : Duration} {arrival arrival' : Arrival} {later later' : Arrivals}
      (hdue : ¬ now < moment) (hfront : arrival.front = arrival'.front)
      (halike : (behind moment arrival later).plain interrupts =
        (behind moment arrival' later').plain interrupts) :
      Meet interrupts now ((moment, arrival) :: later) ((moment, arrival') :: later')

/-- A script starts with an interrupted call that is left out of the normal form,
    or with the first byte of the normal form. -/
theorem plain_front (interrupts : Bool) (moment : Duration) (arrival : Arrival)
    (later : Arrivals) :
    (∃ cause, arrival = .fault cause ∧ cause.kind = .interrupted ∧ interrupts = true ∧
      plain interrupts ((moment, arrival) :: later) = later.plain interrupts) ∨
    plain interrupts ((moment, arrival) :: later) =
      (moment, arrival.front) :: (behind moment arrival later).plain interrupts := by
  rw [plain_cons]
  cases arrival with
  | data first more =>
      refine Or.inr ?_
      cases more with
      | nil => rfl
      | cons next more => rfl
  | ended => exact Or.inr rfl
  -- An interruption is left out if the next arrival comes at the same moment.
  | fault cause =>
      by_cases h : interrupts = true ∧ cause.kind = .interrupted ∧
          (later.plain interrupts).moment? = some moment
      · exact Or.inl ⟨cause, rfl, h.2.1, h.1, if_pos h⟩
      · exact Or.inr (if_neg h)

theorem meet (now : Duration) (h : script.plain interrupts = script'.plain interrupts) :
    Meet interrupts now script script' := by
  have hmoment : script.moment? = script'.moment? := by
    rw [← moment_plain interrupts script, h, moment_plain]
  rcases script with _ | ⟨⟨moment, arrival⟩, later⟩
  · refine .idle (fun _ hnone => absurd hnone nofun) fun moment hsome => ?_
    rw [← hmoment] at hsome
    exact absurd hsome nofun
  rcases script' with _ | ⟨⟨moment', arrival'⟩, later'⟩
  · exact absurd hmoment nofun
  have hsame : moment = moment' := Option.some.inj hmoment
  subst hsame
  -- The first moment is the same, so neither is due or both are.
  by_cases hdue : now < moment
  · have hidle (arrival : Arrival) (later : Arrivals) : Idle now ((moment, arrival) :: later) := by
      intro _ hsome
      rw [← Option.some.inj hsome]
      exact hdue
    exact .idle (hidle arrival later) (hidle arrival' later')
  -- The two arrivals start alike, unless one of them is left out of the normal form.
  rcases plain_front interrupts moment arrival later with
    ⟨cause, harrival, hkind, hinterrupts, hplain⟩ | hplain
  · rw [harrival]
    refine .first hdue hkind hinterrupts ?_
    rw [← hplain, h]
  rcases plain_front interrupts moment arrival' later' with
    ⟨cause, harrival, hkind, hinterrupts, hplain'⟩ | hplain'
  · rw [harrival]
    refine .second hdue hkind hinterrupts ?_
    rw [h, hplain']
  · rw [hplain, hplain', List.cons.injEq, Prod.mk.injEq] at h
    exact .both hdue h.1.2 h.2

/-! ### What there is to take -/

@[simp]
theorem weight_cons (entry : Duration × Arrival) (later : Arrivals) :
    Arrivals.weight (entry :: later) = entry.2.weight + later.weight := rfl

@[simp]
theorem weight_append (script later : Arrivals) :
    Arrivals.weight (script ++ later) = script.weight + later.weight := by
  induction script with
  | nil => rw [List.nil_append, weight, Nat.zero_add]
  | cons entry script ih => rw [List.cons_append, weight_cons, weight_cons, ih, Nat.add_assoc]

theorem weight_leaving (moment : Duration) (bytes : List UInt8) (later : Arrivals) :
    Arrivals.weight (leaving moment bytes later) = bytes.length + later.weight := by
  cases bytes with
  | nil => rw [leaving, List.length_nil, Nat.zero_add]
  | cons next left => rfl

theorem weight_le_of_prefix (h : script <+: script') : script.weight ≤ script'.weight := by
  rcases h with ⟨later, happend⟩
  rw [← happend, weight_append]
  omega

/-- The first byte of an arrival and what follows it weigh as much as all of
    it. -/
theorem weight_behind (moment : Duration) (arrival : Arrival) (later : Arrivals) :
    Arrivals.weight ((moment, arrival.front) :: behind moment arrival later) =
      Arrivals.weight ((moment, arrival) :: later) := by
  cases arrival with
  | data first more =>
      rw [weight_cons, weight_cons, behind, weight_leaving, Arrival.front, Arrival.weight,
        Arrival.weight, List.length_nil]
      omega
  | ended => rfl
  | fault cause => rfl

end Arrivals

/-! ### Devices and wires -/

/-- Devices whose scripts differ in how they are cut. -/
inductive Device.Alike (interrupts : Bool) : Device → Device → Prop where
  | scripted {answers answers' : List Arrivals}
      (h : List.Forall₂ (fun script script' : Arrivals =>
        script.plain interrupts = script'.plain interrupts) answers answers') :
      Alike interrupts (.scripted answers) (.scripted answers')
  | responder (replies : List Device.Reply) (heard : List UInt8) :
      Alike interrupts (.responder replies heard) (.responder replies heard)

namespace Device

variable {interrupts : Bool} {d d' : Device}

theorem Alike.refl (interrupts : Bool) (d : Device) : d.Alike interrupts d := by
  cases d with
  | scripted answers => exact .scripted (List.forall₂_same.mpr fun _ _ => rfl)
  | responder replies heard => exact .responder replies heard

/-- What comes back for some bytes is the same, since only a responder hears
    them. -/
theorem Alike.hear (h : d.Alike interrupts d') (bytes : List UInt8) :
    (d.hear bytes).1 = (d'.hear bytes).1 ∧
      (d.hear bytes).2.Alike interrupts (d'.hear bytes).2 := by
  cases h with
  | scripted hanswers => exact ⟨rfl, .scripted hanswers⟩
  | responder replies heard => exact ⟨rfl, .responder _ _⟩

theorem Alike.flushed (h : d.Alike interrupts d') :
    d.flushed.1.plain interrupts = d'.flushed.1.plain interrupts ∧
      d.flushed.2.Alike interrupts d'.flushed.2 := by
  cases h with
  | scripted hanswers =>
      cases hanswers with
      | nil => exact ⟨rfl, .scripted .nil⟩
      | cons hfirst hrest => exact ⟨hfirst, .scripted hrest⟩
  | responder replies heard => exact ⟨rfl, .responder replies heard⟩

theorem Alike.addScripts (h : d.Alike interrupts d') {scripts scripts' : List Arrivals}
    (hscripts : List.Forall₂ (fun script script' : Arrivals =>
      script.plain interrupts = script'.plain interrupts) scripts scripts') :
    (d.addScripts scripts).Alike interrupts (d'.addScripts scripts') := by
  cases h with
  | scripted hanswers => exact .scripted (List.rel_append hanswers hscripts)
  | responder replies heard => exact .responder replies heard

end Device

namespace Wire

/-- Wires that differ in how the arrivals are cut, or those that are to come. -/
structure Alike (interrupts : Bool) (w w' : Wire) : Prop where
  arrivals : w.arrivals.plain interrupts = w'.arrivals.plain interrupts
  device : w.device.Alike interrupts w'.device
  writeRules : w.writeRules = w'.writeRules
  flushRules : w.flushRules = w'.flushRules
  credit : w.credit = w'.credit
  sent : w.sent = w'.sent

variable {interrupts : Bool} {now : Duration} {w w' : Wire}

theorem Alike.refl (interrupts : Bool) (w : Wire) : w.Alike interrupts w :=
  ⟨rfl, .refl interrupts w.device, rfl, rfl, rfl, rfl⟩

theorem Alike.with (h : w.Alike interrupts w') {script script' : Arrivals}
    (hplain : script.plain interrupts = script'.plain interrupts) :
    Alike interrupts { w with arrivals := script } { w' with arrivals := script' } :=
  ⟨hplain, h.device, h.writeRules, h.flushRules, h.credit, h.sent⟩

theorem Alike.deliver (h : w.Alike interrupts w') (now : Duration) {script script' : Arrivals}
    (hplain : script.plain interrupts = script'.plain interrupts) :
    (w.deliver now script).Alike interrupts (w'.deliver now script') := by
  refine h.with (Arrivals.plain_append h.arrivals ?_)
  rw [Arrivals.plain_startingAt, hplain, Arrivals.plain_startingAt]

theorem Alike.send (h : w.Alike interrupts w') (now : Duration) (bytes : List UInt8) :
    (w.send now bytes).Alike interrupts (w'.send now bytes) := by
  rcases h.device.hear bytes with ⟨hback, hdevice⟩
  have hsent : Alike interrupts
      { w with sent := w.sent ++ bytes, device := (w.device.hear bytes).2 }
      { w' with sent := w'.sent ++ bytes, device := (w'.device.hear bytes).2 } :=
    ⟨h.arrivals, hdevice, h.writeRules, h.flushRules, h.credit, by rw [h.sent]⟩
  exact hsent.deliver now (by rw [hback])

theorem Alike.spend (h : w.Alike interrupts w') (now : Duration) (offered : List UInt8) :
    (w.spend now offered).1 = (w'.spend now offered).1 ∧
      (w.spend now offered).2.Alike interrupts (w'.spend now offered).2 := by
  unfold Wire.spend
  rw [← h.credit]
  split
  · exact ⟨rfl, h.send now offered⟩
  · exact ⟨rfl, h⟩
  · rename_i credit hcredit hpos
    have hspent : Alike interrupts
        { w with credit := some (credit - (offered.take credit).length) }
        { w' with credit := some (credit - (offered.take credit).length) } :=
      ⟨h.arrivals, h.device, h.writeRules, h.flushRules, rfl, h.sent⟩
    exact ⟨rfl, hspent.send now _⟩

/-- A write has no part in how the arrivals are cut. -/
theorem Alike.write (h : w.Alike interrupts w') (now : Duration) (offered : List UInt8) :
    (w.write now offered).1 = (w'.write now offered).1 ∧
      (w.write now offered).2.Alike interrupts (w'.write now offered).2 := by
  have hrules (rules : List WriteRule) :
      Alike interrupts { w with writeRules := rules } { w' with writeRules := rules } :=
    ⟨h.arrivals, h.device, rfl, h.flushRules, h.credit, h.sent⟩
  unfold Wire.write
  rw [← h.writeRules]
  split
  · exact h.spend now offered
  · exact ⟨rfl, hrules _⟩
  · exact (hrules _).spend now _
  · exact ⟨rfl, hrules _⟩

theorem Alike.answerFlush (h : w.Alike interrupts w') (now : Duration) :
    (w.answerFlush now).Alike interrupts (w'.answerFlush now) := by
  rcases h.device.flushed with ⟨hback, hdevice⟩
  have hanswered : Alike interrupts { w with device := w.device.flushed.2 }
      { w' with device := w'.device.flushed.2 } :=
    ⟨h.arrivals, hdevice, h.writeRules, h.flushRules, h.credit, h.sent⟩
  exact hanswered.deliver now hback

/-- Neither has a flush. -/
theorem Alike.flush (h : w.Alike interrupts w') (now : Duration) :
    (w.flush now).1 = (w'.flush now).1 ∧
      (w.flush now).2.Alike interrupts (w'.flush now).2 := by
  have hrules (rules : List FlushRule) :
      Alike interrupts { w with flushRules := rules } { w' with flushRules := rules } :=
    ⟨h.arrivals, h.device, h.writeRules, rfl, h.credit, h.sent⟩
  unfold Wire.flush
  rw [← h.flushRules]
  split
  · exact ⟨rfl, h.answerFlush now⟩
  · exact ⟨rfl, (hrules _).answerFlush now⟩
  · exact ⟨rfl, hrules _⟩

/-! ### Reading -/

/-- A read takes something off the wire: bytes, or a fault. -/
def Outcome.takes : Outcome (List UInt8) → Bool
  | .ready (_ :: _) => true
  | .ready [] => false
  | .failed _ => true
  | .waiting => false

/-- While nothing is due, a read waits. -/
theorem read_idle (want : Nat) (h : w.arrivals.Idle now) : w.read now want = (.waiting, w) := by
  unfold read
  split
  · rfl
  · rename_i moment arrival later harrivals
    have hearly : now < moment := h moment (by rw [harrivals]; rfl)
    exact if_pos hearly

theorem read_data {moment : Duration} {first : UInt8} {more : List UInt8} {later : Arrivals}
    (want : Nat) (harrivals : w.arrivals = (moment, .data first more) :: later)
    (hdue : ¬ now < moment) :
    w.read now want = (.ready ((first :: more).take want),
      { w with arrivals := Arrivals.leaving moment ((first :: more).drop want) later }) := by
  have hread : w.read now want =
      match (first :: more).drop want with
      | [] => (.ready (first :: more), { w with arrivals := later })
      | next :: left =>
        (.ready ((first :: more).take want),
          { w with arrivals := (moment, .data next left) :: later }) := by
    unfold read
    rw [harrivals]
    exact if_neg hdue
  rw [hread]
  split
  · rename_i hdrop
    rw [hdrop, List.take_of_length_le (List.drop_eq_nil_iff.mp hdrop)]
    rfl
  · rename_i next left hdrop
    rw [hdrop]
    rfl

theorem read_ended {moment : Duration} {later : Arrivals} (want : Nat)
    (harrivals : w.arrivals = (moment, .ended) :: later) (hdue : ¬ now < moment) :
    w.read now want = (.ready [], w) := by
  unfold read
  rw [harrivals]
  exact if_neg hdue

theorem read_fault {moment : Duration} {cause : Transport.Fault} {later : Arrivals} (want : Nat)
    (harrivals : w.arrivals = (moment, .fault cause) :: later) (hdue : ¬ now < moment) :
    w.read now want = (.failed cause, { w with arrivals := later }) := by
  unfold read
  rw [harrivals]
  exact if_neg hdue

/-- A read that takes something leaves less than there was, and any other read
    leaves the wire as it was. -/
theorem read_leaves (now : Duration) (want : Nat) (w : Wire) :
    if (w.read now want).1.takes then
      (w.read now want).2.arrivals.weight < w.arrivals.weight
    else (w.read now want).2 = w := by
  by_cases hidle : w.arrivals.Idle now
  · rw [read_idle want hidle]
    rfl
  rcases harrivals : w.arrivals with _ | ⟨⟨moment, arrival⟩, later⟩
  · exact absurd (by rw [harrivals]; exact fun _ hnone => absurd hnone nofun) hidle
  have hdue : ¬ now < moment := by
    intro hearly
    refine hidle fun _ hsome => ?_
    rw [harrivals] at hsome
    rw [← Option.some.inj hsome]
    exact hearly
  cases arrival with
  | data first more =>
      rw [read_data want harrivals hdue]
      cases want with
      | zero =>
          simp only [List.take_zero, List.drop_zero, Outcome.takes, Bool.false_eq_true, if_false,
            Arrivals.leaving, ← harrivals]
      | succ want =>
          simp only [List.take_succ_cons, List.drop_succ_cons, Outcome.takes, if_true,
            Arrivals.weight_leaving, Arrivals.weight_cons, Arrival.weight, List.length_drop]
          omega
  -- The end stays on the script, so a read there takes nothing.
  | ended =>
      rw [read_ended want harrivals hdue]
      rfl
  | fault cause =>
      rw [read_fault want harrivals hdue]
      simp only [Outcome.takes, if_true, Arrivals.weight_cons, Arrival.weight]
      omega

theorem read_weight (now : Duration) (want : Nat) (w : Wire) :
    (w.read now want).2.arrivals.weight ≤ w.arrivals.weight := by
  have hleaves := read_leaves now want w
  split at hleaves
  · exact Nat.le_of_lt hleaves
  · exact Nat.le_of_eq (by rw [hleaves])

/-- Who wants nothing gets nothing from an arrival of bytes. -/
theorem read_zero {moment : Duration} {first : UInt8} {more : List UInt8} {later : Arrivals}
    (harrivals : w.arrivals = (moment, .data first more) :: later) (hdue : ¬ now < moment) :
    w.read now 0 = (.ready [], w) := by
  rw [read_data 0 harrivals hdue, List.take_zero, List.drop_zero, Arrivals.leaving, ← harrivals]

/-- Where two wires bring the same byte, end or fault first, a reader gets the
    same, unless one of the arrivals has more bytes and the reader wants some. -/
theorem Alike.read (h : w.Alike interrupts w') {moment : Duration}
    {arrival arrival' : Arrival} {later later' : Arrivals} {want : Nat}
    (harrivals : w.arrivals = (moment, arrival) :: later)
    (harrivals' : w'.arrivals = (moment, arrival') :: later') (hdue : ¬ now < moment)
    (hfront : arrival.front = arrival'.front)
    (hbehind : (Arrivals.behind moment arrival later).plain interrupts =
      (Arrivals.behind moment arrival' later').plain interrupts)
    (hsingle : want = 0 ∨ arrival.front = arrival ∧ arrival'.front = arrival') :
    (w.read now want).1 = (w'.read now want).1 ∧
      (w.read now want).2.Alike interrupts (w'.read now want).2 := by
  cases Arrival.meets_of_front hfront with
  | data first more more' =>
      cases want with
      | zero =>
          rw [read_zero harrivals hdue, read_zero harrivals' hdue]
          exact ⟨rfl, h⟩
      | succ want =>
          -- Both arrivals are one byte long, so either way nothing is left of them.
          rcases hsingle with hzero | ⟨hmore, hmore'⟩
          · exact absurd hzero (Nat.succ_ne_zero want)
          rw [Arrival.front, Arrival.data.injEq] at hmore hmore'
          rw [← hmore.2, ← hmore'.2] at hbehind
          rw [read_data _ harrivals hdue, read_data _ harrivals' hdue, ← hmore.2, ← hmore'.2,
            List.drop_succ_cons, List.drop_nil, Arrivals.leaving, Arrivals.leaving]
          exact ⟨rfl, h.with hbehind⟩
  | ended =>
      rw [read_ended want harrivals hdue, read_ended want harrivals' hdue]
      exact ⟨rfl, h⟩
  | fault cause =>
      rw [read_fault want harrivals hdue, read_fault want harrivals' hdue]
      exact ⟨rfl, h.with hbehind⟩

/-! ### What comes on -/

/-- What is sent brings something back or nothing, behind what is there. -/
theorem send_adds (now : Duration) (bytes : List UInt8) (w : Wire) :
    w.arrivals <+: (w.send now bytes).arrivals :=
  List.prefix_append _ _

theorem spend_adds (now : Duration) (offered : List UInt8) (w : Wire) :
    w.arrivals <+: (w.spend now offered).2.arrivals := by
  unfold spend
  split
  · exact send_adds now offered w
  · exact List.prefix_refl _
  · exact send_adds now _ _

theorem write_adds (now : Duration) (offered : List UInt8) (w : Wire) :
    w.arrivals <+: (w.write now offered).2.arrivals := by
  unfold write
  split
  · exact spend_adds now offered w
  · exact List.prefix_refl _
  · rename_i count rules hrules hpos
    have hadds := spend_adds now (offered.take count) { w with writeRules := rules }
    exact hadds
  · exact List.prefix_refl _

theorem flush_adds (now : Duration) (w : Wire) :
    w.arrivals <+: (w.flush now).2.arrivals := by
  unfold flush
  split
  · exact List.prefix_append _ _
  · exact List.prefix_append _ _
  · exact List.prefix_refl _

end Wire

end Multidrop
