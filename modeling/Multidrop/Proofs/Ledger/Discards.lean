import Multidrop.Proofs.Ledger
import Multidrop.Proofs.Link.Discarding

/-!
# What the Statistics Say Was Thrown Away

A call that meets a header that cannot be trusted gives it up, and what has
arrived behind it is removed from the wire. The statistics count the header and
the bytes, unless the throwing away comes to a fault: then the bytes are gone
as well, but neither they nor the header are counted.

Over a run the statistics are short by exactly the headers whose throwing away
came to a fault and by what was removed behind them. They say everything if
there was no such fault.

## Main definitions

* `Call.purge?`: The purge of a turn of a call.
* `Ledger.Meets`: The next turn of a call reads the end of a header.
* `Ledger.purges`: The purges of a run, one after another.

## Theorems

* `Ledger.turn_purges`: What a turn does that gives a header up.
* `Ledger.run_discarded`: The readings of a run tell of the purges that no fault
  cut short.
* `Ledger.discards_counted`: What is counted of what is thrown away.
-/

namespace Multidrop

open Reception (Purge Reading Untrusted Unreadable)

/-- The purge of a turn of a call, if the turn gives a header up. -/
def Call.purge? (c : Call) (bus : Bus) : Option Purge :=
  match c.stage with
  | .receiving _ _ _ reception => reception.purge? c.onlyFrom bus
  | _ => none

theorem Call.purge?_of_not_receiving {c : Call} {bus : Bus} (h : c.isReceiving = false) :
    c.purge? bus = none := by
  rw [purge?]
  split
  · rename_i deadline early taken r hstage
    simp only [isReceiving, hstage, Bool.true_eq_false] at h
  · rfl

namespace Ledger

/-- The purge of an action. -/
def purge? (l : Ledger) : Action → Option Purge
  | .turn id => l.calls[id]?.join.bind (·.purge? l.bus)
  | _ => none

/-- The purges of a run. -/
def purges (l : Ledger) : List Action → List Purge
  | [] => []
  | a :: actions => (l.purge? a).toList ++ (l.act a).purges actions

/-- The next turn of a call that waits for a frame reads bytes with which it has
    taken `taken`, and leaves `wire` behind them. -/
inductive Meets (l : Ledger) (id : Nat) : Call → List UInt8 → Wire → Prop where
  | bytes {c : Call} {deadline : Option Duration} {early : Bool} {count : Nat} {r : Reception}
      {byte : UInt8} {more : List UInt8} {wire : Wire}
      (hplace : l.calls[id]?.join = some c)
      (hstage : c.stage = .receiving deadline early count r)
      (hread : l.bus.wire.read l.bus.now r.wants = (.ready (byte :: more), wire)) :
      Meets l id c (r.got ++ byte :: more) wire

variable {config : Link.Config} {l : Ledger} {id : Nat} {c : Call} {taken : List UInt8}
  {wire : Wire} {reason : Link.ResyncReason} {cause : Varuint.Error}

theorem act_turn (hplace : l.calls[id]?.join = some c) : l.act (.turn id) = l.turn id c := by
  rw [act, hplace]

/-- A call that waits for a frame does on the bus of a ledger what its reception
    does, and the ledger notes its reading. -/
theorem turn_receiving {deadline : Option Duration} {early : Bool} {count : Nat}
    {r : Reception} (hkept : Kept config l) (hplace : l.calls[id]?.join = some c)
    (hstage : c.stage = .receiving deadline early count r) :
    r.Sound l.bus.link.config.limits ∧
      (l.act (.turn id)).bus.link = (r.step c.onlyFrom l.bus).2.link ∧
      (l.act (.turn id)).bus.wire = (r.step c.onlyFrom l.bus).2.wire ∧
      (l.act (.turn id)).readings = l.readings ++ (r.reading? c.onlyFrom l.bus).toList ∧
      l.purge? (.turn id) = r.purge? c.onlyFrom l.bus := by
  have hmem := mem_of_place hplace
  have hreception := hkept.reception c hmem
  rw [Call.reception, hstage, ← hkept.link] at hreception
  rcases Call.step_receiving_bus (hkept.sound c hmem) hstage id l.bus with ⟨hlink, hwire, _⟩
  have hreading : c.reading? l.bus = r.reading? c.onlyFrom l.bus := by
    rw [Call.reading?, hstage]
  have hpurge : c.purge? l.bus = r.purge? c.onlyFrom l.bus := by
    rw [Call.purge?, hstage]
  rw [act_turn hplace, purge?, hplace, Option.bind_some, hpurge, turn, hreading]
  exact ⟨hreception, hlink, hwire, rfl, rfl⟩

/-- A turn that reads a header that cannot be trusted removes what is thrown
    away. The header and what was removed are counted, unless there was a
    fault. -/
theorem turn_purges (hkept : Kept config l) (hmeets : l.Meets id c taken wire)
    (huntrusted : Untrusted config.limits taken reason) :
    let removed := wire.thrown l.bus.now config.resyncWindow
    let after := l.act (.turn id)
    wire.coming = removed ++ after.bus.wire.coming ∧
      (¬ wire.CutsShort l.bus.now config.resyncWindow →
        after.bus.link = l.bus.link.resynchronized removed.length ∧
        after.readings = l.readings ++
          [⟨c.onlyFrom, taken, .error (.resynchronized reason removed.length)⟩] ∧
        l.purge? (.turn id) = some { reason, removed, fault? := none }) ∧
      (wire.CutsShort l.bus.now config.resyncWindow → ∃ cause,
        after.bus.link = l.bus.link ∧
        after.readings = l.readings ++ [⟨c.onlyFrom, taken, .error (.transport (.io cause))⟩] ∧
        l.purge? (.turn id) = some { reason, removed, fault? := some cause }) := by
  intro removed after
  rcases hmeets with ⟨hplace, hstage, hread⟩
  rename_i deadline early count r byte more
  rcases turn_receiving hkept hplace hstage with ⟨hsound, hlink, hwire, hreadings, hpurge⟩
  rw [← hkept.link] at huntrusted
  have hcoming := wire.coming_purged l.bus.now config.resyncWindow
  rcases Reception.step_purges c.onlyFrom hsound hread huntrusted with ⟨hwhole, hcut⟩
  rw [hkept.link] at hwhole hcut
  -- Either way the wire is left without what is thrown away.
  by_cases h : wire.CutsShort l.bus.now config.resyncWindow
  · -- A fault cuts the purge short: no counter moves, and the reading is the fault.
    rcases hcut h with ⟨cause, hstep, hsome⟩
    rw [Reception.reading?, hread, hstep] at hreadings
    rw [hstep] at hlink hwire
    refine ⟨?_, fun hwhole' => absurd h hwhole', fun _ => ⟨cause, hlink, hreadings, ?_⟩⟩
    · rw [hwire]
      exact hcoming
    · rw [hpurge]
      exact hsome
  · -- The window runs out or the wire closes, and both counters move.
    rcases hwhole h with ⟨hstep, hsome⟩
    rw [Reception.reading?, hread, hstep] at hreadings
    rw [hstep] at hlink hwire
    refine ⟨?_, fun _ => ⟨hlink, hreadings, ?_⟩, fun hcut' => absurd hcut' h⟩
    · rw [hwire]
      exact hcoming
    · rw [hpurge]
      exact hsome

/-- A turn that reads a length that is no number throws nothing away. -/
theorem turn_unreadable (hkept : Kept config l) (hmeets : l.Meets id c taken wire)
    (hunreadable : Unreadable taken cause) :
    let after := l.act (.turn id)
    after.bus.wire = wire ∧ after.bus.link = l.bus.link ∧
      after.readings = l.readings ++
        [⟨c.onlyFrom, taken, .error (.frame (.varuint cause))⟩] ∧
      l.purge? (.turn id) = none := by
  intro after
  rcases hmeets with ⟨hplace, hstage, hread⟩
  rcases turn_receiving hkept hplace hstage with ⟨hsound, hlink, hwire, hreadings, hpurge⟩
  rcases Reception.step_unreadable c.onlyFrom hsound hread hunreadable with ⟨hstep, hnone⟩
  rw [Reception.reading?, hread, hstep] at hreadings
  rw [hstep] at hlink hwire
  exact ⟨hwire, hlink, hreadings, hpurge.trans hnone⟩

theorem filterMap_toList {α β : Type} (f : α → Option β) (o : Option α) :
    o.toList.filterMap f = (o.bind f).toList := by
  cases o with
  | none => rfl
  | some a =>
      rw [Option.toList_some, List.filterMap_cons, Option.bind_some]
      cases f a with
      | none => rfl
      | some b => rfl

/-- What a turn of a call reads says what is counted of its purge. -/
theorem call_discarded (hkept : Kept config l) (hplace : l.calls[id]?.join = some c) :
    (c.reading? l.bus).bind Reading.discarded? = (c.purge? l.bus).bind Purge.counted? := by
  by_cases hreceiving : c.isReceiving = true
  · rcases Call.isReceiving_iff.mp hreceiving with ⟨deadline, early, count, r, hstage⟩
    rw [Call.reading?, Call.purge?, hstage]
    exact Reception.reading_purge c.onlyFrom (turn_receiving hkept hplace hstage).1
  · rw [Bool.not_eq_true] at hreceiving
    rw [Call.reading?_of_not_receiving hreceiving, Call.purge?_of_not_receiving hreceiving]
    rfl

/-- The readings say after an action what was counted of its purge. -/
theorem act_discarded (hkept : Kept config l) (a : Action) :
    (l.act a).readings.filterMap Reading.discarded? =
      l.readings.filterMap Reading.discarded? ++
        (l.purge? a).toList.filterMap Purge.counted? := by
  -- Only a turn of a call reads, so the other actions add nothing on either side.
  have hnothing : l.readings.filterMap Reading.discarded? =
      l.readings.filterMap Reading.discarded? ++
        (none : Option Purge).toList.filterMap Purge.counted? := by
    rw [Option.toList_none, List.filterMap_nil, List.append_nil]
  cases a with
  | queue bytes => exact hnothing
  | queueFrame f =>
      rw [act]
      split
      · exact hnothing
      · exact hnothing
  | call task client limit => exact hnothing
  | drop id => exact hnothing
  | outside now wire => exact hnothing
  | turn id =>
      cases hplace : l.calls[id]?.join with
      | none =>
          rw [act, purge?, hplace]
          exact hnothing
      | some c =>
          rw [act_turn hplace, turn, purge?, hplace, Option.bind_some, List.filterMap_append,
            filterMap_toList, filterMap_toList, call_discarded hkept hplace]

/-- The readings of a run tell of its purges, those left out that came to a
    fault. By induction on what is done. -/
theorem run_discarded (hkept : Kept config l) (actions : List Action) :
    (l.run actions).readings.filterMap Reading.discarded? =
      l.readings.filterMap Reading.discarded? ++
        (l.purges actions).filterMap Purge.counted? := by
  induction actions generalizing l with
  | nil => exact (List.append_nil _).symm
  | cons a actions ih =>
      rw [run, List.foldl_cons]
      have hmore := ih (act_kept hkept a)
      rw [act_discarded hkept a, List.append_assoc, ← List.filterMap_append] at hmore
      exact hmore

theorem filterMap_counted? (purges : List Purge) :
    purges.filterMap Purge.counted? =
      (purges.filter (·.fault?.isNone)).map (·.removed.length) := by
  induction purges with
  | nil => rfl
  | cons p purges ih =>
      rw [List.filterMap_cons, List.filter_cons, Purge.counted?, ih]
      cases p.fault?.isNone with
      | true => rfl
      | false => rfl

theorem sum_discarded? (readings : List Reading) :
    (readings.map fun g => g.discarded?.getD 0).sum =
      (readings.filterMap Reading.discarded?).sum := by
  induction readings with
  | nil => rfl
  | cons g readings ih =>
      rw [List.map_cons, List.sum_cons, ih, List.filterMap_cons]
      cases g.discarded? with
      | none => exact Nat.zero_add _
      | some count => exact (List.sum_cons ..).symm

/-- Whatever the wire does, a call that meets a header that cannot be trusted
    removes what is thrown away behind it. The header and the number of bytes
    removed are counted, unless the throwing away comes to a fault: then the
    call comes to that fault, and neither is counted. A length that is no
    number is not given up on, and behind it nothing is removed or counted.

    Over every run the statistics count the purges that no fault cut short, and
    what was removed in them. They count all that was thrown away if there was
    no such fault. -/
theorem discards_counted (config : Link.Config) (actions : List Action) :
    let l := (start config).run actions
    let purges := (start config).purges actions
    let whole := purges.filter (·.fault?.isNone)
    let counted := l.bus.link.statistics
    (∀ id c taken wire, l.Meets id c taken wire →
      let removed := wire.thrown l.bus.now config.resyncWindow
      let after := l.act (.turn id)
      (∀ reason, Untrusted config.limits taken reason →
        wire.coming = removed ++ after.bus.wire.coming ∧
        (¬ wire.CutsShort l.bus.now config.resyncWindow →
          after.bus.link = l.bus.link.resynchronized removed.length ∧
          after.readings = l.readings ++
            [⟨c.onlyFrom, taken, .error (.resynchronized reason removed.length)⟩] ∧
          l.purge? (.turn id) = some { reason, removed, fault? := none }) ∧
        (wire.CutsShort l.bus.now config.resyncWindow → ∃ cause,
          after.bus.link = l.bus.link ∧
          after.readings = l.readings ++ [⟨c.onlyFrom, taken, .error (.transport (.io cause))⟩] ∧
          l.purge? (.turn id) = some { reason, removed, fault? := some cause })) ∧
      (∀ cause, Unreadable taken cause →
        after.bus.wire = wire ∧ after.bus.link = l.bus.link ∧
        after.readings = l.readings ++
          [⟨c.onlyFrom, taken, .error (.frame (.varuint cause))⟩] ∧
        l.purge? (.turn id) = none)) ∧
    counted.resyncs = whole.length ∧
    counted.bytesDiscarded = (whole.map (·.removed.length)).sum ∧
    ((∀ p ∈ purges, p.fault? = none) →
      counted.resyncs = purges.length ∧
      counted.bytesDiscarded = (purges.map (·.removed.length)).sum) := by
  intro l purges whole counted
  have hkept : Kept config l := run_kept (kept_start config) actions
  -- What the readings say was discarded is what the whole purges removed.
  have hdiscarded : l.readings.filterMap Reading.discarded? = whole.map (·.removed.length) := by
    have hrun := run_discarded (kept_start config) actions
    rw [filterMap_counted?] at hrun
    exact hrun
  have hresyncs : counted.resyncs = whole.length := by
    rw [hkept.counted.resyncs, ← List.length_filterMap_eq_countP, hdiscarded, List.length_map]
  have hbytes : counted.bytesDiscarded = (whole.map (·.removed.length)).sum := by
    rw [hkept.counted.bytesDiscarded, sum_discarded?, hdiscarded]
  -- The counters are those of the readings, and the readings tell of the purges.
  refine ⟨fun id c taken wire hmeets => ⟨fun reason huntrusted => ?_, fun cause hunreadable => ?_⟩,
    hresyncs, hbytes, fun hnone => ?_⟩
  · exact turn_purges hkept hmeets huntrusted
  · exact turn_unreadable hkept hmeets hunreadable
  · have hall : whole = purges :=
      List.filter_eq_self.mpr fun p hp => by rw [hnone p hp]; rfl
    rw [← hall]
    exact ⟨hresyncs, hbytes⟩

/-- A call for a frame that takes some turns. -/
def listening (turns : Nat) (arrivals : Arrivals) : List Action :=
  [.call (.receive none) {} none, .outside 0 { arrivals }] ++ List.replicate turns (.turn 0)

/-- The call as it waits for the frame, with what it has taken of one. -/
def listener (r : Reception) : Call :=
  { task := .receive none, stage := .receiving none true 0 r }

/-- Two calls meet a wrong magic. There are two bytes behind it, and behind the
    second also a fault. A third call meets a length that is no number. -/
theorem discards_counted_two_bytes :
    let broken : Transport.Fault := { kind := .brokenPipe }
    let noise : Arrivals := [(0, .data 0xde [0xad, 0, 0]), (0, .data 1 [2])]
    let endless : Arrivals := [(0, .data 0x54 [0xab, 5, 0, 0xff, 0xff, 0xff, 0xff, 0x7f, 1, 2])]
    let l := (start {}).run (listening 2 noise)
    let cut := (start {}).run (listening 2 (noise ++ [(0, .fault broken)]))
    let unread := (start {}).run (listening 7 endless)
    (l.act (.turn 0)).bus.link = l.bus.link.resynchronized 2 ∧
      (cut.act (.turn 0)).bus.link = cut.bus.link ∧
      (unread.act (.turn 0)).bus.wire.coming = [1, 2] ∧
      ((start {}).run (listening 3 noise)).bus.link.statistics.bytesDiscarded = 2 := by
  intro broken noise endless l cut unread
  -- A header without the magic, and a length that cannot be read.
  have huntrusted : Untrusted {} [0xde, 0xad, 0, 0] (.badMagic 0xadde) :=
    .magic 0 0 (by decide)
  have hclosed : Varuint.Closed [0xff, 0xff, 0xff, 0xff, 0x7f] :=
    .more (by decide) (.more (by decide) (.more (by decide) (.more (by decide)
      (.last (by decide)))))
  have hunreadable : Unreadable [0x54, 0xab, 5, 0, 0xff, 0xff, 0xff, 0xff, 0x7f]
      (.outOfRange 34359738367) :=
    .outOfRange 5 0 hclosed (by decide) (by decide)
  have hmeets : l.Meets 0 (listener .start) [0xde, 0xad, 0, 0]
      { arrivals := [(0, .data 1 [2])] } :=
    .bytes (r := .start) (by decide +kernel) rfl rfl
  have hcut : cut.Meets 0 (listener .start) [0xde, 0xad, 0, 0]
      { arrivals := [(0, .data 1 [2]), (0, .fault broken)] } :=
    .bytes (r := .start) (by decide +kernel) rfl rfl
  have hnow : unread.bus.now = 0 := by decide +kernel
  have harrivals : unread.bus.wire.arrivals = [(0, .data 0x7f [1, 2])] := by decide +kernel
  have hunread : unread.Meets 0
      (listener (.length [0x54, 0xab, 5, 0, 0xff, 0xff, 0xff, 0xff] ⟨0xfffffff, 4⟩))
      [0x54, 0xab, 5, 0, 0xff, 0xff, 0xff, 0xff, 0x7f]
      { unread.bus.wire with arrivals := [(0, .data 1 [2])] } := by
    refine .bytes (r := .length [0x54, 0xab, 5, 0, 0xff, 0xff, 0xff, 0xff] ⟨0xfffffff, 4⟩)
      (by decide +kernel) rfl ?_
    rw [hnow, Wire.read, harrivals]
    rfl
  -- A whole purge, one that a fault cuts short, none at all, and the sum.
  refine ⟨?_, ?_, ?_, ?_⟩
  · have hpurges := ((discards_counted {} (listening 2 noise)).1 0 _ _ _ hmeets).1 _ huntrusted
    refine (hpurges.2.1 ?_).1
    rintro ⟨_, moment, cause, later, hbeyond, _⟩
    cases hbeyond
  · have hpurges :=
      ((discards_counted {} (listening 2 (noise ++ [(0, .fault broken)]))).1 0 _ _ _ hcut).1 _
        huntrusted
    rcases hpurges.2.2 ⟨by decide, 0, broken, [], rfl, by decide, by decide⟩ with ⟨cause, hlink, _⟩
    exact hlink
  · have hnothing :=
      ((discards_counted {} (listening 7 endless)).1 0 _ _ _ hunread).2 _ hunreadable
    rw [hnothing.1]
    rfl
  · have hall := (discards_counted {} (listening 3 noise)).2.2.2 (by decide +kernel)
    exact hall.2.trans (by decide +kernel)

/-- Behind a wrong magic two bytes are removed before the wire breaks. Neither
    they nor the header are counted. -/
theorem broken_discard_not_counted :
    let broken : Transport.Fault := { kind := .brokenPipe }
    let actions := listening 3
      [(0, .data 0xde [0xad, 0, 0]), (0, .data 1 [2]), (0, .fault broken)]
    let l := (start {}).run actions
    (start {}).purges actions = [⟨.badMagic 0xadde, [1, 2], some broken⟩] ∧
      l.bus.wire.coming = [] ∧ l.bus.link.statistics.resyncs = 0 ∧
      l.bus.link.statistics.bytesDiscarded = 0 := by
  decide +kernel

end Ledger

end Multidrop
