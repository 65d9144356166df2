import Multidrop.Proofs.Link.Listening
import Multidrop.Proofs.Wire.Backlog

/-!
# Resynchronization

Behind a header that cannot be trusted a reception throws away what has
arrived, pass by pass, in pieces of a limited size, and within a window. How
many passes that takes depends on the pieces and on how the bytes are cut into
arrivals. What is thrown away does not: it is the front of the backlog, as long
as the window, or all of it if that is less.

No pass takes more than is left of the window, whatever is on the wire. So what
is left of it can be counted down, and the passes come to an end.

If all of the backlog fits into the window, the next call for a frame starts
with the first byte that arrives behind it, and from there on calls are
answered frame by frame.

## Main definitions

* `Listener.after`: A listener that had had answers before.

## Theorems

* `Reception.discard_takes`: What is thrown away never exceeds the window.
* `Reception.step_within`: So does what is said to have been thrown away.
* `Reception.discard_eq`: It is the front of the backlog.
* `Listener.resynchronizes`: A header that cannot be trusted is given up, and
  what follows is heard.
-/

namespace Multidrop

namespace Reception

/-- A pass takes from the front of what is to come, and no more than it
    wants. -/
theorem readArrived_takes (now : Duration) (want : Nat) (wire : Wire) :
    ∃ taken, wire.coming = taken ++ (readArrived now want wire).2.coming ∧
      taken.length ≤ want ∧
      ∀ bytes, (readArrived now want wire).1 = .ok bytes → bytes = taken := by
  rcases wire.read_takes now want with ⟨hcoming, hlength⟩
  refine ⟨(wire.read now want).1.taken, ?_, hlength, ?_⟩
  · rw [hcoming]
    -- Nothing is there, bytes are, or a fault is, which may count as nothing.
    unfold readArrived
    split
    · rename_i later hread
      rw [hread]
    · rename_i bytes later hread
      rw [hread]
    · rename_i cause later hread
      rw [hread]
      split
      · rfl
      · rfl
  · intro bytes
    unfold readArrived
    split
    · rename_i later hread
      rw [hread]
      intro hbytes
      exact (Except.ok.inj hbytes).symm
    · rename_i taken later hread
      rw [hread]
      intro hbytes
      exact (Except.ok.inj hbytes).symm
    · rename_i cause later hread
      rw [hread]
      split
      · intro hbytes
        exact (Except.ok.inj hbytes).symm
      · intro hbytes
        simp only [reduceCtorEq] at hbytes

/-- A pass that finds something goes on with what is left of the window. -/
theorem discard_some {now : Duration} {window : Nat} {wire later : Wire} {byte : UInt8}
    {more : List UInt8} (hwindow : window ≠ 0)
    (hread : readArrived now (min window discardChunk) wire = (.ok (byte :: more), later)) :
    discard now window wire =
      ((discard now (window - (more.length + 1)) later).1.map (· + (more.length + 1)),
        (discard now (window - (more.length + 1)) later).2) := by
  rw [discard, dif_neg hwindow, hread]

/-- A pass that finds nothing is the last. -/
theorem discard_none {now : Duration} {window : Nat} {wire later : Wire} (hwindow : window ≠ 0)
    (hread : readArrived now (min window discardChunk) wire = (.ok [], later)) :
    discard now window wire = (.ok 0, later) := by
  rw [discard, dif_neg hwindow, hread]

/-- What is thrown away comes from the front and never exceeds the window, and
    it is what is counted. By induction on what is left of the window. -/
theorem discard_takes (now : Duration) (window : Nat) (wire : Wire) :
    ∃ taken, wire.coming = taken ++ (discard now window wire).2.coming ∧
      taken.length ≤ window ∧
      ∀ count, (discard now window wire).1 = .ok count → count = taken.length := by
  induction window using Nat.strongRecOn generalizing wire with
  | ind window ih =>
    by_cases hwindow : window = 0
    · rw [discard, dif_pos hwindow]
      exact ⟨[], rfl, Nat.zero_le _, fun count hcount => (Except.ok.inj hcount).symm⟩
    rcases readArrived_takes now (min window discardChunk) wire with
      ⟨taken, hcoming, hlength, hbytes⟩
    rcases hread : readArrived now (min window discardChunk) wire with ⟨said, later⟩
    rw [hread] at hcoming hbytes
    -- A fault ends it with an error, an empty read without, and bytes go on.
    rcases said with cause | _ | ⟨byte, more⟩
    · rw [discard, dif_neg hwindow, hread]
      refine ⟨taken, hcoming, by omega, fun count hcount => ?_⟩
      simp only [reduceCtorEq] at hcount
    · rw [discard_none hwindow hread]
      rw [← hbytes [] rfl] at hcoming
      exact ⟨[], hcoming, Nat.zero_le _, fun count hcount => (Except.ok.inj hcount).symm⟩
    · rw [← hbytes _ rfl] at hcoming hlength
      rw [List.length_cons] at hlength
      rw [discard_some hwindow hread]
      rcases ih (window - (more.length + 1)) (by omega) later with ⟨rest, hrest, hroom, hcount⟩
      generalize discard now (window - (more.length + 1)) later = done at hrest hcount ⊢
      rcases done with ⟨said, last⟩
      refine ⟨byte :: more ++ rest, ?_, ?_, fun count hmap => ?_⟩
      · rw [hcoming, hrest, List.append_assoc]
      · rw [List.length_append, List.length_cons]
        omega
      · cases said with
        | error cause => simp only [Except.map, reduceCtorEq] at hmap
        | ok counted =>
            rw [List.length_append, List.length_cons, ← hcount counted rfl,
              ← Except.ok.inj hmap]
            exact Nat.add_comm _ _

/-- Who says that a header was given up says no more than the window was thrown
    away. -/
theorem giveUp_within {reason reason' : Link.ResyncReason} {bus bus' : Bus} {count : Nat}
    (h : giveUp reason bus = (.over (.error (.resynchronized reason' count)), bus')) :
    count ≤ bus.link.config.resyncWindow := by
  rcases discard_takes bus.now bus.link.config.resyncWindow bus.wire with
    ⟨taken, _, hwindow, hcount⟩
  rw [giveUp, resynchronize] at h
  generalize discard bus.now bus.link.config.resyncWindow bus.wire = done at h hcount
  rcases done with ⟨cause | counted, wire⟩
  · simp only [Prod.mk.injEq, Turn.over.injEq, Except.error.injEq, reduceCtorEq,
      false_and] at h
  · simp only [Prod.mk.injEq, Turn.over.injEq, Except.error.injEq,
      Link.Error.resynchronized.injEq] at h
    rw [← h.1.2, hcount counted rfl]
    exact hwindow

theorem close_ne_resynchronized (onlyFrom : Option UInt8) (bytes : List UInt8) (bus : Bus)
    (reason : Link.ResyncReason) (count : Nat) :
    (close onlyFrom bytes bus).1 ≠ .error (.resynchronized reason count) := by
  rw [close]
  split
  · simp only [ne_eq, Except.error.injEq, reduceCtorEq, not_false_eq_true]
  · simp only [ne_eq, reduceCtorEq, not_false_eq_true]
  · simp only [ne_eq, reduceCtorEq, not_false_eq_true]

/-- So does a turn, since nothing else gives a header up. -/
theorem step_within {onlyFrom : Option UInt8} {r : Reception} {bus bus' : Bus}
    {reason : Link.ResyncReason} {count : Nat} (hsound : r.Sound bus.link.config.limits)
    (h : r.step onlyFrom bus = (.over (.error (.resynchronized reason count)), bus')) :
    count ≤ bus.link.config.resyncWindow := by
  have hmoves := step_moves onlyFrom hsound
  generalize r.step onlyFrom bus = turn at hmoves h
  cases hmoves with
  | waiting => simp only [Prod.mk.injEq, reduceCtorEq, false_and] at h
  | interrupted => simp only [Prod.mk.injEq, reduceCtorEq, false_and] at h
  | failed =>
      simp only [Prod.mk.injEq, Turn.over.injEq, Except.error.injEq, reduceCtorEq,
        false_and] at h
  | closed =>
      simp only [Prod.mk.injEq, Turn.over.injEq, Except.error.injEq, Link.Error.closed,
        reduceCtorEq, false_and] at h
  | bytes hread hproceed hcomes =>
      cases hcomes with
      | again => simp only [Prod.mk.injEq, reduceCtorEq, false_and] at h
      -- Only giving up resynchronizes, and it throws away no more than the window.
      | untrusted reason' huntrusted =>
          have hwithin := giveUp_within h
          exact hwithin
      | unreadable =>
          simp only [Prod.mk.injEq, Turn.over.injEq, Except.error.injEq, reduceCtorEq,
            false_and] at h
      | whole p haccepted htaken =>
          rw [Prod.mk.injEq, Turn.over.injEq] at h
          exact absurd h.1 (close_ne_resynchronized onlyFrom _ _ reason count)

/-- As long as there is a backlog a pass takes something from its front, and
    throwing away more goes on where it has stopped. -/
theorem readArrived_front {now : Duration} {want : Nat} {wire : Wire} (hwant : 0 < want)
    (h : wire.arrivals.backlog now ≠ []) :
    ∃ byte more later,
      readArrived now want wire = (.ok (byte :: more), { wire with arrivals := later }) ∧
      more.length + 1 ≤ want ∧
      wire.arrivals.backlog now = byte :: more ++ later.backlog now ∧
      wire.arrivals.beyond now = later.beyond now ∧
      ∀ window, more.length + 1 ≤ window →
        wire.arrivals.cleared now window = later.cleared now (window - (more.length + 1)) := by
  rcases hscript : wire.arrivals with _ | ⟨⟨moment, arrival⟩, later⟩
  · exact absurd (by rw [hscript, Arrivals.backlog]) h
  by_cases hearly : now < moment
  · exact absurd (by rw [hscript, Arrivals.backlog_early hearly]) h
  cases arrival with
  -- A backlog that is not empty begins with bytes that are due.
  | ended => exact absurd (by rw [hscript, Arrivals.backlog, if_neg hearly]) h
  | fault cause => exact absurd (by rw [hscript, Arrivals.backlog, if_neg hearly]) h
  | data first more =>
      rcases hdrop : (first :: more).drop want with _ | ⟨next, left⟩
      · -- The arrival is read whole.
        have hfits := List.drop_eq_nil_iff.mp hdrop
        rw [List.length_cons] at hfits
        refine ⟨first, more, later, ?_, hfits, Arrivals.backlog_data hearly,
          Arrivals.beyond_data hearly, fun window hwindow => Arrivals.cleared_whole hearly hwindow⟩
        rw [readArrived, Wire.read, hscript]
        simp only [if_neg hearly, hdrop]
      · -- The arrival has more bytes than are wanted.
        have htake : (first :: more).take want = first :: more.take (want - 1) := by
          rw [← Nat.sub_add_cancel hwant, List.take_succ_cons, Nat.add_sub_cancel]
        have hlength := congrArg List.length hdrop
        rw [List.length_drop, List.length_cons, List.length_cons] at hlength
        have hcount : (more.take (want - 1)).length + 1 = want := by
          rw [List.length_take]
          omega
        refine ⟨first, more.take (want - 1), (moment, .data next left) :: later, ?_,
          Nat.le_of_eq hcount, ?_, ?_, fun window hwindow => ?_⟩
        · rw [readArrived, Wire.read, hscript]
          simp only [if_neg hearly, hdrop, htake]
        · rw [Arrivals.backlog_data hearly, Arrivals.backlog_data hearly, ← htake, ← hdrop,
            ← List.append_assoc, List.take_append_drop]
        · rw [Arrivals.beyond_data hearly, Arrivals.beyond_data hearly]
        · rw [hcount] at hwindow ⊢
          exact Arrivals.cleared_part hearly hwant hwindow hdrop

/-- At the end of the backlog a pass finds nothing, unless the call fails. -/
theorem readArrived_end {now : Duration} {window : Nat} (want : Nat) {wire : Wire}
    (hwindow : window ≠ 0) (hnone : wire.arrivals.backlog now = [])
    (h : ¬ (wire.arrivals.beyond now).Breaks now) :
    readArrived now want wire =
      (.ok [], { wire with arrivals := wire.arrivals.cleared now window }) := by
  rcases hscript : wire.arrivals with _ | ⟨⟨moment, arrival⟩, later⟩
  · rw [readArrived, Wire.read, hscript]
    simp only [Arrivals.cleared, ← hscript]
  -- An arrival that is not due stays where it is.
  by_cases hearly : now < moment
  · rw [readArrived, Wire.read, hscript, Arrivals.cleared_early hearly]
    simp only [if_pos hearly, ← hscript]
  cases arrival with
  | data first more =>
      rw [hscript, Arrivals.backlog_data hearly] at hnone
      simp only [List.cons_append, reduceCtorEq] at hnone
  | ended =>
      rw [readArrived, Wire.read, hscript, Arrivals.cleared_due hwindow hearly]
      simp only [if_neg hearly, ← hscript]
  | fault cause =>
      -- A fault that breaks off is excluded, so this one counts as nothing.
      have hkind : cause.kind = .wouldBlock ∨ cause.kind = .interrupted := by
        refine Decidable.byContradiction fun hkind => ?_
        rw [hscript, Arrivals.beyond, if_neg hearly] at h
        exact h ⟨moment, cause, later, rfl, hearly, hkind⟩
      rw [readArrived, Wire.read, hscript, Arrivals.cleared_due hwindow hearly]
      simp only [if_neg hearly, if_pos hkind]

/-- Where no call fails, the front of the backlog is thrown away and counted, and
    nothing else. By induction on what is left of the window. -/
theorem discard_eq (now : Duration) (window : Nat) {wire : Wire}
    (h : (wire.arrivals.backlog now).length < window → ¬ (wire.arrivals.beyond now).Breaks now) :
    discard now window wire =
      (.ok (min window (wire.arrivals.backlog now).length),
        { wire with arrivals := wire.arrivals.cleared now window }) := by
  induction window using Nat.strongRecOn generalizing wire with
  | ind window ih =>
    by_cases hwindow : window = 0
    · rw [discard, dif_pos hwindow, hwindow, Arrivals.cleared_zero, Nat.zero_min]
    by_cases hnone : wire.arrivals.backlog now = []
    · -- The backlog is gone, so the next read takes what ends it, if that is due.
      rw [hnone, List.length_nil] at h
      rw [discard_none hwindow (readArrived_end _ hwindow hnone (h (by omega))), hnone,
        List.length_nil, Nat.min_zero]
    · have hwant : 0 < min window discardChunk := by
        rw [discardChunk]
        omega
      rcases readArrived_front hwant hnone with
        ⟨byte, more, later, hread, hlength, hbacklog, hbeyond, hcleared⟩
      rw [hbacklog, hbeyond, List.length_append, List.length_cons] at h
      -- The passes that follow come to the end of the same backlog.
      have hrest : discard now (window - (more.length + 1)) { wire with arrivals := later } =
          (.ok (min (window - (more.length + 1)) (later.backlog now).length),
            { wire with arrivals := later.cleared now (window - (more.length + 1)) }) := by
        refine ih _ (by omega) fun hless => h ?_
        change (later.backlog now).length < window - (more.length + 1) at hless
        omega
      have hcount : min window (wire.arrivals.backlog now).length =
          min (window - (more.length + 1)) (later.backlog now).length + (more.length + 1) := by
        rw [hbacklog, List.length_append, List.length_cons]
        omega
      rw [discard_some hwindow hread, hrest, hcount, hcleared window (by omega)]
      rfl

/-- A turn that reads a header that cannot be trusted gives it up, with the front
    of the backlog. -/
theorem step_untrusted (onlyFrom : Option UInt8) {r : Reception} {bus : Bus} {byte : UInt8}
    {more : List UInt8} {wire : Wire} {reason : Link.ResyncReason}
    (hsound : r.Sound bus.link.config.limits)
    (hread : bus.wire.read bus.now r.wants = (.ready (byte :: more), wire))
    (huntrusted : Untrusted bus.link.config.limits (r.got ++ byte :: more) reason)
    (h : (wire.arrivals.backlog bus.now).length < bus.link.config.resyncWindow →
      ¬ (wire.arrivals.beyond bus.now).Breaks bus.now) :
    let count := min bus.link.config.resyncWindow (wire.arrivals.backlog bus.now).length
    r.step onlyFrom bus = (.over (.error (.resynchronized reason count)),
      { bus with
        link := bus.link.resynchronized count
        wire := { bus.wire with
          arrivals := wire.arrivals.cleared bus.now bus.link.config.resyncWindow } }) := by
  intro count
  have hlength := (bus.wire.read_takes bus.now r.wants).2
  rw [hread] at hlength
  -- The read completes the header, and the header is given up for.
  have hcomes : Comes onlyFrom (r.got ++ byte :: more) { bus with wire }
      (r.proceed onlyFrom byte more { bus with wire }) :=
    proceed_comes onlyFrom byte more hsound hlength
  have hstep : r.step onlyFrom bus = r.proceed onlyFrom byte more { bus with wire } := by
    rw [step, hread]
  rw [hstep, hcomes.eq_giveUp huntrusted, giveUp, resynchronize, discard_eq _ _ h,
    Wire.read_rest hread]

end Reception

namespace Listener

/-- A listener that had had answers before. -/
def after (earlier : List Reception.Result) (l : Listener) : Listener :=
  { l with results := earlier ++ l.results }

theorem turn_after (earlier : List Reception.Result) (l : Listener) :
    (l.after earlier).turn = l.turn.after earlier := by
  rcases l with ⟨bus, _ | ⟨onlyFrom, calls⟩, reception, results⟩
  · rfl
  · simp only [turn, after]
    rcases reception.step onlyFrom bus with ⟨_ | _ | _, bus'⟩
    · rfl
    · rfl
    · simp only [List.append_assoc]

/-- Answers of the past change nothing. By induction on what is done. -/
theorem run_after (earlier : List Reception.Result) (l : Listener) (actions : List Action) :
    (l.after earlier).run actions = (l.run actions).after earlier := by
  induction actions generalizing l with
  | nil => rfl
  | cons a actions ih =>
      cases a with
      | turn =>
          have hrun : (l.after earlier).run (.turn :: actions) =
              (l.after earlier).turn.run actions := rfl
          rw [hrun, turn_after]
          exact ih l.turn
      | outside changed more => exact ih (l.act (.outside changed more))

/-- The answers to frames that are fit to be sent. -/
theorem answers_frames (limits : Frame.Limits) (calls : List (Option UInt8))
    {frames : List Frame} (h : ∀ f ∈ frames, f.Fits) :
    List.zipWith (Reception.answerTo limits) calls (frames.map Frame.form) =
      List.zipWith (fun onlyFrom f => .ok (Reception.deliver onlyFrom f.arrived)) calls
        frames := by
  induction frames generalizing calls with
  | nil => rw [List.map_nil, List.zipWith_nil_right, List.zipWith_nil_right]
  | cons f frames ih =>
      rcases List.forall_mem_cons.mp h with ⟨hfits, hlater⟩
      cases calls with
      | nil => rfl
      | cons onlyFrom calls =>
          rw [List.map_cons, List.zipWith_cons_cons, List.zipWith_cons_cons, ih calls hlater,
            Reception.answerTo_form limits onlyFrom hfits]

/-- As many calls as there are frames hear the frames, one each, once enough
    turns are taken. -/
theorem hears_frames {bus : Bus} {calls : List (Option UInt8)} {actions : List Action}
    {frames : List Frame} {rest : List UInt8} {n : Nat}
    (h : Arrivals.Flow (bus.wire.arrivals ++ actions.flatMap Action.brings))
    (hpasses : ∀ f ∈ frames, f.Passes bus.link.config.limits)
    (hstream : Arrivals.bytes (bus.wire.arrivals ++ actions.flatMap Action.brings) =
      frames.flatMap Frame.bytes ++ rest)
    (hlength : calls.length ≤ frames.length)
    (hdue : Arrivals.Due ((start bus calls).run actions).bus.now
      ((start bus calls).run actions).bus.wire.arrivals)
    (hn : ((start bus calls).run actions).bus.wire.arrivals.reads ≤ n) :
    (((start bus calls).run actions).run (List.replicate n .turn)).results =
      List.zipWith (fun onlyFrom f => .ok (Reception.deliver onlyFrom f.arrived)) calls
        frames := by
  rcases Arrivals.flow_append.mp h with ⟨hfirst, hlater⟩
  rw [Arrivals.bytes_append] at hstream
  have hkept := run_kept (kept_start hfirst calls) hlater
  rcases turns_settle hkept hdue (Or.inr hn) with ⟨hkept', hend⟩
  -- Frames that pass are forms that the listener accepts.
  have hforms : ∀ p ∈ frames.map Frame.form, p.Accepted bus.link.config.limits := by
    intro p hp
    rcases List.mem_map.mp hp with ⟨f, hf, hform⟩
    rw [← hform]
    exact Frame.accepted_form (hpasses f hf)
  have hbytes : frames.flatMap Frame.bytes = (frames.map Frame.form).flatMap Frame.Form.bytes := by
    rw [List.flatMap_map]
    simp only [Frame.bytes_form]
  have hcount : calls.length ≤ (frames.map Frame.form).length := by
    rw [List.length_map]
    exact hlength
  have hsettled : (((start bus calls).run actions).run (List.replicate n .turn)).calls = [] ∨
      (((start bus calls).run actions).run (List.replicate n .turn)).bus.wire.coming = [] :=
    hend.imp_right fun hnone => by
      rw [Wire.coming, hnone]
      rfl
  rw [hbytes] at hstream
  rw [(hkept'.results_forms hforms hstream hcount hsettled).1]
  exact answers_frames _ calls fun f hf => (hpasses f hf).1

/-- The answers that are there already do not change what the later calls hear. -/
theorem hears_after {bus : Bus} {calls : List (Option UInt8)} {answered : List Reception.Result}
    {actions : List Action} {frames : List Frame} {rest : List UInt8} {n : Nat}
    (h : Arrivals.Flow (bus.wire.arrivals ++ actions.flatMap Action.brings))
    (hpasses : ∀ f ∈ frames, f.Passes bus.link.config.limits)
    (hstream : Arrivals.bytes (bus.wire.arrivals ++ actions.flatMap Action.brings) =
      frames.flatMap Frame.bytes ++ rest)
    (hlength : calls.length ≤ frames.length)
    (hdue : Arrivals.Due (((start bus calls).after answered).run actions).bus.now
      (((start bus calls).after answered).run actions).bus.wire.arrivals)
    (hn : (((start bus calls).after answered).run actions).bus.wire.arrivals.reads ≤ n) :
    ((((start bus calls).after answered).run actions).run (List.replicate n .turn)).results =
      answered ++ List.zipWith (fun onlyFrom f => .ok (Reception.deliver onlyFrom f.arrived)) calls
        frames := by
  rw [run_after] at hdue hn ⊢
  rw [run_after, after, hears_frames h hpasses hstream hlength hdue hn]

/-- A turn that reads a header that cannot be trusted is answered with what it
    throws away. -/
theorem turn_untrusted {l : Listener} {config : Link.Config} {onlyFrom : Option UInt8}
    {later : List (Option UInt8)} {byte : UInt8} {more : List UInt8} {wire : Wire}
    {reason : Link.ResyncReason}
    (hconfig : l.bus.link.config = config) (hsound : l.reception.Sound config.limits)
    (hcalls : l.calls = onlyFrom :: later)
    (hread : l.bus.wire.read l.bus.now l.reception.wants = (.ready (byte :: more), wire))
    (huntrusted : Reception.Untrusted config.limits (l.reception.got ++ byte :: more) reason)
    (h : (wire.arrivals.backlog l.bus.now).length < config.resyncWindow →
      ¬ (wire.arrivals.beyond l.bus.now).Breaks l.bus.now) :
    let count := min config.resyncWindow (wire.arrivals.backlog l.bus.now).length
    l.turn = {
      bus := { l.bus with
        link := l.bus.link.resynchronized count
        wire := { l.bus.wire with
          arrivals := wire.arrivals.cleared l.bus.now config.resyncWindow } }
      calls := later
      reception := .start
      results := l.results ++ [.error (.resynchronized reason count)] } := by
  intro count
  rw [← hconfig] at hsound huntrusted h
  -- The reception ends with the error, which is the answer of the first call.
  have hstep := Reception.step_untrusted onlyFrom hsound hread huntrusted h
  rw [hconfig] at hstep
  simp only [turn, hcalls]
  rw [hstep]

/-- Throwing away never takes more than the window, in no pass and altogether,
    and what it counts is what it has taken, whatever is on the wire.

    Whenever a call has read a header that does not start with the magic, or one
    with a length that is more than is accepted, and no fault other than for
    nothing being there stands where the backlog ends within the window, it
    takes the front of the backlog, as long as the window, or all of it if that
    is less. It is answered with the reason and that number, the two counts go
    up, and everything else on the bus stays as it was.

    If all of the backlog fits into the window, and what stands behind it and
    comes later is a run of frames that are accepted, the next calls hear these
    frames, one each, once they have taken enough turns. -/
theorem resynchronizes (bus : Bus) (calls : List (Option UInt8)) (actions : List Action) :
    (∀ now window wire, ∃ taken,
      Wire.coming wire = taken ++ (Reception.discard now window wire).2.coming ∧
      taken.length ≤ window ∧
      ∀ count, (Reception.discard now window wire).1 = .ok count → count = taken.length) ∧
    (∀ now window wire bytes,
      (Reception.readArrived now (min window Reception.discardChunk) wire).1 = .ok bytes →
        bytes.length ≤ window) ∧
    let config := bus.link.config
    let l := (start bus calls).run actions
    ∀ onlyFrom later byte more wire reason,
      l.calls = onlyFrom :: later →
      l.bus.wire.read l.bus.now l.reception.wants = (.ready (byte :: more), wire) →
      Reception.Untrusted config.limits (l.reception.got ++ byte :: more) reason →
      let pending := wire.arrivals.backlog l.bus.now
      let beyond := wire.arrivals.beyond l.bus.now
      let left := wire.arrivals.cleared l.bus.now config.resyncWindow
      let count := min config.resyncWindow pending.length
      (pending.length < config.resyncWindow → ¬ beyond.Breaks l.bus.now) →
      l.turn = {
        bus := { l.bus with
          link := l.bus.link.resynchronized count
          wire := { l.bus.wire with arrivals := left } }
        calls := later
        reception := .start
        results := l.results ++ [.error (.resynchronized reason count)] } ∧
      wire.coming = pending.take count ++ left.bytes ∧
      (pending.length ≤ config.resyncWindow → ∀ actions frames rest,
        Arrivals.Flow (beyond ++ actions.flatMap Action.brings) →
        (∀ f ∈ frames, Frame.Passes config.limits f) →
        Arrivals.bytes (beyond ++ actions.flatMap Action.brings) =
          frames.flatMap Frame.bytes ++ rest →
        later.length ≤ frames.length →
        let l' := l.turn.run actions
        l'.bus.wire.arrivals.Due l'.bus.now → ∀ n, l'.bus.wire.arrivals.reads ≤ n →
          (l'.run (List.replicate n .turn)).results =
            l.results ++ .error (.resynchronized reason count) ::
              List.zipWith (fun onlyFrom f => .ok (Reception.deliver onlyFrom f.arrived)) later
                frames) := by
  refine ⟨Reception.discard_takes, ?_, ?_⟩
  · intro now window wire bytes hbytes
    rcases Reception.readArrived_takes now (min window Reception.discardChunk) wire with
      ⟨taken, _, hlength, htaken⟩
    rw [htaken bytes hbytes]
    exact Nat.le_trans hlength (Nat.min_le_left _ _)
  intro config l onlyFrom later byte more wire reason hcalls hread huntrusted pending beyond left
    count hfails
  have hrun : l.bus.link.config = config ∧ l.reception.Sound config.limits :=
    run_sound rfl (Reception.sound_start config.limits) actions
  have hturn := turn_untrusted hrun.1 hrun.2 hcalls hread huntrusted hfails
  refine ⟨hturn, ?_, ?_⟩
  · rw [Wire.coming, Arrivals.bytes_cleared l.bus.now config.resyncWindow,
      List.take_eq_take_min]
  · intro hfits actions' frames rest hflow hpasses hstream hlength l' hdue n hn
    rcases Arrivals.flow_append.mp hflow with ⟨hbeyond, hlater⟩
    rcases Arrivals.bytes_cleared_fits hfits with ⟨hbytes, hflows⟩
    -- What is left is a listener that starts anew with the later calls, but for the
    -- answers that are there already.
    let bus' : Bus := { l.bus with
      link := l.bus.link.resynchronized count
      wire := { l.bus.wire with arrivals := left } }
    have hstart : l.turn =
        (start bus' later).after (l.results ++ [.error (.resynchronized reason count)]) := by
      rw [hturn, after, start, List.append_nil]
    have hlimits : bus'.link.config.limits = config.limits := congrArg Link.Config.limits hrun.1
    -- All of the backlog fitted the window, so the stream begins beyond it.
    have hflow' : Arrivals.Flow (left ++ actions'.flatMap Action.brings) :=
      Arrivals.flow_append.mpr ⟨hflows hbeyond, hlater⟩
    have hstream' : Arrivals.bytes (left ++ actions'.flatMap Action.brings) =
        frames.flatMap Frame.bytes ++ rest := by
      rw [← hstream, Arrivals.bytes_append, Arrivals.bytes_append, hbytes]
    have hl' : l' = ((start bus' later).after
        (l.results ++ [.error (.resynchronized reason count)])).run actions' := by
      rw [← hstart]
    rw [← hlimits] at hpasses
    rw [hl'] at hdue hn ⊢
    rw [hears_after hflow' hpasses hstream' hlength hdue hn, List.append_assoc,
      List.singleton_append]

/-- Behind four bytes of noise three more are thrown away, and the frame that
    comes after them is heard. -/
theorem resynchronizes_three_bytes :
    let f : Frame := { source := 5, destination := 0, payload := [0x41, 1, 3, 0x68, 0x69, 0x21] }
    let bus : Bus := { wire := { arrivals := [
      (0, .data 0 [1]), (0, .data 2 [3, 0xaa]), (0, .data 0xbb [0xcc])] } }
    let more : Arrivals := [(.ofMillis 1, .data 0x54 [0xab, 5, 0, 6, 0x41]),
      (.ofMillis 1, .data 1 [3, 0x68, 0x69, 0x21, 0xf2, 0xcd])]
    let l := (start bus [none, some 5]).run [.turn]
    let l' := l.turn.run [.outside { now := .ofMillis 1 } more]
    (l'.run (List.replicate 50 .turn)).results =
      [.error (.resynchronized (.badMagic 0x0100) 3), .ok (some f.arrived)] := by
  intro f bus more l l'
  -- Two bytes complete the header, and three more are due behind them.
  have hread : l.bus.wire.read l.bus.now l.reception.wants = (.ready [2, 3],
      { bus.wire with arrivals := [(0, .data 0xaa []), (0, .data 0xbb [0xcc])] }) := rfl
  have huntrusted : Reception.Untrusted bus.link.config.limits (l.reception.got ++ [2, 3])
      (.badMagic 0x0100) := .magic 2 3 (by decide)
  have hpasses : ∀ g ∈ [f], g.Passes bus.link.config.limits := by decide
  have hflow : Arrivals.Flow ([] ++ more) := by
    simp only [Arrivals.Flow, more, List.nil_append, List.forall_mem_cons, Arrival.Flows,
      List.not_mem_nil, false_implies, implies_true, and_self]
  have hmine : Reception.deliver (some 5) f.arrived = some f.arrived := by decide +kernel
  rcases resynchronizes bus [none, some 5] [.turn] with ⟨_, _, hgives⟩
  rcases hgives none [some 5] 2 [3] _ _ rfl hread huntrusted
    (fun _ => Arrivals.Flow.not_breaks (List.forall_mem_nil _)) with ⟨_, _, hhears⟩
  have hresults := hhears (by decide) [.outside { now := .ofMillis 1 } more] [f] [] hflow hpasses
    (by decide +kernel) (Nat.le_refl 1) (by decide +kernel) 50 (by decide +kernel)
  rw [hresults]
  simp only [List.zipWith_cons_cons, List.zipWith_nil_left, hmine]
  rfl

end Listener

end Multidrop
