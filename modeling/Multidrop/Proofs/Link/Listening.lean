import Multidrop.Proofs.Link.Agreement

/-!
# Frames Taken One After the Other

Whoever holds the lock can take one frame after the other from the wire.
Meanwhile bytes go on arriving, in pieces of any size, and everyone else does
as they like with the rest of the bus. What the calls come to does not depend
on any of that: each of them is answered as a reader of a buffer would have
it, who is given all that has arrived and leaves what the next call is for.

The invariant of every run is that what has been answered, what the call under
way has taken, and what is still to be read make up what there was. It is kept
by a turn, since a turn either moves the reception on or answers, and by
everything else, since more bytes at the end change no answer.

A turn that neither waits nor answers takes a read off a count that is finite.
So once nothing has to be waited for, some number of turns answers all the
calls that can be answered.

## Main definitions

* `Bus.outside`: A bus that has changed in all but what is to be read.
* `Listener`: A bus, the calls for frames on it, and what they have come to.
* `Listener.run`: Do one thing after another.
* `Answered`: What calls have to come to, one after the other.
* `Listener.Kept`: The invariant of every run.

## Theorems

* `Answered.append`: More at the end changes no answer.
* `Answered.forms`: The answers to a run of frames.
* `Listener.run_kept`: The invariant holds in every run.
* `Listener.run_sound`: What the call under way has taken, on any stream.
* `Listener.turns_settle`: A listener gets through all that is due.
* `Listener.agrees_with_reader`: Calls are answered as a reader would have it.
-/

namespace Multidrop

/-- A bus that has changed in everything but its configuration and what is to
    be read from it, behind which more may come. -/
def Bus.outside (b changed : Bus) (more : Arrivals) : Bus :=
  { changed with
    link := { changed.link with config := b.link.config }
    wire := { changed.wire with arrivals := b.wire.arrivals ++ more } }

/-- What calls for frames have to come to, one after the other, and what they
    have to leave. -/
inductive Answered (limits : Frame.Limits) :
    List (Option UInt8) → List UInt8 → List Reception.Result → List UInt8 → Prop where
  | nil (bytes : List UInt8) : Answered limits [] bytes [] bytes
  | cons {onlyFrom : Option UInt8} {calls : List (Option UInt8)} {bytes next left : List UInt8}
      {result : Reception.Result} {results : List Reception.Result}
      (hfirst : Reception.Answers limits onlyFrom bytes result next)
      (hrest : Answered limits calls next results left) :
      Answered limits (onlyFrom :: calls) bytes (result :: results) left

namespace Answered

variable {limits : Frame.Limits} {onlyFrom : Option UInt8} {calls : List (Option UInt8)}
  {bytes left next : List UInt8} {result : Reception.Result} {results : List Reception.Result}

theorem append (h : Answered limits calls bytes results left) (more : List UInt8) :
    Answered limits calls (bytes ++ more) results (left ++ more) := by
  induction h with
  | nil bytes => exact .nil _
  | cons hfirst hrest ih => exact .cons (hfirst.append more) ih

/-- One more call is answered with what the others have left. -/
theorem snoc (h : Answered limits calls bytes results next)
    (hlast : Reception.Answers limits onlyFrom next result left) :
    Answered limits (calls ++ [onlyFrom]) bytes (results ++ [result]) left := by
  induction h with
  | nil bytes => exact .cons hlast (.nil left)
  | cons hfirst hrest ih => exact .cons hfirst (ih hlast)

/-- The first call is not answered just if a reader waits. -/
theorem results_nil_iff (h : Answered limits calls bytes results left)
    (hleft : calls = [] → (Frame.decode limits left).1 = .ok none) :
    results = [] ↔ (Frame.decode limits bytes).1 = .ok none := by
  cases h with
  | nil => exact iff_of_true rfl (hleft rfl)
  | cons hfirst hrest => exact iff_of_false (List.cons_ne_nil _ _) hfirst.decode_ne_none

/-- The answers to a run of frames, by induction on the calls. -/
theorem forms (h : Answered limits calls bytes results left) {forms : List Frame.Form}
    {rest : List UInt8} (haccepted : ∀ p ∈ forms, p.Accepted limits)
    (hbytes : bytes = forms.flatMap Frame.Form.bytes ++ rest)
    (hlength : calls.length ≤ forms.length) :
    results = List.zipWith (Reception.answerTo limits) calls forms ∧
      left = (forms.drop calls.length).flatMap Frame.Form.bytes ++ rest := by
  induction h generalizing forms with
  | nil bytes => exact ⟨rfl, hbytes⟩
  | @cons onlyFrom calls bytes next left result results hfirst hrest ih =>
      cases forms with
      | nil => exact absurd hlength (Nat.not_succ_le_zero _)
      | cons p forms =>
          have hp := haccepted p List.mem_cons_self
          rw [hbytes, List.flatMap_cons, List.append_assoc, Reception.answers_form hp] at hfirst
          have hlater : ∀ q ∈ forms, q.Accepted limits := fun q hq =>
            haccepted q (List.mem_cons_of_mem _ hq)
          rcases ih hlater hfirst.2 (Nat.le_of_succ_le_succ hlength) with ⟨hresults, hleft⟩
          rw [hfirst.1, hresults]
          exact ⟨rfl, hleft⟩

end Answered

/-- A bus, the calls for frames on it, and what they have come to. -/
structure Listener where
  bus : Bus
  /-- Whom the calls that are not answered yet expect. -/
  calls : List (Option UInt8)
  /-- How far the first of them has come. -/
  reception : Reception
  results : List Reception.Result

namespace Listener

/-- What can be done next. -/
inductive Action where
  /-- Let the first call take a turn. -/
  | turn
  /-- Let the bus change in all but what is to be read, and more arrive. -/
  | outside (changed : Bus) (more : Arrivals)

/-- What arrives with an action. -/
def Action.brings : Action → Arrivals
  | .turn => []
  | .outside _ more => more

/-- No call has been answered. -/
def start (bus : Bus) (calls : List (Option UInt8)) : Listener where
  bus := bus
  calls := calls
  reception := .start
  results := []

/-- Let the first call take a turn. When it is over the next one starts. -/
def turn (l : Listener) : Listener :=
  match l.calls with
  | [] => l
  | onlyFrom :: calls =>
    match l.reception.step onlyFrom l.bus with
    | (.waiting, bus) => { l with bus }
    | (.again reception, bus) => { l with bus, reception }
    | (.over result, bus) =>
      { bus, calls, reception := .start, results := l.results ++ [result] }

/-- Do something. -/
def act (l : Listener) : Action → Listener
  | .turn => l.turn
  | .outside changed more => { l with bus := l.bus.outside changed more }

/-- Do one thing after another. -/
def run (l : Listener) (actions : List Action) : Listener :=
  actions.foldl act l

/-- The invariant of every run: the calls that are not open any more were
    answered, and they have left what the open ones have taken and what is
    still to come. -/
structure Kept (limits : Frame.Limits) (calls : List (Option UInt8)) (stream : List UInt8)
    (l : Listener) : Prop where
  config : l.bus.link.config.limits = limits
  flow : l.bus.wire.arrivals.Flow
  sound : l.reception.Sound limits
  idle : l.calls = [] → l.reception = .start
  answered : ∃ done, calls = done ++ l.calls ∧
    Answered limits done stream l.results (l.reception.got ++ l.bus.wire.coming)

variable {limits : Frame.Limits} {calls : List (Option UInt8)} {stream : List UInt8}
  {l : Listener}

theorem kept_start {bus : Bus} (h : bus.wire.arrivals.Flow) (calls : List (Option UInt8)) :
    Kept bus.link.config.limits calls bus.wire.coming (start bus calls) where
  config := rfl
  flow := h
  sound := Reception.sound_start _
  idle := fun _ => rfl
  answered := ⟨[], rfl, .nil _⟩

/-- Whatever is on the wire, a turn leaves the configuration alone, and the call
    under way has taken a part of a frame. -/
theorem turn_sound (h : l.reception.Sound l.bus.link.config.limits) :
    l.turn.bus.link.config = l.bus.link.config ∧
      l.turn.reception.Sound l.bus.link.config.limits := by
  rw [turn]
  split
  · exact ⟨rfl, h⟩
  · rename_i onlyFrom calls hcalls
    have hmoves := Reception.step_moves onlyFrom h
    have hstill := Reception.step_still onlyFrom l.reception l.bus
    generalize l.reception.step onlyFrom l.bus = turn at hmoves hstill ⊢
    refine ⟨?_, ?_⟩
    · rcases turn with ⟨_ | _ | _, bus⟩
      · exact hstill.config
      · exact hstill.config
      · exact hstill.config
    · -- A call that ends leaves the next one to start afresh.
      cases hmoves with
      | waiting => exact h
      | interrupted => exact h
      | failed => exact Reception.sound_start _
      | closed => exact Reception.sound_start _
      | bytes hread hturn hcomes =>
          cases hcomes with
          | again next hsound hgot => exact hsound
          | untrusted => exact Reception.sound_start _
          | unreadable => exact Reception.sound_start _
          | whole => exact Reception.sound_start _

/-- It stays so in every run. By induction on what is done. -/
theorem run_sound {config : Link.Config} (hconfig : l.bus.link.config = config)
    (h : l.reception.Sound config.limits) (actions : List Action) :
    (l.run actions).bus.link.config = config ∧ (l.run actions).reception.Sound config.limits := by
  induction actions generalizing l with
  | nil => exact ⟨hconfig, h⟩
  | cons a actions ih =>
      rw [← hconfig] at h
      cases a with
      | turn =>
          rcases turn_sound h with ⟨hconfig', hsound⟩
          rw [hconfig] at hsound hconfig'
          exact ih hconfig' hsound
      | outside changed more =>
          rw [hconfig] at h
          exact ih hconfig h

/-- Everything a turn can do. -/
inductive Goes (l : Listener) : Listener → Prop where
  /-- There is no call, or nothing that can be read. -/
  | still (h : l.calls = [] ∨ (l.bus.wire.arrivals.Due l.bus.now → l.bus.wire.arrivals = [])) :
      Goes l l
  | again (bus : Bus) (reception : Reception) (taken : List UInt8) (hcalls : l.calls ≠ [])
      (hstill : l.bus.Still bus) (hsound : reception.Sound l.bus.link.config.limits)
      (hgot : reception.got = l.reception.got ++ taken)
      (hgives : l.bus.wire.arrivals.Gives taken bus.wire.arrivals)
      (hfewer : bus.wire.arrivals.reads < l.bus.wire.arrivals.reads) :
      Goes l { l with bus, reception }
  | ended (bus : Bus) (onlyFrom : Option UInt8) (calls : List (Option UInt8))
      (result : Reception.Result) (taken : List UInt8) (hcalls : l.calls = onlyFrom :: calls)
      (hstill : l.bus.Still bus)
      (hgives : l.bus.wire.arrivals.Gives taken bus.wire.arrivals)
      (hfewer : bus.wire.arrivals.reads < l.bus.wire.arrivals.reads)
      (hanswers : Reception.Answers l.bus.link.config.limits onlyFrom
        (l.reception.got ++ l.bus.wire.coming) result bus.wire.coming) :
      Goes l { bus, calls, reception := .start, results := l.results ++ [result] }

theorem turn_goes (h : Kept limits calls stream l) : Goes l l.turn := by
  rw [turn]
  split
  · rename_i hcalls
    exact .still (Or.inl hcalls)
  · rename_i onlyFrom calls hcalls
    have hsound := h.sound
    rw [← h.config] at hsound
    have hsteps := Reception.step_steps onlyFrom hsound h.flow
    have hstill := Reception.step_still onlyFrom l.reception l.bus
    generalize l.reception.step onlyFrom l.bus = turn at hsteps hstill ⊢
    cases hsteps with
    | waiting hdue => exact .still (Or.inr hdue)
    | again next bus taken hnext hgot hgives hfewer =>
        have hne : l.calls ≠ [] := by
          rw [hcalls]
          exact List.cons_ne_nil _ _
        exact .again bus next taken hne hstill hnext hgot hgives hfewer
    | ended result bus taken hgives hfewer hanswers =>
        exact .ended bus onlyFrom calls result taken hcalls hstill hgives hfewer hanswers

theorem Goes.kept {l' : Listener} (hgoes : Goes l l') (h : Kept limits calls stream l) :
    Kept limits calls stream l' := by
  rcases h.answered with ⟨done, hcalls, hanswered⟩
  cases hgoes with
  | still => exact h
  | again bus reception taken hopen hstill hsound hgot hgives hfewer =>
      rw [h.config] at hsound
      refine ⟨(congrArg _ hstill.config).trans h.config, hgives.flow, hsound,
        fun hnil => absurd hnil hopen, done, hcalls, ?_⟩
      -- What was taken is no longer to come.
      have hbytes : l.bus.wire.coming = taken ++ bus.wire.coming := hgives.bytes
      rw [hbytes, ← List.append_assoc, ← hgot] at hanswered
      exact hanswered
  | ended bus onlyFrom later result taken hfirst hstill hgives hfewer hanswers =>
      rw [h.config] at hanswers
      refine ⟨(congrArg _ hstill.config).trans h.config, hgives.flow,
        Reception.sound_start limits, fun _ => rfl, done ++ [onlyFrom], ?_,
        hanswered.snoc hanswers⟩
      rw [hcalls, hfirst, List.append_assoc, List.singleton_append]

/-- What happens elsewhere changes nothing but that more may come. -/
theorem kept_outside (h : Kept limits calls stream l) (changed : Bus) {more : Arrivals}
    (hmore : more.Flow) :
    Kept limits calls (stream ++ more.bytes) (l.act (.outside changed more)) := by
  rcases h.answered with ⟨done, hcalls, hanswered⟩
  have hflow := Arrivals.flow_append.mpr ⟨h.flow, hmore⟩
  refine ⟨h.config, hflow, h.sound, h.idle, done, hcalls, ?_⟩
  have hcoming : (l.act (.outside changed more)).bus.wire.coming =
      l.bus.wire.coming ++ more.bytes := Arrivals.bytes_append _ _
  rw [hcoming, ← List.append_assoc]
  exact hanswered.append more.bytes

theorem act_kept (h : Kept limits calls stream l) (a : Action) (hflow : a.brings.Flow) :
    Kept limits calls (stream ++ a.brings.bytes) (l.act a) := by
  cases a with
  | turn =>
      have hnone : Arrivals.bytes Action.turn.brings = [] := rfl
      rw [hnone, List.append_nil]
      exact (turn_goes h).kept h
  | outside changed more => exact kept_outside h changed hflow

/-- The invariant holds in every run. By induction on what is done. -/
theorem run_kept (h : Kept limits calls stream l) {actions : List Action}
    (hflow : Arrivals.Flow (actions.flatMap Action.brings)) :
    Kept limits calls (stream ++ Arrivals.bytes (actions.flatMap Action.brings))
      (l.run actions) := by
  induction actions generalizing stream l with
  | nil =>
      have hnone : Arrivals.bytes ([].flatMap Action.brings) = [] := rfl
      rw [hnone, List.append_nil]
      exact h
  | cons a actions ih =>
      rw [List.flatMap_cons, Arrivals.flow_append] at hflow
      rcases hflow with ⟨hfirst, hlater⟩
      rw [List.flatMap_cons, Arrivals.bytes_append, ← List.append_assoc]
      exact ih (act_kept h a hfirst) hlater

/-- A listener gets through all that is due. By induction on the number of
    turns, of which there have to be as many as reads it can take. -/
theorem turns_settle (h : Kept limits calls stream l)
    (hdue : l.bus.wire.arrivals.Due l.bus.now) {n : Nat}
    (hn : l.calls = [] ∨ l.bus.wire.arrivals.reads ≤ n) :
    Kept limits calls stream (l.run (List.replicate n .turn)) ∧
      ((l.run (List.replicate n .turn)).calls = [] ∨
        (l.run (List.replicate n .turn)).bus.wire.arrivals = []) := by
  induction n generalizing l with
  | zero =>
      refine ⟨h, hn.imp_right fun hreads => ?_⟩
      exact Arrivals.eq_nil_of_reads (Nat.le_zero.mp hreads)
  | succ n ih =>
      have hgoes := turn_goes h
      have hkept := hgoes.kept h
      have hrun : l.run (List.replicate (n + 1) .turn) =
          l.turn.run (List.replicate n .turn) := rfl
      rw [hrun]
      generalize l.turn = next at hgoes hkept ⊢
      cases hgoes with
      -- Nothing can be read any more, so the turns that are left change nothing.
      | still hidle =>
          refine ih h hdue (hidle.imp_right fun hnone => ?_)
          rw [hnone hdue]
          exact Nat.zero_le n
      -- A read that got something leaves fewer of them for the turns that are left.
      | again bus reception taken hopen hstill hsound hgot hgives hfewer =>
          have hreads := hn.resolve_left hopen
          have hless : bus.wire.arrivals.reads ≤ n := by omega
          refine ih hkept ?_ (Or.inr hless)
          rw [hstill.now]
          exact hgives.due _ hdue
      | ended bus onlyFrom later result taken hfirst hstill hgives hfewer hanswers =>
          have hopen : l.calls ≠ [] := by
            rw [hfirst]
            exact List.cons_ne_nil _ _
          have hreads := hn.resolve_left hopen
          have hless : bus.wire.arrivals.reads ≤ n := by omega
          refine ih hkept ?_ (Or.inr hless)
          rw [hstill.now]
          exact hgives.due _ hdue

/-- What is there when a call has to wait is no frame yet. -/
theorem Kept.waits (h : Kept limits calls stream l) (hcoming : l.bus.wire.coming = []) :
    (Frame.decode limits (l.reception.got ++ l.bus.wire.coming)).1 = .ok none := by
  rw [hcoming, List.append_nil, Frame.decode_incomplete h.sound.incomplete]

/-- Where nothing is left to be read, the first call waits just for what a
    reader waits for. -/
theorem Kept.results_nil_iff (h : Kept limits calls stream l) (hne : calls ≠ [])
    (hsettled : l.calls = [] ∨ l.bus.wire.coming = []) :
    l.results = [] ↔ (Frame.decode limits stream).1 = .ok none := by
  rcases h.answered with ⟨done, hcalls, hanswered⟩
  refine hanswered.results_nil_iff fun hnone => ?_
  rw [hnone, List.nil_append] at hcalls
  rw [hcalls] at hne
  exact h.waits (hsettled.resolve_left hne)

/-- A run of frames answers as many calls as there are frames. -/
theorem Kept.results_forms (h : Kept limits calls stream l) {forms : List Frame.Form}
    {rest : List UInt8} (haccepted : ∀ p ∈ forms, p.Accepted limits)
    (hstream : stream = forms.flatMap Frame.Form.bytes ++ rest)
    (hlength : calls.length ≤ forms.length)
    (hsettled : l.calls = [] ∨ l.bus.wire.coming = []) :
    l.results = List.zipWith (Reception.answerTo limits) calls forms ∧
      l.bus.wire.coming = (forms.drop calls.length).flatMap Frame.Form.bytes ++ rest := by
  rcases h.answered with ⟨done, hcalls, hanswered⟩
  have hcount := congrArg List.length hcalls
  rw [List.length_append] at hcount
  rcases hanswered.forms haccepted hstream (by omega) with ⟨hresults, hleft⟩
  have hdone : l.calls = [] := by
    by_cases hopen : l.calls = []
    · exact hopen
    · -- A call that waits would have a frame to be answered with.
      have hwaits := h.waits (hsettled.resolve_left hopen)
      have hpos := List.length_pos_iff.mpr hopen
      have hlt : done.length < forms.length := by omega
      have hp := haccepted _ (List.getElem_mem hlt)
      rw [hleft, List.drop_eq_getElem_cons hlt, List.flatMap_cons, List.append_assoc] at hwaits
      exact absurd hwaits (hp.decode_ne_none _)
  -- With all calls answered, the results are those of as many frames.
  rw [hdone, List.append_nil] at hcalls
  rw [h.idle hdone] at hleft
  rw [hcalls]
  exact ⟨hresults, hleft⟩

/-- Calls for frames are answered as a reader of a buffer would have it, who
    is given all that was to be read and all that came, however it was cut and
    whatever else happened on the bus. Each answer is to what the ones before
    it have left, and nothing is taken beyond what it is an answer to but what
    the next call has taken, of which the reader says that something is
    missing. When the body of a frame is complete the reader takes all of it,
    so it is never asked about anything else.

    Once nothing has to be waited for, enough turns answer all that can be
    answered: a call waits just if the reader does, and a run of frames is
    answered frame by frame. -/
theorem agrees_with_reader (bus : Bus) (calls : List (Option UInt8)) (actions : List Action)
    (h : Arrivals.Flow (bus.wire.arrivals ++ actions.flatMap Action.brings)) :
    let limits := bus.link.config.limits
    let stream := Arrivals.bytes (bus.wire.arrivals ++ actions.flatMap Action.brings)
    let l := (start bus calls).run actions
    (∃ done, calls = done ++ l.calls ∧
      Answered limits done stream l.results (l.reception.got ++ l.bus.wire.coming)) ∧
    (l.calls = [] → l.reception.got = []) ∧
    Frame.decode limits l.reception.got = (.ok none, l.reception.got) ∧
    (∀ got behind, l.reception = .body got behind.length →
      Frame.taken (Frame.decode limits (got ++ behind)).1 = true ∧
        (Frame.decode limits (got ++ behind)).2 = []) ∧
    (l.bus.wire.arrivals.Due l.bus.now → ∀ n, l.bus.wire.arrivals.reads ≤ n →
      let l' := l.run (List.replicate n .turn)
      (l'.calls = [] ∨ l'.bus.wire.coming = []) ∧
      (calls ≠ [] → (l'.results = [] ↔ (Frame.decode limits stream).1 = .ok none)) ∧
      ∀ forms rest, (∀ p ∈ forms, Frame.Form.Accepted limits p) →
        stream = forms.flatMap Frame.Form.bytes ++ rest → calls.length ≤ forms.length →
          l'.results = List.zipWith (Reception.answerTo limits) calls forms ∧
          l'.bus.wire.coming =
            (forms.drop calls.length).flatMap Frame.Form.bytes ++ rest) := by
  intro limits stream l
  rcases Arrivals.flow_append.mp h with ⟨hfirst, hlater⟩
  have hkept : Kept limits calls stream l := by
    have hrun := run_kept (kept_start hfirst calls) hlater
    rw [Wire.coming, ← Arrivals.bytes_append] at hrun
    exact hrun
  refine ⟨hkept.answered, fun hnil => congrArg Reception.got (hkept.idle hnil),
    Frame.decode_incomplete hkept.sound.incomplete, ?_, ?_⟩
  · intro got behind hbody
    have hsound := hkept.sound
    rw [hbody] at hsound
    -- Bytes that are missing from a body make it a frame, whatever they are.
    rcases hsound.closes with ⟨p, hbytes, haccepted⟩
    have hdecode := Frame.decode_form haccepted []
    rw [List.append_nil] at hdecode
    rw [hbytes, hdecode]
    exact ⟨p.taken_verdict limits, rfl⟩
  · intro hdue n hn l'
    rcases turns_settle hkept hdue (Or.inr hn) with ⟨hkept', hend⟩
    have hsettled : l'.calls = [] ∨ l'.bus.wire.coming = [] :=
      hend.imp_right fun hnone => by
        rw [Wire.coming, hnone]
        rfl
    refine ⟨hsettled, fun hne => hkept'.results_nil_iff hne hsettled, ?_⟩
    intro forms rest haccepted hstream hlength
    exact hkept'.results_forms haccepted hstream hlength hsettled

/-- A frame that comes twice, in pieces, is delivered to a call that expects it
    and dropped by one that expects another. -/
theorem agrees_with_reader_two_frames :
    let f : Frame := { source := 5, destination := 0, payload := [0x41, 1, 3, 0x68, 0x69, 0x21] }
    let arrivals : Arrivals := [(0, .data 0x54 []), (0, .fault { kind := .interrupted }),
      (0, .data 0xab [5, 0, 6, 0x41])]
    let more : Arrivals := [
      (.ofMillis 1, .data 1 [3, 0x68, 0x69, 0x21, 0xf2, 0xcd, 0x54, 0xab, 5]),
      (.ofMillis 1, .data 0 [6, 0x41, 1, 3, 0x68, 0x69, 0x21, 0xf2, 0xcd, 0x54])]
    let l := (start { wire := { arrivals } } [some 5, some 6]).run
      [.turn, .turn, .outside { now := .ofMillis 1 } more]
    let l' := l.run (List.replicate 50 .turn)
    l'.results = [.ok (some f.arrived), .ok none] ∧ l'.bus.wire.coming = [0x54] := by
  intro f arrivals more l l'
  -- The interruption in the middle of the header does no harm.
  have hflow : ∀ entry ∈ arrivals ++ more, entry.2.Flows := by
    simp only [arrivals, more, List.cons_append, List.nil_append, List.forall_mem_cons,
      Arrival.Flows, List.not_mem_nil, false_implies, implies_true, and_self]
  have hdue : ∀ entry ∈ l.bus.wire.arrivals, entry.1 ≤ l.bus.now := by decide +kernel
  have hpasses : f.Passes { } := ⟨by decide, by decide⟩
  have hforms : ∀ p ∈ [f.form, f.form], Frame.Form.Accepted { } p := by
    simp only [List.forall_mem_cons, Frame.accepted_form hpasses, List.not_mem_nil,
      false_implies, implies_true, and_self]
  have hmine : Reception.deliver (some 5) f.arrived = some f.arrived := by decide +kernel
  have hother : Reception.deliver (some 6) f.arrived = none := by decide +kernel
  rcases agrees_with_reader { wire := { arrivals } } [some 5, some 6]
    [.turn, .turn, .outside { now := .ofMillis 1 } more] hflow with ⟨_, _, _, _, hsettle⟩
  rcases (hsettle hdue 50 (by decide +kernel)).2.2 [f.form, f.form] [0x54] hforms
    (by decide +kernel) (Nat.le_refl 2) with ⟨hresults, hcoming⟩
  rw [hresults, hcoming]
  simp only [List.zipWith_cons_cons, List.zipWith_nil_left,
    Reception.answerTo_form _ _ hpasses.1, hmine, hother]
  exact ⟨trivial, rfl⟩

end Listener

end Multidrop
