import Multidrop.Proofs.Link.Agreement

/-!
# What the End of a Reception Counts

A reception counts when it ends, and at no other turn. What it counts follows
from whom it expected, from the bytes it has taken and from what it came to.

If the bytes are a frame, there whole, then one of four things becomes of it.
It is refused where its checksum does not match and checksums are enforced. If
it is not, it is received, and it is dropped if it is from someone else than
expected, dropped as well if it is too short, and delivered otherwise. The
order matters, since a frame may be all of these. If the bytes are no frame,
the reception comes to an error, and to another one than for a checksum.

A header that is given up on is counted with what was thrown away behind it,
unless a fault cut that short.

## Main definitions

* `Reception.Fate`: What becomes of a frame that was there whole.
* `Reception.Reading`: The end of a reception.
* `Reception.Reading.Judged`: A reading came to what it should have.
* `Reception.Reading.noted`: Statistics after a reading.
* `Reception.reading?`: The reading that a turn ends with.

## Theorems

* `Reception.close_noted`: What the end of a frame counts.
* `Reception.step_noted`: What a turn counts.
-/

namespace Multidrop

/-- Whether a checksum matches has no part in whether bytes are accepted as a
    frame. -/
theorem Frame.Form.Accepted.under {limits : Frame.Limits} {p : Frame.Form}
    (h : p.Accepted limits) (policy : Frame.CrcPolicy) :
    p.Accepted { limits with crcPolicy := policy } :=
  ⟨⟨h.accepts.closed, h.accepts.short, h.accepts.range, h.accepts.limit⟩, h.announced⟩

namespace Reception

/-- What becomes of a frame that was there whole. -/
inductive Fate where
  | delivered
  | stray
  | short
  /-- It is refused for its checksum. -/
  | rejected
  deriving DecidableEq

/-- The first thing that is wrong with a frame settles what becomes of it. -/
def fate (policy : Frame.CrcPolicy) (onlyFrom : Option UInt8) (f : Frame.Received) : Fate :=
  if policy = .enforce ∧ f.crcOk = false then .rejected
  else if onlyFrom.any (· ≠ f.source) then .stray
  else if f.payload.length < Subframe.minPayload then .short
  else .delivered

/-- What a reception comes to with a frame. -/
def Fate.Means (f : Frame.Received) (result : Result) : Fate → Prop
  | .delivered => result = .ok (some f)
  | .stray => result = .ok none
  | .short => result = .ok none
  | .rejected =>
    ∃ computed, computed ≠ f.crc ∧ result = .error (.frame (.crcMismatch computed f.crc))

/-- The end of a reception: whom it expected, what it has taken, and what it
    came to. What was thrown away behind a header was not taken. -/
structure Reading where
  onlyFrom : Option UInt8
  taken : List UInt8
  result : Result
  deriving DecidableEq

namespace Reading

/-- The frame that was there whole, as a reader of a buffer sees it who does
    not mind checksums. -/
def frame? (limits : Frame.Limits) (g : Reading) : Option Frame.Received :=
  Frame.delivered (Frame.decode { limits with crcPolicy := .ignore } g.taken).1

def fate? (limits : Frame.Limits) (g : Reading) : Option Fate :=
  (g.frame? limits).map (fate limits.crcPolicy g.onlyFrom)

/-- Whether there was a frame whose checksum did not match. -/
def mismatches (limits : Frame.Limits) (g : Reading) : Bool :=
  (g.frame? limits).any (!·.crcOk)

/-- Whether a frame was handed over. -/
def delivers (g : Reading) : Bool :=
  match g.result with
  | .ok (some _) => true
  | _ => false

/-- Whether a frame was refused for its checksum. -/
def refuses (g : Reading) : Bool :=
  match g.result with
  | .error (.frame (.crcMismatch ..)) => true
  | _ => false

/-- How many bytes were thrown away, if the link was resynchronized. -/
def discarded? (g : Reading) : Option Nat :=
  match g.result with
  | .error (.resynchronized _ discarded) => some discarded
  | _ => none

/-- A reading came to what it should have: with a frame to what its fate means,
    and without one to an error that has nothing to do with checksums. -/
inductive Judged (limits : Frame.Limits) (g : Reading) : Prop where
  | frame (f : Frame.Received) (hframe : g.frame? limits = some f)
      (hmeans : (fate limits.crcPolicy g.onlyFrom f).Means f g.result)
  | failure (e : Link.Error) (hframe : g.frame? limits = none) (hresult : g.result = .error e)
      (hrefuses : g.refuses = false)

/-- Statistics after a reading. -/
def noted (limits : Frame.Limits) (g : Reading) (counted : Link.Statistics) :
    Link.Statistics :=
  { counted with
    framesReceived := counted.framesReceived +
      if (g.fate? limits).any (· ≠ .rejected) then 1 else 0
    resyncs := counted.resyncs + if g.discarded?.isSome then 1 else 0
    bytesDiscarded := counted.bytesDiscarded + g.discarded?.getD 0
    crcMismatches := counted.crcMismatches + if g.mismatches limits then 1 else 0
    strayFrames := counted.strayFrames + if g.fate? limits = some .stray then 1 else 0
    shortFrames := counted.shortFrames + if g.fate? limits = some .short then 1 else 0 }

variable {limits : Frame.Limits} {g : Reading}

theorem noted_of_none (hframe : g.frame? limits = none) (counted : Link.Statistics) :
    g.noted limits counted = { counted with
      resyncs := counted.resyncs + if g.discarded?.isSome then 1 else 0
      bytesDiscarded := counted.bytesDiscarded + g.discarded?.getD 0 } := by
  simp only [noted, fate?, mismatches, hframe, Option.map_none, Option.any_none, reduceCtorEq,
    if_false, Bool.false_eq_true, Nat.add_zero]

theorem noted_frame {f : Frame.Received} (hframe : g.frame? limits = some f)
    (hdiscarded : g.discarded? = none) (counted : Link.Statistics) :
    g.noted limits counted = { counted with
      framesReceived := counted.framesReceived +
        if fate limits.crcPolicy g.onlyFrom f = .rejected then 0 else 1
      crcMismatches := counted.crcMismatches + if f.crcOk then 0 else 1
      strayFrames := counted.strayFrames +
        if fate limits.crcPolicy g.onlyFrom f = .stray then 1 else 0
      shortFrames := counted.shortFrames +
        if fate limits.crcPolicy g.onlyFrom f = .short then 1 else 0 } := by
  simp only [noted, fate?, mismatches, hframe, hdiscarded, Option.map_some, Option.any_some,
    Option.some.injEq, Option.isSome_none, Option.getD_none, Bool.false_eq_true, if_false,
    Nat.add_zero, decide_eq_true_eq, ne_eq, ite_not, Bool.not_eq_true']
  cases f.crcOk with
  | true => rfl
  | false => rfl

/-- Without a frame and without bytes thrown away nothing is counted. -/
theorem noted_failure (hframe : g.frame? limits = none) (hdiscarded : g.discarded? = none)
    (counted : Link.Statistics) : g.noted limits counted = counted := by
  rw [noted_of_none hframe, hdiscarded]
  rfl

/-- What a reception came to with a frame tells whether the frame was handed over,
    and whether it was refused. -/
theorem told_of_means {f : Frame.Received} {fate : Fate} (h : fate.Means f g.result) :
    (g.delivers = true ↔ fate = .delivered) ∧ (g.refuses = true ↔ fate = .rejected) := by
  rw [delivers, refuses]
  cases fate with
  | delivered =>
      rw [Fate.Means] at h
      simp only [h, Bool.false_eq_true, reduceCtorEq, and_self]
  | stray =>
      rw [Fate.Means] at h
      simp only [h, Bool.false_eq_true, reduceCtorEq, and_self]
  | short =>
      rw [Fate.Means] at h
      simp only [h, Bool.false_eq_true, reduceCtorEq, and_self]
  | rejected =>
      rw [Fate.Means] at h
      rcases h with ⟨computed, _, hresult⟩
      simp only [hresult, Bool.false_eq_true, reduceCtorEq, and_self]

/-- A frame is handed over if that is its fate, and at no other reading. -/
theorem Judged.delivers_iff (h : g.Judged limits) :
    g.delivers = true ↔ g.fate? limits = some .delivered := by
  cases h with
  | frame f hframe hmeans =>
      rw [fate?, hframe, Option.map_some, Option.some.injEq]
      exact (told_of_means hmeans).1
  | failure e hframe hresult hrefuses =>
      simp only [fate?, hframe, delivers, hresult, Bool.false_eq_true, Option.map_none,
        reduceCtorEq]

/-- A frame is refused if that is its fate, and at no other reading. -/
theorem Judged.refuses_iff (h : g.Judged limits) :
    g.refuses = true ↔ g.fate? limits = some .rejected := by
  cases h with
  | frame f hframe hmeans =>
      rw [fate?, hframe, Option.map_some, Option.some.injEq]
      exact (told_of_means hmeans).2
  | failure e hframe hresult hrefuses =>
      simp only [fate?, hframe, hrefuses, Bool.false_eq_true, Option.map_none, reduceCtorEq]

theorem fate_eq_rejected {policy : Frame.CrcPolicy} {onlyFrom : Option UInt8}
    {f : Frame.Received} :
    fate policy onlyFrom f = .rejected ↔ policy = .enforce ∧ f.crcOk = false := by
  rw [fate]
  split
  · rename_i hrejected
    exact iff_of_true rfl hrejected
  · rename_i hrejected
    refine iff_of_false (fun hfate => ?_) hrejected
    split at hfate
    · exact absurd hfate nofun
    · split at hfate
      · exact absurd hfate nofun
      · exact absurd hfate nofun

/-- Where checksums are ignored no frame is refused. -/
theorem fate?_ne_rejected (hpolicy : limits.crcPolicy = .ignore) :
    g.fate? limits ≠ some .rejected := by
  rw [fate?]
  cases g.frame? limits with
  | none => exact nofun
  | some f =>
      rw [Option.map_some, ne_eq, Option.some.injEq, fate_eq_rejected, hpolicy]
      exact fun h => absurd h.1 nofun

/-- Where they are enforced, the frames that are refused are those whose
    checksum does not match. -/
theorem fate?_eq_rejected (hpolicy : limits.crcPolicy = .enforce) :
    g.fate? limits = some .rejected ↔ g.mismatches limits = true := by
  rw [fate?, mismatches]
  cases g.frame? limits with
  | none => exact iff_of_false nofun Bool.false_ne_true
  | some f =>
      rw [Option.map_some, Option.some.injEq, fate_eq_rejected, hpolicy, Option.any_some,
        Bool.not_eq_true']
      exact and_iff_right rfl

/-- Where checksums are ignored every frame is received. -/
theorem received_of_ignore (hpolicy : limits.crcPolicy = .ignore) :
    (g.fate? limits).any (· ≠ .rejected) = (g.frame? limits).isSome := by
  have hnever := fate?_ne_rejected (g := g) hpolicy
  rw [fate?] at hnever ⊢
  cases hframe : g.frame? limits with
  | none => rfl
  | some f =>
      rw [hframe, Option.map_some, ne_eq, Option.some.injEq] at hnever
      exact decide_eq_true hnever

/-- Where they are enforced, those are whose checksum matches. -/
theorem received_of_enforce (hpolicy : limits.crcPolicy = .enforce) :
    (g.fate? limits).any (· ≠ .rejected) = (g.frame? limits).any (·.crcOk) := by
  rw [fate?]
  cases g.frame? limits with
  | none => rfl
  | some f =>
      rw [Option.map_some, Option.any_some, Option.any_some, decide_not, hpolicy]
      cases hcrc : f.crcOk with
      | true =>
          have hreceived : ¬ fate .enforce g.onlyFrom f = .rejected := fun hfate => by
            rw [fate_eq_rejected, hcrc] at hfate
            exact absurd hfate.2 nofun
          rw [decide_eq_false hreceived]
          rfl
      | false =>
          rw [decide_eq_true (fate_eq_rejected.mpr ⟨rfl, hcrc⟩)]
          rfl

end Reading

/-- The reading that a turn ends with, if the turn ends the reception. -/
def reading? (onlyFrom : Option UInt8) (r : Reception) (bus : Bus) : Option Reading :=
  match (r.step onlyFrom bus).1 with
  | .over result =>
    some { onlyFrom, taken := r.got ++ (bus.wire.read bus.now r.wants).1.taken, result }
  | _ => none

variable {limits : Frame.Limits} {onlyFrom : Option UInt8} {r : Reception} {bus : Bus}
  {taken : List UInt8}

/-- Bytes that are left by a reader who minds checksums are left by one who does
    not. -/
theorem frame?_of_incomplete {result : Result} (h : Frame.Incomplete limits taken) :
    Reading.frame? limits ⟨onlyFrom, taken, result⟩ = none := by
  -- No stage of a frame before its end asks for the checksum.
  have h' : Frame.Incomplete { limits with crcPolicy := .ignore } taken := by
    cases h with
    | header h => exact .header h
    | length source destination number hbuffer h hlength =>
        exact .length source destination number hbuffer h hlength
    | body source destination number rest hbuffer h hrest =>
        exact .body source destination number rest hbuffer ⟨h.closed, h.short, h.range, h.limit⟩
          hrest
  rw [Reading.frame?, Frame.decode_incomplete h']
  rfl

/-- So are bytes that are refused. -/
theorem frame?_of_untrusted {result : Result} {reason : Link.ResyncReason}
    (h : Untrusted limits taken reason) :
    Reading.frame? limits ⟨onlyFrom, taken, result⟩ = none := by
  have h' : Untrusted { limits with crcPolicy := .ignore } taken reason := by
    cases h with
    | magic source destination h => exact .magic source destination h
    | oversized source destination h hlength hrange hlimit =>
        exact .oversized source destination h hlength hrange hlimit
  have hrefused := Frame.decode_refused (h'.refused [])
  rw [List.append_nil] at hrefused
  rw [Reading.frame?, hrefused]
  rfl

theorem frame?_of_unreadable {result : Result} {cause : Varuint.Error}
    (h : Unreadable taken cause) : Reading.frame? limits ⟨onlyFrom, taken, result⟩ = none := by
  have hrefused := Frame.decode_refused (h.refused { limits with crcPolicy := .ignore } [])
  rw [List.append_nil] at hrefused
  rw [Reading.frame?, hrefused]
  rfl

theorem frame?_of_form {result : Result} {p : Frame.Form} (h : p.Accepted limits) :
    Reading.frame? limits ⟨onlyFrom, p.bytes, result⟩ = some p.frame := by
  have hdecode := Frame.decode_form (h.under .ignore) []
  rw [List.append_nil] at hdecode
  rw [Reading.frame?, hdecode]
  rfl

/-- What a frame counts that is not refused, by its fate. -/
theorem sort_noted (onlyFrom : Option UInt8) (f : Frame.Received) (link : Link)
    (hreceived : fate link.config.limits.crcPolicy onlyFrom f ≠ .rejected) :
    (fate link.config.limits.crcPolicy onlyFrom f).Means f (.ok (sort onlyFrom f link).1) ∧
      (sort onlyFrom f link).2.statistics = { link.statistics with
        framesReceived := link.statistics.framesReceived + 1
        crcMismatches := link.statistics.crcMismatches + if f.crcOk then 0 else 1
        strayFrames := link.statistics.strayFrames +
          if fate link.config.limits.crcPolicy onlyFrom f = .stray then 1 else 0
        shortFrames := link.statistics.shortFrames +
          if fate link.config.limits.crcPolicy onlyFrom f = .short then 1 else 0 } := by
  rw [ne_eq, Reading.fate_eq_rejected] at hreceived
  -- Every frame that is sorted is counted, and its mismatch with it.
  have hcounted :
      (if f.crcOk then link.frameReceived else link.frameReceived.crcMismatch).statistics = {
        link.statistics with
        framesReceived := link.statistics.framesReceived + 1
        crcMismatches := link.statistics.crcMismatches + if f.crcOk then 0 else 1 } := by
    cases f.crcOk with
    | true => rfl
    | false => rfl
  rw [fate, if_neg hreceived, sort]
  -- Both ask for the sender first, and for the length only then.
  by_cases hstray : onlyFrom.any (· ≠ f.source) = true
  · simp only [if_pos hstray, Link.strayFrame, hcounted]
    exact ⟨rfl, rfl⟩
  · by_cases hshort : f.payload.length < Subframe.minPayload
    · simp only [if_neg hstray, if_pos hshort, Link.shortFrame, hcounted]
      exact ⟨rfl, rfl⟩
    · simp only [if_neg hstray, if_neg hshort, hcounted]
      exact ⟨rfl, rfl⟩

/-- The end of a frame counts what its fate says. -/
theorem close_noted (onlyFrom : Option UInt8) (bus : Bus) {p : Frame.Form}
    (h : p.Accepted bus.link.config.limits) :
    Reading.Judged bus.link.config.limits ⟨onlyFrom, p.bytes, (close onlyFrom p.bytes bus).1⟩ ∧
      (close onlyFrom p.bytes bus).2.link.statistics =
        Reading.noted bus.link.config.limits
          ⟨onlyFrom, p.bytes, (close onlyFrom p.bytes bus).1⟩ bus.link.statistics := by
  have hdecode := Frame.decode_form h []
  rw [List.append_nil] at hdecode
  -- A frame that is refused is not sorted: all it counts is the mismatch.
  by_cases hrejected : fate bus.link.config.limits.crcPolicy onlyFrom p.frame = .rejected
  · rcases Reading.fate_eq_rejected.mp hrejected with ⟨henforce, hbad⟩
    have hcrc : p.crc ≠ p.computed := beq_eq_false_iff_ne.mp hbad
    have hclose : close onlyFrom p.bytes bus =
        (.error (.frame (.crcMismatch p.computed p.crc)),
          { bus with link := bus.link.crcMismatch }) := by
      rw [close, hdecode, Frame.Form.verdict, henforce]
      simp only [if_neg hcrc]
      rfl
    rw [hclose]
    refine ⟨.frame p.frame (frame?_of_form h) ?_, ?_⟩
    · simp only [hrejected]
      exact ⟨p.computed, Ne.symm hcrc, rfl⟩
    · rw [Reading.noted_frame (frame?_of_form h) rfl]
      simp only [hrejected, hbad]
      rfl
  · have hclose : close onlyFrom p.bytes bus =
        (.ok (sort onlyFrom p.frame bus.link).1,
          { bus with link := (sort onlyFrom p.frame bus.link).2 }) := by
      -- What is not refused is delivered by either policy.
      have hverdict : p.verdict bus.link.config.limits = .ok p.frame := by
        rw [Frame.Form.verdict]
        split
        · rfl
        · rename_i henforce
          by_cases hcrc : p.crc = p.computed
          · exact if_pos hcrc
          · exact absurd (Reading.fate_eq_rejected.mpr
              ⟨henforce, beq_eq_false_iff_ne.mpr hcrc⟩) hrejected
      rw [close, hdecode, hverdict]
      rfl
    rcases sort_noted onlyFrom p.frame bus.link hrejected with ⟨hmeans, hcounted⟩
    rw [hclose]
    refine ⟨.frame p.frame (frame?_of_form h) hmeans, ?_⟩
    rw [Reading.noted_frame (frame?_of_form h) rfl, if_neg hrejected]
    exact hcounted

/-- What a turn counts: nothing, unless it ends the reception. -/
inductive Notes (limits : Frame.Limits) (before : Link.Statistics) :
    Option Reading → Link.Statistics → Prop where
  | nothing : Notes limits before none before
  | reading (g : Reading) (hjudged : g.Judged limits) :
      Notes limits before (some g) (g.noted limits before)

/-- A reception that ends without a frame and throws nothing away counts
    nothing. -/
theorem Notes.failure {e : Link.Error} {before : Link.Statistics}
    (hframe : Reading.frame? limits ⟨onlyFrom, taken, .error e⟩ = none)
    (hrefuses : Reading.refuses ⟨onlyFrom, taken, .error e⟩ = false)
    (hdiscarded : Reading.discarded? ⟨onlyFrom, taken, .error e⟩ = none) :
    Notes limits before (some ⟨onlyFrom, taken, .error e⟩) before := by
  have hnotes : Notes limits before _ _ := .reading _ (.failure e hframe rfl hrefuses)
  rw [Reading.noted_failure hframe hdiscarded] at hnotes
  exact hnotes

/-- Giving up on a header counts what was thrown away, unless a fault came in
    between. -/
theorem giveUp_notes (bus : Bus) {reason : Link.ResyncReason}
    (h : Untrusted bus.link.config.limits taken reason) (onlyFrom : Option UInt8) :
    Notes bus.link.config.limits bus.link.statistics
      (some ⟨onlyFrom, taken, .error (resynchronize reason bus).1⟩)
      (resynchronize reason bus).2.link.statistics := by
  rw [resynchronize]
  rcases discard bus.now bus.link.config.resyncWindow bus.wire with ⟨cause | discarded, wire⟩
  · exact .failure (frame?_of_untrusted h) rfl rfl
  · have hnotes : Notes bus.link.config.limits bus.link.statistics
        (some ⟨onlyFrom, taken, .error (.resynchronized reason discarded)⟩) _ :=
      .reading _ (.failure _ (frame?_of_untrusted h) rfl rfl)
    rw [Reading.noted_of_none (frame?_of_untrusted h)] at hnotes
    exact hnotes

/-- A turn counts what its reading says, and nothing if it does not end the
    reception. -/
theorem step_noted (onlyFrom : Option UInt8) (hsound : Sound bus.link.config.limits r) :
    Notes bus.link.config.limits bus.link.statistics (r.reading? onlyFrom bus)
      (r.step onlyFrom bus).2.link.statistics := by
  have hmoves := step_moves onlyFrom hsound
  have hincomplete := hsound.incomplete
  rw [reading?]
  generalize r.step onlyFrom bus = turn at hmoves ⊢
  cases hmoves with
  | waiting hread => exact .nothing
  | interrupted hread hkind => exact .nothing
  | failed hread hkind =>
      -- Nothing was taken at this turn, so what is there is what was got before.
      simp only [hread, Wire.Outcome.taken, List.append_nil]
      exact .failure (frame?_of_incomplete hincomplete) rfl rfl
  | closed hread =>
      simp only [hread, Wire.Outcome.taken, List.append_nil]
      exact .failure (frame?_of_incomplete hincomplete) rfl rfl
  | @bytes byte more wire turn hread hturn hcomes =>
      rw [hread, Wire.Outcome.taken]
      generalize r.got ++ byte :: more = taken at hcomes ⊢
      cases hcomes with
      | again next hnext hgot => exact .nothing
      -- Three of the four ends have no frame, and the fourth has one to be judged.
      | untrusted reason huntrusted =>
          exact giveUp_notes { bus with wire } huntrusted onlyFrom
      | unreadable cause hunreadable =>
          exact .failure (frame?_of_unreadable hunreadable) rfl rfl
      | whole p haccepted htaken =>
          rcases close_noted onlyFrom { bus with wire } haccepted with
            ⟨hjudged, hcounted⟩
          rw [htaken]
          simp only [hcounted]
          exact .reading _ hjudged

end Reception

end Multidrop
