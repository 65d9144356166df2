import Multidrop.Link.Drain
import Multidrop.Proofs.Link.Resync
import Multidrop.Proofs.Wire.Cuts

/-!
# Receiving However Bytes Are Cut

A reception that reads an arrival byte by byte comes as far as one that reads it
at once, and what is thrown away behind a header does not depend on the pieces.
So two buses whose wires are alike stay alike, as long as the calls on them read
the same.

An interrupted call is different where bytes are thrown away: that stops at it,
and would have gone on without it. So interrupted calls can be left out only
where no header is given up. `Bus.Steady` says so of two moments of a bus.

## Main definitions

* `Bus.Alike`: Buses that differ in how the arrivals are cut.
* `Bus.Same`: The same result, on buses that are alike.
* `Bus.OffWire`: Something that has nothing to do with the wire.
* `Bus.Steady`: No header was given up, if calls may be interrupted.

## Theorems

* `Reception.discard_bytes`: Bytes are thrown away one by one.
* `Reception.step_same`: Receptions that read the same come to the same.
* `Reception.step_split`: A reception can read the first byte of an arrival
  alone.
* `Drain.step_same`: A drain has no part in how the arrivals are cut.
-/

namespace Multidrop

namespace Bus

/-- Buses that differ in how the arrivals are cut, or those that are to come. -/
structure Alike (interrupts : Bool) (b b' : Bus) : Prop where
  now : b.now = b'.now
  link : b.link = b'.link
  lock : b.lock = b'.lock
  wire : b.wire.Alike interrupts b'.wire

/-- The same result, on buses that are alike. -/
structure Same {α : Type} (interrupts : Bool) (done done' : α × Bus) : Prop where
  result : done.1 = done'.1
  bus : done.2.Alike interrupts done'.2

/-- How many headers have been given up. -/
def resyncs (b : Bus) : Nat :=
  b.link.statistics.resyncs

/-- If calls may be interrupted, no header was given up between two moments. A
    fault behind a header takes precedence and is not counted, so this is said of
    each of two buses. -/
def Steady (interrupts : Bool) (b b' : Bus) : Prop :=
  interrupts = true → b'.resyncs = b.resyncs

/-- What is done on a bus has nothing to do with the wire, and gives no header
    up. -/
def OffWire {α : Type} (b : Bus) (f : Bus → α × Bus) : Prop :=
  ∃ (result : α) (link : Link) (lock : Lock),
    link.statistics.resyncs = b.link.statistics.resyncs ∧
      ∀ wire : Wire, f { b with wire } = (result, { b with wire, link, lock })

variable {α : Type} {interrupts : Bool} {b b' b'' : Bus} {f : Bus → α × Bus}

theorem Alike.refl (interrupts : Bool) (b : Bus) : b.Alike interrupts b :=
  ⟨rfl, rfl, rfl, .refl interrupts b.wire⟩

theorem Alike.with (h : b.Alike interrupts b') {wire wire' : Wire}
    (hwire : wire.Alike interrupts wire') :
    Alike interrupts { b with wire } { b' with wire := wire' } :=
  ⟨h.now, h.link, h.lock, hwire⟩

theorem Alike.eq_with (h : b.Alike interrupts b') : b' = { b with wire := b'.wire } := by
  rw [h.now, h.link, h.lock]

/-- Headers that are given up are never taken back. So none was given up in a
    part of a time in which none was. -/
theorem Steady.split (h : b.Steady interrupts b'') (hle : b.resyncs ≤ b'.resyncs)
    (hle' : b'.resyncs ≤ b''.resyncs) : b.Steady interrupts b' ∧ b'.Steady interrupts b'' := by
  refine ⟨fun hinterrupts => ?_, fun hinterrupts => ?_⟩
  · have hsame := h hinterrupts
    omega
  · have hsame := h hinterrupts
    omega

theorem OffWire.same (h : b.OffWire f) (halike : b.Alike interrupts b') :
    Same interrupts (f b) (f b') := by
  rcases h with ⟨result, link, lock, hresyncs, hf⟩
  rw [halike.eq_with, hf b'.wire, hf b.wire]
  exact ⟨rfl, rfl, rfl, rfl, halike.wire⟩

theorem OffWire.wire (h : b.OffWire f) : (f b).2.wire = b.wire := by
  rcases h with ⟨result, link, lock, hresyncs, hf⟩
  rw [hf b.wire]

theorem OffWire.resyncs (h : b.OffWire f) : (f b).2.resyncs = b.resyncs := by
  rcases h with ⟨result, link, lock, hresyncs, hf⟩
  rw [hf b.wire]
  exact hresyncs

/-- So has a choice between two such things, if the wire has no part in it. -/
theorem OffWire.ite {g : Bus → α × Bus} (p : Bus → Prop) [DecidablePred p]
    (hp : ∀ wire : Wire, p { b with wire } ↔ p b) (hf : b.OffWire f) (hg : b.OffWire g) :
    b.OffWire fun bus => if p bus then f bus else g bus := by
  by_cases h : p b
  · rcases hf with ⟨result, link, lock, hresyncs, hf⟩
    refine ⟨result, link, lock, hresyncs, fun wire => ?_⟩
    simp only [if_pos ((hp wire).mpr h)]
    exact hf wire
  · rcases hg with ⟨result, link, lock, hresyncs, hg⟩
    refine ⟨result, link, lock, hresyncs, fun wire => ?_⟩
    simp only [if_neg (fun hc => h ((hp wire).mp hc))]
    exact hg wire

end Bus

namespace Reception

/-! ### Throwing bytes away -/

/-- Bytes that were thrown away before the others, and counted with them. -/
def counted (count : Nat) (done : Except Transport.Fault Nat × Wire) :
    Except Transport.Fault Nat × Wire :=
  (done.1.map (· + count), done.2)

theorem counted_counted (count more : Nat) (done : Except Transport.Fault Nat × Wire) :
    counted count (counted more done) = counted (count + more) done := by
  rcases done with ⟨cause | discarded, wire⟩
  · rfl
  · simp only [counted, Except.map, Nat.add_assoc, Nat.add_comm more]

theorem counted_zero (done : Except Transport.Fault Nat × Wire) : counted 0 done = done := by
  rcases done with ⟨cause | discarded, wire⟩
  · rfl
  · rfl

variable {interrupts : Bool} {now moment : Duration} {window : Nat} {w w' : Wire}
  {later : Arrivals}

/-- However much is taken at once, the bytes of an arrival are thrown away one
    after the other. By induction on what is left of the window: what is taken at
    once is more than the bytes in question or less, and what lacks follows. -/
theorem discard_bytes (count : Nat) {bytes : List UInt8} (hdue : ¬ now < moment)
    (hcount : count ≤ window) (hbytes : count ≤ bytes.length) :
    discard now window { w with arrivals := Arrivals.leaving moment bytes later } =
      counted count (discard now (window - count)
        { w with arrivals := Arrivals.leaving moment (bytes.drop count) later }) := by
  induction window using Nat.strongRecOn generalizing bytes count with
  | ind window ih =>
    rcases count with _ | count
    · rw [counted_zero, List.drop_zero, Nat.sub_zero]
    rcases bytes with _ | ⟨first, more⟩
    · exact absurd hbytes (Nat.not_succ_le_zero count)
    rw [List.length_cons] at hbytes
    -- What the first pass takes.
    generalize htaken : (more.take (min window discardChunk - 1)).length + 1 = taken
    have hwant : min window discardChunk - 1 + 1 = min window discardChunk := by
      rw [discardChunk]
      omega
    have hlength := htaken
    rw [List.length_take] at hlength
    have hdrop : (first :: more).drop (min window discardChunk) = (first :: more).drop taken := by
      by_cases hall : more.length < min window discardChunk
      · rw [List.drop_eq_nil_of_le (by rw [List.length_cons]; omega),
          List.drop_eq_nil_of_le (by rw [List.length_cons]; omega)]
      · have hsame : taken = min window discardChunk := by omega
        rw [hsame]
    have hpass : discard now window
        { w with arrivals := Arrivals.leaving moment (first :: more) later } =
          counted taken (discard now (window - taken)
            { w with arrivals := Arrivals.leaving moment ((first :: more).drop taken) later }) := by
      have hread : readArrived now (min window discardChunk)
          { w with arrivals := Arrivals.leaving moment (first :: more) later } =
            (.ok (first :: more.take (min window discardChunk - 1)),
              { w with
                arrivals := Arrivals.leaving moment ((first :: more).drop taken) later }) := by
        rw [readArrived, Wire.read_data _ rfl hdue, hdrop, ← hwant, List.take_succ_cons,
          Nat.add_sub_cancel]
      rw [discard_some (by omega) hread, htaken]
      rfl
    rw [hpass]
    -- Whichever of the two takes more, the rest is what the hypothesis is about.
    by_cases hle : count + 1 ≤ taken
    · rw [ih (window - (count + 1)) (by omega) (taken - (count + 1)) (by omega)
        (by rw [List.length_drop, List.length_cons]; omega), counted_counted, List.drop_drop,
        Nat.sub_sub, Nat.add_sub_cancel' hle]
    · rw [ih (window - taken) (by omega) (count + 1 - taken) (by omega)
        (by rw [List.length_drop, List.length_cons]; omega), counted_counted, List.drop_drop,
        Nat.sub_sub, Nat.add_sub_cancel' (by omega)]

/-- While nothing is due, nothing is thrown away. -/
theorem discard_idle (hidle : w.arrivals.Idle now) (window : Nat) :
    discard now window w = (.ok 0, w) := by
  by_cases hwindow : window = 0
  · rw [discard, dif_pos hwindow]
  · refine discard_none hwindow ?_
    rw [readArrived, Wire.read_idle _ hidle]

theorem discard_first {first : UInt8} {more : List UInt8}
    (harrivals : w.arrivals = (moment, .data first more) :: later) (hdue : ¬ now < moment)
    (window : Nat) :
    discard now (window + 1) w =
      counted 1 (discard now window
        { w with arrivals := Arrivals.leaving moment more later }) := by
  have hbytes : discard now (window + 1)
      { w with arrivals := Arrivals.leaving moment (first :: more) later } =
        counted 1 (discard now window { w with arrivals := Arrivals.leaving moment more later }) :=
    discard_bytes 1 hdue (Nat.le_add_left 1 window) (Nat.le_add_left 1 more.length)
  rw [Arrivals.leaving, ← harrivals] at hbytes
  exact hbytes

theorem discard_ended (harrivals : w.arrivals = (moment, .ended) :: later)
    (hdue : ¬ now < moment) (window : Nat) : discard now (window + 1) w = (.ok 0, w) := by
  refine discard_none (Nat.succ_ne_zero window) ?_
  rw [readArrived, Wire.read_ended _ harrivals hdue]

/-- A fault ends it, and is an error if it is none of those that are taken for
    nothing being there. -/
theorem discard_fault {cause : Transport.Fault}
    (harrivals : w.arrivals = (moment, .fault cause) :: later) (hdue : ¬ now < moment)
    (window : Nat) :
    discard now (window + 1) w =
      (if cause.kind = .wouldBlock ∨ cause.kind = .interrupted then .ok 0 else .error cause,
        { w with arrivals := later }) := by
  by_cases hkind : cause.kind = .wouldBlock ∨ cause.kind = .interrupted
  · rw [if_pos hkind]
    refine discard_none (Nat.succ_ne_zero window) ?_
    rw [readArrived, Wire.read_fault _ harrivals hdue]
    exact if_pos hkind
  · rw [if_neg hkind, discard, dif_neg (Nat.succ_ne_zero window), readArrived,
      Wire.read_fault _ harrivals hdue]
    simp only [if_neg hkind]

/-- With one byte more it comes to a fault just if it does without. -/
theorem ne_ok_of_counted {done : Except Transport.Fault Nat × Wire}
    (h : ∀ count, (counted 1 done).1 ≠ .ok count) (count : Nat) : done.1 ≠ .ok count := by
  intro hok
  refine h (count + 1) ?_
  rw [counted, hok]
  rfl

/-- What is thrown away does not depend on how the arrivals are cut, nor on calls
    that may be interrupted if it comes to another fault. By induction on what is
    left of the window. -/
theorem discard_same (h : w.Alike interrupts w')
    (hfault : interrupts = true → ∀ count, (discard now window w).1 ≠ .ok count)
    (hfault' : interrupts = true → ∀ count, (discard now window w').1 ≠ .ok count) :
    (discard now window w).1 = (discard now window w').1 ∧
      (discard now window w).2.Alike interrupts (discard now window w').2 := by
  induction window generalizing w w' with
  | zero =>
      rw [discard, dif_pos rfl, discard, dif_pos rfl]
      exact ⟨rfl, h⟩
  | succ window ih =>
      have hmeet := Arrivals.meet now h.arrivals
      generalize harrivals : w.arrivals = script at hmeet
      generalize harrivals' : w'.arrivals = script' at hmeet
      cases hmeet with
      -- Nothing is there on either side.
      | idle hidle hidle' =>
          rw [← harrivals] at hidle
          rw [← harrivals'] at hidle'
          rw [discard_idle hidle, discard_idle hidle']
          exact ⟨rfl, h⟩
      -- An interrupted call ends it, and not with a fault.
      | first hdue hkind hinterrupts halike =>
          have hok := hfault hinterrupts 0
          rw [discard_fault harrivals hdue, if_pos (Or.inr hkind)] at hok
          exact absurd rfl hok
      | second hdue hkind hinterrupts halike =>
          have hok := hfault' hinterrupts 0
          rw [discard_fault harrivals' hdue, if_pos (Or.inr hkind)] at hok
          exact absurd rfl hok
      | both hdue hfront hbehind =>
          cases Arrival.meets_of_front hfront with
          | data first more more' =>
              -- One byte is gone on both sides, and the rest of the window is as before.
              rw [discard_first harrivals hdue] at hfault ⊢
              rw [discard_first harrivals' hdue] at hfault' ⊢
              rcases ih (h.with hbehind) (fun hinterrupts => ne_ok_of_counted (hfault hinterrupts))
                (fun hinterrupts => ne_ok_of_counted (hfault' hinterrupts)) with
                ⟨hresult, halike⟩
              exact ⟨congrArg (Except.map (· + 1)) hresult, halike⟩
          | ended =>
              rw [discard_ended harrivals hdue, discard_ended harrivals' hdue]
              exact ⟨rfl, h⟩
          | fault cause =>
              rw [discard_fault harrivals hdue, discard_fault harrivals' hdue]
              exact ⟨rfl, h.with hbehind⟩

theorem readArrived_wire (now : Duration) (want : Nat) (w : Wire) :
    (readArrived now want w).2 = (w.read now want).2 := by
  unfold readArrived
  split
  · rename_i hread
    rw [hread]
  · rename_i hread
    rw [hread]
  · rename_i hread
    rw [hread]
    split
    · rfl
    · rfl

/-- Throwing bytes away leaves no more than there was. -/
theorem discard_weight (now : Duration) (window : Nat) (w : Wire) :
    (discard now window w).2.arrivals.weight ≤ w.arrivals.weight := by
  induction window using Nat.strongRecOn generalizing w with
  | ind window ih =>
    have hweight := w.read_weight now (min window discardChunk)
    rw [← readArrived_wire] at hweight
    rw [discard]
    split
    · exact Nat.le_refl _
    · rename_i hwindow
      split
      · rename_i cause wire hread
        rw [hread] at hweight
        exact hweight
      · rename_i wire hread
        rw [hread] at hweight
        exact hweight
      · rename_i byte more wire hread
        rw [hread] at hweight
        -- Chunk by chunk, and none of them adds to what there is.
        exact Nat.le_trans (ih (window - (more.length + 1)) (by omega) wire) hweight

/-! ### Turns -/

variable {onlyFrom : Option UInt8} {r : Reception} {b b' : Bus}

/-- Giving a header up counts it, unless a fault takes precedence. -/
theorem resynchronize_resyncs (reason : Link.ResyncReason) (b : Bus) :
    b.resyncs ≤ (resynchronize reason b).2.resyncs ∧
      ∀ count, (discard b.now b.link.config.resyncWindow b.wire).1 = .ok count →
        (resynchronize reason b).2.resyncs = b.resyncs + 1 := by
  unfold resynchronize
  rcases discard b.now b.link.config.resyncWindow b.wire with ⟨cause | discarded, wire⟩
  · exact ⟨Nat.le_refl _, fun count hok => absurd hok nofun⟩
  · exact ⟨Nat.le_succ _, fun count _ => rfl⟩

theorem giveUp_same (h : b.Alike interrupts b') (reason : Link.ResyncReason)
    (hsteady : b.Steady interrupts (giveUp reason b).2)
    (hsteady' : b'.Steady interrupts (giveUp reason b').2) :
    Bus.Same interrupts (giveUp reason b) (giveUp reason b') := by
  -- Where no header is counted, throwing away has come to a fault.
  have hfault {b : Bus} (hsteady : b.Steady interrupts (giveUp reason b).2)
      (hinterrupts : interrupts = true) (count : Nat) :
      (discard b.now b.link.config.resyncWindow b.wire).1 ≠ .ok count := by
    intro hok
    have hsame := hsteady hinterrupts
    rw [giveUp, (resynchronize_resyncs reason b).2 count hok] at hsame
    omega
  have hcount := hfault hsteady
  have hcount' := hfault hsteady'
  rw [← h.now, ← h.link] at hcount'
  rcases discard_same h.wire hcount hcount' with ⟨hresult, hwire⟩
  unfold giveUp resynchronize
  rw [← h.now, ← h.link]
  generalize discard b.now b.link.config.resyncWindow b.wire = done at hresult hwire ⊢
  generalize discard b.now b.link.config.resyncWindow b'.wire = done' at hresult hwire ⊢
  rcases done with ⟨said, wire⟩
  rcases done' with ⟨said', wire'⟩
  rw [← (show said = said' from hresult)]
  cases said with
  | error cause => exact ⟨rfl, rfl, rfl, h.lock, hwire⟩
  | ok discarded => exact ⟨rfl, rfl, rfl, h.lock, hwire⟩

theorem sort_resyncs (onlyFrom : Option UInt8) (f : Frame.Received) (link : Link) :
    (sort onlyFrom f link).2.statistics.resyncs = link.statistics.resyncs := by
  unfold sort
  cases f.crcOk with
  | true =>
      simp only [if_true]
      split
      · rfl
      · split
        · rfl
        · rfl
  | false =>
      simp only [Bool.false_eq_true, if_false]
      split
      · rfl
      · split
        · rfl
        · rfl

theorem close_offWire (onlyFrom : Option UInt8) (bytes : List UInt8) (b : Bus) :
    b.OffWire (close onlyFrom bytes) := by
  cases hdecode : (Frame.decode b.link.config.limits bytes).1 with
  | error e =>
      refine ⟨.error (.frame e), ?_⟩
      -- Only a mismatch is counted, which leaves the resynchronizations alone.
      cases e with
      | crcMismatch computed found =>
          refine ⟨b.link.crcMismatch, b.lock, rfl, fun wire => ?_⟩
          simp only [close, hdecode]
      | _ =>
          refine ⟨b.link, b.lock, rfl, fun wire => ?_⟩
          simp only [close, hdecode]
  | ok taken =>
      cases taken with
      | none =>
          refine ⟨.ok none, b.link, b.lock, rfl, fun wire => ?_⟩
          simp only [close, hdecode]
      | some f =>
          refine ⟨.ok (sort onlyFrom f b.link).1, (sort onlyFrom f b.link).2, b.lock,
            sort_resyncs onlyFrom f b.link, fun wire => ?_⟩
          simp only [close, hdecode]

/-- Bytes that were read lead to a header that is given up, or to something that
    has nothing to do with what is still to be read. -/
theorem proceed_kinds (onlyFrom : Option UInt8) (byte : UInt8) (more : List UInt8)
    (r : Reception) (b : Bus) :
    b.OffWire (r.proceed onlyFrom byte more) ∨
      ∃ reason, ∀ wire : Wire,
        r.proceed onlyFrom byte more { b with wire } = giveUp reason { b with wire } := by
  -- Most of it changes nothing on a bus.
  have hstill {f : Bus → Turn Reception Result × Bus} (turn : Turn Reception Result)
      (h : ∀ wire : Wire, f { b with wire } = (turn, { b with wire })) : b.OffWire f :=
    ⟨turn, b.link, b.lock, rfl, h⟩
  cases r with
  | header got =>
      have hproceed (bus : Bus) : proceed onlyFrom byte more (.header got) bus =
          if (got ++ byte :: more).length < Frame.headerSize then
            (.again (.header (got ++ byte :: more)), bus)
          else openHeader (got ++ byte :: more) bus := rfl
      by_cases hshort : (got ++ byte :: more).length < Frame.headerSize
      · refine Or.inl (hstill (.again (.header (got ++ byte :: more))) fun wire => ?_)
        rw [hproceed, if_pos hshort]
      · rcases Frame.exists_header hshort with ⟨m0, m1, source, destination, rest, hheader⟩
        rw [hheader] at hproceed hshort
        -- A header is long enough to be judged by its magic.
        cases hmagic : Frame.checkMagic m0 m1 with
        | error e =>
            refine Or.inr ⟨.badMagic (Byte.ofLe16 m0 m1), fun wire => ?_⟩
            rw [hproceed, if_neg hshort]
            simp only [openHeader, hmagic]
        | ok done =>
            refine Or.inl (hstill
              (.again (.length (m0 :: m1 :: source :: destination :: rest) {})) fun wire => ?_)
            rw [hproceed, if_neg hshort]
            simp only [openHeader, hmagic]
  | length got decoder =>
      rcases hpush : decoder.push byte with ⟨said, decoder'⟩
      have hproceed (bus : Bus) : proceed onlyFrom byte more (.length got decoder) bus =
          openLength (got ++ [byte]) (said, decoder') bus := by
        rw [proceed, hpush]
      rcases said with e | _ | size
      · exact Or.inl (hstill (.over (.error (.frame (.varuint e)))) fun wire => hproceed _)
      · exact Or.inl (hstill (.again (.length (got ++ [byte]) decoder')) fun wire => hproceed _)
      · -- The length is known. One that is too large is given up for.
        by_cases hlimit : size.toNat > b.link.config.limits.maxPayload
        · refine Or.inr ⟨.oversizedLength size.toNat, fun wire => ?_⟩
          rw [hproceed, openLength, if_pos hlimit]
        · refine Or.inl (hstill
            (.again (.body (got ++ [byte]) (size.toNat + Frame.crcSize))) fun wire => ?_)
          rw [hproceed, openLength, if_neg hlimit]
  | body got missing =>
      have hproceed (bus : Bus) : proceed onlyFrom byte more (.body got missing) bus =
          if missing - (more.length + 1) = 0 then
            (.over (close onlyFrom (got ++ byte :: more) bus).1,
              (close onlyFrom (got ++ byte :: more) bus).2)
          else (.again (.body (got ++ byte :: more) (missing - (more.length + 1))), bus) := rfl
      by_cases hlast : missing - (more.length + 1) = 0
      · rcases close_offWire onlyFrom (got ++ byte :: more) b with
          ⟨result, link, lock, hresyncs, hclose⟩
        refine Or.inl ⟨.over result, link, lock, hresyncs, fun wire => ?_⟩
        rw [hproceed, if_pos hlast, hclose wire]
      · refine Or.inl (hstill
          (.again (.body (got ++ byte :: more) (missing - (more.length + 1)))) fun wire => ?_)
        rw [hproceed, if_neg hlast]

theorem proceed_same (h : b.Alike interrupts b') (byte : UInt8) (more : List UInt8)
    (hsteady : b.Steady interrupts (r.proceed onlyFrom byte more b).2)
    (hsteady' : b'.Steady interrupts (r.proceed onlyFrom byte more b').2) :
    Bus.Same interrupts (r.proceed onlyFrom byte more b) (r.proceed onlyFrom byte more b') := by
  rcases proceed_kinds onlyFrom byte more r b with hoff | ⟨reason, hgive⟩
  · exact hoff.same h
  · have hfirst : r.proceed onlyFrom byte more b = giveUp reason b := hgive b.wire
    have hsecond : r.proceed onlyFrom byte more b' = giveUp reason b' := by
      rw [h.eq_with]
      exact hgive b'.wire
    rw [hfirst] at hsteady ⊢
    rw [hsecond] at hsteady' ⊢
    exact giveUp_same h reason hsteady hsteady'

/-- Bytes that were read leave the wire as it is, or throw away some of what is
    there. -/
theorem proceed_leaves (onlyFrom : Option UInt8) (byte : UInt8) (more : List UInt8)
    (r : Reception) (b : Bus) :
    b.resyncs ≤ (r.proceed onlyFrom byte more b).2.resyncs ∧
      (r.proceed onlyFrom byte more b).2.wire.arrivals.weight ≤ b.wire.arrivals.weight := by
  rcases proceed_kinds onlyFrom byte more r b with hoff | ⟨reason, hgive⟩
  · rw [hoff.resyncs, hoff.wire]
    exact ⟨Nat.le_refl _, Nat.le_refl _⟩
  · have hfirst : r.proceed onlyFrom byte more b = giveUp reason b := hgive b.wire
    have hweight := discard_weight b.now b.link.config.resyncWindow b.wire
    rw [hfirst]
    refine ⟨(resynchronize_resyncs reason b).1, ?_⟩
    unfold giveUp resynchronize
    generalize discard b.now b.link.config.resyncWindow b.wire = done at hweight ⊢
    rcases done with ⟨cause | discarded, wire⟩
    · exact hweight
    · exact hweight

/-- Who has read something does not wait. -/
theorem proceed_ne_waiting (onlyFrom : Option UInt8) (byte : UInt8) (more : List UInt8)
    (r : Reception) (b : Bus) : (r.proceed onlyFrom byte more b).1 ≠ .waiting := by
  -- Every byte is used up by each of the three, so none of them waits.
  cases r with
  | header got =>
      simp only [proceed]
      split
      · rintro ⟨⟩
      · unfold openHeader
        split
        · split
          · rintro ⟨⟩
          · rintro ⟨⟩
        · rintro ⟨⟩
  | length got decoder =>
      simp only [proceed]
      unfold openLength
      split
      · rintro ⟨⟩
      · rintro ⟨⟩
      · split
        · rintro ⟨⟩
        · rintro ⟨⟩
  | body got missing =>
      simp only [proceed]
      split
      · rintro ⟨⟩
      · rintro ⟨⟩

theorem step_ne_waiting (onlyFrom : Option UInt8)
    (h : (b.wire.read b.now r.wants).1.takes = true) : (r.step onlyFrom b).1 ≠ .waiting := by
  unfold step
  generalize b.wire.read b.now r.wants = done at h ⊢
  rcases done with ⟨outcome, wire⟩
  cases outcome with
  | waiting => exact absurd h Bool.false_ne_true
  | failed cause =>
      simp only
      split
      · nofun
      · nofun
  | ready bytes =>
      cases bytes with
      | nil => nofun
      | cons byte more => exact proceed_ne_waiting onlyFrom byte more r { b with wire }

/-- Receptions that read the same come to the same. -/
theorem step_same (h : b.Alike interrupts b')
    (hread : (b.wire.read b.now r.wants).1 = (b'.wire.read b'.now r.wants).1 ∧
      (b.wire.read b.now r.wants).2.Alike interrupts (b'.wire.read b'.now r.wants).2)
    (hsteady : b.Steady interrupts (r.step onlyFrom b).2)
    (hsteady' : b'.Steady interrupts (r.step onlyFrom b').2) :
    Bus.Same interrupts (r.step onlyFrom b) (r.step onlyFrom b') := by
  unfold step at hsteady hsteady' ⊢
  generalize b.wire.read b.now r.wants = done at hread hsteady ⊢
  generalize b'.wire.read b'.now r.wants = done' at hread hsteady' ⊢
  rcases done with ⟨outcome, wire⟩
  rcases done' with ⟨outcome', wire'⟩
  rcases hread with ⟨hresult, hwire⟩
  have hsame : outcome = outcome' := hresult
  subst hsame
  cases outcome with
  | waiting => exact ⟨rfl, h.with hwire⟩
  -- The same fault on both sides, which may be an interruption.
  | failed cause =>
      simp only
      by_cases hkind : cause.kind = .interrupted
      · rw [if_pos hkind, if_pos hkind]
        exact ⟨rfl, h.with hwire⟩
      · rw [if_neg hkind, if_neg hkind]
        exact ⟨rfl, h.with hwire⟩
  | ready bytes =>
      cases bytes with
      | nil => exact ⟨rfl, h.with hwire⟩
      | cons byte more => exact proceed_same (h.with hwire) byte more hsteady hsteady'

/-- A turn takes something off the wire if its read does, and leaves the wire as
    it is if not. No header that was given up is taken back. -/
theorem step_leaves (onlyFrom : Option UInt8) (r : Reception) (b : Bus) :
    b.resyncs ≤ (r.step onlyFrom b).2.resyncs ∧
      if (b.wire.read b.now r.wants).1.takes then
        (r.step onlyFrom b).2.wire.arrivals.weight < b.wire.arrivals.weight
      else (r.step onlyFrom b).2.wire = b.wire := by
  have hleaves := b.wire.read_leaves b.now r.wants
  unfold step
  generalize b.wire.read b.now r.wants = done at hleaves ⊢
  rcases done with ⟨outcome, wire⟩
  cases outcome with
  | waiting => exact ⟨Nat.le_refl _, hleaves⟩
  -- A fault is taken off the script too, whether the turn ends with it or not.
  | failed cause =>
      simp only
      by_cases hkind : cause.kind = .interrupted
      · rw [if_pos hkind]
        exact ⟨Nat.le_refl _, hleaves⟩
      · rw [if_neg hkind]
        exact ⟨Nat.le_refl _, hleaves⟩
  | ready bytes =>
      cases bytes with
      | nil => exact ⟨Nat.le_refl _, hleaves⟩
      | cons byte more =>
          have hproceed := proceed_leaves onlyFrom byte more r { b with wire }
          exact ⟨hproceed.1, Nat.lt_of_le_of_lt hproceed.2 hleaves⟩

/-- The first byte of several can be read alone, as long as others are wanted with
    it. -/
theorem proceed_split (onlyFrom : Option UInt8) (first next : UInt8) (more : List UInt8)
    {r : Reception} (hlength : more.length + 2 ≤ r.wants) :
    ∃ r' : Reception, r'.wants + 1 = r.wants ∧ ∀ b : Bus,
      r.proceed onlyFrom first [] b = (.again r', b) ∧
        r'.proceed onlyFrom next more b = r.proceed onlyFrom first (next :: more) b := by
  cases r with
  | header got =>
      rw [wants] at hlength
      refine ⟨.header (got ++ [first]), ?_, fun b => ⟨?_, ?_⟩⟩
      · rw [wants, wants, List.length_append, List.length_singleton]
        omega
      · have hshort : (got ++ [first]).length < Frame.headerSize := by
          rw [List.length_append, List.length_singleton]
          omega
        rw [proceed]
        exact if_pos hshort
      · simp only [proceed, List.append_assoc, List.singleton_append]
  -- The length is read byte by byte, so there is no second byte to split off.
  | length got decoder =>
      rw [wants] at hlength
      omega
  | body got missing =>
      rw [wants] at hlength
      refine ⟨.body (got ++ [first]) (missing - 1), ?_, fun b => ⟨?_, ?_⟩⟩
      · rw [wants, wants]
        omega
      · have hmissing : ¬ missing - 1 = 0 := by omega
        rw [proceed]
        exact if_neg hmissing
      · have hleft : missing - 1 - (more.length + 1) = missing - ((next :: more).length + 1) := by
          rw [List.length_cons]
          omega
        simp only [proceed, List.append_assoc, List.singleton_append, hleft]

/-- A reception can read the first byte of an arrival alone: that is all it would
    have read, or it goes on with the others as if it had read them at once. -/
theorem step_split {moment : Duration} {byte next : UInt8} {more : List UInt8}
    {later : Arrivals} (onlyFrom : Option UInt8) (hwants : 0 < r.wants)
    (harrivals : b.wire.arrivals = (moment, .data byte (next :: more)) :: later)
    (hdue : ¬ b.now < moment) :
    let alone : Bus := { b with wire := { b.wire with
      arrivals := (moment, .data byte []) :: (moment, .data next more) :: later } }
    let behind : Bus := { b with wire := { b.wire with
      arrivals := (moment, .data next more) :: later } }
    r.step onlyFrom alone = r.step onlyFrom b ∨
      ∃ r', r.step onlyFrom alone = (.again r', behind) ∧
        (behind.wire.read behind.now r'.wants).1.takes = true ∧
        r'.step onlyFrom behind = r.step onlyFrom b := by
  intro alone behind
  rcases hcount : r.wants with _ | count
  · omega
  have hread : b.wire.read b.now r.wants = (.ready (byte :: (next :: more).take count),
      { b.wire with
        arrivals := Arrivals.leaving moment ((next :: more).drop count) later }) := by
    rw [Wire.read_data r.wants harrivals hdue, hcount, List.take_succ_cons, List.drop_succ_cons]
  have hstep : r.step onlyFrom alone = r.proceed onlyFrom byte [] behind := by
    have hread' : alone.wire.read alone.now r.wants = (.ready [byte], behind.wire) := by
      rw [Wire.read_data r.wants rfl hdue, hcount, List.take_succ_cons, List.drop_succ_cons,
        List.take_nil, List.drop_nil]
      rfl
    rw [step, hread']
  rcases count with _ | count
  · refine Or.inl ?_
    rw [hstep, step, hread]
    rfl
  · -- Others are wanted, so the first byte ends nothing.
    have hlength : (more.take count).length + 2 ≤ r.wants := by
      rw [List.length_take]
      omega
    rcases proceed_split onlyFrom byte next (more.take count) hlength with ⟨r', hwants', hsplit⟩
    -- The rest is there at once, and comes in one piece.
    have hrest : behind.wire.read behind.now r'.wants = (.ready (next :: more.take count),
        { b.wire with arrivals := Arrivals.leaving moment (more.drop count) later }) := by
      have hcount' : r'.wants = count + 1 := by omega
      rw [Wire.read_data r'.wants rfl hdue, hcount', List.take_succ_cons, List.drop_succ_cons]
    refine Or.inr ⟨r', ?_, ?_, ?_⟩
    · rw [hstep]
      exact (hsplit behind).1
    · rw [hrest]
      rfl
    · rw [step, hrest, step, hread]
      exact (hsplit _).2

end Reception

namespace Drain

variable {interrupts : Bool} {b b' : Bus}

theorem offer_same (h : b.Alike interrupts b') :
    Bus.Same interrupts (offer b) (offer b') := by
  have hwrite := h.wire.write b.now b.link.inFlight
  unfold offer
  rw [← h.now, ← h.link]
  generalize b.wire.write b.now b.link.inFlight = done at hwrite ⊢
  generalize b'.wire.write b.now b.link.inFlight = done' at hwrite ⊢
  rcases done with ⟨outcome, wire⟩
  rcases done' with ⟨outcome', wire'⟩
  rcases hwrite with ⟨hresult, hwire⟩
  have hsame : outcome = outcome' := hresult
  subst hsame
  -- What the write came to decides the turn, and it is the same on both sides.
  cases outcome with
  | waiting => exact ⟨rfl, rfl, rfl, h.lock, hwire⟩
  | failed cause =>
      simp only
      by_cases hkind : cause.kind = .interrupted
      · rw [if_pos hkind, if_pos hkind]
        exact ⟨rfl, rfl, rfl, h.lock, hwire⟩
      · rw [if_neg hkind, if_neg hkind]
        exact ⟨rfl, rfl, rfl, h.lock, hwire⟩
  | ready count =>
      cases count with
      | zero => exact ⟨rfl, rfl, rfl, h.lock, hwire⟩
      | succ count => exact ⟨rfl, rfl, rfl, h.lock, hwire⟩

theorem flush_same (h : b.Alike interrupts b') :
    Bus.Same interrupts (flush b) (flush b') := by
  have hflush := h.wire.flush b.now
  unfold flush
  rw [← h.now]
  generalize b.wire.flush b.now = done at hflush ⊢
  generalize b'.wire.flush b.now = done' at hflush ⊢
  rcases done with ⟨outcome, wire⟩
  rcases done' with ⟨outcome', wire'⟩
  rcases hflush with ⟨hresult, hwire⟩
  have hsame : outcome = outcome' := hresult
  subst hsame
  cases outcome with
  | waiting => exact ⟨rfl, rfl, h.link, h.lock, hwire⟩
  | failed cause =>
      simp only
      by_cases hkind : cause.kind = .interrupted
      · rw [if_pos hkind, if_pos hkind]
        exact ⟨rfl, rfl, h.link, h.lock, hwire⟩
      · rw [if_neg hkind, if_neg hkind]
        exact ⟨rfl, rfl, h.link, h.lock, hwire⟩
  | ready done => exact ⟨rfl, rfl, h.link, h.lock, hwire⟩

/-- A drain has no part in how the arrivals are cut. -/
theorem step_same (h : b.Alike interrupts b') (d : Drain) :
    Bus.Same interrupts (d.step b) (d.step b') := by
  cases d with
  | starting => exact ⟨rfl, h.now, congrArg Link.takeOutbound h.link, h.lock, h.wire⟩
  | sending =>
      simp only [step]
      rw [← h.link]
      by_cases hempty : b.link.inFlight = []
      · rw [if_pos hempty, if_pos hempty]
        exact ⟨rfl, h⟩
      · rw [if_neg hempty, if_neg hempty]
        exact offer_same h
  | flushing => exact flush_same h

/-- It gives no header up, and takes nothing off the wire. -/
theorem step_leaves (d : Drain) (b : Bus) :
    (d.step b).2.resyncs = b.resyncs ∧ b.wire.arrivals <+: (d.step b).2.wire.arrivals := by
  have hwrite := b.wire.write_adds b.now b.link.inFlight
  have hflush := b.wire.flush_adds b.now
  -- A device may answer what is written, and answers come behind all else.
  cases d with
  | starting => exact ⟨rfl, List.prefix_refl _⟩
  | sending =>
      simp only [step]
      split
      · exact ⟨rfl, List.prefix_refl _⟩
      · unfold offer
        split
        · rename_i wire hdone
          rw [hdone] at hwrite
          exact ⟨rfl, hwrite⟩
        · rename_i cause wire hdone
          rw [hdone] at hwrite
          split
          · exact ⟨rfl, hwrite⟩
          · exact ⟨rfl, hwrite⟩
        · rename_i wire hdone
          rw [hdone] at hwrite
          exact ⟨rfl, hwrite⟩
        · rename_i count wire hpos hdone
          rw [hdone] at hwrite
          exact ⟨rfl, hwrite⟩
  | flushing =>
      simp only [step]
      unfold flush
      split
      · rename_i wire hdone
        rw [hdone] at hflush
        exact ⟨rfl, hflush⟩
      · rename_i cause wire hdone
        rw [hdone] at hflush
        split
        · exact ⟨rfl, hflush⟩
        · exact ⟨rfl, hflush⟩
      · rename_i wire hdone
        rw [hdone] at hflush
        exact ⟨rfl, hflush⟩

end Drain

end Multidrop
