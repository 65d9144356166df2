import Multidrop.Proofs.Frame.Form

/-!
# Frames That Arrive in Pieces

A stream of frames reaches a reader in pieces of any size, and the reader
takes what it can after each of them. What it gets in the end does not depend
on where the stream was cut. That holds of any bytes, whether or not they are
frames.

It comes down to a single call. A frame that is taken would have been taken as
well if more had been there, and a header that is refused stays refused
whatever comes behind it. Only a call that says that something is missing can
change its mind, and such a call takes nothing. So reading some bytes and then
more of them is the same as reading all at once, apart from calls that were
made too early.

## Main definitions

* `taken`: Whether a call has taken a frame, by what it says.
* `outcomes`: What calls said about the frames they have taken.

## Theorems

* `Refused.append`: What is refused stays refused.
* `taken_iff`: Which calls take something.
* `decodeAll_append`: Reading on behind what was read already.
* `feedAll_flatten`: Feeding pieces is feeding them whole.
* `feedAll_refused`: Nothing is read behind a header that is refused.
* `pieces_immaterial`: What a reader gets does not depend on the cuts.
-/

namespace Multidrop

namespace Frame

/-- Whether a call has taken a frame, by what it says. -/
def taken : Except Error (Option Received) → Bool
  | .ok (some _) => true
  | .error (.crcMismatch _ _) => true
  | _ => false

/-- What calls said about the frames they have taken. -/
def outcomes (calls : List Call) : List (Except Error (Option Received)) :=
  (calls.map Call.result).filter taken

variable {limits : Limits} {buffer : List UInt8}

/-- A frame that is there whole is taken, whatever is said to it. -/
theorem Form.taken_verdict (limits : Limits) (p : Form) :
    taken ((p.verdict limits).map some) = true := by
  rcases p.verdict_cases limits with hverdict | hverdict
  · rw [hverdict]
    rfl
  · rw [hverdict]
    rfl

/-- Nothing is missing of a frame that is there whole. -/
theorem Form.Accepted.decode_ne_none {p : Form} (h : p.Accepted limits) (rest : List UInt8) :
    (decode limits (p.bytes ++ rest)).1 ≠ .ok none := by
  intro hnone
  rw [decode_form h] at hnone
  have htaken := p.taken_verdict limits
  have hverdict : (p.verdict limits).map some = .ok none := hnone
  rw [hverdict] at htaken
  exact Bool.false_ne_true htaken

theorem Form.length_lt (p : Form) (rest : List UInt8) :
    rest.length < (p.bytes ++ rest).length := by
  rw [List.length_append, length_bytes, headerSize]
  omega

/-- Nothing that is refused has been taken. -/
theorem Refused.not_taken {e : Error} (h : Refused limits buffer e) :
    taken (.error e) = false := by
  cases h with
  | magic => rfl
  | endless => rfl
  | outOfRange => rfl
  | oversized => rfl

/-- What is refused stays refused, since what is wrong with it is at its
    front. -/
theorem Refused.append {e : Error} (h : Refused limits buffer e) (more : List UInt8) :
    Refused limits (buffer ++ more) e := by
  cases h with
  | magic m0 m1 source destination rest hbuffer h =>
      refine .magic m0 m1 source destination (rest ++ more) ?_ h
      rw [hbuffer, List.cons_append, List.cons_append, List.cons_append, List.cons_append]
  | endless source destination number rest hbuffer h hlength =>
      refine .endless source destination number (rest ++ more) ?_ h hlength
      simp only [hbuffer, List.cons_append, List.append_assoc]
  | outOfRange source destination number rest hbuffer h hlength hrange =>
      refine .outOfRange source destination number (rest ++ more) ?_ h hlength hrange
      simp only [hbuffer, List.cons_append, List.append_assoc]
  | oversized source destination number rest hbuffer h hlength hrange hlimit =>
      refine .oversized source destination number (rest ++ more) ?_ h hlength hrange hlimit
      simp only [hbuffer, List.cons_append, List.append_assoc]

/-- A call has taken a frame just if it leaves less than there was, and else
    it leaves all of it. -/
theorem taken_iff (limits : Limits) (buffer : List UInt8) :
    (taken (decode limits buffer).1 = true ↔
      (decode limits buffer).2.length < buffer.length) ∧
    (taken (decode limits buffer).1 = false → (decode limits buffer).2 = buffer) := by
  cases decodes limits buffer with
  | whole p rest hbuffer h =>
      rw [hbuffer, decode_form h, p.taken_verdict]
      exact ⟨iff_of_true rfl (p.length_lt rest),
        fun hfalse => absurd hfalse.symm Bool.false_ne_true⟩
  | incomplete h =>
      rw [decode_incomplete h]
      exact ⟨iff_of_false Bool.false_ne_true (Nat.lt_irrefl _), fun _ => rfl⟩
  | refused e h =>
      rw [decode_refused h, h.not_taken]
      exact ⟨iff_of_false Bool.false_ne_true (Nat.lt_irrefl _), fun _ => rfl⟩

/-- An error about bytes that were not taken is that they are refused. -/
theorem refused_of_decode {e : Error} (h : (decode limits buffer).1 = .error e)
    (htaken : taken (.error e) = false) : Refused limits buffer e := by
  cases decodes limits buffer with
  | whole p rest hbuffer haccepted =>
      rw [hbuffer, decode_form haccepted] at h
      rw [← h, p.taken_verdict] at htaken
      exact absurd htaken.symm Bool.false_ne_true
  | incomplete hincomplete =>
      rw [decode_incomplete hincomplete] at h
      simp only [reduceCtorEq] at h
  | refused e' hrefused =>
      rw [decode_refused hrefused, Except.error.injEq] at h
      rw [← h]
      exact hrefused

/-- Behind a frame that is taken reading goes on. -/
theorem decodeAll_form {p : Form} (h : p.Accepted limits) (rest : List UInt8) :
    decodeAll limits (p.bytes ++ rest) =
      (⟨(p.verdict limits).map some, rest.length⟩ :: (decodeAll limits rest).1,
        (decodeAll limits rest).2) := by
  rw [decodeAll, decode_form h]
  simp only []
  rw [if_pos (p.length_lt rest)]

/-- Where nothing is taken reading stops. -/
theorem decodeAll_of_left {result : Except Error (Option Received)}
    (hdecode : decode limits buffer = (result, buffer)) :
    decodeAll limits buffer = ([⟨result, buffer.length⟩], buffer) := by
  rw [decodeAll, hdecode]
  simp only [Nat.lt_irrefl, if_false]

theorem outcomes_cons_of_taken {result : Except Error (Option Received)} {left : Nat}
    (h : taken result = true) (calls : List Call) :
    outcomes (⟨result, left⟩ :: calls) = result :: outcomes calls := by
  rw [outcomes, List.map_cons, List.filter_cons_of_pos h, outcomes]

theorem outcomes_append (first second : List Call) :
    outcomes (first ++ second) = outcomes first ++ outcomes second := by
  rw [outcomes, List.map_append, List.filter_append, outcomes, outcomes]

/-- All calls but the last have taken a frame. By induction on the buffer,
    which every such call makes shorter. -/
theorem decodeAll_results (limits : Limits) (buffer : List UInt8) :
    ∃ stop, (decodeAll limits buffer).1.map Call.result =
      outcomes (decodeAll limits buffer).1 ++ [stop] ∧ taken stop = false := by
  induction hlength : buffer.length using Nat.strongRecOn generalizing buffer with
  | ind n ih =>
    -- A call that takes nothing is the last one, and what it says is the stop.
    have hstop : ∀ {result : Except Error (Option Received)},
        decode limits buffer = (result, buffer) → taken result = false →
          ∃ stop, (decodeAll limits buffer).1.map Call.result =
            outcomes (decodeAll limits buffer).1 ++ [stop] ∧ taken stop = false := by
      intro result hdecode hresult
      refine ⟨result, ?_, hresult⟩
      rw [decodeAll_of_left hdecode, outcomes, List.map_singleton,
        List.filter_cons_of_neg (by rw [hresult]; exact Bool.false_ne_true), List.filter_nil,
        List.nil_append]
    cases decodes limits buffer with
    | whole p rest hbuffer h =>
        have hlt := p.length_lt rest
        rw [← hbuffer] at hlt
        rcases ih rest.length (by omega) rest rfl with ⟨stop, hresults, htaken⟩
        refine ⟨stop, ?_, htaken⟩
        rw [hbuffer, decodeAll_form h, List.map_cons, hresults,
          outcomes_cons_of_taken (p.taken_verdict limits), List.cons_append]
    | incomplete h => exact hstop (decode_incomplete h) rfl
    | refused e h => exact hstop (decode_refused h) h.not_taken

theorem decodeAll_ne_nil (limits : Limits) (buffer : List UInt8) :
    (decodeAll limits buffer).1 ≠ [] := by
  rcases decodeAll_results limits buffer with ⟨stop, hresults, _⟩
  intro hnil
  rw [hnil, List.map_nil] at hresults
  exact List.append_ne_nil_of_right_ne_nil _ (List.cons_ne_nil _ _) hresults.symm

/-- Reading some bytes, and then more behind what is left of them, is reading
    all of them, apart from the call that stopped in between. By induction on
    the buffer, which every frame that is taken makes shorter. -/
theorem decodeAll_append (limits : Limits) (buffer more : List UInt8) :
    let first := decodeAll limits buffer
    let second := decodeAll limits (first.2 ++ more)
    let both := decodeAll limits (buffer ++ more)
    outcomes both.1 = outcomes first.1 ++ outcomes second.1 ∧ both.2 = second.2 ∧
      both.1.getLast? = second.1.getLast? := by
  induction hlength : buffer.length using Nat.strongRecOn generalizing buffer with
  | ind n ih =>
    intro first second both
    -- Where the first reading stops at once, the second one is all of the reading.
    have hstop : ∀ {result : Except Error (Option Received)},
        decode limits buffer = (result, buffer) → taken result = false →
          outcomes both.1 = outcomes first.1 ++ outcomes second.1 ∧ both.2 = second.2 ∧
            both.1.getLast? = second.1.getLast? := by
      intro result hdecode hresult
      have hfirst : first = ([⟨result, buffer.length⟩], buffer) := decodeAll_of_left hdecode
      have hsame : second = both := by
        change decodeAll limits (first.2 ++ more) = decodeAll limits (buffer ++ more)
        rw [hfirst]
      have hnone : outcomes first.1 = [] := by
        rw [hfirst, outcomes, List.map_singleton,
          List.filter_cons_of_neg (by rw [hresult]; exact Bool.false_ne_true), List.filter_nil]
      rw [hsame, hnone, List.nil_append]
      exact ⟨rfl, rfl, rfl⟩
    cases decodes limits buffer with
    -- A frame in front is read the same, whether more comes behind it or not.
    | whole p rest hbuffer h =>
        have hlt := p.length_lt rest
        rw [← hbuffer] at hlt
        have hfirst : first = (⟨(p.verdict limits).map some, rest.length⟩ ::
            (decodeAll limits rest).1, (decodeAll limits rest).2) := by
          change decodeAll limits buffer = _
          rw [hbuffer, decodeAll_form h]
        have hboth : both = (⟨(p.verdict limits).map some, (rest ++ more).length⟩ ::
            (decodeAll limits (rest ++ more)).1, (decodeAll limits (rest ++ more)).2) := by
          change decodeAll limits (buffer ++ more) = _
          rw [hbuffer, List.append_assoc, decodeAll_form h]
        have hsecond : second = decodeAll limits ((decodeAll limits rest).2 ++ more) := by
          change decodeAll limits (first.2 ++ more) = _
          rw [hfirst]
        rcases ih rest.length (by omega) rest rfl with ⟨houtcomes, hleft, hlast⟩
        rw [hboth, hfirst, hsecond]
        refine ⟨?_, hleft, ?_⟩
        · rw [outcomes_cons_of_taken (p.taken_verdict limits),
            outcomes_cons_of_taken (p.taken_verdict limits), houtcomes, List.cons_append]
        · rw [List.getLast?_cons_of_ne_nil (decodeAll_ne_nil limits (rest ++ more)), hlast]
    | incomplete h => exact hstop (decode_incomplete h) rfl
    | refused e h => exact hstop (decode_refused h) h.not_taken

/-- Feeding pieces is feeding them whole. By induction on the pieces, each of
    which is read on behind those before it. -/
theorem feedAll_flatten (limits : Limits) (buffer : List UInt8) {pieces : List (List UInt8)}
    (hne : pieces ≠ []) :
    let cut := feedAll limits buffer pieces
    let whole := feed limits buffer pieces.flatten
    outcomes cut.1.flatten = outcomes whole.1 ∧ cut.2 = whole.2 ∧
      cut.1.getLast?.bind List.getLast? = whole.1.getLast? := by
  induction pieces generalizing buffer with
  | nil => exact absurd rfl hne
  | cons piece pieces ih =>
      -- On the pieces, since a piece is read before it is known what follows.
      by_cases hlast : pieces = []
      · rw [hlast]
        simp only [feedAll, List.flatten_cons, List.flatten_nil, List.append_nil,
          List.getLast?_singleton, Option.bind_some, and_self]
      · intro cut whole
        have hcut : cut = ((feed limits buffer piece).1 ::
            (feedAll limits (feed limits buffer piece).2 pieces).1,
            (feedAll limits (feed limits buffer piece).2 pieces).2) := rfl
        have hwhole : whole = decodeAll limits ((buffer ++ piece) ++ pieces.flatten) := by
          change decodeAll limits (buffer ++ (piece :: pieces).flatten) = _
          rw [List.flatten_cons, List.append_assoc]
        rcases decodeAll_append limits (buffer ++ piece) pieces.flatten with
          ⟨houtcomes, hleft, hstop⟩
        rcases ih (feed limits buffer piece).2 hlast with ⟨houtcomes', hleft', hstop'⟩
        rw [hcut, hwhole]
        refine ⟨?_, hleft'.trans hleft.symm, ?_⟩
        · rw [List.flatten_cons, outcomes_append, houtcomes', houtcomes]
          rfl
        · have hmore : (feedAll limits (feed limits buffer piece).2 pieces).1 ≠ [] := by
            cases pieces with
            | nil => exact absurd rfl hlast
            | cons next pieces => exact List.cons_ne_nil _ _
          rw [List.getLast?_cons_of_ne_nil hmore, hstop', hstop]
          rfl

/-- Nothing is read behind a header that is refused, however much is fed. By
    induction on the pieces. -/
theorem feedAll_refused {e : Error} (h : Refused limits buffer e)
    (pieces : List (List UInt8)) :
    (feedAll limits buffer pieces).1.map (List.map Call.result) =
        List.replicate pieces.length [.error e] ∧
      (feedAll limits buffer pieces).2 = buffer ++ pieces.flatten := by
  induction pieces generalizing buffer with
  | nil =>
      rw [feedAll, List.flatten_nil, List.append_nil]
      exact ⟨rfl, rfl⟩
  | cons piece pieces ih =>
      have hfeed : feed limits buffer piece =
          ([⟨.error e, (buffer ++ piece).length⟩], buffer ++ piece) :=
        decodeAll_of_left (decode_refused (h.append piece))
      rcases ih (h.append piece) with ⟨hcalls, hleft⟩
      rw [feedAll, hfeed]
      refine ⟨?_, ?_⟩
      · rw [List.map_cons, hcalls, List.length_cons, List.replicate_succ, List.map_singleton]
      · rw [hleft, List.flatten_cons, List.append_assoc]

/-- What a reader gets does not depend on where a stream is cut. Fed with
    pieces it says the same of the frames it takes, leaves the same bytes and
    stops with the same call as fed with all of them at once; all calls but
    that last one have taken something. A call that has not taken a frame
    leaves the buffer as it was, and where it has refused what is there every
    later call refuses it in the same way, whatever is fed in between. -/
theorem pieces_immaterial (limits : Limits) (buffer : List UInt8) :
    (∀ pieces, pieces ≠ [] →
      let cut := feedAll limits buffer pieces
      let whole := feed limits buffer pieces.flatten
      outcomes cut.1.flatten = outcomes whole.1 ∧ cut.2 = whole.2 ∧
        cut.1.getLast?.bind List.getLast? = whole.1.getLast? ∧
        ∃ stop, whole.1.map Call.result = outcomes whole.1 ++ [stop] ∧ taken stop = false) ∧
    (taken (decode limits buffer).1 = true ↔
      (decode limits buffer).2.length < buffer.length) ∧
    (∀ e, (decode limits buffer).1 = .error e → taken (.error e) = false →
      (decode limits buffer).2 = buffer ∧
      ∀ pieces, (feedAll limits buffer pieces).1.map (List.map Call.result) =
          List.replicate pieces.length [.error e] ∧
        (feedAll limits buffer pieces).2 = buffer ++ pieces.flatten) := by
  refine ⟨?_, (taken_iff limits buffer).1, ?_⟩
  · intro pieces hne cut whole
    rcases feedAll_flatten limits buffer hne with ⟨houtcomes, hleft, hstop⟩
    exact ⟨houtcomes, hleft, hstop, decodeAll_results limits (buffer ++ pieces.flatten)⟩
  · intro e he htaken
    have hbuffer := (taken_iff limits buffer).2 (by rw [he]; exact htaken)
    refine ⟨hbuffer, fun pieces => ?_⟩
    exact feedAll_refused (refused_of_decode he htaken) pieces

end Frame

end Multidrop
