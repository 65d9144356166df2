import Multidrop.Proofs.Session.Incoming

/-!
# The Lines from a Device

What the reads of lines of a client return is what a split of the whole stream
into lines would give, although no read ever sees more of it than the buffer of
the client. A line may be cut anywhere, by frames, by polls and by calls that
are given up, and so may the line ends between two lines.

That holds from any moment on and for any part of a run: the lines in what is
buffered at its start and in what is heard are those that are returned, and then
those that are still buffered. A call that comes to nothing takes line ends at
most, so the calls after it return what they would have returned without it.

## Main definitions

* `Event.line?`: The line that a client has read at an event.
* `OnlyLines`: A client has read nothing but lines.

## Theorems

* `Taken.yields`: What the reads of a client have taken holds the lines they
  returned.
* `lines_in_order`: What was heard holds the lines that were returned, and what
  is buffered.
-/

namespace Multidrop

namespace Session

/-- The line that a client has read at an event. -/
def Event.line? (client : Nat) : Event → Option (List UInt8)
  | .turned _ note => if note.client = client then note.task.line? note.ended else none
  | _ => none

/-- Whatever a client has read are lines: no read of a number of bytes has
    succeeded. -/
def OnlyLines (client : Nat) (events : List Event) : Prop :=
  ∀ id note size answer, .turned id note ∈ events → note.client = client →
    note.task = .read size → note.ended ≠ some (.ok answer)

/-- A turn that has read a line has read one that is not empty. -/
def Note.AnswersLine (note : Note) : Prop :=
  ∀ answer, note.task = .readLine → note.ended = some (.ok answer) →
    ∃ line, answer = .bytes line ∧ line ≠ []

variable {s : Session} {client id : Nat} {e : Errand} {event : Event} {events : List Event}
  {taken part : List UInt8}

theorem noted_answersLine (hkept : Kept s) (hid : s.errand? id = some e) :
    (s.noted id e).AnswersLine := fun _ htask hended =>
  (Call.step_goes (hkept.sound id e hid) id s.bus).answers_line htask hended

/-- What a client takes at an event holds the line it has read there. -/
theorem Event.Takes.yields (h : event.Takes client part)
    (honly : OnlyLines client [event])
    (hline : ∀ id note, event = .turned id note → note.AnswersLine) :
    Client.Yields part (event.line? client).toList := by
  cases event with
  | turned id note =>
      by_cases hclient : note.client = client
      · rw [Event.Takes, if_pos hclient] at h
        rw [Event.line?, if_pos hclient]
        exact h.yields
          (fun size answer => honly id note size answer List.mem_cons_self hclient)
          (hline id note rfl)
      · rw [Event.Takes, if_neg hclient] at h
        rw [Event.line?, if_neg hclient]
        exact Client.yields_of_eq_nil h
  | wrote who bytes => exact Client.yields_of_eq_nil h
  | called id who task => exact Client.yields_of_eq_nil h
  | dropped id => exact Client.yields_of_eq_nil h

/-- What the reads of a client have taken holds the lines they returned. By
    induction on the events. -/
theorem Taken.yields (h : Taken client events taken) (honly : OnlyLines client events)
    (hline : ∀ id note, .turned id note ∈ events → note.AnswersLine) :
    Client.Yields taken (events.filterMap (Event.line? client)) := by
  induction h with
  | nil => exact Client.yields_nil
  | @snoc log event taken part h htakes ih =>
      have hlast : event ∈ log ++ [event] := List.mem_append_right _ List.mem_cons_self
      have hfront := ih
        (fun id note size answer hmem => honly id note size answer (List.mem_append_left _ hmem))
        (fun id note hmem => hline id note (List.mem_append_left _ hmem))
      -- The last event is one of the events, so what is known of all is known of it.
      have hmore : Client.Yields part (event.line? client).toList := by
        refine htakes.yields (fun id note size answer hmem => ?_) (fun id note heq => ?_)
        · exact honly id note size answer (List.mem_append_right _ hmem)
        · exact hline id note (heq ▸ hlast)
      rw [List.filterMap_append, List.filterMap_cons, List.filterMap_nil]
      cases hevent : event.line? client with
      | none =>
          rw [hevent] at hmore
          exact hfront.append hmore
      | some line =>
          rw [hevent] at hmore
          exact hfront.append hmore

/-- From any moment of a run on, and whatever else is done: what the client has
    buffered and what its polls are delivered of its device and its channel hold,
    in order, the lines that its reads return and then those that are still
    buffered. No read returns anything but a line that is not empty.

    Where no read has returned a line, because all have failed, run out of time or
    been dropped, nothing was removed from the buffer but line ends at its front.

    At the start of a session nothing is buffered, so from there on the lines are
    those of all that was heard. Only a read of a number of bytes that succeeds
    takes something else. -/
theorem lines_in_order (config : Link.Config) (before actions : List Action) (client : Nat)
    (c : Client) :
    let s := (start config).run before
    let s' := s.run actions
    s'.clients[client]? = some c →
      ∃ events, s'.log = s.log ++ events ∧
        let heard := events.flatMap (Event.accepted client c.destination c.config.channel)
        let returned := events.filterMap (Event.line? client)
        (∀ id note, .turned id note ∈ events → note.AnswersLine) ∧
        (OnlyLines client events →
          Client.lines (s.unread client ++ heard) = returned ++ Client.lines c.readBuffer ∧
          (returned = [] → ∃ blanks, blanks.all Client.endsLine = true ∧
            s.unread client ++ heard = blanks ++ c.readBuffer)) := by
  intro s s' hclient
  have hkept : Kept s := run_kept (kept_start config) before
  rcases (receives_refl client s).run hkept actions with ⟨events, taken, hlog, htakes, hbalance⟩
  have hnone : ∀ id note, .turned id note ∈ (start config).log → note.AnswersLine :=
    fun id note hmem => absurd hmem List.not_mem_nil
  have hnoted := run_noted (fun s id e => noted_answersLine) (kept_start config) hnone before
  -- What has happened since is in the log, and each turn in the log was one of a call.
  have hline : ∀ id note, .turned id note ∈ events → note.AnswersLine := by
    intro id note hmem
    refine run_noted (fun s id e => noted_answersLine) hkept hnoted actions id note ?_
    rw [hlog]
    exact List.mem_append_right _ hmem
  have hown := hbalance c.destination c.config.channel fun c' hc' => by
    rw [hclient, Option.some.injEq] at hc'
    rw [hc']
    exact ⟨rfl, rfl⟩
  rw [unread, unread, hclient] at hown
  refine ⟨events, hlog, hline, fun honly => ?_⟩
  -- The front that was taken holds the lines, whatever is still in the buffer behind it.
  have hyields := htakes.yields honly hline
  rw [unread, hown]
  exact ⟨hyields.lines_append c.readBuffer, fun hnone => ⟨taken, hyields.blank hnone, rfl⟩⟩

/-- A line comes in two frames, with line ends before and after it. A read that has
    no more than 40 milliseconds gets the first of them, and the next read returns
    the line. -/
theorem lines_in_order_line_in_two_parts :
    let first : List Action :=
      [.call 0 .readLine (some (.ofMillis 40))] ++ List.replicate 6 (.turn 0) ++
      [.outside 0 { arrivals := [
        (0, .data 0x54 [0xab, 5, 0, 7, 0x41, 1, 4, 0x0d, 0x0a, 0x61, 0x62, 0x62, 0xbc])] }] ++
      List.replicate 3 (.turn 0) ++ [.outside (.ofMillis 100) {}, .turn 0, .turn 0]
    let second : List Action :=
      [.call 0 .readLine none] ++ List.replicate 6 (.turn 1) ++
      [.outside 0 { arrivals := [
        (0, .data 0x54 [0xab, 5, 0, 7, 0x41, 1, 4, 0x63, 0x0a, 0x0a, 0x64, 0xfc, 0xf0])] }] ++
      List.replicate 3 (.turn 1) ++ [.outside (.ofMillis 300) {}, .turn 1]
    let s := ((start {}).run [.create 5 {}]).run first
    let s' := ((start {}).run ([.create 5 {}] ++ first)).run second
    let c : Client := { destination := 5, readBuffer := [0x61, 0x62] }
    let c' : Client := { destination := 5, readBuffer := [0x0a, 0x64] }
    s.clients[0]? = some c ∧ s'.clients[0]? = some c' ∧
      (∃ blanks, blanks.all Client.endsLine = true ∧
        [0x0d, 0x0a, 0x61, 0x62] = blanks ++ c.readBuffer) ∧
      Client.lines (c.readBuffer ++ [0x63, 0x0a, 0x0a, 0x64]) =
        [[0x61, 0x62, 0x63]] ++ Client.lines c'.readBuffer := by
  intro first second s s' c c'
  -- The events of a run are what its log is longer by, so what they say can be computed.
  have hbetween : ∀ (before actions : List Action) (c : Client) (buffered heard : List UInt8)
      (returned : List (List UInt8)),
      let s := (start {}).run before
      let s' := s.run actions
      let events := s'.log.drop s.log.length
      s'.clients[0]? = some c ∧ s.unread 0 = buffered ∧
        events.flatMap (Event.accepted 0 c.destination c.config.channel) = heard ∧
        events.filterMap (Event.line? 0) = returned ∧
        (events.all fun
          | .turned _ note => note.task = .readLine
          | _ => true) = true →
      s'.clients[0]? = some c ∧
        Client.lines (buffered ++ heard) = returned ++ Client.lines c.readBuffer ∧
        (returned = [] → ∃ blanks, blanks.all Client.endsLine = true ∧
          buffered ++ heard = blanks ++ c.readBuffer) := by
    rintro before actions c buffered heard returned s s' events
      ⟨hc, hbuffered, hheard, hreturned, hall⟩
    rcases lines_in_order {} before actions 0 c hc with ⟨events', hlog, -, hlines⟩
    have hevents : events' = events := by
      simp only [events, s', s, hlog, List.drop_left]
    have honly : OnlyLines 0 events := by
      intro id note size answer hmem _ htask
      have hline : note.task = .readLine := of_decide_eq_true (List.all_eq_true.mp hall _ hmem)
      rw [htask] at hline
      exact absurd hline nofun
    rw [hevents, hbuffered, hheard, hreturned] at hlines
    exact ⟨hc, hlines honly⟩
  -- The first call times out with half a line, which the second one finds buffered.
  have hfirst := hbetween [.create 5 {}] first c [] [0x0d, 0x0a, 0x61, 0x62] []
    (by decide +kernel)
  have hsecond := hbetween ([.create 5 {}] ++ first) second c' [0x61, 0x62]
    [0x63, 0x0a, 0x0a, 0x64] [[0x61, 0x62, 0x63]] (by decide +kernel)
  exact ⟨hfirst.1, hsecond.1, hfirst.2.2 rfl, hsecond.2.1⟩

end Session

end Multidrop
