import Multidrop.Proofs.Call.Effects
import Multidrop.Proofs.Client.Line

/-!
# Stream Bytes from a Device

What a turn does to the buffer that holds what a device has sent. A poll puts
behind it what it keeps of a frame, and a read takes from its front what it
answers with. A line that is read takes its end along, and the line ends
before it; those go even where there is no line yet.

Nothing else touches the buffer. A call that fails, runs out of time or waits
leaves it as it is, with what came before in it.

## Main definitions

* `Task.Takes`: What a turn of a task takes from the buffer.
* `Task.line?`: The line that a task has ended with.

## Theorems

* `buffered_some`, `buffered_none`: What answering from the buffer takes.
* `Goes.reads`: What a turn does to the buffer.
* `Goes.answers_line`: A read of a line ends with one that is not empty.
* `Task.Takes.yields`: What a read of a line takes holds that line.
* `heard_source`: A poll hears nobody but its device.
-/

namespace Multidrop

/-- What a turn of a task takes from the front of the buffer, given how it has
    ended, if it has. A read takes the bytes it asks for. A line comes with its
    end, and behind line ends; without a line, only such ends are taken. -/
def Task.Takes (part : List UInt8) : Task → Option Call.Result → Prop
  | .read size, some (.ok answer) => answer = .bytes part ∧ part.length = size
  | .readLine, some (.ok answer) =>
      ∃ blanks line last, answer = .bytes line ∧ part = blanks ++ (line ++ [last]) ∧
        blanks.all Client.endsLine = true ∧ line.all (!Client.endsLine ·) = true ∧
        Client.endsLine last = true
  | .readLine, _ => part.all Client.endsLine = true
  | _, _ => part = []

/-- The line that a task has ended with, if it was to read one. -/
def Task.line? : Task → Option Call.Result → Option (List UInt8)
  | .readLine, some (.ok (.bytes line)) => some line
  | _, _ => none

/-- What a task has taken holds the line it has ended with and nothing else, if
    it was not to read a number of bytes. -/
theorem Task.Takes.yields {task : Task} {part : List UInt8} {result : Option Call.Result}
    (h : task.Takes part result)
    (hsize : ∀ size answer, task = .read size → result ≠ some (.ok answer))
    (hline : ∀ answer, task = .readLine → result = some (.ok answer) →
      ∃ line, answer = .bytes line ∧ line ≠ []) :
    Client.Yields part (task.line? result).toList := by
  cases task with
  | read size =>
      rcases result with _ | e | answer
      · exact Client.yields_of_eq_nil h
      · exact Client.yields_of_eq_nil h
      · -- Bytes asked for by number are no lines, which the hypothesis excludes.
        exact absurd rfl (hsize size answer rfl)
  | readLine =>
      rcases result with _ | e | answer
      · exact Client.yields_blanks h
      · exact Client.yields_blanks h
      · rcases h with ⟨blanks, line, last, hanswer, hpart, hblanks, hends, hlast⟩
        rcases hline answer rfl rfl with ⟨line', hanswer', hne⟩
        rw [hanswer, Answer.bytes.injEq] at hanswer'
        rw [hanswer, hpart]
        exact (Client.yields_blanks hblanks).append
          (Client.yields_line hends (hanswer' ▸ hne) hlast)
  -- The other tasks take nothing out of the read buffer.
  | flush => exact Client.yields_of_eq_nil h
  | receive source => exact Client.yields_of_eq_nil h
  | drain => exact Client.yields_of_eq_nil h
  | poll => exact Client.yields_of_eq_nil h
  | query request => exact Client.yields_of_eq_nil h
  | write request => exact Client.yields_of_eq_nil h
  | refuse cause => exact Client.yields_of_eq_nil h

namespace Call

variable {id : Nat} {c : Call} {bus : Bus} {move : Move}

/-- A read that answers from the buffer takes what it answers with. -/
theorem buffered_some {answer : Answer} (h : c.buffered.1 = some answer) :
    ∃ part, c.task.Takes part (some (.ok answer)) ∧
      c.client.readBuffer = part ++ c.buffered.2.readBuffer := by
  rcases c with ⟨task, client, started, limit, stage⟩
  cases task with
  | read size =>
      simp only [buffered] at h ⊢
      by_cases hsize : size ≤ client.readBuffer.length
      · rw [if_pos hsize, Option.some.injEq] at h
        rw [if_pos hsize]
        refine ⟨client.readBuffer.take size, ⟨h.symm, ?_⟩, (List.take_append_drop _ _).symm⟩
        rw [List.length_take]
        omega
      · simp only [if_neg hsize, reduceCtorEq] at h
  | readLine =>
      simp only [buffered, Option.map_eq_some_iff] at h ⊢
      rcases h with ⟨line, hline, hanswer⟩
      rcases Client.takeLine_some (Prod.ext hline rfl) with ⟨blanks, last, hbuffer, hends⟩
      exact ⟨_, ⟨blanks, line, last, hanswer.symm, rfl, hends⟩, hbuffer⟩
  -- Only a read can be answered out of the buffer.
  | flush => simp only [buffered, reduceCtorEq] at h
  | receive source => simp only [buffered, reduceCtorEq] at h
  | drain => simp only [buffered, reduceCtorEq] at h
  | poll => simp only [buffered, reduceCtorEq] at h
  | query request => simp only [buffered, reduceCtorEq] at h
  | write request => simp only [buffered, reduceCtorEq] at h
  | refuse cause => simp only [buffered, reduceCtorEq] at h

/-- A read that does not takes line ends at most. -/
theorem buffered_none (h : c.buffered.1 = none) :
    ∃ part, c.task.Takes part none ∧ c.client.readBuffer = part ++ c.buffered.2.readBuffer := by
  rcases c with ⟨task, client, started, limit, stage⟩
  cases task with
  | read size =>
      simp only [buffered] at h ⊢
      by_cases hsize : size ≤ client.readBuffer.length
      · simp only [if_pos hsize, reduceCtorEq] at h
      · rw [if_neg hsize]
        exact ⟨[], rfl, rfl⟩
  | readLine =>
      simp only [buffered, Option.map_eq_none_iff] at h ⊢
      rcases Client.takeLine_none (Prod.ext h rfl) with ⟨blanks, hbuffer, hends⟩
      exact ⟨blanks, hends, hbuffer⟩
  -- Only a read looks into the buffer at all.
  | flush => exact ⟨[], rfl, rfl⟩
  | receive source => exact ⟨[], rfl, rfl⟩
  | drain => exact ⟨[], rfl, rfl⟩
  | poll => exact ⟨[], rfl, rfl⟩
  | query request => exact ⟨[], rfl, rfl⟩
  | write request => exact ⟨[], rfl, rfl⟩
  | refuse cause => exact ⟨[], rfl, rfl⟩

/-- Nothing is taken at a turn at which a read goes on or fails. -/
theorem takes_nil {task : Task} {result : Option Result}
    (h : task.isRead = true → result = none ∨ ∃ e, result = some (.error e)) :
    task.Takes [] result := by
  cases task with
  | read size =>
      rcases h rfl with hresult | ⟨e, hresult⟩
      · rw [hresult]
        rfl
      · rw [hresult]
        rfl
  | readLine =>
      rcases h rfl with hresult | ⟨e, hresult⟩
      · rw [hresult]
        rfl
      · rw [hresult]
        rfl
  -- The other tasks take nothing, whatever they end with.
  | flush => rfl
  | receive source => rfl
  | drain => rfl
  | poll => rfl
  | query request => rfl
  | write request => rfl
  | refuse cause => rfl

theorem heard_of_stage {stage : Stage} (hstage : c.stage = stage)
    (hne : ∀ deadline early taken reception, stage ≠ .receiving deadline early taken reception) :
    c.heard bus = none := by
  unfold heard
  split
  · rename_i deadline early taken reception hreceiving
    exact absurd (hstage.symm.trans hreceiving) (hne _ _ _ _)
  · rfl

theorem Waits.heard {bus' : Bus} (h : Waits id c bus bus') : c.heard bus = none := by
  cases h with
  | inLine hqueued hholder => exact heard_of_stage hqueued fun _ _ _ _ => Stage.noConfusion
  | sending hsending hgoes => exact heard_of_stage hsending fun _ _ _ _ => Stage.noConfusion
  | receiving hreceiving hheard hstill => exact hheard
  | pausing hpausing => exact heard_of_stage hpausing fun _ _ _ _ => Stage.noConfusion

theorem Settles.reads {data : List UInt8} (h : c.Settles bus data move) :
    ∃ part, c.task.Takes part (ended move.1) ∧
      c.client.readBuffer ++ data = part ++ (c.clientAfter move.1).readBuffer := by
  cases h with
  | listen => exact ⟨[], takes_nil fun _ => Or.inl rfl, rfl⟩
  | finish hread =>
      refine ⟨[], takes_nil fun htask => Or.inr ?_, List.append_nil _⟩
      rcases hread htask with ⟨e, hresult⟩
      exact ⟨e, by rw [hresult]; rfl⟩
  | answer hsome =>
      rw [List.append_nil]
      exact buffered_some hsome
  | pause hnone =>
      rw [List.append_nil]
      exact buffered_none hnone

/-- A turn puts behind the buffer what it keeps of what it hears, and takes
    from its front what its task says. -/
theorem Goes.reads (h : Goes id c bus move) :
    ∃ part, c.task.Takes part (ended move.1) ∧
      c.client.readBuffer ++ c.kept (c.heard bus) = part ++ (c.clientAfter move.1).readBuffer := by
  -- At most stages nothing is heard, and the buffer can only lose at its front.
  have hnothing : c.heard bus = none → c.client.readBuffer ++ c.kept (c.heard bus) =
      c.client.readBuffer := by
    intro hheard
    rw [hheard]
    exact List.append_nil _
  cases h with
  | refuse hfresh =>
      rw [hnothing (heard_of_stage hfresh fun _ _ _ _ => Stage.noConfusion)]
      exact ⟨[], takes_nil fun _ => Or.inr ⟨_, rfl⟩, rfl⟩
  -- The buffer is enough for the read, so its front goes to the caller.
  | answer hfresh hsome =>
      rw [hnothing (heard_of_stage hfresh fun _ _ _ _ => Stage.noConfusion)]
      exact buffered_some hsome
  -- Not enough for a line yet, but blank lines in front are gone already.
  | ask hfresh hnone =>
      rw [hnothing (heard_of_stage hfresh fun _ _ _ _ => Stage.noConfusion)]
      exact buffered_none hnone
  | enter hqueued hholder hfits =>
      rw [hnothing (heard_of_stage hqueued fun _ _ _ _ => Stage.noConfusion)]
      refine ⟨[], takes_nil fun _ => Or.inl rfl, ?_⟩
      simp only [clientAfter]
      rw [relieve_eq, List.nil_append]
  | reject hqueued hholder hnone =>
      rw [hnothing (heard_of_stage hqueued fun _ _ _ _ => Stage.noConfusion)]
      exact ⟨[], takes_nil fun _ => Or.inr ⟨_, rfl⟩, rfl⟩
  | send hsending hgoes =>
      rw [hnothing (heard_of_stage hsending fun _ _ _ _ => Stage.noConfusion)]
      exact ⟨[], takes_nil fun _ => Or.inl rfl, rfl⟩
  | unsent hsending hgoes =>
      rw [hnothing (heard_of_stage hsending fun _ _ _ _ => Stage.noConfusion)]
      exact ⟨[], takes_nil fun _ => Or.inr ⟨_, rfl⟩, rfl⟩
  -- A read always listens after it has sent, so this call is none.
  | sent hsending hgoes hread =>
      rw [hnothing (heard_of_stage hsending fun _ _ _ _ => Stage.noConfusion)]
      refine ⟨[], takes_nil fun htask => ?_, rfl⟩
      rw [hread] at htask
      exact absurd htask Bool.false_ne_true
  | listen hsending hgoes hreceives =>
      rw [hnothing (heard_of_stage hsending fun _ _ _ _ => Stage.noConfusion)]
      exact ⟨[], takes_nil fun _ => Or.inl rfl, rfl⟩
  | receive hreceiving hheard hstill =>
      rw [hnothing hheard]
      exact ⟨[], takes_nil fun _ => Or.inl rfl, rfl⟩
  | settle hreceiving hstill hsettles => exact hsettles.reads
  | wake hpausing =>
      rw [hnothing (heard_of_stage hpausing fun _ _ _ _ => Stage.noConfusion)]
      exact ⟨[], takes_nil fun _ => Or.inl rfl, rfl⟩
  | wait hwaits =>
      rw [hnothing hwaits.heard]
      exact ⟨[], takes_nil fun _ => Or.inl rfl, rfl⟩
  | expire hwaits =>
      rw [hnothing hwaits.heard]
      exact ⟨[], takes_nil fun _ => Or.inr ⟨_, rfl⟩, rfl⟩

/-- A line that is answered from the buffer is not empty. -/
theorem buffered_line {answer : Answer} (htask : c.task = .readLine)
    (h : c.buffered.1 = some answer) : ∃ line, answer = .bytes line ∧ line ≠ [] := by
  rw [buffered, htask] at h
  rcases Option.map_eq_some_iff.mp h with ⟨line, hline, hanswer⟩
  exact ⟨line, hanswer.symm, Client.takeLine_ne_nil (Prod.ext hline rfl)⟩

/-- A read of a line that does not fail ends with a line that is not empty. -/
theorem Goes.answers_line {answer : Answer} (h : Goes id c bus move) (htask : c.task = .readLine)
    (hended : ended move.1 = some (.ok answer)) : ∃ line, answer = .bytes line ∧ line ≠ [] := by
  have hread : c.task.isRead = true := by
    rw [htask]
    rfl
  -- A line comes out of the buffer or not at all, and empty lines never leave it.
  have hanswer : ∀ {other : Answer}, c.buffered.1 = some other →
      (some (.ok other) : Option Result) = some (.ok answer) →
        ∃ line, answer = .bytes line ∧ line ≠ [] := by
    intro other hbuffered hsame
    rw [Option.some.injEq, Except.ok.injEq] at hsame
    exact buffered_line htask (hsame ▸ hbuffered)
  cases h with
  | refuse hfresh => exact absurd hended nofun
  | answer hfresh hbuffered => exact hanswer hbuffered hended
  | ask hfresh hbuffered => exact absurd hended nofun
  | enter hqueued hholder hfits => exact absurd hended nofun
  | reject hqueued hholder hnone => exact absurd hended nofun
  | send hsending hgoes => exact absurd hended nofun
  | unsent hsending hgoes => exact absurd hended nofun
  | sent hsending hgoes hnever => exact absurd (hread.symm.trans hnever) nofun
  | listen hsending hgoes hreceives => exact absurd hended nofun
  | receive hreceiving hheard hstill => exact absurd hended nofun
  | settle hreceiving hstill hsettles =>
      generalize c.kept (c.heard bus) = data at hsettles
      cases hsettles with
      | listen => exact absurd hended nofun
      | finish hfails =>
          rcases hfails hread with ⟨e, hresult⟩
          rw [hresult] at hended
          exact absurd hended nofun
      | answer hbuffered => exact hanswer hbuffered hended
      | pause hbuffered => exact absurd hended nofun
  | wake hpausing => exact absurd hended nofun
  | wait hwaits => exact absurd hended nofun
  | expire hwaits => exact absurd hended nofun

/-- A poll hears nobody but its device. -/
theorem heard_source (hpolls : c.task.polls = true) {f : Frame.Received}
    (h : c.heard bus = some (.ok (some f))) : f.source = c.client.destination := by
  -- Only a call that takes what comes, which does not poll, hears others.
  have hfrom : c.onlyFrom = some c.client.destination := by
    unfold onlyFrom
    split
    · rename_i source htask
      rw [htask] at hpolls
      exact absurd hpolls Bool.false_ne_true
    · rfl
  unfold heard at h
  split at h
  · rename_i deadline early taken reception hstage
    split at h
    · rename_i result hover
      rw [Option.some.injEq] at h
      rw [h] at hover
      exact Reception.step_source (Prod.ext hover rfl) _ hfrom
    · simp only [reduceCtorEq] at h
  · simp only [reduceCtorEq] at h

end Call

end Multidrop
