import StreamMux.Proofs.Session.Aftermath

/-!
# What reads and writes are answered after teardown

Whoever holds a stream when the session is torn down reads what waits, chunk after chunk, and then
finds out why there is no more.  A severed stream says that the connection is gone.  Teardown only
severs the streams that are current, though: one that has left before says for ever how it ended.

* `Mux.answersTo` — what the reads through a handle are answered;
* `Mux.LeftEarly` — a stream left while the session was not torn down;
* `Mux.answered_run` — after teardown all reads are answered from the queue as it was, then by a
  fault of the connection exactly if the stream did not leave early; all writes are refused.
-/

namespace StreamMux

namespace Stream

/-- What a reader of a stream that is over is told when nothing waits any more. -/
def verdict (stream : Stream) : Reading :=
  if stream.severed then .fault .closed
  else if stream.state = .reset then .fault (.streamReset stream.id)
  else .over

/-- What the reads of a stream that is over are answered, one after the other. -/
def answer (stream : Stream) (n : Nat) : Reading :=
  match stream.queue[n]? with
  | some chunk => .chunk chunk
  | none => stream.verdict

theorem verdict_eq_closed_iff {stream : Stream} :
    stream.verdict = .fault .closed ↔ stream.severed = true := by
  unfold verdict
  split
  · rename_i hsevered
    exact iff_of_true rfl hsevered
  · rename_i hsevered
    refine iff_of_false ?_ hsevered
    split <;> simp [Fault.closed]

theorem answer_drop (stream : Stream) (count n : Nat) :
    { stream with queue := stream.queue.drop count }.answer n = stream.answer (count + n) := by
  unfold answer
  simp only [List.getElem?_drop]
  rfl

/-- What the first answer takes out of the queue leaves the rest. -/
theorem eq_tail_of_answer {stream : Stream} {queue : List Bytes}
    (h : stream.queue = (stream.answer 0).chunks ++ queue) : queue = stream.queue.tail := by
  rcases hwaits : stream.queue with _ | ⟨chunk, rest⟩
  · rw [hwaits] at h
    exact (List.append_eq_nil_iff.mp h.symm).2
  · simp only [answer, hwaits, List.getElem?_cons_zero] at h
    exact (List.cons.inj h).2.symm

end Stream

namespace Ledger

variable {l l' : Ledger}

/-! ### Only teardown severs -/

/-- Before teardown no stream is severed. -/
def Unsevered (l : Ledger) : Prop :=
  l.tornDown = false → ∀ serial < l.size, (l.stream serial).severed = false

theorem Unsevered.of_begins {stream : Stream} (h : l.Unsevered) (b : l.Begins stream l')
    (hsevered : stream.severed = false) : l'.Unsevered := by
  intro hup serial hlt
  rcases b.cases_of_lt hlt with ⟨hbefore, heq⟩ | ⟨-, heq⟩ <;> rw [heq]
  · exact h (b.torn.symm.trans hup) serial hbefore
  · exact hsevered

theorem Unsevered.put (h : l.Unsevered) {serial : Nat} {stream : Stream}
    (hsevered : stream.severed = (l.stream serial).severed) : (l.put serial stream).Unsevered := by
  intro hup other hlt
  rw [size_put] at hlt
  rcases l.stream_put serial stream other with ⟨rfl, heq⟩ | heq <;> rw [heq]
  · exact hsevered.trans (h hup other hlt)
  · exact h hup other hlt

theorem Unsevered.sweep (h : l.Unsevered) (id : UInt64) : (l.sweep id).Unsevered := by
  intro hup serial hlt
  rw [stream_sweep]
  exact h hup serial (size_sweep l id ▸ hlt)

theorem unsevered_tear (l : Ledger) : l.tear.Unsevered := fun hup => by cases hup

theorem Unsevered.move (h : l.Unsevered) (hmove : Move l l') : l'.Unsevered := by
  cases hmove with
  | @opened id ids label up draw =>
    have hregister := h.of_begins (begins_register l id ids) rfl
    exact hregister
  | openTorn up draw => exact unsevered_tear _
  | tear => exact unsevered_tear l
  | @finish serial ending live =>
    have hfinish : (l.finish serial ending).Unsevered := h.put rfl
    exact hfinish.sweep _
  | finishTorn ending live => exact unsevered_tear _
  | overflow serial => exact h
  | push chunk live room => exact h.put rfl
  | pop front => exact h.put rfl
  | sweep id => exact h.sweep id
  | welcome up new foreign fits =>
    exact h.of_begins (begins_welcome l _) rfl
  | accept pending current => exact h
  | misstart pending current =>
    intro hup serial hlt
    rw [stream_misstart]
    exact h (tornDown_misstart l _ _ ▸ hup) serial (size_misstart l _ _ ▸ hlt)

theorem Unsevered.moves (h : l.Unsevered) (hmoves : Moves l l') : l'.Unsevered := by
  induction hmoves with
  | refl => exact h
  | tail _ hmove ih => exact ih.move hmove

theorem Unsevered.drop (h : l.Unsevered) (place : Nat) (handle : Handle) :
    (l.drop place handle).Unsevered := by
  unfold Ledger.drop
  simp only
  split <;> exact h

/-- With one entry for a number, the current streams are those that are found. -/
theorem mem_current_iff (single : l.Single) {serial : Nat} :
    serial ∈ l.registry.current ↔ ∃ id, l.find? id = some serial := by
  rw [Registry.current, List.mem_map]
  constructor
  · rintro ⟨⟨id, found⟩, hmem, rfl⟩
    exact ⟨id, Registry.find?_of_mem single hmem⟩
  · rintro ⟨id, hfind⟩
    exact ⟨_, Registry.mem_entries_of_find? hfind, rfl⟩

end Ledger

namespace Mux

variable {m m' : Mux} {side : Side} {settings : Settings} {ops : List Op}

theorem unsevered_run (side : Side) (settings : Settings) (ops : List Op) :
    (run side settings ops).ledger.Unsevered :=
  ledger_run (fun _ serial hlt => absurd hlt (Nat.not_lt_zero serial)) (fun h => h.move)
    (fun h _ => h.drop _ _) ops

/-! ### Reads and writes of a session that is torn down -/

theorem read_of_isOver {serial : Nat} (h : (m.registry.stream serial).isOver = true) :
    (m.read serial).2 = (m.registry.stream serial).answer 0 := by
  unfold read Stream.pop Stream.answer Stream.verdict
  rcases (m.registry.stream serial).queue with _ | ⟨chunk, queue⟩
  · simp [h]
  · rfl

section Torn

variable (sound : m.ledger.Sound) (torn : m.tornDown = true) {place : Nat} {handle : Handle}
  (hplace : m.handles[place]? = some handle) (hlive : handle.live = true)

include torn hplace hlive

theorem perform_write_of_torn (payload : Payload) :
    m.perform (.write place payload) = (m, .size (.error .closed)) := by
  obtain ⟨serial, label, live⟩ := handle
  cases hlive
  simp [perform, withHandle, hplace, write_of_torn torn]

include sound

/-- A read is answered from the queue, and takes the chunk that it is given. -/
theorem perform_read_of_torn :
    (m.perform (.read place)).2 = .reading ((m.registry.stream handle.serial).answer 0) ∧
      (m.perform (.read place)).1.registry.stream handle.serial =
        { m.registry.stream handle.serial with
          queue := (m.registry.stream handle.serial).queue.tail } := by
  have hover : (m.registry.stream handle.serial).isOver = true :=
    sound.isOver_of_torn torn handle.serial
  have hread := read_of_isOver hover
  have htaken := m.queue_read handle.serial handle.serial
  have hrests := (rests_read sound torn handle.serial).stream handle.serial
  rw [if_pos rfl, hread] at htaken
  rw [perform_read hplace hlive]
  refine ⟨congrArg Answer.reading hread, ?_⟩
  have hqueue : ((m.read handle.serial).1.registry.stream handle.serial).queue =
      (m.registry.stream handle.serial).queue.tail := Stream.eq_tail_of_answer htaken
  rw [hrests, hqueue]

omit hlive in
theorem stream_perform_of_torn {op : Op} (hop : op ≠ .read place) :
    (m.perform op).1.registry.stream handle.serial = m.registry.stream handle.serial := by
  have hnotRead : m.readFrom? op ≠ some handle.serial := by
    intro hread
    cases op with
    | read other =>
      obtain ⟨found, hfound, hserial⟩ := Option.map_eq_some_iff.mp hread
      obtain rfl := sound.place_inj hfound hplace hserial
      exact hop rfl
    | readById id => cases (find?_of_torn sound torn id).symm.trans hread
    | _ => cases hread
  have hqueue := m.queue_perform op handle.serial
  rw [takesIn_of_torn torn, takesOut_of_ne hnotRead, List.append_nil, List.nil_append] at hqueue
  rw [(rests_perform sound torn op).stream, ← hqueue]

end Torn

/-! ### All reads after teardown -/

/-- What an operation is answered if it is a read through a handle. -/
def answerTo? (m : Mux) (place : Nat) (op : Op) : Option Answer :=
  match op with
  | .read other => if other = place then some (m.perform (.read other)).2 else none
  | _ => none

/-- What the reads through a handle are answered meanwhile, oldest answer first. -/
def answersTo (m : Mux) (place : Nat) (ops : List Op) : List Answer :=
  (m.trail ops).filterMap fun step => step.1.answerTo? place step.2

theorem answersTo_cons (m : Mux) (place : Nat) (op : Op) (ops : List Op) :
    m.answersTo place (op :: ops) =
      (m.answerTo? place op).toList ++ (m.perform op).1.answersTo place ops := by
  rw [answersTo, trail, List.filterMap_cons]
  rcases m.answerTo? place op with _ | answer <;> rfl

theorem answerTo?_of_ne {place : Nat} {op : Op} (h : op ≠ .read place) :
    m.answerTo? place op = none := by
  unfold answerTo?
  split
  · rename_i other
    exact if_neg fun heq => h (congrArg Op.read heq)
  · rfl

/-- The reads after teardown are answered from the queue as it was then. -/
theorem answersTo_of_torn (sound : m.ledger.Sound) (torn : m.tornDown = true) {place : Nat}
    {handle : Handle} (hplace : m.handles[place]? = some handle) (hlive : handle.live = true)
    {ops : List Op} (hkept : .drop place ∉ ops) {n : Nat} {answer : Answer}
    (hanswer : (m.answersTo place ops)[n]? = some answer) :
    answer = .reading ((m.registry.stream handle.serial).answer n) := by
  induction ops generalizing m n with
  | nil => cases hanswer
  | cons op ops ih =>
    rw [List.mem_cons, not_or] at hkept
    have hstep := step sound op
    have hsound := hstep.sound sound
    have htorn := (rests_perform sound torn op).torn
    have hhandle := hstep.getElem?_kept hplace fun _ => Ne.symm hkept.1
    rw [answersTo_cons] at hanswer
    by_cases hop : op = .read place
    · subst hop
      obtain ⟨hread, hstream⟩ := perform_read_of_torn sound torn hplace hlive
      rw [answerTo?, if_pos rfl, hread] at hanswer
      cases n with
      | zero => exact (Option.some.inj hanswer).symm
      | succ n =>
        rw [ih hsound htorn hhandle hkept.2 hanswer, hstream, ← List.drop_one,
          Stream.answer_drop, Nat.add_comm]
    · rw [answerTo?_of_ne hop] at hanswer
      rw [ih hsound htorn hhandle hkept.2 hanswer, stream_perform_of_torn sound torn hplace hop]

/-! ### Streams that left before teardown -/

/-- A stream was there and no longer current while the session was not torn down. -/
def LeftEarly (side : Side) (settings : Settings) (ops : List Op) (serial : Nat) : Prop :=
  ∃ before, before <+: ops ∧ (run side settings before).tornDown = false ∧
    serial < (run side settings before).registry.streams.length ∧
    serial ∉ (run side settings before).registry.current

/-- A stream that left does not come back. -/
theorem not_current_after {before : List Op} (after : List Op) {serial : Nat}
    (hlt : serial < (run side settings before).registry.streams.length)
    (hgone : serial ∉ (run side settings before).registry.current) :
    serial < (run side settings (before ++ after)).registry.streams.length ∧
      serial ∉ (run side settings (before ++ after)).registry.current := by
  refine ⟨(kept_after before after 0 hlt).1, fun hmem => hgone ?_⟩
  obtain ⟨id, hfind⟩ :=
    (Ledger.mem_current_iff (single_run side settings (before ++ after))).mp hmem
  exact (Ledger.mem_current_iff (single_run side settings before)).mpr
    ⟨id, (kept_after before after id hlt).2.2 hfind⟩

theorem tornDown_runFrom (sound : m.ledger.Sound) (torn : m.tornDown = true) (ops : List Op) :
    (m.runFrom ops).tornDown = true := (rests_runFrom sound torn ops).torn

/-- What came before teardown came before the operation that did it. -/
theorem prefix_of_up {before after early : List Op} {op : Op}
    (htorn : (run side settings (before ++ [op])).tornDown = true)
    (hinitial : early <+: before ++ op :: after)
    (hup : (run side settings early).tornDown = false) : early <+: before := by
  have hnot : ¬ before ++ [op] <+: early := by
    rintro ⟨rest, rfl⟩
    rw [run_append, tornDown_runFrom (sound_run ..) htorn] at hup
    cases hup
  have hfirst : before ++ [op] <+: before ++ op :: after := ⟨after, by simp⟩
  rcases List.prefix_or_prefix_of_prefix hinitial hfirst with h | h
  · rcases List.prefix_concat_iff.mp h with rfl | h
    · exact absurd List.prefix_rfl hnot
    · exact h
  · exact absurd h hnot

/-- After teardown exactly the streams that did not leave early are severed. -/
theorem severed_iff_not_leftEarly (h : (run side settings ops).tornDown = true) {serial : Nat}
    (hlt : serial < (run side settings ops).registry.streams.length) :
    ((run side settings ops).registry.stream serial).severed = true ↔
      ¬ LeftEarly side settings ops serial := by
  obtain ⟨before, op, after, rfl, hup, htorn⟩ := exists_teardown h
  obtain ⟨moment, hmoment⟩ := tornDownBy after hup htorn
  have hsize : serial < moment.size := by
    rw [hmoment.rests.size] at hlt
    exact hmoment.severs.size ▸ hlt
  have hcurrent : serial ∈ moment.registry.current ↔ _ := hmoment.gathers.current
  by_cases hmem : serial ∈ moment.registry.current
  · -- it was severed, and left at no time before
    refine iff_of_true (hmoment.streams serial hmem).severed ?_
    rintro ⟨early, hinitial, hopen, hearly, hgone⟩
    obtain ⟨middle, rfl⟩ := prefix_of_up htorn hinitial hopen
    obtain ⟨hthere, hnot⟩ := not_current_after middle hearly hgone
    rcases hcurrent.mp hmem with hbefore | ⟨hge, -⟩
    · exact hnot hbefore
    · exact absurd hthere (Nat.not_lt.mpr hge)
  · -- it was left alone, and was gone before the operation
    obtain ⟨hnot, hge⟩ := not_or.mp (fun h => hmem (hcurrent.mpr h))
    have hthere : serial < (run side settings before).ledger.size := by
      by_contra hnew
      exact hge ⟨Nat.le_of_not_lt hnew, hsize⟩
    refine iff_of_false ?_ fun hearly => hearly ⟨before, ⟨_, rfl⟩, hup, hthere, hnot⟩
    rw [hmoment.rests.stream serial]
    change ¬ ((run side settings (before ++ [op])).ledger.stream serial).severed = true
    rw [hmoment.severs.others hmem, hmoment.gathers.severed hthere,
      unsevered_run side settings before hup serial hthere]
    simp

/-! ### The law of reads and writes after teardown -/

/-- What is answered through a handle that is held after teardown. -/
structure Answered (side : Side) (settings : Settings) (ops : List Op) (place serial : Nat) : Prop
    where
  /-- Reads give what waits, chunk after chunk, and then all the same verdict. -/
  reads : ∀ {after : List Op} {n : Nat} {answer : Answer}, .drop place ∉ after →
    ((run side settings ops).answersTo place after)[n]? = some answer →
      answer = .reading (((run side settings ops).registry.stream serial).answer n)
  /-- The verdict is that the connection is gone, unless the stream had left before. -/
  verdict : ((run side settings ops).registry.stream serial).verdict = .fault .closed ↔
    ¬ LeftEarly side settings ops serial
  /-- Writes are refused, and do nothing. -/
  writes : ∀ {after : List Op}, .drop place ∉ after → ∀ payload,
    (run side settings (ops ++ after)).perform (.write place payload) =
      (run side settings (ops ++ after), .size (.error .closed))

theorem getElem?_runFrom (sound : m.ledger.Sound) {place : Nat} {handle : Handle}
    (hplace : m.handles[place]? = some handle) {ops : List Op} (hkept : .drop place ∉ ops) :
    (m.runFrom ops).handles[place]? = some handle := by
  induction ops generalizing m with
  | nil => exact hplace
  | cons op ops ih =>
    rw [List.mem_cons, not_or] at hkept
    have hstep := step sound op
    exact ih (hstep.sound sound) (hstep.getElem?_kept hplace fun _ => Ne.symm hkept.1) hkept.2

/-- **Who is told that the connection is gone.**  In every run that ends torn down and through every
handle that is held then, reads give the chunks that wait, in order, and from then on one verdict;
the verdict is that the connection is gone exactly if the stream did not leave while the session was
not torn down.  Every write is refused because the connection is gone, and does nothing. -/
theorem answered_run (h : (run side settings ops).tornDown = true) {place : Nat} {handle : Handle}
    (hplace : (run side settings ops).handles[place]? = some handle) (hlive : handle.live = true) :
    Answered side settings ops place handle.serial where
  reads hkept hanswer :=
    answersTo_of_torn (sound_run side settings ops) h hplace hlive hkept hanswer
  verdict := by
    rw [Stream.verdict_eq_closed_iff]
    exact severed_iff_not_leftEarly h
      ((sound_run side settings ops).held_lt (List.mem_of_getElem? hplace))
  writes {after} hkept payload := by
    have hsound := sound_run side settings ops
    rw [run_append]
    exact perform_write_of_torn (tornDown_runFrom hsound h after)
      (getElem?_runFrom hsound hplace hkept) hlive payload

/-- The peer opens a stream and closes it, and then the session is closed.  The stream had left, and
its reader learns of an orderly end only. -/
theorem answered_over_after_early_end :
    ((run .listener .usual [.arrive [0, 0, 4, 0], .turn, .turn, .turn, .turn,
      .close]).registry.stream 0).verdict = .over ∧
    Answered .listener .usual [.arrive [0, 0, 4, 0], .turn, .turn, .turn, .turn, .close] 0 0 ∧
    LeftEarly .listener .usual [.arrive [0, 0, 4, 0], .turn, .turn, .turn, .turn, .close] 0 := by
  have hover : ((run .listener .usual [.arrive [0, 0, 4, 0], .turn, .turn, .turn, .turn,
      .close]).registry.stream 0).verdict = .over := by decide +kernel
  have hplace : (run .listener .usual [.arrive [0, 0, 4, 0], .turn, .turn, .turn, .turn,
      .close]).handles[0]? = some ⟨0, none, true⟩ := by decide +kernel
  have hanswered := answered_run (by decide +kernel) hplace rfl
  refine ⟨hover, hanswered, ?_⟩
  by_contra hleft
  cases hover.symm.trans (hanswered.verdict.mpr hleft)

end Mux

end StreamMux
