import StreamMux.Proofs.Session.Verdict

/-!
# The last word on a stream

A reader that comes to the end of a stream is told why there is no more, and is told the same ever
after.  Teardown would change it, since it severs whatever is current; but whoever is told the end
takes the stream out of the entries with it.

* `Ledger.Spent` — a stream that is over, was read to its end and has left;
* `Ledger.Spent.step` — no operation changes such a stream;
* `Mux.final_run` — once a read through a handle told the end, all later ones tell the same.
-/

namespace StreamMux

/-! ### The end of a stream -/

/-- Whether a reading tells the end of the stream. -/
def Reading.isLast : Reading → Bool
  | .chunk _ | .blocked => false
  | .over | .fault _ => true

/-- What a stream that ended tells its readers. -/
inductive Stream.Tells (stream : Stream) : Reading → Prop where
  | over (up : stream.severed = false) (closed : stream.state = .closed) : Tells stream .over
  | reset (up : stream.severed = false) (reset : stream.state = .reset) :
      Tells stream (.fault (.streamReset stream.id))
  | gone (severed : stream.severed = true) : Tells stream (.fault .closed)

theorem Stream.tells_verdict {stream : Stream} (h : stream.isOver = true) :
    stream.Tells stream.verdict := by
  unfold verdict
  by_cases hsevered : stream.severed = true
  · rw [if_pos hsevered]
    exact .gone hsevered
  · have hup : stream.severed = false := by simpa using hsevered
    rw [if_neg hsevered]
    rcases hstate : stream.state with _ | _ | _
    · rw [isOver, hstate] at h
      cases h
    · exact .over hup hstate
    · exact .reset hup hstate

/-- A stream that has nothing waiting tells its end, whatever it is asked. -/
theorem Stream.answer_of_drained {stream : Stream} (h : stream.queue = []) (n : Nat) :
    stream.answer n = stream.verdict := by
  simp [answer, h]

/-! ### Streams that have left -/

namespace Ledger

variable {l l' : Ledger} {serial : Nat}

/-- A stream is over, was read to its end and has left the entries. -/
structure Spent (l : Ledger) (serial : Nat) : Prop where
  single : l.Single
  there : serial < l.size
  isOver : (l.stream serial).isOver = true
  drained : (l.stream serial).queue = []
  gone : ∀ id, l.find? id ≠ some serial

namespace Spent

theorem stream_tear (single : l.Single) (gone : ∀ id, l.find? id ≠ some serial) :
    l.tear.stream serial = l.stream serial := by
  refine (severs_tear l).others fun hmem => ?_
  obtain ⟨id, hfind⟩ := (mem_current_iff single).mp hmem
  exact gone id hfind

/-- What is put in place of another stream is not put in place of this one. -/
theorem stream_put (h : l.Spent serial) {other : Nat} {stream : Stream}
    (hother : (l.stream other).isOver = false ∨ (l.stream other).queue ≠ []) :
    (l.put other stream).stream serial = l.stream serial := by
  refine stream_put_of_ne ?_
  rintro rfl
  rcases hother with hlive | hqueue
  · rw [h.isOver] at hlive
    cases hlive
  · exact hqueue h.drained

theorem stream_move (h : l.Spent serial) (hmove : Move l l') :
    l'.stream serial = l.stream serial := by
  cases hmove with
  | @opened id ids label up draw => exact @stream_register_of_lt l id ids serial h.there
  | @openTorn id ids up draw =>
    have hextends := extends_register l id ids
    have hgone : ∀ other, (l.register id ids).find? other ≠ some serial :=
      fun other hfind => h.gone other (hextends.current h.there hfind)
    have hsingle : (l.register id ids).Single := Registry.nodup_keys_create h.single _
    rw [stream_tear hsingle hgone]
    exact stream_register_of_lt h.there
  | tear => exact stream_tear h.single h.gone
  | finish ending live =>
    rw [stream_sweep]
    exact h.stream_put (Or.inl live)
  | @finishTorn other ending live =>
    have hfinish : (l.finish other ending).stream serial = l.stream serial :=
      h.stream_put (Or.inl live)
    rw [stream_tear (l := l.finish other ending) h.single h.gone, hfinish]
  | overflow other => rfl
  | push chunk live room => exact h.stream_put (Or.inl live)
  | pop front => exact h.stream_put (Or.inr (by rw [front]; exact List.cons_ne_nil _ _))
  | sweep id => exact stream_sweep l id serial
  | welcome up new foreign fits => exact stream_welcome_of_lt h.there
  | accept pending current => rfl
  | misstart pending current => exact stream_misstart ..

theorem of_stream (h : l.Spent serial) (single : l'.Single) (there : serial < l'.size)
    (heq : l'.stream serial = l.stream serial) (gone : ∀ id, l'.find? id ≠ some serial) :
    l'.Spent serial :=
  ⟨single, there, heq ▸ h.isOver, heq ▸ h.drained, gone⟩

theorem move (h : l.Spent serial) (hmove : Move l l') : l'.Spent serial :=
  h.of_stream (h.single.move hmove) (Nat.lt_of_lt_of_le h.there hmove.extends.size_le)
    (h.stream_move hmove) fun id hfind => h.gone id (hmove.extends.current h.there hfind)

theorem moves (h : l.Spent serial) (hmoves : Moves l l') :
    l'.stream serial = l.stream serial ∧ l'.Spent serial := by
  induction hmoves with
  | refl => exact ⟨rfl, h⟩
  | tail _ hmove ih => exact ⟨(ih.2.stream_move hmove).trans ih.1, ih.2.move hmove⟩

/-- **Nothing happens any more to a stream that is spent.** -/
theorem step {m m' : Mux} {op : Mux.Op} (h : m.ledger.Spent serial) (hstep : m.Step op m') :
    m'.ledger.stream serial = m.ledger.stream serial ∧ m'.ledger.Spent serial := by
  rcases hstep.ledger with hmoves | ⟨place, handle, -, hplace, -, heq⟩
  · exact h.moves hmoves
  · have hsize := (Alike.drop hplace : m.ledger.Alike _).size
    rw [heq]
    exact ⟨stream_drop .., h.of_stream (h.single.drop place handle)
      (Nat.lt_of_lt_of_eq h.there hsize.symm) (stream_drop ..)
      fun id hfind => h.gone id (find?_of_drop hfind)⟩

end Spent

theorem spent_sweep (sound : l.Sound) (single : l.Single) (there : serial < l.size)
    (isOver : (l.stream serial).isOver = true) (drained : (l.stream serial).queue = []) :
    (l.sweep (l.stream serial).id).Spent serial := by
  refine ⟨single_sweep single _, (size_sweep ..).symm ▸ there, by rwa [stream_sweep],
    by rwa [stream_sweep], fun id hfind => ?_⟩
  have hbefore := find?_of_sweep hfind
  obtain rfl : (l.stream serial).id = id := (sound.current hbefore).2
  rcases l.registry.sweep_eq (l.stream serial).id with ⟨heq, -⟩ | ⟨-, hkept⟩
  · simp [sweep, find?, heq, Registry.find?_remove] at hfind
  · exact hkept serial hbefore isOver drained

end Ledger

namespace Mux

variable {m m' : Mux} {side : Side} {settings : Settings} {place : Nat} {handle : Handle}

/-! ### Reads through a handle -/

theorem exists_handle_of_reading {reading : Reading}
    (h : (m.perform (.read place)).2 = .reading reading) :
    ∃ handle, m.handles[place]? = some handle ∧ handle.live = true ∧
      (m.read handle.serial).2 = reading := by
  rcases m.withHandle_cases place fun serial => ((m.read serial).1, .reading (m.read serial).2)
    with ⟨handle, hplace, hlive, -⟩ | heq
  · rw [perform_read hplace hlive] at h
    exact ⟨handle, hplace, hlive, Answer.reading.inj h⟩
  · have hperform : m.perform (.read place) = (m, .noHandle) := heq
    rw [hperform] at h
    cases h

/-- A read that tells the end tells the verdict, and the stream leaves. -/
theorem read_last (sound : m.ledger.Sound) (single : m.ledger.Single) {serial : Nat}
    (hlt : serial < m.ledger.size) (h : (m.read serial).2.isLast = true) :
    (m.registry.stream serial).isOver = true ∧ (m.registry.stream serial).queue = [] ∧
      (m.read serial).2 = (m.registry.stream serial).verdict ∧
      (m.read serial).1.registry.stream serial = m.registry.stream serial ∧
      (m.read serial).1.ledger.Spent serial := by
  have hreads := reads m serial
  have hverdict := @read_of_isOver m serial
  generalize m.read serial = result at hreads hverdict h
  cases hreads with
  | chunk front passes ledger => cases h
  | blocked live drained => cases h
  | @ended after reading isOver drained verdict passes ledger =>
    have hspent := Ledger.spent_sweep sound single hlt isOver drained
    have hstream : after.ledger.stream serial = m.ledger.stream serial := by
      rw [ledger, Ledger.stream_sweep]
    refine ⟨isOver, drained, ?_, hstream, ledger ▸ hspent⟩
    exact (hverdict isOver).trans (Stream.answer_of_drained drained 0)

theorem answersTo_of_spent (sound : m.ledger.Sound) (hplace : m.handles[place]? = some handle)
    (hlive : handle.live = true) (hspent : m.ledger.Spent handle.serial) {ops : List Op}
    (hkept : .drop place ∉ ops) {answer : Answer} (h : answer ∈ m.answersTo place ops) :
    answer = .reading (m.registry.stream handle.serial).verdict := by
  induction ops generalizing m with
  | nil => cases h
  | cons op ops ih =>
    rw [List.mem_cons, not_or] at hkept
    have hstep := step sound op
    obtain ⟨hstream, hafter⟩ := hspent.step hstep
    rw [answersTo_cons, List.mem_append] at h
    rcases h with hnow | hlater
    · by_cases hop : op = .read place
      · subst hop
        have hverdict : (m.read handle.serial).2 = (m.registry.stream handle.serial).verdict :=
          (read_of_isOver hspent.isOver).trans (Stream.answer_of_drained hspent.drained 0)
        rw [answerTo?, if_pos rfl, perform_read hplace hlive, hverdict] at hnow
        exact List.mem_singleton.mp hnow
      · rw [answerTo?_of_ne hop] at hnow
        cases hnow
    · have hhandle := hstep.getElem?_kept hplace fun _ => Ne.symm hkept.1
      rw [ih (hstep.sound sound) hhandle hafter hkept.2 hlater]
      exact congrArg (fun stream => Answer.reading stream.verdict) hstream

/-! ### The law of the last word -/

/-- What holds once a read through a handle told the end. -/
structure Final (side : Side) (settings : Settings) (before : List Op) (place serial : Nat)
    (verdict : Reading) : Prop where
  /-- All later reads through the handle tell the same, whatever else is done and comes in. -/
  same : ∀ {after : List Op} {answer : Answer}, .drop place ∉ after →
    answer ∈ (run side settings (before ++ [.read place])).answersTo place after →
      answer = .reading verdict
  /-- The verdict is how the stream ended. -/
  tells : ((run side settings before).registry.stream serial).Tells verdict
  /-- Everything that the queue ever took in was handed out before. -/
  drained : (start side settings).takenIn before serial =
    (start side settings).takenOut before serial

/-- **The last word on a stream never changes.**  In every run, once a read through a handle has
told the end, everything that came in for the stream was read before, the verdict is how the stream
ended, and every later read through the handle tells the same and gives no chunk, whatever is done
and whatever comes in meanwhile. -/
theorem final_run {before : List Op} {verdict : Reading}
    (hread : ((run side settings before).perform (.read place)).2 = .reading verdict)
    (hlast : verdict.isLast = true) :
    ∃ handle, (run side settings before).handles[place]? = some handle ∧ handle.live = true ∧
      Final side settings before place handle.serial verdict := by
  have hsound := sound_run side settings before
  obtain ⟨handle, hplace, hlive, rfl⟩ := exists_handle_of_reading hread
  have hlt := hsound.held_lt (List.mem_of_getElem? hplace)
  obtain ⟨hover, hqueue, hverdict, hstream, hspent⟩ :=
    read_last hsound (single_run side settings before) hlt hlast
  have hafter : run side settings (before ++ [.read place]) =
      ((run side settings before).read handle.serial).1 := by
    rw [run_concat, perform_read hplace hlive]
  refine ⟨handle, hplace, hlive, fun hkept hanswer => ?_, ?_, ?_⟩
  · have hhandle := (step hsound (.read place)).getElem?_kept hplace (by simp)
    rw [← run_concat] at hhandle
    have hsame := answersTo_of_spent (sound_run side settings (before ++ [.read place])) hhandle
      hlive (hafter ▸ hspent) hkept hanswer
    rw [hsame, hafter, hstream, hverdict]
  · rw [hverdict]
    exact Stream.tells_verdict hover
  · have hbooks := (start side settings).queue_runFrom before handle.serial
    have hend : (start side settings).runFrom before = run side settings before := rfl
    have hempty : ((start side settings).registry.stream handle.serial).queue = [] := rfl
    rwa [hend, hempty, hqueue, List.nil_append, List.append_nil] at hbooks

/-- The peer closes a stream, whose reader learns of it.  Then the peer uses the number again, with
a byte to be read, and the session is closed.  The reader of the first stream still learns the same,
though the second stream is severed. -/
theorem final_despite_reuse :
    ((run .listener .usual [.arrive [0, 0, 4, 0], .turn, .turn, .turn, .turn]).perform
        (.read 0)).2 = .reading .over ∧
      ((run .listener .usual ([.arrive [0, 0, 4, 0], .turn, .turn, .turn, .turn] ++ [.read 0] ++
        [.arrive [0, 0, 2, 1, 0xaa], .turn, .turn, .turn, .turn, .close])).registry.stream 1) =
          { Stream.start 0 .acceptor 1024 with severed := true, queue := [[0xaa]] } ∧
      ∃ handle, (run .listener .usual [.arrive [0, 0, 4, 0], .turn, .turn, .turn,
        .turn]).handles[0]? = some handle ∧ handle.live = true ∧
          Final .listener .usual [.arrive [0, 0, 4, 0], .turn, .turn, .turn, .turn] 0
            handle.serial .over := by
  have hplace : (run .listener .usual [.arrive [0, 0, 4, 0], .turn, .turn, .turn,
      .turn]).handles[0]? = some ⟨0, none, true⟩ := by decide +kernel
  have hover : ((run .listener .usual [.arrive [0, 0, 4, 0], .turn, .turn, .turn, .turn]).read
      0).2 = .over := by decide +kernel
  have hread : ((run .listener .usual [.arrive [0, 0, 4, 0], .turn, .turn, .turn,
      .turn]).perform (.read 0)).2 = .reading .over := by
    rw [perform_read hplace rfl]
    exact congrArg Answer.reading hover
  exact ⟨hread, by decide +kernel, final_run hread rfl⟩

end Mux

end StreamMux
