import StreamMux.Proofs.Session.Identity
import StreamMux.Proofs.Session.Utterance

/-!
# Frames sent follow the protocol of streams

What a session sends for a stream is a conversation of its own, whatever the peer sends meanwhile:
the announcement if the stream was opened here, then data, then one end at most, all of it marked by
who opened the stream.  Once the stream is over nothing more is sent for it.

A stream whose announcement the link refused is the one exception: nothing is ever sent for it.  It
was never handed to anyone, and went down with the connection.

* `Conversation` — what may be sent for a stream;
* `Mux.sentFor` — what was sent for a stream, and `Mux.Told`: what it was, given the state of the
  stream;
* `Mux.keepsProtocol_run` — every run keeps to the protocol.
-/

namespace StreamMux

/-! ### Conversations -/

/-- What is sent for a stream, from its beginning on, by the side that opened it or the other. -/
inductive Conversation (id : UInt64) : Role → List Frame → Prop where
  | opener (data : List Bytes) (last : List Frame)
      (ends : last = [] ∨ last = [.ofKind id .closeOpener []] ∨
        last = [.ofKind id .resetOpener []]) :
      Conversation id .opener
        (.ofKind id .newStream [] :: data.map (Frame.ofKind id .messageOpener) ++ last)
  | acceptor (data : List Bytes) (last : List Frame)
      (ends : last = [] ∨ last = [.ofKind id .closeAcceptor []] ∨
        last = [.ofKind id .resetAcceptor []]) :
      Conversation id .acceptor (data.map (Frame.ofKind id .messageAcceptor) ++ last)

namespace Stream

variable {stream after : Stream} {frames : List Frame}

/-- What is sent for a stream before its data. -/
def overture (stream : Stream) : List Frame :=
  match stream.role with
  | .opener => [.ofKind stream.id .newStream []]
  | .acceptor => []

/-- What was sent for a stream up to now.  Its end comes last, and only when it has ended so. -/
def Spoken (stream : Stream) (frames : List Frame) : Prop :=
  ∃ (data : List Bytes) (last : List Frame),
    frames = stream.overture ++ data.map stream.parcel ++ last ∧
    (last = [] ∨ ∃ ending, stream.ending = some ending ∧ last = [stream.farewell ending])

theorem spoken_overture (stream : Stream) : stream.Spoken stream.overture :=
  ⟨[], [], by simp, Or.inl rfl⟩

namespace Spoken

theorem of_live (h : stream.Spoken frames) (live : stream.isOver = false) :
    ∃ data : List Bytes, frames = stream.overture ++ data.map stream.parcel := by
  obtain ⟨data, last, rfl, rfl | ⟨ending, hending, -⟩⟩ := h
  · exact ⟨data, List.append_nil _⟩
  · have hover : stream.isOver = true := isOver_iff.mpr (Or.inl (by simp [hending]))
    rw [live] at hover
    cases hover

theorem carries (h : stream.Spoken frames) (live : stream.isOver = false) (data : Bytes) :
    stream.Spoken (frames ++ [stream.parcel data]) := by
  obtain ⟨before, rfl⟩ := h.of_live live
  exact ⟨before ++ [data], [], by simp, Or.inl rfl⟩

theorem ends (h : stream.Spoken frames) (live : stream.isOver = false)
    (horigin : after.origin = stream.origin) {ending : Ending}
    (ended : after.ending = some ending) : after.Spoken (frames ++ [stream.farewell ending]) := by
  obtain ⟨before, rfl⟩ := h.of_live live
  have hid := id_eq_of_origin horigin
  have hrole := role_eq_of_origin horigin
  refine ⟨before, [stream.farewell ending], ?_, Or.inr ⟨ending, ended, ?_⟩⟩
  · unfold overture parcel
    rw [hid, hrole]
  · unfold farewell
    rw [hid, hrole]

/-- What was sent stays right as long as the stream keeps its end. -/
theorem keepsEnd (h : stream.Spoken frames) (horigin : after.origin = stream.origin)
    (hkeeps : stream.isOver = true → stream.KeepsEnd after) : after.Spoken frames := by
  have hid := id_eq_of_origin horigin
  have hrole := role_eq_of_origin horigin
  obtain ⟨data, last, rfl, hlast⟩ := h
  refine ⟨data, last, ?_, hlast.imp_right ?_⟩
  · unfold overture parcel
    rw [hid, hrole]
  · rintro ⟨ending, hending, rfl⟩
    have hover : stream.isOver = true := isOver_iff.mpr (Or.inl (by simp [hending]))
    exact ⟨ending, (hkeeps hover).ending.trans hending,
      congrArg ([·]) (farewell_eq_of_origin horigin ending).symm⟩

theorem conversation (h : stream.Spoken frames) :
    Conversation stream.id stream.role frames := by
  obtain ⟨data, last, rfl, hlast⟩ := h
  unfold overture parcel
  unfold farewell at hlast
  cases hrole : stream.role with
  | opener =>
    rw [hrole] at hlast
    refine .opener data last (hlast.imp_right ?_)
    rintro ⟨_ | _, -, rfl⟩
    · exact Or.inl rfl
    · exact Or.inr rfl
  | acceptor =>
    rw [hrole] at hlast
    refine .acceptor data last (hlast.imp_right ?_)
    rintro ⟨_ | _, -, rfl⟩
    · exact Or.inl rfl
    · exact Or.inr rfl

end Spoken

end Stream

/-! ### Streams that were opened here -/

namespace Ledger

variable {l l' : Ledger}

/-- Without a handle a stream that was opened here is severed. -/
def Owned (l : Ledger) : Prop :=
  ∀ serial < l.size, (l.stream serial).role = .opener → serial ∉ l.serials →
    (l.stream serial).severed = true

namespace Owned

theorem of_begins {stream : Stream} (h : l.Owned) (b : l.Begins stream l')
    (hserials : l'.serials = l.serials) (hrole : stream.role = .acceptor) : l'.Owned := by
  intro serial hlt hopener hnot
  rw [hserials] at hnot
  rcases b.cases_of_lt hlt with ⟨hbefore, heq⟩ | ⟨-, heq⟩
  · rw [heq] at hopener ⊢
    exact h serial hbefore hopener hnot
  · rw [heq, hrole] at hopener
    cases hopener

theorem put (h : l.Owned) {serial : Nat} {stream : Stream}
    (hrole : stream.role = (l.stream serial).role)
    (hsevered : stream.severed = (l.stream serial).severed) : (l.put serial stream).Owned := by
  intro other hlt hopener hnot
  rw [size_put] at hlt
  rw [role_put hrole] at hopener
  have hother := h other hlt hopener hnot
  rcases l.stream_put serial stream other with ⟨rfl, heq⟩ | heq <;> rw [heq]
  · exact hsevered.trans hother
  · exact hother

theorem sweep (h : l.Owned) (id : UInt64) : (l.sweep id).Owned := by
  intro serial hlt hopener hnot
  rw [stream_sweep] at hopener ⊢
  exact h serial (size_sweep l id ▸ hlt) hopener hnot

theorem tear (h : l.Owned) : l.tear.Owned := by
  intro serial hlt hopener hnot
  rw [size_tear] at hlt
  rw [role_tear] at hopener
  exact (l.keepsEnd_tear serial).severed (h serial hlt hopener hnot)

theorem opened (h : l.Owned) (id : UInt64) (ids : Ids) (label : Option String) :
    ((l.register id ids).hold l.size label).Owned := by
  intro serial hlt hopener hnot
  change serial < (l.register id ids).size at hlt
  change ((l.register id ids).stream serial).role = .opener at hopener
  change ((l.register id ids).stream serial).severed = true
  simp only [serials, hold, register, List.map_append, List.map_cons, List.map_nil,
    List.mem_append, List.mem_singleton, not_or] at hnot
  rcases (begins_register l id ids).cases_of_lt hlt with ⟨hbefore, heq⟩ | ⟨rfl, -⟩
  · rw [heq] at hopener ⊢
    exact h serial hbefore hopener hnot.1
  · exact absurd rfl hnot.2

/-- A stream that is opened while the connection goes away is severed at once. -/
theorem openTorn (h : l.Owned) (id : UInt64) (ids : Ids) : (l.register id ids).tear.Owned := by
  intro serial hlt hopener hnot
  rw [size_tear] at hlt
  rw [role_tear] at hopener
  rcases (begins_register l id ids).cases_of_lt hlt with ⟨hbefore, heq⟩ | ⟨rfl, -⟩
  · rw [heq] at hopener
    refine ((l.register id ids).keepsEnd_tear serial).severed ?_
    rw [heq]
    exact h serial hbefore hopener hnot
  · have hfind : (l.register id ids).find? id = some l.size := by rw [find?_register, if_pos rfl]
    rw [stream_tear_of_current hfind]
    rfl

theorem drop (h : l.Owned) {place : Nat} {handle : Handle}
    (hplace : l.handles[place]? = some handle) : (l.drop place handle).Owned := by
  have halike := Alike.drop hplace
  intro serial hlt hopener hnot
  rw [stream_drop] at hopener ⊢
  exact h serial (halike.size ▸ hlt) hopener (halike.serials ▸ hnot)

theorem accept (h : l.Owned) (id : UInt64) (serial : Nat) : (l.accept id serial).Owned := by
  intro other hlt hopener hnot
  refine h other hlt hopener fun hmem => hnot ?_
  simp only [serials, Ledger.accept, hold, List.map_append]
  exact List.mem_append_left _ hmem

theorem move (h : l.Owned) (hmove : Move l l') : l'.Owned := by
  cases hmove with
  | opened label up draw => exact h.opened _ _ label
  | openTorn up draw => exact h.openTorn _ _
  | tear => exact h.tear
  | @finish serial ending live =>
    have hfinish : (l.finish serial ending).Owned := h.put rfl rfl
    exact hfinish.sweep _
  | @finishTorn serial ending live =>
    have hfinish : (l.finish serial ending).Owned := h.put rfl rfl
    exact hfinish.tear
  | overflow serial => exact h
  | push chunk live room => exact h.put rfl rfl
  | pop front => exact h.put rfl rfl
  | sweep id => exact h.sweep id
  | welcome up new foreign fits => exact h.of_begins (begins_welcome l _) rfl rfl
  | accept pending current => exact h.accept _ _
  | misstart pending current => exact (h.accept _ _).drop getElem?_handles_accept

end Owned

end Ledger

namespace Mux

variable {m : Mux} {op : Op} {side : Side} {settings : Settings} {ops : List Op}

theorem owned_run (side : Side) (settings : Settings) (ops : List Op) :
    (run side settings ops).ledger.Owned :=
  ledger_run (fun serial hlt => absurd hlt (Nat.not_lt_zero serial)) (fun h => h.move)
    (fun h hplace => h.drop hplace) ops

/-- A handle of a stream that was opened here was there before, or comes with the announcement. -/
theorem mem_serials_of_opener (sound : m.ledger.Sound) (op : Op)
    {serial : Nat} (hmem : serial ∈ (m.perform op).1.ledger.serials)
    (hopener : ((m.perform op).1.ledger.stream serial).role = .opener) :
    serial ∈ m.ledger.serials ∨
      serial = m.ledger.size ∧ ∃ label id, op = .openStream label ∧
        (m.perform op).1.ledger.stream serial = .start id .opener m.settings.queueLimit ∧
        m.outgoing op = [.ofKind id .newStream []] := by
  cases dispatch sound op with
  | accepted frame other announces greets isOver role number =>
    have hserials : (m.perform op).1.ledger.serials = m.ledger.serials ++ [other] := by
      rw [Ledger.serials, show (m.perform op).1.ledger.handles = _ from greets.handles,
        List.map_append]
      rfl
    rw [hserials, List.mem_append, List.mem_singleton] at hmem
    rcases hmem with hmem | rfl
    · exact Or.inl hmem
    · rw [show ((m.perform op).1.ledger.stream serial).role = .acceptor from role] at hopener
      cases hopener
  | silent others arrivals handles =>
    by_cases hop : op = .turn
    · exact Or.inl ((handles hop).serials_eq ▸ hmem)
    · rcases (m.silent_perform hop).2 with heq | ⟨label, rfl⟩
      · exact Or.inl (heq ▸ hmem)
      · rcases m.utters_openStream label with ⟨-, heq⟩ | ⟨id, hbegins, hserials, hsends⟩
        · exact Or.inl (heq ▸ hmem)
        · rw [hserials, List.mem_append, List.mem_singleton] at hmem
          rcases hmem with hmem | rfl
          · exact Or.inl hmem
          · exact Or.inr ⟨rfl, label, id, rfl, hbegins, hsends⟩

/-! ### What is sent for a stream -/

/-- What an operation sends for a stream. -/
def sendsFor (m : Mux) (op : Op) (serial : Nat) : List Frame :=
  if m.subject? op = some serial then m.outgoing op else []

/-- The frames that some operations send for a stream. -/
def sentFor (m : Mux) (ops : List Op) (serial : Nat) : List Frame :=
  (m.trail ops).flatMap fun step => step.1.sendsFor step.2 serial

/-- What an operation sends for one stream. -/
inductive SpeaksFor (m : Mux) (op : Op) (serial : Nat) : Prop where
  | nothing (silent : m.sendsFor op serial = [])
  | announces {id : UInt64} (is : serial = m.ledger.size)
      (begins : (m.perform op).1.ledger.stream serial =
        .start id .opener m.settings.queueLimit)
      (serials : serial ∈ (m.perform op).1.ledger.serials)
      (sends : m.sendsFor op serial = [.ofKind id .newStream []])
  | carries (data : Bytes) (live : (m.ledger.stream serial).isOver = false)
      (sends : m.sendsFor op serial = [(m.ledger.stream serial).parcel data])
  | ends {ending : Ending} (live : (m.ledger.stream serial).isOver = false)
      (ended : ((m.perform op).1.ledger.stream serial).ending = some ending)
      (sends : m.sendsFor op serial = [(m.ledger.stream serial).farewell ending])
  /-- No handler can be started for a stream that begins. -/
  | misstarts (is : serial = m.ledger.size)
      (role : ((m.perform op).1.ledger.stream serial).role = .acceptor)
      (ended : ((m.perform op).1.ledger.stream serial).ending = some .reset)
      (sends : m.sendsFor op serial =
        [((m.perform op).1.ledger.stream serial).farewell .reset])

theorem speaksFor (sound : m.ledger.Sound) (hop : ∀ frame, op ≠ .send frame) (serial : Nat) :
    m.SpeaksFor op serial := by
  by_cases habout : m.subject? op = some serial
  swap
  · exact .nothing (if_neg habout)
  have hsends : m.sendsFor op serial = m.outgoing op := if_pos habout
  cases utters sound hop with
  | nothing silent => exact .nothing (hsends.trans silent)
  | @announces label id opens begins serials sends =>
    subst opens
    obtain rfl : m.ledger.size = serial := Option.some.inj habout
    exact .announces rfl begins (by simp [serials]) (hsends.trans sends)
  | @carries other data about live stays sends =>
    obtain rfl := Option.some.inj (about.symm.trans habout)
    exact .carries data live (hsends.trans sends)
  | @ends other ending about live how ended sends =>
    obtain rfl := Option.some.inj (about.symm.trans habout)
    exact .ends live ended (hsends.trans sends)
  | @misstarts other about new how role ended sends =>
    obtain rfl := Option.some.inj (about.symm.trans habout)
    exact .misstarts new role ended (hsends.trans sends)
  | @refuses frame turn upcoming message new foreign sends =>
    subst turn
    have hkind : frame.kind? ≠ some .newStream := Frame.ne_newStream_of_isMessage message
    simp [subject?, upcoming, new, hkind] at habout

theorem sendsFor_of_isOver (sound : m.ledger.Sound) (hop : ∀ frame, op ≠ .send frame)
    {serial : Nat} (hlt : serial < m.ledger.size)
    (hover : (m.ledger.stream serial).isOver = true) : m.sendsFor op serial = [] := by
  cases speaksFor sound hop serial with
  | nothing silent => exact silent
  | announces is begins serials sends => omega
  | carries data live sends => cases live.symm.trans hover
  | ends live ended sends => cases live.symm.trans hover
  | misstarts is role ended sends => omega

/-- What was sent for each of the streams of a session. -/
structure Told (m : Mux) (sent : Nat → List Frame) : Prop where
  absent : ∀ {serial}, m.ledger.size ≤ serial → sent serial = []
  unannounced : ∀ {serial}, serial < m.ledger.size → (m.ledger.stream serial).role = .opener →
    serial ∉ m.ledger.serials → sent serial = []
  spoken : ∀ {serial}, serial < m.ledger.size →
    ((m.ledger.stream serial).role = .opener → serial ∈ m.ledger.serials) →
      (m.ledger.stream serial).Spoken (sent serial)

namespace Told

variable {sent : Nat → List Frame} {serial : Nat}

/-- A stream that was there has been spoken for rightly, and what is sent now is right as well. -/
theorem spoken_old (h : m.Told sent) (sound : m.ledger.Sound)
    (hop : ∀ frame, op ≠ .send frame) (hlt : serial < m.ledger.size)
    (hheld : ((m.perform op).1.ledger.stream serial).role = .opener →
      serial ∈ (m.perform op).1.ledger.serials) :
    ((m.perform op).1.ledger.stream serial).Spoken (sent serial ++ m.sendsFor op serial) := by
  have horigin := (step sound op).origin_eq hlt
  have hspoken : (m.ledger.stream serial).Spoken (sent serial) := by
    refine h.spoken hlt fun hrole => ?_
    have hopener := (Stream.role_eq_of_origin horigin).trans hrole
    rcases mem_serials_of_opener sound op (hheld hopener) hopener with hmem | ⟨rfl, -⟩
    · exact hmem
    · exact absurd hlt (Nat.lt_irrefl _)
  have hkeeps := (step sound op).keepsEnd hlt
  cases speaksFor sound hop serial with
  | nothing silent =>
    rw [silent, List.append_nil]
    exact hspoken.keepsEnd horigin hkeeps
  | announces is begins serials sends => omega
  | carries data live sends =>
    rw [sends]
    exact (hspoken.carries live data).keepsEnd horigin hkeeps
  | ends live ended sends =>
    rw [sends]
    exact hspoken.ends live horigin ended
  | misstarts is role ended sends => omega

/-- For a stream that begins its announcement is sent, if it is opened here. -/
theorem spoken_new (sound : m.ledger.Sound)
    (hop : ∀ frame, op ≠ .send frame) (hle : m.ledger.size ≤ serial)
    (hheld : ((m.perform op).1.ledger.stream serial).role = .opener →
      serial ∈ (m.perform op).1.ledger.serials) :
    ((m.perform op).1.ledger.stream serial).Spoken (m.sendsFor op serial) := by
  have hgone : ¬ (m.ledger.stream serial).isOver = false := fun live =>
    absurd (Registry.lt_of_not_isOver live) (Nat.not_lt.mpr hle)
  cases speaksFor sound hop serial with
  | nothing silent =>
    rw [silent]
    rcases hrole : ((m.perform op).1.ledger.stream serial).role with _ | _
    · -- an opener with a handle would have been announced
      rcases mem_serials_of_opener sound op (hheld hrole) hrole with
        hmem | ⟨rfl, label, id, rfl, -, hsends⟩
      · exact absurd (Ledger.lt_of_mem_serials sound hmem) (Nat.not_lt.mpr hle)
      · have habout : m.sendsFor (.openStream label) m.ledger.size = m.outgoing _ := if_pos rfl
        rw [silent, hsends] at habout
        cases habout
    · refine ⟨[], [], ?_, Or.inl rfl⟩
      simp [Stream.overture, hrole]
  | @announces id is begins serials sends =>
    rw [sends, begins]
    exact Stream.spoken_overture _
  | carries data live sends => exact absurd live hgone
  | ends live ended sends => exact absurd live hgone
  | misstarts is role ended sends =>
    -- the peer announced it, and it is reset at once
    rw [sends]
    exact ⟨[], _, by simp [Stream.overture, role], Or.inr ⟨.reset, ended, rfl⟩⟩

theorem perform (h : m.Told sent) (sound : m.ledger.Sound)
    (owned : m.ledger.Owned) (hop : ∀ frame, op ≠ .send frame) :
    (m.perform op).1.Told fun serial => sent serial ++ m.sendsFor op serial where
  absent {serial} hle := by
    have hge : m.ledger.size ≤ serial := by
      by_contra hlt
      have hthere := ((step sound op).kept 0 (Nat.lt_of_not_le hlt)).1
      omega
    rw [h.absent hge, List.nil_append]
    cases speaksFor sound hop serial with
    | nothing silent => exact silent
    | announces is begins serials sends =>
      have hlive : ((m.perform op).1.ledger.stream serial).isOver = false := by
        rw [begins]
        rfl
      exact absurd (Registry.lt_of_not_isOver hlive) (Nat.not_lt.mpr hle)
    | carries data live sends =>
      exact absurd (Registry.lt_of_not_isOver live) (Nat.not_lt.mpr hge)
    | ends live ended sends =>
      exact absurd (Registry.lt_of_not_isOver live) (Nat.not_lt.mpr hge)
    | misstarts is role ended sends =>
      rw [Ledger.stream, Registry.stream_of_le hle] at ended
      cases ended
  unannounced {serial} _ hopener hnot := by
    -- a stream without a handle is over, and nothing is sent for it
    rcases Nat.lt_or_ge serial m.ledger.size with hlt | hge
    · have hrole := (Stream.role_eq_of_origin ((step sound op).origin_eq hlt)).symm.trans hopener
      obtain ⟨new, hserials⟩ := (step sound op).serials
      have hbefore : serial ∉ m.ledger.serials := fun hmem =>
        hnot (hserials ▸ List.mem_append_left new hmem)
      have hover := Stream.isOver_iff.mpr (Or.inr (owned serial hlt hrole hbefore))
      rw [h.unannounced hlt hrole hbefore, sendsFor_of_isOver sound hop hlt hover]
      rfl
    · rw [h.absent hge, List.nil_append]
      cases speaksFor sound hop serial with
      | nothing silent => exact silent
      | announces is begins serials sends => exact absurd serials hnot
      | carries data live sends =>
        exact absurd (Registry.lt_of_not_isOver live) (Nat.not_lt.mpr hge)
      | ends live ended sends =>
        exact absurd (Registry.lt_of_not_isOver live) (Nat.not_lt.mpr hge)
      | misstarts is role ended sends => cases role.symm.trans hopener
  spoken {serial} _ hheld := by
    rcases Nat.lt_or_ge serial m.ledger.size with hlt | hge
    · exact h.spoken_old sound hop hlt hheld
    · rw [h.absent hge, List.nil_append]
      exact spoken_new sound hop hge hheld

end Told

/-! ### Runs -/

theorem sentFor_append (m : Mux) (ops more : List Op) (serial : Nat) :
    m.sentFor (ops ++ more) serial =
      m.sentFor ops serial ++ (m.runFrom ops).sentFor more serial := by
  rw [sentFor, trail_append, List.flatMap_append]
  rfl

theorem told_run (hops : ∀ frame, .send frame ∉ ops) :
    (run side settings ops).Told fun serial => (start side settings).sentFor ops serial := by
  induction ops using List.reverseRecOn with
  | nil =>
    exact ⟨fun _ => rfl, fun hlt => absurd hlt (Nat.not_lt_zero _),
      fun hlt => absurd hlt (Nat.not_lt_zero _)⟩
  | append_singleton ops op ih =>
    have hop : ∀ frame, op ≠ .send frame := fun frame heq => hops frame (by simp [heq])
    have htold := (ih fun frame hmem => hops frame (List.mem_append_left _ hmem)).perform
      (sound_run side settings ops) (owned_run side settings ops) hop
    rw [run_concat]
    convert htold using 2 with serial
    rw [sentFor_append]
    simp [sentFor, trail, runFrom, run]

/-- All frames that some operations send. -/
def sentBy (m : Mux) (ops : List Op) : List Frame :=
  (m.trail ops).flatMap fun step => step.1.outgoing step.2

theorem written_run (hops : ∀ frame, .send frame ∉ ops) :
    (run side settings ops).written = ((start side settings).sentBy ops).map Frame.wire ∧
      ∀ frame ∈ (start side settings).sentBy ops, frame.Fits := by
  induction ops using List.reverseRecOn with
  | nil => exact ⟨rfl, by simp [sentBy, trail]⟩
  | append_singleton ops op ih =>
    obtain ⟨hwritten, hfits⟩ := ih fun frame hmem => hops frame (List.mem_append_left _ hmem)
    obtain ⟨hop, hopfits⟩ := @written_perform (run side settings ops) op
      fun frame heq => hops frame (by simp [heq])
    have hsent : (start side settings).sentBy (ops ++ [op]) =
        (start side settings).sentBy ops ++ (run side settings ops).outgoing op := by
      simp [sentBy, trail_append, trail, runFrom, run]
    rw [run_concat, hop, hwritten, hsent, List.map_append]
    refine ⟨rfl, fun frame hmem => ?_⟩
    exact (List.mem_append.mp hmem).elim (hfits frame) (hopfits frame)

theorem sentFor_of_isOver (sound : m.ledger.Sound) (hops : ∀ frame, .send frame ∉ ops)
    {serial : Nat} (hlt : serial < m.ledger.size)
    (hover : (m.ledger.stream serial).isOver = true) : m.sentFor ops serial = [] := by
  induction ops generalizing m with
  | nil => rfl
  | cons op ops ih =>
    have hop : ∀ frame, op ≠ .send frame := fun frame heq => hops frame (by simp [heq])
    have hrest := ih ((step sound op).sound sound)
      (fun frame hmem => hops frame (List.mem_cons_of_mem _ hmem))
      ((step sound op).kept 0 hlt).1 (((step sound op).keepsEnd hlt hover).isOver hover)
    have hfirst := sendsFor_of_isOver sound hop hlt hover
    rw [sentFor, trail, List.flatMap_cons, hfirst]
    exact hrest

/-- What a session sends keeps to the protocol of streams. -/
structure KeepsProtocol (side : Side) (settings : Settings) (ops : List Op) : Prop where
  /-- What is written are whole frames, one after the other. -/
  written : (run side settings ops).written =
    ((start side settings).sentBy ops).map Frame.wire
  fits : ∀ frame ∈ (start side settings).sentBy ops, frame.Fits
  /-- Who opened a stream can be told from its number. -/
  role_iff : ∀ serial < (run side settings ops).ledger.size,
    (((run side settings ops).ledger.stream serial).role = .opener ↔
      side.owns ((run side settings ops).ledger.stream serial).id = true)
  /-- The frames sent for a stream, in order. -/
  conversation : ∀ serial < (run side settings ops).ledger.size,
    (((run side settings ops).ledger.stream serial).role = .opener →
      (run side settings ops).ledger.Held serial) →
    Conversation ((run side settings ops).ledger.stream serial).id
      ((run side settings ops).ledger.stream serial).role
      ((start side settings).sentFor ops serial)
  /-- A stream that nobody got a handle of was not announced, and is severed. -/
  unannounced : ∀ serial < (run side settings ops).ledger.size,
    ((run side settings ops).ledger.stream serial).role = .opener →
    ¬ (run side settings ops).ledger.Held serial →
    (start side settings).sentFor ops serial = [] ∧
      ((run side settings ops).ledger.stream serial).severed = true
  /-- Once a stream is over nothing more is sent for it. -/
  silent : ∀ early late, ops = early ++ late →
    ∀ serial < (run side settings early).ledger.size,
    ((run side settings early).ledger.stream serial).isOver = true →
    (run side settings early).sentFor late serial = []
  /-- Every operation sends one frame at most, for a stream as it is then or for none. -/
  utters : ∀ early op late, ops = early ++ op :: late → (run side settings early).Utters op

/-- **What a session sends keeps to the protocol of streams.**  In every run without frames sent by
hand, whatever the peer sends and whatever fails, the bytes written are whole frames, and those for
one stream are a conversation, in which nothing follows the end of the stream but the frame that
tells the peer of it.  Streams whose announcement failed are left out of account; nothing is sent
for these.  All other frames refuse streams of the peer that there are none of. -/
theorem keepsProtocol_run (side : Side) (settings : Settings) (ops : List Op)
    (hops : ∀ frame, .send frame ∉ ops) : KeepsProtocol side settings ops where
  written := (written_run hops).1
  fits := (written_run hops).2
  role_iff serial hlt := by
    have hsound := sound_run side settings ops
    rw [hsound.role_iff hlt, hsound.owns_eq,
      show (run side settings ops).ledger.side = side from side_run side settings ops]
  conversation serial hlt hheld :=
    ((told_run hops).spoken hlt fun hrole =>
      Ledger.mem_serials_iff.mpr (hheld hrole)).conversation
  unannounced serial hlt hrole hnot := by
    rw [← Ledger.mem_serials_iff] at hnot
    exact ⟨(told_run hops).unannounced hlt hrole hnot,
      owned_run side settings ops serial hlt hrole hnot⟩
  silent early late heq serial hlt hover :=
    sentFor_of_isOver (sound_run side settings early)
      (fun frame hmem => hops frame (heq ▸ List.mem_append_right _ hmem)) hlt hover
  utters early op late heq :=
    Mux.utters (sound_run side settings early) fun frame hop => hops frame (by simp [heq, hop])

/-- A stream is opened, data is written to it, and it is closed twice. -/
def exchange : List Op :=
  [.openStream none, .write 0 ⟨[1, 2, 3], by decide⟩, .finish 0 .closed, .finish 0 .reset]

/-- The announcement, the data and one end are all that is sent. -/
theorem keepsProtocol_exchange :
    (∀ frame, .send frame ∉ exchange) ∧ KeepsProtocol .dialer .usual exchange ∧
      (start .dialer .usual).sentFor exchange 0 =
        [.ofKind 0 .newStream [], .ofKind 0 .messageOpener [1, 2, 3],
          .ofKind 0 .closeOpener []] := by
  have hops : ∀ frame, Op.send frame ∉ exchange := by simp [exchange]
  exact ⟨hops, keepsProtocol_run .dialer .usual exchange hops, by decide +kernel⟩

/-- A stream is opened, and the link refuses its announcement. -/
def refusedOpening : List Op :=
  [.adjust { failWrite := some .reset }, .openStream none]

/-- For a stream whose announcement is refused nothing is sent, not even that. -/
theorem not_conversation_refusedOpening :
    (∀ frame, .send frame ∉ refusedOpening) ∧
      0 < (run .dialer .usual refusedOpening).ledger.size ∧
      ((run .dialer .usual refusedOpening).ledger.stream 0).role = .opener ∧
      ¬ Conversation ((run .dialer .usual refusedOpening).ledger.stream 0).id .opener
        ((start .dialer .usual).sentFor refusedOpening 0) := by
  have hsent : (start .dialer .usual).sentFor refusedOpening 0 = [] := by decide +kernel
  refine ⟨by simp [refusedOpening], by decide +kernel, by decide +kernel, ?_⟩
  rw [hsent]
  intro hconversation
  cases hconversation

end Mux

end StreamMux
