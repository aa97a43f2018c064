import StreamMux.Proofs.Session.Acceptance
import StreamMux.Proofs.Session.Decided
import StreamMux.Proofs.Session.Queues

/-!
# What ends a stream

A stream that is open ends because its user closes or resets it, because a frame of the peer says
so, because its queue has no room for what a frame brings, or because no handler can be started for
it when it is announced.  Nothing else ends a stream; teardown severs it, which is something else.

* `Mux.ends?` — how an operation ends a stream, if it does;
* `Ledger.EndsAs` — which streams end between two ledgers, and how, and `Mux.endsAs_perform`: what
  an operation does is what `Mux.ends?` says;
* `Mux.endings` — how a stream was ended meanwhile, and `Mux.ending_run`: in a run a stream was
  ended once at most, and this is its ending.
-/

namespace StreamMux

/-! ### How a stream is ended -/

namespace Stream

/-- What a frame of the peer ends the open stream with that it is for: what the frame says, or a
reset when the queue has no room for its payload. -/
def endedBy? (stream : Stream) (frame : Frame) : Option Ending :=
  match frame.kind? with
  | none => none
  | some kind =>
    match kind.ending? with
    | some ending => some ending
    | none =>
      if frame.payload ≠ [] ∧ stream.capacity ≤ stream.queue.length then some .reset else none

theorem endedBy?_of_ends {stream : Stream} {frame : Frame} {kind : Kind} {ending : Ending}
    (is : frame.kind? = some kind) (ends : kind.ending? = some ending) :
    stream.endedBy? frame = some ending := by
  simp only [endedBy?, is, ends]

theorem endedBy?_of_data {stream : Stream} {frame : Frame} {kind : Kind}
    (is : frame.kind? = some kind) (opens : kind.ending? = none) :
    stream.endedBy? frame =
      if frame.payload ≠ [] ∧ stream.capacity ≤ stream.queue.length then some .reset
      else none := by
  simp only [endedBy?, is, opens]

end Stream

namespace Ledger

variable {l l' l'' : Ledger} {gone fails : Bool} {out : List Frame}

/-- How a frame of the peer ends the stream that is open and current under its number. -/
def endsCurrent? (l : Ledger) (frame : Frame) (serial : Nat) : Option Ending :=
  if (l.stream serial).isOver = false ∧ l.find? frame.id = some serial then
    (l.stream serial).endedBy? frame
  else none

/-- How a frame of the peer ends a stream: the one that it announces, if no handler can be started
for it, or else the current one. -/
def endedBy? (l : Ledger) (fails : Bool) (frame : Frame) (serial : Nat) : Option Ending :=
  if fails = true ∧ l.Announces frame serial then
    if serial < l.size ∧ (l.stream serial).isOver = true then none else some .reset
  else l.endsCurrent? frame serial

theorem endsCurrent?_of_find?_ne {frame : Frame} {serial : Nat}
    (h : l.find? frame.id ≠ some serial) : l.endsCurrent? frame serial = none :=
  if_neg fun hboth => h hboth.2

theorem endsCurrent?_of_data {frame : Frame} {kind : Kind} {serial : Nat}
    (is : frame.kind? = some kind) (opens : kind.ending? = none)
    (current : l.find? frame.id = some serial) (other : Nat) : l.endsCurrent? frame other =
      if other = serial ∧ (l.stream serial).isOver = false ∧ frame.payload ≠ [] ∧
        (l.stream serial).capacity ≤ (l.stream serial).queue.length then some .reset else none := by
  by_cases heq : other = serial
  · subst heq
    rw [endsCurrent?, Stream.endedBy?_of_data is opens]
    by_cases hlive : (l.stream other).isOver = false <;> simp [hlive, current]
  · rw [if_neg fun h => heq h.1, endsCurrent?_of_find?_ne]
    exact fun hfind => heq (Option.some.inj (hfind.symm.trans current))

theorem endedBy?_of_announces {frame : Frame} {serial : Nat} (h : l.Announces frame serial)
    (other : Nat) : l.endedBy? true frame other =
      if other = serial ∧ ¬ (serial < l.size ∧ (l.stream serial).isOver = true) then some .reset
      else none := by
  unfold endedBy?
  by_cases heq : other = serial
  · subst heq
    rw [if_pos ⟨rfl, h⟩]
    split <;> simp_all
  · rw [if_neg fun hboth => heq (hboth.2.inj h), if_neg fun hboth => heq hboth.1]
    refine endsCurrent?_of_find?_ne fun hfind => ?_
    rcases h.stream with ⟨hcurrent, -⟩ | ⟨hnone, -⟩
    · exact heq (Option.some.inj (hfind.symm.trans hcurrent))
    · cases hnone.symm.trans hfind

theorem endedBy?_of_isOver {fails : Bool} {frame : Frame} {serial : Nat} (hlt : serial < l.size)
    (h : (l.stream serial).isOver = true) : l.endedBy? fails frame serial = none := by
  unfold endedBy?
  split
  · exact if_pos ⟨hlt, h⟩
  · exact if_neg (by simp [h])

end Ledger

namespace Mux

/-- How an operation ends a stream that is open, or begins with it, if it does. -/
def ends? (m : Mux) (op : Op) (serial : Nat) : Option Ending :=
  match op with
  | .finish place ending =>
    if (m.registry.stream serial).isOver = false ∧
      (m.ledger.holder? place).map Handle.serial = some serial then some ending else none
  | .turn => m.upcoming?.bind fun frame =>
    m.ledger.endedBy? m.conditions.failStart.isSome frame serial
  | _ => none

end Mux

/-! ### Which streams end between two ledgers -/

namespace Ledger

variable {l l' l'' : Ledger} {gone fails : Bool} {out : List Frame}

/-- Between two ledgers, streams that had not ended do as `ends` says, and no others.  A stream that
is not there has not ended. -/
def EndsAs (l : Ledger) (ends : Nat → Option Ending) (l' : Ledger) : Prop :=
  ∀ serial, (l'.stream serial).ending = (l.stream serial).ending.or (ends serial)

/-- No stream ends. -/
abbrev NoneEnds (l l' : Ledger) : Prop := l.EndsAs (fun _ => none) l'

namespace EndsAs

variable {ends ends' : Nat → Option Ending}

theorem of_same (same : ∀ serial, (l'.stream serial).ending = (l.stream serial).ending) :
    l.NoneEnds l' := fun serial => by rw [same, Option.or_none]

theorem refl (l : Ledger) : l.NoneEnds l := of_same fun _ => rfl

theorem of_eq (h : l' = l) : l.NoneEnds l' := h ▸ refl l

theorem congr (h : l.EndsAs ends l') (heq : ∀ serial, ends serial = ends' serial) :
    l.EndsAs ends' l' := fun serial => heq serial ▸ h serial

theorem trans_none (h : l.EndsAs ends l') (h' : l'.NoneEnds l'') : l.EndsAs ends l'' :=
  fun serial => by rw [h', Option.or_none, h]

theorem none_trans (h : l.NoneEnds l') (h' : l'.EndsAs ends l'') : l.EndsAs ends l'' :=
  fun serial => by rw [h', h, Option.or_none]

theorem put {serial : Nat} {stream : Stream}
    (h : stream.ending = (l.stream serial).ending) : l.NoneEnds (l.put serial stream) := by
  refine of_same fun other => ?_
  rcases l.stream_put serial stream other with ⟨rfl, heq⟩ | heq <;> rw [heq]
  exact h

theorem sweep (l : Ledger) (id : UInt64) : l.NoneEnds (l.sweep id) :=
  of_same fun serial => by rw [stream_sweep]

theorem tear (l : Ledger) : l.NoneEnds l.tear := of_same fun _ => ending_tear ..

theorem drop (l : Ledger) (place : Nat) (handle : Handle) : l.NoneEnds (l.drop place handle) :=
  of_same fun serial => by rw [stream_drop]

theorem of_begins {stream : Stream} (b : l.Begins stream l') (hopen : stream.ending = none) :
    l.NoneEnds l' := by
  have hsize := b.size
  refine of_same fun serial => ?_
  rcases Nat.lt_trichotomy serial l.size with hlt | rfl | hgt
  · rw [b.old hlt]
  · rw [b.new, hopen, Ledger.stream, Registry.stream_of_le (Nat.le_refl _)]
    rfl
  · rw [Ledger.stream, Ledger.stream, Registry.stream_of_le (by change l'.size ≤ serial; omega),
      Registry.stream_of_le (Nat.le_of_lt hgt)]

theorem register (l : Ledger) (id : UInt64) (ids : Ids) : l.NoneEnds (l.register id ids) :=
  of_begins (begins_register l id ids) rfl

theorem welcome (l : Ledger) (id : UInt64) : l.NoneEnds (l.welcome id) :=
  of_begins (begins_welcome l id) rfl

theorem finish {serial : Nat} (ending : Ending) (hlive : (l.stream serial).isOver = false) :
    l.EndsAs (fun other => if other = serial then some ending else none)
      (l.finish serial ending) := by
  intro other
  by_cases heq : other = serial
  · subst heq
    rw [Ledger.finish, stream_put_self (Registry.lt_of_not_isOver hlive),
      Stream.ending_eq_none hlive]
    simp
  · rw [Ledger.finish, stream_put_of_ne heq]
    simp [heq]

end EndsAs

/-! ### What each operation ends -/

theorem Sending.noneEnds {frame : Frame} (h : l.Sending gone frame out l') : l.NoneEnds l' := by
  cases h with
  | refused why => exact .refl l
  | sent up => exact .refl l
  | torn up => exact .tear l

theorem Cutting.endsAs {serial : Nat} (h : l.Cutting gone serial out l') :
    l.EndsAs (fun other => if other = serial ∧ (l.stream serial).isOver = false then some .reset
      else none) l' := by
  have hreset : (l.stream serial).isOver = false → ∀ {after : Ledger},
      (l.finish serial .reset).NoneEnds after → l.EndsAs _ after := fun live _ hafter =>
    (EndsAs.finish .reset live).trans_none hafter
  have hlive : (l.stream serial).isOver = false → ∀ other,
      (if other = serial then some Ending.reset else none) =
        if other = serial ∧ (l.stream serial).isOver = false then some .reset else none :=
    fun live other => by simp [live]
  cases h with
  | idle isOver => exact (EndsAs.refl l).congr fun other => (if_neg (by simp [isOver])).symm
  | told live up => exact (hreset live (.sweep _ _)).congr (hlive live)
  | untold live why => exact (hreset live (.sweep _ _)).congr (hlive live)
  | torn live up => exact (hreset live (.tear _)).congr (hlive live)

/-- Data ends an open stream whose queue has no room for it, and no other. -/
theorem Queueing.endsAs {serial : Nat} {payload : Bytes}
    (h : l.Queueing gone serial payload out l') :
    l.EndsAs (fun other => if other = serial ∧ (l.stream serial).isOver = false ∧ payload ≠ [] ∧
      (l.stream serial).capacity ≤ (l.stream serial).queue.length then some .reset else none)
      l' := by
  cases h with
  | idle why =>
    refine (EndsAs.refl l).congr fun other => ?_
    rcases why with rfl | hover
    · simp
    · simp [hover]
  | queued data live room =>
    refine EndsAs.congr (.put rfl) fun other => ?_
    rw [if_neg fun h => absurd h.2.2.2 (Nat.not_le.mpr room)]
  | full data live full cutting =>
    refine EndsAs.congr (EndsAs.none_trans (.refl l) cutting.endsAs) fun other => ?_
    simp only [overflow, data, full, and_true, ne_eq, not_false_eq_true]
    rfl

/-- A stream that begins with a frame has room for its payload. -/
theorem Queueing.noneEnds_of_start {serial : Nat} {payload : Bytes}
    (h : l.Queueing gone serial payload out l') {id : UInt64} {role : Role} {capacity : Nat}
    (hstart : l.stream serial = Stream.start id role capacity) : l.NoneEnds l' := by
  refine h.endsAs.congr fun other => if_neg ?_
  rintro ⟨-, -, -, hfull⟩
  simp [hstart, Stream.start] at hfull

/-- A stream is announced, and ends at once if no handler can be started for it. -/
theorem Dispatching.endsAs {frame : Frame} {serial : Nat}
    (h : l.Dispatching gone fails frame.id serial frame.payload out l') :
    (fails = false ∧
        ∃ ends, (l.accept frame.id serial).Queueing gone serial frame.payload ends l') ∨
      fails = true ∧ l.EndsAs (fun other =>
        if other = serial ∧ (l.stream serial).isOver = false then some .reset else none) l' := by
  cases h with
  | called starts queueing => exact Or.inl ⟨starts, _, queueing⟩
  | unstarted stuck cutting =>
    refine Or.inr ⟨stuck, EndsAs.congr (EndsAs.none_trans (.of_same fun other => ?_)
      cutting.endsAs) fun other => ?_⟩
    · rw [stream_misstart]
    · rw [stream_misstart]

section Receiving

variable {frame : Frame}

/-- A frame that announces nothing, or nothing in vain, ends the current stream at most. -/
theorem EndsAs.of_current (h : l.EndsAs (l.endsCurrent? frame) l')
    (hnone : fails = true → ∀ serial, ¬ l.Announces frame serial) :
    l.EndsAs (l.endedBy? fails frame) l' :=
  h.congr fun serial => (if_neg fun hboth => hnone hboth.1 serial hboth.2).symm

theorem EndsAs.of_new (h : l.NoneEnds l') (new : l.find? frame.id = none) :
    l.EndsAs (l.endsCurrent? frame) l' :=
  h.congr fun serial => (endsCurrent?_of_find?_ne (by simp [new])).symm

theorem Receiving.endsAs (h : l.Receiving gone fails frame out l') (sound : l.Sound) :
    l.EndsAs (l.endedBy? fails frame) l' := by
  cases h with
  | reserved kind =>
    refine .of_current ((EndsAs.refl l).congr fun serial => ?_) fun _ =>
      not_announces_of_reserved kind
    simp [endsCurrent?, Stream.endedBy?, kind]
  | refused is opens why =>
    refine .of_current ?_ fun _ => not_announces_of_refused sound why
    rcases why with htorn | ⟨new, -⟩
    · exact (EndsAs.refl l).congr fun serial =>
        (if_neg (by simp [sound.isOver_of_torn htorn serial])).symm
    · exact EndsAs.of_new (.refl l) new
  | crowded is message up new foreign sending =>
    exact (EndsAs.of_new sending.noneEnds new).of_current
      fun _ => not_announces_of_ne is (Kind.ending?_of_isMessage message).2
  | began is up new foreign dispatching =>
    have hself := stream_welcome_self l frame.id
    rcases dispatching.endsAs with ⟨starts, _, queueing⟩ | ⟨rfl, hends⟩
    · have haccept : (l.welcome frame.id).NoneEnds
          ((l.welcome frame.id).accept frame.id l.size) := .of_same fun _ => rfl
      have hwelcome := (EndsAs.welcome l frame.id).trans_none haccept
      exact (EndsAs.of_new (hwelcome.trans_none (queueing.noneEnds_of_start hself)) new).of_current
        (by simp [starts])
    · -- the stream begins with the frame, and ends with it
      refine ((EndsAs.welcome l frame.id).none_trans hends).congr fun other => ?_
      rw [endedBy?_of_announces (announces_of_new sound up is new foreign), hself]
      simp [show (Stream.start frame.id .acceptor l.settings.queueLimit).isOver = false from rfl]
  | @announced serial out l' is up current pending dispatching =>
    rcases dispatching.endsAs with ⟨starts, _, queueing⟩ | ⟨rfl, hends⟩
    · have haccept : l.NoneEnds (l.accept frame.id serial) := .of_same fun _ => rfl
      exact ((haccept.none_trans queueing.endsAs).congr fun other =>
        (endsCurrent?_of_data is rfl current other).symm).of_current (by simp [starts])
    · -- the stream waited, and ends without having been handed over
      refine hends.congr fun other => ?_
      rw [endedBy?_of_announces (announces_of_pending sound up is current pending)]
      simp [(sound.current current).1]
  | repeated is up current accepted queueing =>
    exact (queueing.endsAs.congr fun other =>
      (endsCurrent?_of_data is rfl current other).symm).of_current
        fun _ => not_announces_of_accepted sound current accepted
  | early is message up new foreign queueing =>
    have hnone := queueing.noneEnds_of_start (stream_welcome_self l frame.id)
    exact (EndsAs.of_new ((EndsAs.welcome l frame.id).trans_none hnone) new).of_current
      fun _ => not_announces_of_ne is (Kind.ending?_of_isMessage message).2
  | data is message up current queueing =>
    obtain ⟨hopens, hlate⟩ := Kind.ending?_of_isMessage message
    exact (queueing.endsAs.congr fun other =>
      (endsCurrent?_of_data is hopens current other).symm).of_current fun _ =>
        not_announces_of_ne is hlate
  | lost is ends isOver =>
    refine .of_current ((EndsAs.refl l).congr fun serial => ?_)
      fun _ => not_announces_of_ne is (Kind.isMessage_of_ending? ends).2
    by_cases hfind : l.find? frame.id = some serial
    · exact (if_neg (by simp [isOver serial hfind])).symm
    · exact (endsCurrent?_of_find?_ne hfind).symm
  | @ended kind ending serial is ends current live =>
    have hends := (EndsAs.finish ending live).trans_none (.sweep _ frame.id)
    refine .of_current (hends.congr fun other => ?_) fun _ =>
      not_announces_of_ne is (Kind.isMessage_of_ending? ends).2
    by_cases heq : other = serial
    · subst heq
      rw [if_pos rfl, endsCurrent?, if_pos ⟨live, current⟩, Stream.endedBy?_of_ends is ends]
    · rw [if_neg heq, endsCurrent?_of_find?_ne]
      exact fun hfind => heq (Option.some.inj (hfind.symm.trans current))

end Receiving

end Ledger

namespace Mux

variable {m m' : Mux}

theorem Opens.noneEnds {label : Option String} {result : Mux × Except Fault Nat}
    (h : m.Opens label result) : m.ledger.NoneEnds result.1.ledger := by
  cases h with
  | refused fault => exact .refl _
  | @opened after id ids up draw passes ledger =>
    rw [ledger]
    exact (Ledger.EndsAs.register m.ledger id ids).trans_none (.of_same fun _ => rfl)
  | @torn after id ids fault up draw passes ledger =>
    rw [ledger]
    exact (Ledger.EndsAs.register m.ledger id ids).trans_none (.tear _)

theorem Writes.noneEnds {serial : Nat} {data : Bytes} {result : Mux × Except Fault Nat}
    (h : m.Writes serial data result) : m.ledger.NoneEnds result.1.ledger := by
  cases h with
  | refused fault => exact .refl _
  | written size live up passes ledger => exact .of_eq ledger
  | torn fault up passes ledger =>
    rw [ledger]
    exact .tear _

theorem Reads.noneEnds {serial : Nat} {result : Mux × Reading} (h : m.Reads serial result) :
    m.ledger.NoneEnds result.1.ledger := by
  cases h with
  | chunk front passes ledger =>
    rw [ledger]
    exact .put rfl
  | blocked live drained => exact .refl _
  | ended isOver drained verdict passes ledger =>
    rw [ledger]
    exact .sweep _ _

/-- A stream that is open is ended, and one that is over stays as it is. -/
theorem Terminates.endsAs {serial : Nat} {ending : Ending} {result : Mux × Except Fault Unit}
    (h : m.Terminates serial ending result) :
    m.ledger.EndsAs (fun other => if (m.ledger.stream other).isOver = false ∧ serial = other then
      some ending else none) result.1.ledger := by
  have hlive : (m.ledger.stream serial).isOver = false → ∀ other,
      (if other = serial then some ending else none) =
        if (m.ledger.stream other).isOver = false ∧ serial = other then some ending else none := by
    intro live other
    by_cases heq : other = serial
    · simp [heq, live]
    · simp [heq, Ne.symm heq]
  cases h with
  | idle result isOver =>
    refine (Ledger.EndsAs.refl _).congr fun other => (if_neg ?_).symm
    rintro ⟨hlive, rfl⟩
    rw [isOver] at hlive
    cases hlive
  | told live up passes ledger =>
    rw [ledger]
    exact ((Ledger.EndsAs.finish ending live).trans_none (.sweep _ _)).congr (hlive live)
  | untold fault live why passes ledger =>
    rw [ledger]
    exact ((Ledger.EndsAs.finish ending live).trans_none (.sweep _ _)).congr (hlive live)
  | torn fault live up passes ledger =>
    rw [ledger]
    exact ((Ledger.EndsAs.finish ending live).trans_none (.tear _)).congr (hlive live)

theorem noneEnds_tearDown (m : Mux) (cause : Cause) :
    m.ledger.NoneEnds (m.tearDown cause).ledger := by
  by_cases htorn : m.tornDown = true
  · rw [tearDown_of_torn htorn]
    exact .refl _
  · rw [ledger_tearDown (by simpa using htorn)]
    exact .tear _

theorem Quiet.noneEnds (h : m.Quiet m') : m.ledger.NoneEnds m'.ledger := by
  cases h with
  | idle short => exact .refl _
  | fed waiting read => exact .refl _
  | stopped conditions fault gone =>
    rcases (stops { m with conditions } fault gone).2 with ⟨-, heq⟩ | ⟨-, heq⟩
    · exact .of_eq heq
    · rw [heq]
      exact .tear _

theorem noneEnds_withHandle {place : Nat} {f : Nat → Mux × Answer}
    (h : ∀ handle, m.handles[place]? = some handle → handle.live = true →
      m.ledger.NoneEnds (f handle.serial).1.ledger) :
    m.ledger.NoneEnds (m.withHandle place f).1.ledger :=
  withHandle_ind (P := fun after => m.ledger.NoneEnds after.ledger) (.refl _) h

/-- **What an operation ends** is what it says. -/
theorem endsAs_perform (sound : m.ledger.Sound) (op : Op) :
    m.ledger.EndsAs (m.ends? op) (m.perform op).1.ledger := by
  cases op with
  | openStream label => exact (opens m label).noneEnds
  | write place payload =>
    exact noneEnds_withHandle fun handle _ _ => (writes m handle.serial _).noneEnds
  | finish place ending =>
    simp only [perform, m.withHandle_eq place]
    rcases hholder : m.ledger.holder? place with _ | handle
    · refine (Ledger.EndsAs.refl _).congr fun serial => ?_
      simp [ends?, hholder]
    · refine (terminates m handle.serial ending).endsAs.congr fun serial => ?_
      simp only [ends?, hholder, Option.map_some, Option.some.injEq]
      rfl
  | read place => exact noneEnds_withHandle fun handle _ _ => (reads m handle.serial).noneEnds
  | drop place =>
    refine noneEnds_withHandle fun handle hplace hlive => ?_
    rw [ledger_drop hplace hlive]
    exact .drop _ _ _
  | send frame =>
    obtain ⟨out, l, hsending, hleads⟩ := sends_leads m frame
    have hends := hsending.noneEnds
    rw [← hleads.ledger] at hends
    exact hends
  | readById id =>
    simp only [perform, readById]
    split
    · exact .refl _
    · exact (reads m _).noneEnds
  | close => exact m.noneEnds_tearDown .closedHere
  | turn =>
    rcases hupcoming : m.upcoming? with _ | frame
    · have hends : m.ends? .turn = fun _ => none := by
        funext serial
        simp [ends?, hupcoming]
      rw [hends]
      rcases quiet_perform_turn hupcoming with heq | hquiet
      · exact .of_eq (congrArg ledger heq)
      · exact hquiet.noneEnds
    · obtain ⟨-, out, hreceiving, -⟩ := receives_turn hupcoming
      refine (hreceiving.endsAs sound).congr fun serial => ?_
      simp only [ends?, hupcoming, Option.bind_some]
  | arrive chunk =>
    simp only [perform]
    split <;> exact .refl _
  | readFar size => exact .refl _
  | closeFar => exact .refl _
  | closeLink => exact .of_eq m.shut_keeps.2.1
  | resetLink => exact .refl _
  | adjust conditions => exact .refl _

theorem ends?_of_isOver {op : Op} {serial : Nat} (hlt : serial < m.ledger.size)
    (h : (m.registry.stream serial).isOver = true) : m.ends? op serial = none := by
  unfold ends?
  split
  · rw [if_neg fun hlive => by simp [h] at hlive]
  · rcases m.upcoming? with _ | frame
    · rfl
    · exact Ledger.endedBy?_of_isOver hlt h
  · rfl

/-! ### In a run -/

/-- How a stream was ended meanwhile, each time that it was. -/
def endings (m : Mux) (ops : List Op) (serial : Nat) : List Ending :=
  (m.trail ops).filterMap fun step => step.1.ends? step.2 serial

variable {side : Side} {settings : Settings} {ops : List Op}

theorem endings_concat (ops : List Op) (op : Op) (serial : Nat) :
    (start side settings).endings (ops ++ [op]) serial =
      (start side settings).endings ops serial ++
        ((run side settings ops).ends? op serial).toList := by
  rw [endings, trail_append, List.filterMap_append]
  congr 1

/-- **A stream is ended once at most**, and its ending says how; nothing is ended that is not
there. -/
theorem ending_run (side : Side) (settings : Settings) (ops : List Op) (serial : Nat) :
    (start side settings).endings ops serial =
      ((run side settings ops).registry.stream serial).ending.toList := by
  change _ = ((run side settings ops).ledger.stream serial).ending.toList
  induction ops using List.reverseRecOn with
  | nil => rfl
  | append_singleton ops op ih =>
    have hends := endsAs_perform (sound_run side settings ops) op serial
    rw [endings_concat, ih, run_concat, hends]
    rcases hending : ((run side settings ops).ledger.stream serial).ending with _ | ending
    · rfl
    · have hover : ((run side settings ops).ledger.stream serial).isOver = true :=
        Stream.isOver_iff.mpr (Or.inl (by simp [hending]))
      have hlt : serial < (run side settings ops).ledger.size := by
        by_contra hge
        rw [Ledger.stream, Registry.stream_of_le (Nat.le_of_not_lt hge)] at hending
        cases hending
      rw [ends?_of_isOver hlt hover]
      rfl

end Mux

end StreamMux
