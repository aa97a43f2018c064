import StreamMux.Proofs.Session.Candor
import StreamMux.Proofs.Session.Mail

/-!
# Sessions keep the order

`Ledger.Orderly` is the census together with the mail and with what both sides know of an end.  A
session keeps all three as long as the frames that it applies come in the order that `Follows`
describes, and are for streams that it can know.

* `Ledger.Orderly.receiving` — applying a frame keeps them;
* `Ledger.Orderly.told` — so does ending a stream and telling the peer of it.
-/

namespace StreamMux.Ledger

/-- However a stream is reset, the others stay as they are, and so do the handles. -/
theorem Cutting.alike {l l' : Ledger} {gone : Bool} {serial : Nat} {out : List Frame}
    (h : l.Cutting gone serial out l') : l.Alike l' := by
  cases h with
  | idle isOver => exact .refl l
  | told live up => exact (Alike.finish l serial .reset).trans (.sweep _ _)
  | untold live why => exact (Alike.finish l serial .reset).trans (.sweep _ _)
  | torn live up => exact (Alike.finish l serial .reset).trans (.tear _)

structure Orderly (l : Ledger) (h : History) : Prop where
  census : l.Census h
  mail : l.Mail h
  candid : l.Candid h

namespace Orderly

variable {l l' : Ledger} {h : History} {gone fails : Bool} {frame : Frame} {out : List Frame}

/-! ### Telling the peer -/

theorem mem_serials_of_opener (o : l.Orderly h) {id : UInt64} {serial : Nat}
    (hfind : l.find? id = some serial) (hrole : (l.stream serial).role = .opener) :
    serial ∈ l.serials := by
  rcases o.census.held hfind with hpending | hheld
  · obtain ⟨waiting, hwaiting, hacceptor, -⟩ := o.census.waiting hpending
    cases hwaiting.symm.trans hfind
    rw [hrole] at hacceptor
    cases hacceptor
  · exact mem_serials_iff.mpr hheld

/-- An open stream shares its number with one that has a handle: it is that one, or that one is
over. -/
theorem handled_of_live (o : l.Orderly h) {serial : Nat}
    (hlive : (l.stream serial).isOver = false) :
    serial ∈ l.serials ∨ ∃ k ∈ l.serials, (l.stream k).id = (l.stream serial).id ∧
      (l.stream k).isOver = true := by
  by_cases hmem : serial ∈ l.serials
  · exact Or.inl hmem
  · have hlt := Registry.lt_of_not_isOver hlive
    cases hrole : (l.stream serial).role with
    | opener =>
      exact absurd (o.mem_serials_of_opener (o.census.find?_of_live hlive) hrole) hmem
    | acceptor =>
      obtain ⟨q, k, hq, -, hid, hover, -⟩ := o.census.late hlt hrole hmem
      exact Or.inr ⟨k, List.mem_of_getElem? hq, hid, hover⟩

theorem follows_farewell (o : l.Orderly h) {serial : Nat}
    (hlive : (l.stream serial).isOver = false) (ending : Ending) :
    Follows l.side h.sent ((l.stream serial).farewell ending) := by
  have hlt := Registry.lt_of_not_isOver hlive
  have hends := (l.stream serial).farewell_ends ending
  refine ⟨⟨o.census.id_le hlt, Frame.flag_le_of_kind _, by simp [Stream.farewell, Frame.ofKind]⟩,
    fun hkind => absurd hends (Frame.Announces.not_ends ⟨rfl, hkind⟩ _), ?_, ?_⟩
  · intro _ hown
    change l.side.owns (l.stream serial).id = true at hown
    rw [← o.census.owns_eq] at hown
    have hrole := (o.census.role_iff hlt).mpr hown
    exact o.mail.opener (o.mem_serials_of_opener (o.census.find?_of_live hlive) hrole) hrole
  · intro hmessage
    rw [hends.not_message] at hmessage
    cases hmessage

/-- Data of an open stream with a handle may follow what was sent. -/
theorem follows_parcel (o : l.Orderly h) {place serial : Nat}
    (hplace : l.serials[place]? = some serial) (hlive : (l.stream serial).isOver = false)
    {data : Bytes} (hlength : data.length < 2 ^ 64) :
    Follows l.side h.sent ((l.stream serial).parcel data) := by
  have hlt := Registry.lt_of_not_isOver hlive
  have hmessage := (l.stream serial).isMessage_parcel data
  refine ⟨⟨o.census.id_le hlt, Frame.flag_le_of_kind _, hlength⟩, ?_, ?_, ?_⟩
  · intro hkind
    rw [Frame.isMessage_eq hkind] at hmessage
    cases hmessage
  · intro _ hown
    change l.side.owns (l.stream serial).id = true at hown
    rw [← o.census.owns_eq] at hown
    exact o.mail.opener (List.mem_of_getElem? hplace) ((o.census.role_iff hlt).mpr hown)
  · intro _ hended
    obtain ⟨k, hk, hid, hover⟩ := o.mail.isOver hended
    obtain ⟨q, hq⟩ := List.getElem?_of_mem hk
    obtain rfl := o.census.distinct hq hplace hid
    cases hq.symm.trans hplace
    rw [hlive] at hover
    cases hover

theorem told (o : l.Orderly h) {serial : Nat} (ending : Ending)
    (hlive : (l.stream serial).isOver = false)
    (hcause : ∀ q, l.serials[q]? = some serial → l.Caused h q serial)
    (hlate : serial ∈ l.serials ∨ EndedBy h.got (l.stream serial).id ∨
      (l.stream serial).queue ≠ []) (id : UInt64) :
    ((l.finish serial ending).sweep id).Orderly (h.emit [(l.stream serial).farewell ending]) := by
  have hcensus := (o.census.finish ending hlive hcause hlate).sweep id
  have hmail := (o.mail.finish serial ending).sweep id
  have halike := (Alike.finish l serial ending).trans (.sweep _ id)
  have hself := isOver_finish_self hlive ending
  have howner : ∃ k ∈ ((l.finish serial ending).sweep id).serials,
      (((l.finish serial ending).sweep id).stream k).id = (l.stream serial).id ∧
        (((l.finish serial ending).sweep id).stream k).isOver = true := by
    rcases o.handled_of_live hlive with hmem | ⟨k, hk, hid, hover⟩
    · exact ⟨serial, halike.serials ▸ hmem, halike.id serial, by rw [stream_sweep]; exact hself⟩
    · exact ⟨k, halike.serials ▸ hk, (halike.id k).trans hid, halike.isOver k hover⟩
  refine ⟨hcensus.of_same rfl fun _ => fun h => h, hmail.emit ?_ ?_ ?_ ?_,
    o.candid.tell ending id⟩
  · rw [halike.side]
    exact o.follows_farewell hlive ending
  · obtain ⟨k, hk, hid, -⟩ := howner
    exact ⟨k, hk, hid⟩
  · intro other hends
    obtain ⟨k, hk, hid, hover⟩ := howner
    exact ⟨k, hk, hid.trans hends.1, hover⟩
  · intro other
    simp [Frame.data?, Stream.farewell, Frame.ofKind]

/-! ### Applying a frame -/

/-- A stream with a handle that is over when data comes in was shut here. -/
theorem shut (o : l.Orderly h) (hfollows : Follows l.side.other h.got frame)
    (hmessage : frame.isMessage = true) {q i : Nat} (hq : l.serials[q]? = some i)
    (hid : (l.stream i).id = frame.id) (hover : (l.stream i).isOver = true) : l.Shut h q i := by
  refine ⟨hover, ?_⟩
  rcases o.census.cause hq hover with htorn | hended | hfull | hpeer
  · exact Or.inl htorn
  · exact Or.inr (Or.inl hended)
  · exact Or.inr (Or.inr hfull)
  · rw [hid] at hpeer
    exact absurd hpeer (hfollows.going hmessage)

/-- Apart from announcements, everything comes in for streams with handles only. -/
theorem heard (o : l.Orderly h) (hfollows : Follows l.side.other h.got frame)
    (hmine : l.side.owns frame.id = true → ∃ i ∈ l.serials, (l.stream i).id = frame.id)
    (hnew : frame.kind? ≠ some .newStream) :
    l.tornDown = true ∨ ∃ i ∈ l.serials, (l.stream i).id = frame.id := by
  cases hown : l.side.owns frame.id with
  | true => exact Or.inr (hmine hown)
  | false =>
    refine o.census.welcomed (hfollows.opened hnew ?_)
    rw [Side.owns_other, hown]
    rfl

/-- A frame that ends a stream is for one that is over, if no current one is open. -/
theorem over_of_lost (o : l.Orderly h) (hfollows : Follows l.side.other h.got frame)
    (hmine : l.side.owns frame.id = true → ∃ i ∈ l.serials, (l.stream i).id = frame.id)
    (hends : frame.Ends frame.id)
    (hlost : ∀ serial, l.find? frame.id = some serial → (l.stream serial).isOver = true) :
    l.tornDown = true ∨ ∃ i ∈ l.serials, (l.stream i).id = frame.id ∧
      (l.stream i).isOver = true := by
  refine (o.heard hfollows hmine fun hnew =>
    Frame.Announces.not_ends ⟨rfl, hnew⟩ _ hends).imp_right fun ⟨i, hi, hid⟩ => ⟨i, hi, hid, ?_⟩
  by_cases hcurrent : l.find? frame.id = some i
  · exact hlost i hcurrent
  · exact o.census.isOver_of_find?_ne hi (hid ▸ hcurrent)

theorem get (o : l.Orderly h) (hnew : frame.kind? = some .newStream → l.tornDown = true)
    (hheard : frame.isMessage = true →
      l.tornDown = true ∨ ∃ i ∈ l.serials, (l.stream i).id = frame.id)
    (hshut : ∀ {q i : Nat}, l.serials[q]? = some i → (l.stream i).id = frame.id →
      frame.isMessage = true → frame.payload ≠ [] → l.Shut h q i)
    (hends : frame.Ends frame.id → l.tornDown = true ∨
      ∃ i ∈ l.serials, (l.stream i).id = frame.id ∧ (l.stream i).isOver = true) :
    l.Orderly (h.get frame) := by
  refine ⟨o.census.get hnew, o.mail.get ?_ ?_, o.candid.get hends⟩
  · intro hdata
    exact hheard (Frame.data?_of_ne_none hdata).2.1
  · intro q i hq hdata
    obtain ⟨hid, hmessage, hpayload⟩ := Frame.data?_of_ne_none hdata
    exact hshut hq hid.symm hmessage hpayload

theorem get_ending (o : l.Orderly h) {id : UInt64} (hends : frame.Ends id) :
    l.Census (h.get frame) ∧ l.Mail (h.get frame) := by
  have hquiet : ∀ other, frame.data? other = none := fun other => by
    simp [Frame.data?, hends.not_message]
  refine ⟨o.census.get fun hnew => absurd hends (Frame.Announces.not_ends ⟨rfl, hnew⟩ id), ?_⟩
  exact o.mail.get (fun hdata => absurd (hquiet _) hdata) fun _ hdata => absurd (hquiet _) hdata

theorem not_own_of_other (o : l.Orderly h) {id : UInt64} (hother : l.side.other.owns id = true) :
    l.ids.owns id = false := by
  rw [Side.owns_other, ← o.census.owns_eq] at hother
  simpa using hother

theorem get_torn (o : l.Orderly h) (htorn : l.tornDown = true) : l.Orderly (h.get frame) :=
  o.get (fun _ => htorn) (fun _ => Or.inl htorn)
    (fun {_ i} _ _ _ _ => ⟨o.census.isOver_of_torn htorn i, Or.inl htorn⟩) fun _ => Or.inl htorn

theorem not_untold (o : l.Orderly h) (hgone : gone = true → l.tornDown = true) {serial : Nat}
    (hlive : (l.stream serial).isOver = false) {ending : Ending} :
    ¬ (gone = true ∨ ∃ fault, ((l.stream serial).farewell ending).encode = .error fault) := by
  rintro (hclosed | ⟨fault, hfault⟩)
  · rw [o.census.isOver_of_torn (hgone hclosed)] at hlive
    cases hlive
  · rw [Stream.farewell,
      Frame.encode_ofKind (o.census.id_le (Registry.lt_of_not_isOver hlive))] at hfault
    cases hfault

theorem queue_ne_nil_of_full (o : l.Orderly h) {serial : Nat}
    (hlive : (l.stream serial).isOver = false)
    (hfull : (l.stream serial).capacity ≤ (l.stream serial).queue.length) :
    (l.stream serial).queue ≠ [] := by
  intro hnil
  rw [hnil] at hfull
  exact Nat.not_lt_of_le hfull (o.census.roomy (Registry.lt_of_not_isOver hlive))

theorem mem_overflows (l : Ledger) (serial : Nat) :
    (l.stream serial).id ∈ (l.overflow serial).overflows :=
  List.mem_append_right _ (List.mem_singleton_self _)

/-- An open stream is reset, for a reason, and the peer is told unless the connection goes away. -/
theorem cutting (o : l.Orderly h) {serial : Nat} (hcutting : l.Cutting gone serial out l')
    (hgone : gone = true → l.tornDown = true) (hlive : (l.stream serial).isOver = false)
    (hcause : ∀ q, l.serials[q]? = some serial → l.Caused h q serial)
    (hlate : serial ∈ l.serials ∨ (l.stream serial).queue ≠ []) : l'.Orderly (h.emit out) := by
  have hlate : serial ∈ l.serials ∨ EndedBy h.got (l.stream serial).id ∨
      (l.stream serial).queue ≠ [] := hlate.imp_right Or.inr
  cases hcutting with
  | idle isOver =>
    rw [hlive] at isOver
    cases isOver
  | told live up => exact o.told .reset live hcause hlate _
  | untold live why => exact absurd why (o.not_untold hgone live)
  | torn live up =>
    rw [History.emit_nil]
    exact ⟨(o.census.finish .reset live hcause hlate).tear, (o.mail.finish serial .reset).tear,
      .of_torn rfl⟩

/-- The queue of the current stream is full when data comes in. -/
theorem overflowed (o : l.Orderly h) {serial : Nat}
    (hcutting : (l.overflow serial).Cutting gone serial out l')
    (hgone : gone = true → l.tornDown = true) (hlive : (l.stream serial).isOver = false)
    (hfull : (l.stream serial).capacity ≤ (l.stream serial).queue.length)
    (hmessage : frame.isMessage = true)
    (hheard : l.tornDown = true ∨ ∃ i ∈ l.serials, (l.stream i).id = frame.id)
    (hothers : ∀ {q i : Nat}, l.serials[q]? = some i → i ≠ serial →
      (l.stream i).id = frame.id → l.Shut h q i) :
    l'.Orderly ((h.get frame).emit out) := by
  have hover : (l.overflow serial).Orderly h :=
    ⟨o.census.overflow serial, o.mail.overflow serial, o.candid.overflow serial⟩
  have hcut := hover.cutting hcutting hgone hlive
    (fun _ _ => Or.inr (Or.inr (Or.inl (mem_overflows l serial))))
    (Or.inr (o.queue_ne_nil_of_full hlive hfull))
  have halike : l.Alike l' := (Alike.overflow l serial).trans hcutting.alike
  refine hcut.get (fun hkind => absurd hkind (Frame.ne_newStream_of_isMessage hmessage)) ?_ ?_
    fun hends => absurd hmessage (by simp [hends.not_message])
  · intro _
    rcases hheard with htorn | ⟨i, hi, heq⟩
    · exact Or.inl (halike.torn htorn)
    · exact Or.inr ⟨i, halike.serials ▸ hi, (halike.id i).trans heq⟩
  · intro q i hq heq _ _
    rw [halike.serials] at hq
    rw [halike.id] at heq
    by_cases hsame : i = serial
    · subst hsame
      refine ⟨hcutting.isOver, Or.inr (Or.inr ?_)⟩
      rw [halike.id]
      exact hcutting.alike.overflows _ (mem_overflows l i)
    · exact (hothers hq hsame heq).alike halike fun _ => id

theorem queueing (o : l.Orderly h) {serial : Nat}
    (hqueueing : l.Queueing gone serial frame.payload out l')
    (hgone : gone = true → l.tornDown = true) (hfollows : Follows l.side.other h.got frame)
    (hmessage : frame.isMessage = true)
    (hheard : l.tornDown = true ∨ ∃ i ∈ l.serials, (l.stream i).id = frame.id)
    (hfind : l.find? frame.id = some serial) : l'.Orderly ((h.get frame).emit out) := by
  have hid : (l.stream serial).id = frame.id := (o.census.current hfind).2
  have hnew := Frame.ne_newStream_of_isMessage hmessage
  have hgoing : ∀ {P : Prop}, frame.Ends frame.id → P := fun hends =>
    absurd hmessage (by simp [hends.not_message])
  -- of the streams with this number, all but the current one are over
  have hothers : ∀ {q i : Nat}, l.serials[q]? = some i → i ≠ serial → (l.stream i).id = frame.id →
      l.Shut h q i := fun {q i} hq hne heq => by
    refine o.shut hfollows hmessage hq heq
      (o.census.isOver_of_find?_ne (List.mem_of_getElem? hq) ?_)
    rw [heq, hfind]
    exact fun hsome => hne (Option.some.inj hsome).symm
  cases hqueueing with
  | idle why =>
    rw [History.emit_nil]
    refine o.get (fun hkind => absurd hkind hnew) (fun _ => hheard) ?_ hgoing
    intro q i hq heq _ hdata
    by_cases hsame : i = serial
    · subst hsame
      exact o.shut hfollows hmessage hq heq (why.resolve_left hdata)
    · exact hothers hq hsame heq
  | queued data live room =>
    rw [History.emit_nil]
    refine ⟨(o.census.put_queue (Or.inr live)).get fun hkind => absurd hkind hnew, ?_,
      (o.candid.put_queue serial _).get hgoing⟩
    exact o.mail.deliver live hid (Frame.data?_self hmessage data) hheard
      fun hq hne heq => hothers hq hne heq
  | full data live full cutting =>
    exact o.overflowed cutting hgone live full hmessage hheard hothers

/-- If no stream is current with the number of the data that comes in, those that had this number
were shut here. -/
theorem shut_of_new (o : l.Orderly h) (hfollows : Follows l.side.other h.got frame)
    (new : l.find? frame.id = none) (hmessage : frame.isMessage = true) {q i : Nat}
    (hq : l.serials[q]? = some i) (hid : (l.stream i).id = frame.id) : l.Shut h q i :=
  o.shut hfollows hmessage hq hid
    (o.census.isOver_of_find?_ne (List.mem_of_getElem? hq) (by rw [hid, new]; simp))

/-- What opens no stream and ends none changes nothing, if no stream is current with its number. -/
theorem get_new (o : l.Orderly h) (hfollows : Follows l.side.other h.got frame)
    (hmine : l.side.owns frame.id = true → ∃ i ∈ l.serials, (l.stream i).id = frame.id)
    (new : l.find? frame.id = none) (hopens : frame.kind? ≠ some .newStream)
    (hgoing : ¬ frame.Ends frame.id) : l.Orderly (h.get frame) :=
  o.get (fun hkind => absurd hkind hopens) (fun _ => o.heard hfollows hmine hopens)
    (fun hq hid hmessage _ => o.shut_of_new hfollows new hmessage hq hid)
    fun hends => absurd hends hgoing

/-- An announcement is of a number that no current stream has. -/
theorem find?_of_opening (o : l.Orderly h) (hfollows : Follows l.side.other h.got frame)
    (is : frame.kind? = some .newStream) : l.find? frame.id = none := by
  obtain ⟨hother, hfirst, -⟩ := hfollows.opening is
  cases hfind : l.find? frame.id with
  | none => rfl
  | some serial =>
    obtain ⟨hlt, hid⟩ := o.census.current hfind
    exact absurd hid (o.census.id_ne_of_not_announced (o.not_own_of_other hother) hfirst hlt)

/-- The peer is told that a stream of its own is reset, whose number no current stream has. -/
theorem turned_away (o : l.Orderly h) {id : UInt64} (hfits : id ≤ Header.maxId)
    (hforeign : l.side.owns id = false)
    (hover : ∃ k ∈ l.serials, (l.stream k).id = id ∧ (l.stream k).isOver = true) :
    l.Orderly (h.emit [.ofKind id .resetAcceptor []]) := by
  obtain ⟨k, hk, hid, hover⟩ := hover
  have his : (Frame.ofKind id .resetAcceptor []).kind? = some .resetAcceptor :=
    Frame.kind?_ofKind ..
  have hfollows : Follows l.side h.sent (.ofKind id .resetAcceptor []) := by
    refine ⟨⟨hfits, Frame.flag_le_of_kind _, by simp [Frame.ofKind]⟩, ?_, ?_, ?_⟩
    · intro hkind
      cases his.symm.trans hkind
    · intro _ hmine
      cases hforeign.symm.trans hmine
    · intro hmessage
      rw [Frame.isMessage_eq his] at hmessage
      cases hmessage
  exact ⟨o.census.of_same rfl fun _ hended => hended,
    o.mail.emit hfollows ⟨k, hk, hid⟩ (fun hends => ⟨k, hk, hid.trans hends.1, hover⟩)
      fun other => by simp [Frame.data?, Frame.ofKind],
    o.candid.emit _⟩

/-- Data comes in that would begin one pending stream too many. -/
theorem crowded (o : l.Orderly h)
    (hsending : l.Sending gone (.ofKind frame.id .resetAcceptor []) out l')
    (hgone : gone = true → l.tornDown = true) (hfollows : Follows l.side.other h.got frame)
    (hmine : l.side.owns frame.id = true → ∃ i ∈ l.serials, (l.stream i).id = frame.id)
    (hmessage : frame.isMessage = true) (up : l.tornDown = false) (new : l.find? frame.id = none)
    (hforeign : l.side.owns frame.id = false) : l'.Orderly ((h.get frame).emit out) := by
  have hopens := Frame.ne_newStream_of_isMessage hmessage
  have hgot : l.Orderly (h.get frame) := o.get_new hfollows hmine new hopens
    fun hends => absurd hmessage (by simp [hends.not_message])
  have hfits : frame.id ≤ Header.maxId := hfollows.fits.id_le
  cases hsending with
  | refused why =>
    rcases why with hclosed | ⟨fault, hfault⟩
    · rw [hgone hclosed] at up
      cases up
    · rw [Frame.encode_ofKind hfits] at hfault
      cases hfault
  | sent open_ =>
    obtain ⟨k, hk, hid⟩ := (o.heard hfollows hmine hopens).resolve_left (by simp [up])
    have hover := o.census.isOver_of_find?_ne hk (by rw [hid, new]; simp)
    exact hgot.turned_away hfits hforeign ⟨k, hk, hid, hover⟩
  | torn open_ =>
    rw [History.emit_nil]
    exact ⟨hgot.census.tear, hgot.mail.tear, .of_torn rfl⟩

/-- A stream of the peer is announced, and this side takes it up. -/
theorem began (o : l.Orderly h) (hfollows : Follows l.side.other h.got frame)
    (is : frame.kind? = some .newStream) (up : l.tornDown = false)
    (new : l.find? frame.id = none) (foreign : l.ids.owns frame.id = false) :
    ((l.welcome frame.id).accept frame.id l.size).Orderly (h.get frame) := by
  obtain ⟨-, hfirst, hempty⟩ := hfollows.opening is
  have hgoing : ∀ id, ¬ frame.Ends id := Frame.Announces.not_ends ⟨rfl, is⟩
  refine ⟨o.census.began is up new foreign hfollows.fits.id_le hfirst,
    o.mail.began o.census hempty up foreign hfirst, ?_⟩
  refine o.candid.enroll o.census.toSound
    (.began (o.census.id_ne_of_not_announced foreign hfirst)) ⟨?_, ?_⟩ fun hended => hended
  · exact fun hended => (endedBy_concat.mp hended).resolve_right (hgoing _)
  · exact fun hended => endedBy_concat.mpr (Or.inl hended)

/-- A stream of the peer is announced, and its handler cannot be started. -/
theorem misstarted (o : l.Orderly h) (hfollows : Follows l.side.other h.got frame)
    (is : frame.kind? = some .newStream) (up : l.tornDown = false)
    (new : l.find? frame.id = none) (foreign : l.ids.owns frame.id = false)
    (hgone : gone = true → l.tornDown = true)
    (hcutting : ((l.welcome frame.id).misstart frame.id l.size).Cutting gone l.size out l') :
    l'.Orderly (((h.get frame).finish l.handles.length).emit out) := by
  have hbegan := o.began hfollows is up new foreign
  have hplace : ((l.welcome frame.id).accept frame.id l.size).handles[l.handles.length]? = _ :=
    getElem?_handles_accept (l := l.welcome frame.id)
  have hended : ((l.welcome frame.id).misstart frame.id l.size).Orderly
      ((h.get frame).finish l.handles.length) :=
    ⟨(hbegan.census.drop hplace).of_same rfl fun _ => Or.inr,
      (hbegan.mail.drop hplace).ended l.handles.length,
      (hbegan.candid.drop hplace).of_same rfl fun hended => hended⟩
  have hserial : ((l.welcome frame.id).misstart frame.id l.size).serials[l.handles.length]? =
      some l.size := by
    have hhandles := handles_misstart (l.welcome frame.id) frame.id l.size
    rw [show (l.welcome frame.id).handles = l.handles from rfl] at hhandles
    simp [serials, hhandles]
  refine hended.cutting hcutting (fun hclosed => ?_) ?_ (fun q hq => ?_)
    (Or.inl (List.mem_of_getElem? hserial))
  · rw [tornDown_misstart]
    exact hgone hclosed
  · rw [stream_misstart, stream_welcome_self]
    rfl
  · exact Or.inr (Or.inl (Or.inl (hended.census.distinct hq hserial rfl)))

/-- Data comes in for a stream of the peer that is not current: it is taken up again, and waits. -/
theorem early (o : l.Orderly h) (hfollows : Follows l.side.other h.got frame)
    (hmessage : frame.isMessage = true) (up : l.tornDown = false)
    (new : l.find? frame.id = none) (foreign : l.ids.owns frame.id = false) :
    (l.welcome frame.id).Orderly h := by
  have hother : l.side.other.owns frame.id = true := by
    rw [Side.owns_other, ← o.census.owns_eq, foreign]
    rfl
  have hannounced : Announced h.got frame.id :=
    hfollows.opened (Frame.ne_newStream_of_isMessage hmessage) hother
  exact ⟨o.census.welcome up new foreign hfollows.fits.id_le hannounced (hfollows.going hmessage),
    o.mail.welcome o.census frame.id, o.candid.welcome o.census.toSound frame.id⟩

theorem ended (o : l.Orderly h) {ending : Ending} {serial : Nat}
    (hends : frame.Ends frame.id) (current : l.find? frame.id = some serial)
    (live : (l.stream serial).isOver = false) :
    ((l.finish serial ending).sweep frame.id).Orderly (h.get frame) := by
  obtain ⟨hcensus, hmail⟩ := o.get_ending hends
  rw [← show (l.stream serial).id = frame.id from (o.census.current current).2] at hends
  have hpeer : EndedBy (h.get frame).got (l.stream serial).id :=
    endedBy_concat.mpr (Or.inr hends)
  exact ⟨(hcensus.finish ending live (fun _ _ => Or.inr (Or.inr (Or.inr hpeer)))
      (Or.inr (Or.inl hpeer))).sweep frame.id, (hmail.finish serial ending).sweep frame.id,
    o.candid.heed ending live hends (o.handled_of_live live) frame.id⟩

theorem receiving (o : l.Orderly h) (hreceiving : l.Receiving gone fails frame out l')
    (hgone : gone = true → l.tornDown = true) (hfollows : Follows l.side.other h.got frame)
    (hmine : l.side.owns frame.id = true → ∃ i ∈ l.serials, (l.stream i).id = frame.id) :
    l'.Orderly ((h.get frame).emit out) ∨
      l'.handles = l.handles ++ [{ serial := l.size, label := none, live := false }] ∧
        l'.Orderly (((h.get frame).finish l.handles.length).emit out) := by
  have hown : ∀ {id}, l.ids.owns id = false → l.side.owns id = false := fun {id} hforeign => by
    rw [← o.census.owns_eq, hforeign]
  have hheard := fun hmessage =>
    o.heard hfollows hmine (Frame.ne_newStream_of_isMessage hmessage)
  cases hreceiving with
  | reserved kind =>
    have hquiet : frame.isMessage = false := by simp [Frame.isMessage, kind]
    rw [History.emit_nil]
    refine Or.inl (o.get ?_ hheard ?_ ?_)
    · intro hnew
      cases kind.symm.trans hnew
    · intro q i _ _ hmessage
      cases hquiet.symm.trans hmessage
    · rintro ⟨-, other, ending, is, -⟩
      cases kind.symm.trans is
  | refused is opens why =>
    rw [History.emit_nil]
    rcases why with htorn | ⟨new, own⟩
    · exact Or.inl (o.get_torn htorn)
    · refine Or.inl (o.get_new hfollows hmine new ?_ fun hends =>
        absurd opens (hends.ending?_ne_none is))
      intro hnew
      have hother := (hfollows.opening hnew).1
      rw [Side.owns_other, ← o.census.owns_eq, own] at hother
      cases hother
  | crowded is message up new foreign sending =>
    exact Or.inl (o.crowded sending hgone hfollows hmine ((Frame.isMessage_eq is).trans message) up
      new (hown foreign))
  | began is up new foreign dispatching =>
    cases dispatching with
    | called starts queueing =>
      -- an announcement comes without data, and there is nothing to queue
      have hempty : frame.payload = [] := (hfollows.opening is).2.2
      obtain ⟨rfl, rfl⟩ := queueing.eq_self (Or.inl hempty)
      rw [History.emit_nil]
      exact Or.inl (o.began hfollows is up new foreign)
    | unstarted stuck cutting =>
      exact Or.inr ⟨cutting.handles.trans (handles_misstart ..),
        o.misstarted hfollows is up new foreign hgone cutting⟩
  | announced is up current pending dispatching =>
    cases (o.find?_of_opening hfollows is).symm.trans current
  | repeated is up current accepted queueing =>
    cases (o.find?_of_opening hfollows is).symm.trans current
  | early is message up new foreign queueing =>
    have hmessage : frame.isMessage = true := (Frame.isMessage_eq is).trans message
    refine Or.inl ((o.early hfollows hmessage up new foreign).queueing queueing hgone hfollows
      hmessage ?_ (by rw [find?_welcome, if_pos rfl]))
    obtain ⟨k, hk, hid⟩ := (hheard hmessage).resolve_left (by simp [up])
    exact Or.inr ⟨k, hk, by rw [stream_welcome_of_lt (o.census.lt_of_mem hk), hid]⟩
  | data is message up current queueing =>
    have hmessage : frame.isMessage = true := (Frame.isMessage_eq is).trans message
    exact Or.inl (o.queueing queueing hgone hfollows hmessage (hheard hmessage) current)
  | @lost kind ending is ends isOver =>
    rw [History.emit_nil]
    have hends : frame.Ends frame.id := ⟨rfl, kind, ending, is, ends⟩
    obtain ⟨hcensus, hmail⟩ := o.get_ending hends
    exact Or.inl
      ⟨hcensus, hmail, o.candid.get fun _ => o.over_of_lost hfollows hmine hends isOver⟩
  | @ended kind ending serial is ends current live =>
    rw [History.emit_nil]
    exact Or.inl (o.ended ⟨rfl, kind, ending, is, ends⟩ current live)

end Orderly

end StreamMux.Ledger
