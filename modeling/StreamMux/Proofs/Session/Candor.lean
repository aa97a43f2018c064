import StreamMux.Proofs.Session.Alike
import StreamMux.Proofs.Session.History

/-!
# What the two sides know of an end

`Ledger.Candid` relates the history of a session to the ends of its streams, as long as the
connection is not torn down: the end of a stream with a handle was told to the peer, or by it; and a
stream that the peer ended is over.

The lemmas say that everything a session does keeps this, one lemma for each thing.  Ending a stream
and telling the peer of it are one thing here.
-/

namespace StreamMux.Ledger

variable {l l' : Ledger} {h h' : History}

/-- The ends of streams with handles are known at both sides, or are on their way. -/
structure Candid (l : Ledger) (h : History) : Prop where
  /-- What the peer ended is over. -/
  heeded : ∀ {id}, EndedBy h.got id → l.tornDown = true ∨
    ∃ i ∈ l.serials, (l.stream i).id = id ∧ (l.stream i).isOver = true
  /-- What is over was told to the peer, or by it. -/
  told : ∀ {i}, i ∈ l.serials → (l.stream i).isOver = true →
    l.tornDown = true ∨ EndedBy h.sent (l.stream i).id ∨ EndedBy h.got (l.stream i).id

namespace Candid

theorem of_torn (htorn : l.tornDown = true) : l.Candid h :=
  ⟨fun _ => Or.inl htorn, fun _ _ => Or.inl htorn⟩

/-- Frames may be sent and applied and streams may end, as long as the ends are known. -/
theorem alike (c : l.Candid h) (a : l.Alike l')
    (hgot : ∀ {id}, EndedBy h.got id → EndedBy h'.got id)
    (hsent : ∀ {id}, EndedBy h.sent id → EndedBy h'.sent id)
    (hheeded : ∀ {id}, EndedBy h'.got id → EndedBy h.got id ∨ l.tornDown = true ∨
      ∃ i ∈ l.serials, (l.stream i).id = id ∧ (l'.stream i).isOver = true)
    (htold : ∀ {i}, i ∈ l.serials → (l'.stream i).isOver = true → (l.stream i).isOver = true ∨
      EndedBy h'.sent (l.stream i).id ∨ EndedBy h'.got (l.stream i).id) : l'.Candid h' where
  heeded {id} hended := by
    have hover : l.tornDown = true ∨
        ∃ i ∈ l.serials, (l.stream i).id = id ∧ (l'.stream i).isOver = true := by
      rcases hheeded hended with hbefore | hnow
      · exact (c.heeded hbefore).imp_right
          fun ⟨i, hi, hid, hover⟩ => ⟨i, hi, hid, a.isOver i hover⟩
      · exact hnow
    rw [a.serials]
    exact hover.imp a.torn fun ⟨i, hi, hid, hover⟩ => ⟨i, hi, (a.id i).trans hid, hover⟩
  told {i} hi hover := by
    rw [a.serials] at hi
    rw [a.id]
    rcases htold hi hover with hbefore | hnow
    · exact (c.told hi hbefore).imp a.torn (Or.imp hsent hgot)
    · exact Or.inr hnow

theorem still (c : l.Candid h) (a : l.Alike l')
    (hover : ∀ i, (l'.stream i).isOver = (l.stream i).isOver) (hgot : h'.got = h.got)
    (hsent : ∀ {id}, EndedBy h.sent id → EndedBy h'.sent id) : l'.Candid h' :=
  c.alike a (fun hended => hgot ▸ hended) hsent (fun hended => Or.inl (hgot ▸ hended))
    fun {i} _ hafter => Or.inl ((hover i).symm.trans hafter)

theorem sweep (c : l.Candid h) (id : UInt64) : (l.sweep id).Candid h :=
  c.still (.sweep l id) (fun i => by rw [stream_sweep]) rfl fun hended => hended

theorem overflow (c : l.Candid h) (serial : Nat) : (l.overflow serial).Candid h :=
  c.still (.overflow l serial) (fun _ => rfl) rfl fun hended => hended

theorem drop (c : l.Candid h) {place : Nat} {handle : Handle}
    (hplace : l.handles[place]? = some handle) : (l.drop place handle).Candid h := by
  refine c.still (.drop hplace) (fun i => ?_) rfl fun hended => hended
  rw [stream_drop]

theorem put_queue (c : l.Candid h) (serial : Nat) (queue : List Bytes) :
    (l.put serial { l.stream serial with queue }).Candid h := by
  refine c.still (.put rfl rfl rfl fun hover => hover) (fun i => ?_) rfl fun hended => hended
  rcases l.stream_put serial { l.stream serial with queue } i with ⟨rfl, heq⟩ | heq <;> rw [heq]
  rfl

theorem of_same (c : l.Candid h) (hgot : h'.got = h.got)
    (hsent : ∀ {id}, EndedBy h.sent id → EndedBy h'.sent id) : l.Candid h' :=
  c.still (.refl l) (fun _ => rfl) hgot hsent

theorem emit (c : l.Candid h) (out : List Frame) : l.Candid (h.emit out) :=
  c.of_same rfl fun ⟨frame, hmem, hends⟩ => ⟨frame, List.mem_append_left _ hmem, hends⟩

theorem tell (c : l.Candid h) {serial : Nat} (ending : Ending) (id : UInt64) :
    ((l.finish serial ending).sweep id).Candid (h.emit [(l.stream serial).farewell ending]) := by
  have halike := (Alike.finish l serial ending).trans (.sweep _ id)
  refine c.alike halike (fun hended => hended)
    (fun hended => endedBy_concat.mpr (Or.inl hended)) Or.inl ?_
  intro i _ hover
  rw [stream_sweep] at hover
  rcases l.stream_put serial { l.stream serial with ending := some ending } i with
    ⟨rfl, -⟩ | heq
  · exact Or.inr (Or.inl (endedBy_concat.mpr (Or.inr ((l.stream i).farewell_ends ending))))
  · rw [finish, heq] at hover
    exact Or.inl hover

/-! ### Applying a frame -/

theorem get (c : l.Candid h) {frame : Frame}
    (hends : frame.Ends frame.id → l.tornDown = true ∨
      ∃ i ∈ l.serials, (l.stream i).id = frame.id ∧ (l.stream i).isOver = true) :
    l.Candid (h.get frame) := by
  refine c.alike (.refl l) (fun hended => endedBy_concat.mpr (Or.inl hended))
    (fun hended => hended) ?_ fun _ hover => Or.inl hover
  intro id hended
  rcases endedBy_concat.mp hended with hbefore | hframe
  · exact Or.inl hbefore
  · obtain rfl := hframe.1
    exact Or.inr (hends hframe)

/-- A frame is applied that ends a stream, which has a handle or shares its number with one that is
over. -/
theorem heed (c : l.Candid h) {frame : Frame} {serial : Nat} (ending : Ending)
    (hlive : (l.stream serial).isOver = false) (hends : frame.Ends (l.stream serial).id)
    (howner : serial ∈ l.serials ∨
      ∃ k ∈ l.serials, (l.stream k).id = (l.stream serial).id ∧ (l.stream k).isOver = true)
    (id : UInt64) : ((l.finish serial ending).sweep id).Candid (h.get frame) := by
  have halike := (Alike.finish l serial ending).trans (.sweep _ id)
  have hself := isOver_finish_self hlive ending
  refine c.alike halike (fun hended => endedBy_concat.mpr (Or.inl hended))
    (fun hended => hended) ?_ ?_
  · intro other hended
    rcases endedBy_concat.mp hended with hbefore | hframe
    · exact Or.inl hbefore
    · obtain rfl : (l.stream serial).id = other := hends.1.symm.trans hframe.1
      right; right
      rcases howner with hmem | ⟨k, hk, hid, hover⟩
      · exact ⟨serial, hmem, rfl, by rw [stream_sweep]; exact hself⟩
      · exact ⟨k, hk, hid, halike.isOver k hover⟩
  · intro i _ hover
    rw [stream_sweep] at hover
    rcases l.stream_put serial { l.stream serial with ending := some ending } i with
      ⟨rfl, -⟩ | heq
    · exact Or.inr (Or.inr (endedBy_concat.mpr (Or.inr hends)))
    · rw [finish, heq] at hover
      exact Or.inl hover

/-! ### Streams that begin -/

theorem enroll {id : UInt64} (c : l.Candid h) (sound : l.Sound) (e : l.Enrolls id l')
    (hgot : ∀ {other}, EndedBy h'.got other ↔ EndedBy h.got other)
    (hsent : ∀ {other}, EndedBy h.sent other → EndedBy h'.sent other) : l'.Candid h' where
  heeded hended := by
    rw [e.torn]
    refine (c.heeded (hgot.mp hended)).imp_right fun ⟨i, hi, hid, hover⟩ => ?_
    have hlt := lt_of_mem_serials sound hi
    exact ⟨i, (e.mem_iff hlt).mpr hi, by rw [e.old hlt, hid], by rw [e.old hlt, hover]⟩
  told {i} hi hover := by
    rw [e.torn]
    rcases e.cases_of_mem hi with rfl | hi
    · rw [e.live] at hover
      cases hover
    · rw [e.old (lt_of_mem_serials sound hi)] at hover ⊢
      exact (c.told hi hover).imp_right (Or.imp hsent hgot.mpr)

theorem welcome (c : l.Candid h) (sound : l.Sound) (id : UInt64) : (l.welcome id).Candid h where
  heeded hended := (c.heeded hended).imp_right fun ⟨i, hi, hid, hover⟩ => by
    have hlt := lt_of_mem_serials sound hi
    exact ⟨i, hi, by rw [stream_welcome_of_lt hlt, hid], by rw [stream_welcome_of_lt hlt, hover]⟩
  told {i} hi hover := by
    rw [stream_welcome_of_lt (lt_of_mem_serials sound hi)] at hover ⊢
    exact c.told hi hover

end Candid

theorem candid_start (side : Side) (settings : Settings) :
    Candid { side, settings, ids := Ids.ofSide side, registry := {}, handles := [],
             tornDown := false, overflows := [] } {} where
  heeded hended := by
    obtain ⟨frame, hmem, -⟩ := hended
    cases hmem
  told hi := by cases hi

end StreamMux.Ledger
