import StreamMux.Proofs.Network.Pipeline
import StreamMux.Proofs.Session.Malformed
import StreamMux.Proofs.Wire.Oversize

/-!
# The limit on payloads

The limit on payloads binds the reader of a link and nobody else.  Whoever sends more than that gets
it written, and the frame ends the loop of a peer that keeps the same limit.

* `Network.limits_agree` — between two sessions with the same limit a frame is read exactly if its
  payload is within the limit, and nothing else ends a loop for what came in;
* `Network.long_write_ends_all` — one write above the limit ends all streams of the peer.
-/

namespace StreamMux

namespace Network

variable {m m' : Mux} {settings : Both Settings} {steps : List (Side × Work)} {side : Side}

/-- What is written or sent by hand. -/
def Work.payload? : Work → Option Bytes
  | use (.write _ payload) => some payload.data
  | send _ _ payload => some payload.data
  | _ => none

/-- Every side has its session, with the settings that it was given. -/
theorem stands_conduct (settings : Both Settings) (steps : List (Side × Work)) :
    ∀ side, ∃ m, (conduct settings steps).1.mux? side = some m ∧
      m.settings = settings.get side ∧ m.ledger.Sound := by
  induction steps using List.reverseRecOn with
  | nil =>
    exact fun side => ⟨_, mux?_start settings side, rfl, Ledger.sound_start side _ []⟩
  | append_singleton steps step ih =>
    obtain ⟨actor, work⟩ := step
    obtain ⟨m, hm, hsettings, sound⟩ := ih actor
    obtain ⟨n, hn, hsettings', sound'⟩ := ih actor.other
    have hstep := Mux.step sound work.op
    rw [conduct, List.foldl_concat, ← conduct, conductStep_eq hm]
    exact actor.both
      ⟨_, mux?_put_self .., hstep.settings_eq.trans hsettings, hstep.sound sound⟩
      ⟨_, mux?_put_other _ hn, hsettings', sound'⟩

/-- What is written or sent by hand with success goes out as one frame. -/
theorem written_of_ok (sound : m.ledger.Sound) {work : Work} {payload : Bytes} {size : Nat}
    (hwork : work.payload? = some payload)
    (hok : (m.perform work.op).2 = .size (.ok size)) :
    ∃ frame : Frame, frame.Fits ∧ frame.payload = payload ∧
      (m.perform work.op).1.written = m.written ++ [frame.wire] := by
  cases work with
  | use done =>
    cases done with
    | write place data =>
      cases hwork
      rcases m.withHandle_cases place fun serial =>
        ((m.write serial data.data).1, .size (m.write serial data.data).2) with
        ⟨handle, -, -, heq⟩ | heq
      · have hperform : m.perform (.write place data) =
            ((m.write handle.serial data.data).1, .size (m.write handle.serial data.data).2) := heq
        simp only [Work.op, Use.op, hperform] at hok ⊢
        have hwrites := Mux.writes m handle.serial data.data
        generalize m.write handle.serial data.data = result at hok hwrites ⊢
        cases hwrites with
        | refused fault => cases hok
        | torn fault => cases hok
        | written size live up passes ledger =>
          have hlt := Registry.lt_of_not_isOver live
          exact ⟨_, ⟨sound.id_le hlt, Frame.flag_le_of_kind _, data.length_lt⟩, rfl,
            by simpa using passes.written⟩
      · have hperform : m.perform (.write place data) = (m, .noHandle) := heq
        simp only [Work.op, Use.op, hperform] at hok
        cases hok
    | _ => cases hwork
  | send id flag data =>
    cases hwork
    simp only [Work.op, Mux.perform] at hok ⊢
    rcases m.accounts_send ⟨id, flag, data.data⟩ with ⟨bytes, -, haccounts⟩ | ⟨fault, herror, -⟩
    · exact ⟨_, haccounts.fits data.length_lt _ (List.mem_singleton_self _), rfl,
        by simpa using haccounts.written⟩
    · rw [herror] at hok
      cases hok
  | _ => cases hwork

/-- **What the limit on payloads means.**  Two sessions keep the same settings.  Whatever one of
them writes to a stream or sends by hand with success goes out as one frame, and a reader with the
same limit takes this frame off its bytes exactly if the payload is within the limit.  And if the
next turn of the other's loop ends it for what came in, then the frame in front of what is in
transit is one that was sent, with a payload above the limit. -/
theorem limits_agree (settings : Settings) (steps : List (Side × Work)) (side : Side) :
    ∃ near far, (conduct ⟨settings, settings⟩ steps).1.mux? side = some near ∧
      (conduct ⟨settings, settings⟩ steps).1.mux? side.other = some far ∧
      (∀ (work : Work) payload size, work.payload? = some payload →
        (far.perform work.op).2 = .size (.ok size) →
        ∃ frame : Frame, frame.payload = payload ∧
          (far.perform work.op).1.written = far.written ++ [frame.wire] ∧
          ∀ rest, (Assembler.mk (frame.wire ++ rest)).take settings.frameLimit =
            if payload.length ≤ settings.frameLimit then (⟨rest⟩, .ok (some frame))
            else (⟨frame.wire ++ rest⟩,
              .error (.tooLarge (Frame.lengthWord payload) settings.frameLimit))) ∧
      (∀ fault, near.turn = some (near.stop (some (.frame fault))) →
        ∃ frame ∈ far.sent, near.inTransit.1.head? = some frame ∧
          settings.frameLimit < frame.payload.length ∧
          fault = .tooLarge (Frame.lengthWord frame.payload) settings.frameLimit) := by
  obtain ⟨sents, flights, h⟩ := piped ⟨settings, settings⟩ steps
  obtain ⟨near, hnear, -, hcarries, -⟩ := h.stands side
  obtain ⟨far, hfar, -, -, hreckons⟩ := h.stands side.other
  obtain ⟨near', hnear', hlimit, -⟩ := stands_conduct ⟨settings, settings⟩ steps side
  obtain ⟨far', hfar', -, sound⟩ := stands_conduct ⟨settings, settings⟩ steps side.other
  obtain rfl := Option.some.inj (hnear.symm.trans hnear')
  obtain rfl := Option.some.inj (hfar.symm.trans hfar')
  have hsettings : near.settings = settings := by
    rw [hlimit]
    cases side <;> rfl
  have hfits : ∀ frame ∈ flights.get side, frame.Fits := fun frame hmem =>
    hreckons.fits frame (h.passed side ▸ List.mem_append_right _ hmem)
  refine ⟨near, far, hnear, hfar, ?_, ?_⟩
  · intro work payload size hwork hok
    obtain ⟨frame, hfit, rfl, hwritten⟩ := written_of_ok sound hwork hok
    exact ⟨frame, rfl, hwritten, Assembler.take_wire hfit _⟩
  · intro fault hfault
    -- the loop ends for what stands in front, which is the front of what was sent
    have hcut := Mux.cut_of_malformed? (Mux.malformed?_iff.mpr hfault)
    rw [hsettings] at hcut
    obtain ⟨frame, others, hflight, hlong, hlarge⟩ := Frame.too_long_of_cut hfits hcarries hcut
    have htransit : near.inTransit = (flights.get side, []) := by
      rw [Mux.inTransit, show _ ++ _ = _ from hcarries, Frame.cutAll_flatMap_wire hfits]
    refine ⟨frame, ?_, ?_, hlong, hlarge⟩
    · rw [hreckons.sent_eq, h.passed, hflight]
      exact List.mem_append_right _ (by simp)
    · rw [htransit, hflight]
      rfl

/-- The smallest limit on payloads. -/
def narrow : Settings := { frameLimit := 1 }

/-- One side opens two streams. -/
def opensTwo : List (Side × Work) := List.replicate 2 (.dialer, .use (.openStream none))

/-- Then it writes two bytes to the first of them, and the other side takes in what comes. -/
def writesLong : List (Side × Work) :=
  opensTwo ++ [(.dialer, .use (.write 0 ⟨[0xaa, 0xbb], by decide⟩))] ++
    List.replicate 8 (.listener, .use .turn)

/-- The write succeeds, and in its next turn the other side, which keeps the same valid limit, ends
its loop and severs both of its streams. -/
theorem long_write_ends_all : narrow.Valid ∧
    (∃ far ∈ (conduct ⟨narrow, narrow⟩ opensTwo).1.mux? .dialer,
      (far.write 0 [0xaa, 0xbb]).2.toOption = some 4) ∧
    ∃ near ∈ (conduct ⟨narrow, narrow⟩ writesLong).1.mux? .listener,
      near.registry.streams.map Stream.severed = [false, false] ∧
      ∃ next, near.turn = some next ∧ next.loop = .ended ∧
        ∀ serial < 2, (next.registry.stream serial).severed = true := by
  have hwrite : ((conduct ⟨narrow, narrow⟩ opensTwo).1.mux? .dialer).map
      (fun m => (m.write 0 [0xaa, 0xbb]).2.toOption) = some (some 4) := by decide +kernel
  have hcame : ((conduct ⟨narrow, narrow⟩ writesLong).1.mux? .listener).map
      (fun m => (m.malformed?, m.isClosed, m.registry.current,
        m.registry.streams.map Stream.severed)) =
      some (some (.tooLarge 2 1), false, [0, 1], [false, false]) := by decide +kernel
  obtain ⟨far, hfar, hok⟩ := Option.map_eq_some_iff.mp hwrite
  obtain ⟨near, hnear, heq⟩ := Option.map_eq_some_iff.mp hcame
  obtain ⟨hfault, hup, hcurrent, hsevered⟩ := by simpa only [Prod.mk.injEq] using heq
  have hsevers := Mux.severs_stop hup (.tooLarge 2 1)
  refine ⟨by decide, ⟨far, hfar, hok⟩, near, hnear, hsevered, _, Mux.turn_of_malformed? hfault, rfl,
    fun serial hserial => ?_⟩
  have hmem : serial ∈ near.ledger.registry.current := by
    rw [show near.ledger.registry.current = [0, 1] from hcurrent]
    simp only [List.mem_cons, List.not_mem_nil, or_false]
    omega
  exact congrArg Stream.severed (hsevers.current hmem)

end Network

end StreamMux
