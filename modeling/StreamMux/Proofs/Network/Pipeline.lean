import StreamMux.Proofs.Network.Joined
import StreamMux.Proofs.Session.Balance
import StreamMux.Proofs.Wire.Cuts

/-!
# The pipeline of frames

Between two sessions frames are bytes, cut into chunks wherever the link or a reader likes: chunks
on the link, what a short read left of one, and what came in and is no frame yet.  Together they are
always a row of whole frames, those that one side has sent and the other has not applied.

* `Network.Work`, `Network.conduct` — what can be done at one side, frames sent by hand and trouble
  on the link included, and runs of it, with the frames that the loops apply on record;
* `Network.frames_kept` — what a side has sent is what the other has applied, followed by what is in
  transit, and the counters of both agree.
-/

namespace StreamMux

namespace Mux

/-! ### Frames sent and frames in transit -/

/-- The frames that were written to the link, oldest first. -/
def sent (m : Mux) : List Frame :=
  m.written.filterMap fun chunk => (Frame.decode chunk).toOption

/-- The frames on their way to a session, oldest first, in the bytes that came in, in what is left
of the chunk read last and in the chunks on the link; and the bytes behind them that are no frame.
-/
def inTransit (m : Mux) : List Frame × Bytes :=
  Frame.cutAll (m.assembler.buffer ++ (m.link.ends.get m.side).pending)

end Mux

namespace Network

/-! ### Runs -/

/-- What is done at one side, and to its end of the link. -/
inductive Work where
  | use (done : Use)
  /-- A frame is sent by hand. -/
  | send (id : UInt64) (flag : UInt8) (payload : Payload)
  | readById (id : UInt64)
  | closeLink
  | resetLink
  | adjust (conditions : Conditions)

def Work.op : Work → Mux.Op
  | use done => done.op
  | send id flag payload => .send ⟨id, flag, payload.data⟩
  | readById id => .readById id
  | closeLink => .closeLink
  | resetLink => .resetLink
  | adjust conditions => .adjust conditions

/-- One step, with the frames that it applies on record. -/
def conductStep (run : Network × Both (List Frame)) (step : Side × Work) :
    Network × Both (List Frame) :=
  match run.1.act step.1 fun m => ((m.perform step.2.op).1, m.applies step.2.op) with
  | (net, none) => (net, run.2)
  | (net, some frames) => (net, run.2.set step.1 (run.2.get step.1 ++ frames))

/-- Two sessions after some steps, and the frames that each of them has applied, oldest first. -/
def conduct (settings : Both Settings) (steps : List (Side × Work)) :
    Network × Both (List Frame) :=
  steps.foldl conductStep (start settings, ⟨[], []⟩)

/-! ### What one step moves along -/

variable {m m' : Mux} {got out : List Frame}

/-- A step applies the frames `got` in front of those on their way to its side, and puts the frames
`out` on their way to the other side. -/
structure Relays (m : Mux) (got out : List Frame) (m' : Mux) : Prop where
  side : m'.side = m.side
  taken : ∀ {flight}, (∀ frame ∈ flight, frame.Fits) → Carries m flight →
    ∃ rest, flight = got ++ rest ∧ Carries m' rest
  far : (m'.link.ends.get m.side.other).pending =
    (m.link.ends.get m.side.other).pending ++ out.flatMap Frame.wire
  accounts : ∃ size < 2 ^ 64, m.Accounts size got out m'

namespace Relays

theorem of_eq {size : Nat} (hsize : size < 2 ^ 64) (side : m'.side = m.side)
    (assembler : m'.assembler = m.assembler)
    (near : (m'.link.ends.get m.side).pending = (m.link.ends.get m.side).pending)
    (far : (m'.link.ends.get m.side.other).pending =
      (m.link.ends.get m.side.other).pending ++ out.flatMap Frame.wire)
    (accounts : m.Accounts size [] out m') : Relays m [] out m' where
  side := side
  taken {flight} _ hcarries := ⟨flight, rfl, hcarries.of_eq side assembler near⟩
  far := far
  accounts := ⟨size, hsize, accounts⟩

/-- The frames that were passed on are those that were counted. -/
theorem far_of_passes {size : Nat} {passed : List Frame} (hpasses : m.Passes passed m')
    (accounts : m.Accounts size got out m') : (m'.link.ends.get m.side.other).pending =
      (m.link.ends.get m.side.other).pending ++ out.flatMap Frame.wire := by
  have hsame : passed.map Frame.wire = out.map Frame.wire :=
    List.append_cancel_left (hpasses.written.symm.trans accounts.written)
  rw [hpasses.far, List.flatMap_def, List.flatMap_def, hsame]

theorem of_passes {size : Nat} {passed : List Frame} (hpasses : m.Passes passed m')
    (hsize : size < 2 ^ 64) (accounts : m.Accounts size [] out m') : Relays m [] out m' :=
  of_eq hsize hpasses.side hpasses.assembler hpasses.near (far_of_passes hpasses accounts) accounts

theorem refl (m : Mux) : Relays m [] [] m :=
  of_passes (.refl m) (by decide : 0 < 2 ^ 64) (.refl m)

end Relays

theorem relays_withHandle {place : Nat} {f : Nat → Mux × Mux.Answer}
    (h : ∀ serial, ∃ out, Relays m [] out (f serial).1) :
    ∃ out, Relays m [] out (m.withHandle place f).1 :=
  Mux.withHandle_ind (P := fun after => ∃ out, Relays m [] out after) ⟨[], .refl m⟩
    fun handle _ _ => h handle.serial

theorem relays_read (m : Mux) (serial : Nat) : Relays m [] [] (m.read serial).1 :=
  .of_passes (Mux.reads m serial).passes (by decide : 0 < 2 ^ 64) (Mux.accounts_read m serial)

theorem relays_receive {frame : Frame} {rest : Bytes}
    (hcut : Frame.cut m.assembler.buffer m.settings.frameLimit = .ok (some (frame, rest))) :
    ∃ out, Relays m [frame] out ({ m with assembler := ⟨rest⟩, loop := .ready }.receive frame) := by
  obtain ⟨passed, l, -, hleads⟩ :=
    Mux.receives { m with assembler := ⟨rest⟩, loop := .ready } frame
  obtain ⟨out, haccounts⟩ :=
    Mux.accounts_receive { m with assembler := ⟨rest⟩, loop := .ready } frame
  have htaken : m.Accounts 0 [] [] { m with assembler := ⟨rest⟩, loop := .ready } :=
    .of_eq rfl rfl rfl rfl
  have hfar := Relays.far_of_passes hleads.passes haccounts
  refine ⟨out, hleads.passes.side, ?_, hfar, 0, by decide, htaken.nil_trans haccounts⟩
  intro flight hfits hcarries
  obtain ⟨others, rfl, hothers⟩ := Frame.eq_head_of_cut hfits hcarries hcut
  have hcarries' : Carries { m with assembler := ⟨rest⟩, loop := .ready } others := hothers
  exact ⟨others, rfl,
    hcarries'.of_eq hleads.passes.side hleads.passes.assembler hleads.passes.near⟩

theorem relays_fed {link : Link} {chunk : Bytes}
    (hread : m.link.read m.side m.settings.readSize = (link, .ok (some chunk))) :
    Relays m [] [] { m with link, assembler := m.assembler.feed chunk, loop := .fed } where
  side := rfl
  taken {flight} _ hcarries := ⟨flight, rfl, hcarries.fed hread⟩
  far := far_of_read hread
  accounts := ⟨0, by decide, .of_eq rfl rfl rfl rfl⟩

theorem relays_turn (h : m.turn = some m') : ∃ out, Relays m m.upcoming?.toList out m' := by
  rcases (Mux.turn_cases h : _ ∨ m.upcoming? = none ∧ m.Accounts 0 [] [] m') with
    ⟨frame, rest, hupcoming, hcut, rfl⟩ | ⟨hnone, hquiet⟩
  · rw [hupcoming]
    exact relays_receive hcut
  · rw [hnone]
    refine ⟨[], ?_⟩
    cases Mux.turns h with
    | idle going calm =>
      exact .of_eq (by decide) rfl rfl rfl (List.append_nil _).symm hquiet
    | fed read => exact relays_fed read
    | @frame frame rest cut =>
      -- a frame would have been counted
      obtain ⟨out, haccounts⟩ :=
        Mux.accounts_receive { m with assembler := ⟨rest⟩, loop := .ready } frame
      have hcounted := haccounts.framesIn.symm.trans hquiet.framesIn
      simp at hcounted
    | stopped passes ledger =>
      exact .of_eq (by decide) passes.side passes.assembler passes.near passes.far hquiet

theorem relays (m : Mux) (work : Work) :
    ∃ out, Relays m (m.applies work.op) out (m.perform work.op).1 := by
  have hsize : 0 < 2 ^ 64 := by decide
  cases work with
  | use done =>
    cases done with
    | openStream label =>
      obtain ⟨passed, hpasses⟩ := (Mux.opens m label).passes
      obtain ⟨out, haccounts⟩ := Mux.accounts_openStream m label
      exact ⟨out, .of_passes hpasses hsize haccounts⟩
    | write place payload =>
      refine relays_withHandle fun serial => ?_
      obtain ⟨passed, hpasses⟩ := (Mux.writes m serial payload.data).passes
      obtain ⟨out, haccounts⟩ := Mux.accounts_write m serial payload.data
      exact ⟨out, .of_passes hpasses payload.length_lt haccounts⟩
    | finish place ending =>
      refine relays_withHandle fun serial => ?_
      obtain ⟨passed, hpasses⟩ := (Mux.terminates m serial ending).passes
      obtain ⟨out, haccounts⟩ := Mux.accounts_terminate m serial ending
      exact ⟨out, .of_passes hpasses hsize haccounts⟩
    | read place => exact relays_withHandle fun serial => ⟨[], relays_read m serial⟩
    | drop place =>
      exact relays_withHandle fun _ =>
        ⟨[], .of_passes (Mux.passes_drop m place) hsize (Mux.accounts_drop m place)⟩
    | turn =>
      rcases hturn : m.turn with _ | after
      · have hidle := Mux.upcoming?_of_turn_eq_none hturn
        simp only [Work.op, Use.op, Mux.perform, Mux.applies, hturn, hidle]
        exact ⟨[], .refl m⟩
      · simp only [Work.op, Use.op, Mux.perform, Mux.applies, hturn]
        exact relays_turn hturn
    | close =>
      exact ⟨[], .of_passes (Mux.passes_tearDown m _) hsize (Mux.accounts_tearDown m _)⟩
    | failStart text =>
      exact ⟨[], .of_eq hsize rfl rfl rfl (List.append_nil _).symm (.of_eq rfl rfl rfl rfl)⟩
  | send id flag payload =>
    -- a frame sent by hand need not have room in the header, and then is not written
    obtain ⟨passed, l, -, hleads⟩ := Mux.sends_leads m ⟨id, flag, payload.data⟩
    obtain ⟨out, haccounts⟩ := Mux.accounts_send_some m ⟨id, flag, payload.data⟩
    exact ⟨out, .of_passes hleads.passes payload.length_lt haccounts⟩
  | readById id =>
    refine ⟨[], ?_⟩
    simp only [Work.op, Mux.perform, Mux.readById]
    split
    · exact .refl m
    · exact relays_read m _
  | closeLink =>
    obtain ⟨hlink, hledger, -, hassembler, -⟩ := m.shut_keeps
    refine ⟨[], .of_eq hsize (congrArg Ledger.side hledger) hassembler ?_ ?_
      (Mux.accounts_shut m)⟩
    · simp [Work.op, Mux.perform, hlink, Link.close, LinkEnd.pending]
    · simp [Work.op, Mux.perform, hlink, Link.close]
  | resetLink =>
    exact ⟨[], .of_eq hsize rfl rfl rfl (List.append_nil _).symm (.of_eq rfl rfl rfl rfl)⟩
  | adjust conditions =>
    exact ⟨[], .of_eq hsize rfl rfl rfl (List.append_nil _).symm (.of_eq rfl rfl rfl rfl)⟩

/-! ### The books of a session -/

/-- What a session has written and counted, given the frames that it has applied and sent. -/
structure Reckons (m : Mux) (got sent : List Frame) : Prop where
  written : m.written = sent.map Frame.wire
  fits : ∀ frame ∈ sent, frame.Fits
  framesIn : m.counters.framesIn = got.length
  framesOut : m.counters.framesOut = sent.length
  bytesIn : m.counters.bytesIn = Frame.payloadBytes got
  bytesOut : m.counters.bytesOut = Frame.payloadBytes sent

namespace Reckons

variable {sent taken : List Frame}

/-- The frames that a session has sent can be read off what it has written. -/
theorem sent_eq (h : Reckons m got sent) : m.sent = sent := by
  rw [Mux.sent, h.written, Frame.filterMap_decode_wire h.fits]

theorem accounts {size : Nat} (h : Reckons m got sent) (hsize : size < 2 ^ 64)
    (accounts : m.Accounts size taken out m') : Reckons m' (got ++ taken) (sent ++ out) := by
  refine ⟨?_, ?_, ?_, ?_, ?_, ?_⟩
  · rw [accounts.written, h.written, List.map_append]
  · intro frame hmem
    exact (List.mem_append.mp hmem).elim (h.fits frame) (accounts.fits hsize frame)
  · rw [accounts.framesIn, h.framesIn, List.length_append]
  · rw [accounts.framesOut, h.framesOut, List.length_append]
  · rw [accounts.bytesIn, h.bytesIn, Frame.payloadBytes_append]
  · rw [accounts.bytesOut, h.bytesOut, Frame.payloadBytes_append]

theorem relay (h : Reckons m got sent) (r : Relays m taken out m') :
    Reckons m' (got ++ taken) (sent ++ out) := by
  obtain ⟨size, hsize, accounts⟩ := r.accounts
  exact h.accounts hsize accounts

end Reckons

/-! ### The pipeline of a run -/

/-- Two sessions after a run, the frames that each has sent, and those on their way to each. -/
structure Piped (run : Network × Both (List Frame)) (sents flights : Both (List Frame)) : Prop where
  stands : ∀ side, ∃ m, run.1.mux? side = some m ∧ m.side = side ∧
    Carries m (flights.get side) ∧ Reckons m (run.2.get side) (sents.get side)
  passed : ∀ side, sents.get side.other = run.2.get side ++ flights.get side

variable {settings : Both Settings} {steps : List (Side × Work)} {side : Side}

theorem conductStep_eq {run : Network × Both (List Frame)} {work : Work}
    (h : run.1.mux? side = some m) : conductStep run (side, work) =
      (run.1.put side (m.perform work.op).1,
        run.2.set side (run.2.get side ++ m.applies work.op)) := by
  simp [conductStep, act, h]

theorem Piped.step {run : Network × Both (List Frame)} {sents flights : Both (List Frame)}
    (h : Piped run sents flights) (side : Side) (work : Work) :
    ∃ sents' flights', Piped (conductStep run (side, work)) sents' flights' := by
  obtain ⟨m, hm, hside, hcarries, hreckons⟩ := h.stands side
  obtain ⟨n, hn, hother, hcarries', hreckons'⟩ := h.stands side.other
  obtain ⟨out, hrelays⟩ := relays m work
  have hfits : ∀ frame ∈ flights.get side, frame.Fits := fun frame hmem =>
    hreckons'.fits frame (h.passed side ▸ List.mem_append_right _ hmem)
  obtain ⟨rest, hflight, hrest⟩ := hrelays.taken hfits hcarries
  have hlink : n.link = m.link := (link_of_mux? hn).trans (link_of_mux? hm).symm
  rw [conductStep_eq hm]
  refine ⟨sents.set side (sents.get side ++ out),
    (flights.set side rest).set side.other (flights.get side.other ++ out),
    side.both ⟨_, mux?_put_self .., hrelays.side.trans hside, ?_, ?_⟩
      ⟨_, mux?_put_other _ hn, hother, ?_, ?_⟩, side.both ?_ ?_⟩
  · rw [Both.get_other_set, Both.get_set_self]
    exact hrest
  · rw [Both.get_set_self, Both.get_set_self]
    exact hreckons.relay hrelays
  · rw [Both.get_set_self]
    exact hcarries'.behind (by rw [hother, hside]) hlink hrelays.far
  · rw [Both.get_set_other, Both.get_set_other]
    exact { hreckons' with }
  · rw [Both.get_set_other, Both.get_set_self, Both.get_other_set, Both.get_set_self, h.passed,
      hflight, List.append_assoc]
  · have hpassed := h.passed side.other
    rw [Side.other_other] at hpassed ⊢
    rw [Both.get_set_self, Both.get_set_other, Both.get_set_self, hpassed, List.append_assoc]

theorem piped (settings : Both Settings) (steps : List (Side × Work)) :
    ∃ sents flights, Piped (conduct settings steps) sents flights := by
  induction steps using List.reverseRecOn with
  | nil =>
    refine ⟨⟨[], []⟩, ⟨[], []⟩, fun side => ⟨_, mux?_start settings side, rfl, ?_, ?_⟩, ?_⟩
    · cases side <;> rfl
    · cases side <;> exact ⟨rfl, by simp [Both.get], rfl, rfl, rfl, rfl⟩
    · rintro (_ | _) <;> rfl
  | append_singleton steps step ih =>
    obtain ⟨sents, flights, h⟩ := ih
    rw [conduct, List.foldl_concat]
    exact h.step step.1 step.2

/-- **The pipeline is a queue of frames.**  After every run the frames that a side has sent are
those that the other has applied, followed by those in transit, with no odd bytes behind them; and
the counters of frames and payload bytes of the two sides differ by just what is in transit. -/
theorem frames_kept (settings : Both Settings) (steps : List (Side × Work)) (side : Side) :
    ∃ near far, (conduct settings steps).1.mux? side = some near ∧
      (conduct settings steps).1.mux? side.other = some far ∧
      far.sent = (conduct settings steps).2.get side ++ near.inTransit.1 ∧
      near.inTransit.2 = [] ∧
      far.counters.framesOut = near.counters.framesIn + near.inTransit.1.length ∧
      far.counters.bytesOut = near.counters.bytesIn + Frame.payloadBytes near.inTransit.1 := by
  obtain ⟨sents, flights, h⟩ := piped settings steps
  obtain ⟨near, hnear, -, hcarries, hreckons⟩ := h.stands side
  obtain ⟨far, hfar, -, -, hreckons'⟩ := h.stands side.other
  have hfits : ∀ frame ∈ flights.get side, frame.Fits := fun frame hmem =>
    hreckons'.fits frame (h.passed side ▸ List.mem_append_right _ hmem)
  have htransit : near.inTransit = (flights.get side, []) := by
    rw [Mux.inTransit, show _ ++ _ = _ from hcarries, Frame.cutAll_flatMap_wire hfits]
  refine ⟨near, far, hnear, hfar, ?_, ?_, ?_, ?_⟩
  · rw [hreckons'.sent_eq, h.passed, htransit]
  · rw [htransit]
  · rw [hreckons'.framesOut, hreckons.framesIn, h.passed, htransit, List.length_append]
  · rw [hreckons'.bytesOut, hreckons.bytesIn, h.passed, htransit, Frame.payloadBytes_append]

/-- A stream is opened and data is written to it, and the other side reads three bytes at a time. -/
def trickle : List (Side × Work) :=
  [(.dialer, .use (.openStream none)), (.dialer, .use (.write 0 ⟨[7, 8], by decide⟩))] ++
    List.replicate 6 (.listener, .use .turn)

/-- The data is in transit while half of its frame has come in. -/
theorem trickle_in_transit :
    ∃ near ∈ (conduct ⟨.usual, { readSize := 3 }⟩ trickle).1.mux? .listener,
      near.assembler.buffer = [2, 2, 7] ∧ near.inTransit = ([⟨0, 2, [7, 8]⟩], []) ∧
      near.counters.framesIn = 1 := by
  obtain ⟨near, far, hnear, hfar, hsent, hrest, -⟩ :=
    frames_kept ⟨.usual, { readSize := 3 }⟩ trickle .listener
  have happlied : (conduct ⟨.usual, { readSize := 3 }⟩ trickle).2.get .listener = [⟨0, 0, []⟩] := by
    decide +kernel
  have hwritten : ((conduct ⟨.usual, { readSize := 3 }⟩ trickle).1.mux? .dialer).map Mux.sent =
      some [⟨0, 0, []⟩, ⟨0, 2, [7, 8]⟩] := by decide +kernel
  have hstands : ((conduct ⟨.usual, { readSize := 3 }⟩ trickle).1.mux? .listener).map
      (fun m => (m.assembler.buffer, m.counters.framesIn)) = some ([2, 2, 7], 1) := by
    decide +kernel
  rw [show Side.listener.other = .dialer from rfl] at hfar
  rw [hfar, Option.map_some, Option.some.injEq, hsent, happlied] at hwritten
  rw [hnear, Option.map_some, Option.some.injEq, Prod.mk.injEq] at hstands
  exact ⟨near, hnear, hstands.1, Prod.ext (List.cons.inj hwritten).2 hrest, hstands.2⟩

end Network

end StreamMux
