import StreamMux.Proofs.Session.Identity
import StreamMux.Proofs.Session.Lineage
import StreamMux.Proofs.Session.Queues

/-!
# The moment of teardown

Teardown can begin in the middle of an operation: after a stream was taken up of which the peer
could not be told, after a stream ended, or after a queue was found full.  The ledger at this moment
is the one that teardown works on.

* `Ledger.Gathers` — what an operation may have done before teardown begins: streams begin and end,
  and none leaves;
* `Ledger.Severs` — what teardown makes of a ledger;
* `Mux.tears_perform` — an operation that tears a session down does the first and then the second.
-/

namespace StreamMux

/-- The serial numbers of the current streams. -/
def Registry.current (registry : Registry) : List Nat := registry.entries.map (·.2)

namespace Ledger

variable {l l' l'' : Ledger} {gone fails : Bool} {out : List Frame}

/-! ### Up to the moment -/

/-- What an operation does to a ledger before it tears it down. -/
structure Gathers (l l' : Ledger) : Prop where
  torn : l'.tornDown = l.tornDown
  size_le : l.size ≤ l'.size
  /-- No stream leaves, and a stream that begins is current. -/
  current : ∀ {serial}, serial ∈ l'.registry.current ↔
    serial ∈ l.registry.current ∨ l.size ≤ serial ∧ serial < l'.size
  origin : ∀ {serial}, serial < l.size → (l'.stream serial).origin = (l.stream serial).origin
  severed : ∀ {serial}, serial < l.size → (l'.stream serial).severed = (l.stream serial).severed
  ended : ∀ {serial}, serial < l.size → (l.stream serial).isOver = true →
    l'.stream serial = l.stream serial
  queues : l.SameQueues l'

namespace Gathers

theorem refl (l : Ledger) : l.Gathers l :=
  ⟨rfl, Nat.le_refl _, by simp, fun _ => rfl, fun _ => rfl, fun _ _ => rfl, .refl l⟩

theorem trans (h : l.Gathers l') (h' : l'.Gathers l'') : l.Gathers l'' where
  torn := h'.torn.trans h.torn
  size_le := h.size_le.trans h'.size_le
  current {serial} := by
    have hsize := h.size_le
    have hsize' := h'.size_le
    rw [h'.current, h.current, or_assoc]
    refine or_congr_right ?_
    omega
  origin hlt := (h'.origin (Nat.lt_of_lt_of_le hlt h.size_le)).trans (h.origin hlt)
  severed hlt := (h'.severed (Nat.lt_of_lt_of_le hlt h.size_le)).trans (h.severed hlt)
  ended hlt hover := by
    have heq := h.ended hlt hover
    rw [h'.ended (Nat.lt_of_lt_of_le hlt h.size_le) (heq ▸ hover), heq]
  queues := h.queues.trans h'.queues

theorem finish {serial : Nat} (ending : Ending) (hlive : (l.stream serial).isOver = false) :
    l.Gathers (l.finish serial ending) where
  torn := rfl
  size_le := (size_put ..).ge
  current := by
    intro other
    rw [show (l.finish serial ending).size = l.size from size_put ..]
    simp [Ledger.finish, put, Registry.update, Registry.current]
  origin _ := (Alike.finish l serial ending).origin_eq _
  severed {other} _ := by
    rcases l.stream_put serial { l.stream serial with ending := some ending } other with
      ⟨rfl, heq⟩ | heq <;> rw [Ledger.finish, heq]
  ended _ hover := stream_put_of_isOver hlive hover
  queues := .finish l serial ending

theorem overflow (l : Ledger) (serial : Nat) : l.Gathers (l.overflow serial) := { refl l with }

/-- A stream begins under a number that no current stream has. -/
theorem of_begins {stream : Stream} (single : l.Single) (b : l.Begins stream l')
    (hnew : l.find? stream.id = none) (hqueue : stream.queue = [])
    (hentries : l'.registry.entries = (l.registry.create stream).1.entries) : l.Gathers l' := by
  -- the entries of the number that the new stream takes over are none
  have hfilter : l.registry.entries.filter (·.1 != stream.id) = l.registry.entries := by
    refine List.filter_eq_self.mpr fun entry hmem => ?_
    have hne : entry.1 ≠ stream.id := by
      intro heq
      have hfind : l.find? entry.1 = some entry.2 := Registry.find?_of_mem single hmem
      rw [heq] at hfind
      cases hnew.symm.trans hfind
    simpa using hne
  have hsize := b.size
  refine ⟨b.torn, by omega, ?_, fun hlt => congrArg Stream.origin (b.old hlt),
    fun hlt => congrArg Stream.severed (b.old hlt), fun hlt _ => b.old hlt, .of_begins b hqueue⟩
  intro serial
  rw [Registry.current, hentries, hsize]
  simp only [Registry.create, hfilter, List.map_append, List.map_cons, List.map_nil,
    List.mem_append, List.mem_singleton, Registry.current]
  refine or_congr_right ?_
  change serial = l.size ↔ _
  omega

theorem register (sound : l.Sound) (single : l.Single) {id : UInt64} {ids : Ids}
    (draw : l.ids.draw = .ok (id, ids)) : l.Gathers (l.register id ids) := by
  have hnew : l.find? id = none := by
    rcases hfind : l.find? id with _ | serial
    · rfl
    · obtain ⟨hlt, hid⟩ := sound.current hfind
      exact absurd hid (sound.id_ne_of_draw draw hlt)
  exact .of_begins single (begins_register l id ids) hnew rfl rfl

theorem welcome (single : l.Single) {id : UInt64} (new : l.find? id = none) :
    l.Gathers (l.welcome id) :=
  .of_begins single (begins_welcome l id) new rfl rfl

theorem accept (l : Ledger) (id : UInt64) (serial : Nat) : l.Gathers (l.accept id serial) :=
  { refl l with }

/-- A stream that is open stays although its handler cannot be started. -/
theorem misstart {id : UInt64} {serial : Nat} (hlive : (l.stream serial).isOver = false) :
    l.Gathers (l.misstart id serial) := by
  have hdrop : l.misstart id serial = _ := drop_of_live (l := l.accept id serial) _ hlive
  rw [hdrop]
  exact { refl l with }

end Gathers

/-! ### Teardown -/

/-- What teardown makes of a ledger. -/
structure Severs (l l' : Ledger) : Prop where
  torn : l'.tornDown = true
  entries : l'.registry.entries = []
  pending : l'.registry.pending = []
  size : l'.size = l.size
  current : ∀ {serial}, serial ∈ l.registry.current → l'.stream serial = (l.stream serial).sever
  others : ∀ {serial}, serial ∉ l.registry.current → l'.stream serial = l.stream serial

theorem severs_tear (l : Ledger) : l.Severs l.tear where
  torn := rfl
  entries := Registry.entries_sever l.registry
  pending := Registry.pending_sever l.registry
  size := size_tear l
  current hmem := (Registry.stream_sever l.registry _).trans (if_pos hmem)
  others hmem := (Registry.stream_sever l.registry _).trans (if_neg hmem)

/-- An operation leaves a ledger as it is torn down or not, or tears it down. -/
def Tears (l l' : Ledger) : Prop :=
  l'.tornDown = l.tornDown ∨ ∃ moment, l.Gathers moment ∧ l' = moment.tear

theorem Tears.of_gathers (h : l.Gathers l') (h' : l'.Tears l'') : l.Tears l'' :=
  h'.imp (·.trans h.torn) fun ⟨moment, hgathers, heq⟩ => ⟨moment, h.trans hgathers, heq⟩

theorem Act.tears (h : l.Act l') (sound : l.Sound) (single : l.Single) : l.Tears l' := by
  cases h with
  | none => exact Or.inl rfl
  | opened label up draw => exact Or.inl rfl
  | openTorn up draw => exact Or.inr ⟨_, .register sound single draw, rfl⟩
  | tear => exact Or.inr ⟨l, .refl l, rfl⟩
  | finish ending live => exact Or.inl rfl
  | finishTorn ending live => exact Or.inr ⟨_, .finish ending live, rfl⟩
  | sweep id => exact Or.inl rfl
  | drop given => exact Or.inl (tornDown_drop ..)

theorem Cutting.tears {serial : Nat} (h : l.Cutting gone serial out l') : l.Tears l' := by
  cases h with
  | torn live up => exact Or.inr ⟨_, .finish .reset live, rfl⟩
  | _ => exact Or.inl rfl

theorem Queueing.tears {serial : Nat} {payload : Bytes}
    (h : l.Queueing gone serial payload out l') : l.Tears l' := by
  cases h with
  | idle why => exact Or.inl rfl
  | queued data live room => exact Or.inl rfl
  | full data live full cutting => exact .of_gathers (.overflow l serial) cutting.tears

theorem Dispatching.tears {id : UInt64} {serial : Nat} {payload : Bytes}
    (h : l.Dispatching gone fails id serial payload out l') : l.Tears l' := by
  cases h with
  | called starts queueing => exact .of_gathers (.accept ..) queueing.tears
  | unstarted stuck cutting =>
    -- a stream that is over leaves with its handle, but then nothing is sent that could fail
    cases cutting with
    | torn live up =>
      exact Or.inr ⟨_, .trans (.misstart (stream_misstart l id serial serial ▸ live))
        (.finish .reset live), rfl⟩
    | _ => exact Or.inl (tornDown_misstart l id serial)

theorem Receiving.tears {frame : Frame} (h : l.Receiving gone fails frame out l') (sound : l.Sound)
    (single : l.Single) : l.Tears l' := by
  cases h with
  | reserved kind => exact Or.inl rfl
  | refused is opens why => exact Or.inl rfl
  | crowded is message up new foreign sending => exact sending.acts.tears sound single
  | began is up new foreign dispatching =>
    exact .of_gathers (Gathers.welcome single new) dispatching.tears
  | announced is up current pending dispatching => exact dispatching.tears
  | repeated is up current accepted queueing => exact queueing.tears
  | early is message up new foreign queueing =>
    exact .of_gathers (Gathers.welcome single new) queueing.tears
  | data is message up current queueing => exact queueing.tears
  | lost is ends isOver => exact Or.inl rfl
  | ended is ends current live => exact Or.inl rfl

end Ledger

namespace Mux

variable {m m' : Mux}

/-- An operation that tears a session down works on a ledger that it has gathered before. -/
theorem tears_perform (sound : m.ledger.Sound) (single : m.ledger.Single) (op : Op) :
    m.ledger.Tears (m.perform op).1.ledger := by
  cases m.outcome op with
  | acts act => exact act.tears sound single
  | pops front ledger =>
    rw [ledger]
    exact Or.inl rfl
  | receives turn upcoming receiving => exact receiving.tears sound single

/-! ### In a run -/

variable {side : Side} {settings : Settings} {ops : List Op}

/-- In a run that ends torn down, one operation did it. -/
theorem exists_teardown (h : (run side settings ops).tornDown = true) :
    ∃ before op after, ops = before ++ op :: after ∧
      (run side settings before).tornDown = false ∧
      (run side settings (before ++ [op])).tornDown = true := by
  induction ops using List.reverseRecOn with
  | nil => cases h
  | append_singleton ops op ih =>
    by_cases htorn : (run side settings ops).tornDown = true
    · obtain ⟨before, first, after, rfl, hup, hfirst⟩ := ih htorn
      exact ⟨before, first, after ++ [op], by simp, hup, hfirst⟩
    · exact ⟨ops, op, [], rfl, by simpa using htorn, h⟩

/-- The ledger at the moment at which an operation tears a session down. -/
theorem exists_moment {before : List Op} {op : Op}
    (hup : (run side settings before).tornDown = false)
    (htorn : (run side settings (before ++ [op])).tornDown = true) :
    ∃ moment, (run side settings before).ledger.Gathers moment ∧ moment.tornDown = false ∧
      moment.Severs (run side settings (before ++ [op])).ledger := by
  rw [run_concat] at htorn ⊢
  rcases tears_perform (sound_run side settings before) (single_run side settings before) op with
    heq | ⟨moment, hgathers, heq⟩
  · exact absurd (htorn.symm.trans (heq.trans hup)) (by simp)
  · exact ⟨moment, hgathers, hgathers.torn.trans hup, heq ▸ Ledger.severs_tear moment⟩

end Mux

end StreamMux
