import StreamMux.Proofs.Wire.Pieces
import StreamMux.Proofs.Wire.Shortest
import StreamMux.Proofs.Wire.Unfinished
import StreamMux.Proofs.Wire.Writing

/-!
# Byte strings that are one frame

Which byte strings are read as exactly one frame, and what the answers to all others say about them.
No byte string that is a frame goes on as another one, and what is unfinished can always be
finished.  So a byte string can still become a frame, or is one, or went past one, or none of these
will ever be so; and the answer tells which.

* `Frame.cut_complete` — bytes that make no frame yet can be completed to one;
* `Frame.Accepted`, `Frame.classified` — the answer to a byte string, by which byte strings around
  it are frames;
* `Frame.normal_form` — a frame that was read is written again in its only shortest form.

A byte string is taken to be no longer than a word can count.  Header and length may announce more
than that, and `Frame.Sizable` leaves such bytes out.
-/

namespace StreamMux

/-! ### Finishing what is unfinished -/

theorem Preamble.scan_complete {bytes : Bytes} (h : scan bytes Frame.noLimit = .ok none) :
    ∃ more preamble, scan (bytes ++ more) Frame.noLimit = .ok (some preamble) ∧
      preamble.size = (bytes ++ more).length ∧ preamble.payloadSize < 2 ^ 63 := by
  have hlimit : (2 : Nat) ^ 63 ≤ Frame.noLimit := by decide
  rcases values_of_scan_none h with hheader | ⟨header, headerSize, hheader, hlength⟩
  · obtain ⟨header, -, hread⟩ := Varint.decode_complete hheader
    have hskip : (bytes ++ [0, 0]).drop (bytes.length + 1) = [0] := by simp
    have hzero : Varint.decode [0] = .value 0 1 := by decide
    rw [← hskip] at hzero
    exact ⟨[0, 0], _, scan_of_values (hread [0]) hzero _, by simp, Nat.two_pow_pos 63⟩
  · have hthere := (Varint.size_of_decode hheader).2
    obtain ⟨length, hsmall, hread⟩ := Varint.decode_complete hlength
    have hbehind := hread []
    rw [← List.drop_append_of_le_length hthere] at hbehind
    have hscan := scan_of_values (Varint.decode_append hheader [0]) hbehind Frame.noLimit
    rw [if_neg (Nat.not_lt.mpr (hsmall.le.trans hlimit))] at hscan
    refine ⟨[0], _, hscan, ?_, hsmall⟩
    simp only [List.length_drop, List.length_append, List.length_singleton]
    omega

namespace Frame

variable {bytes front other whole more rest : Bytes} {frame : Frame} {fault : FrameFault}
  {preamble : Preamble}

/-- A byte string that is one frame, and no longer than a word can count. -/
def Accepted (bytes : Bytes) : Prop := bytes.length < 2 ^ 64 ∧ ∃ frame, decode bytes = .ok frame

/-- If header and length are there, then the whole frame that they announce has a size that fits a
word. -/
def Sizable (bytes : Bytes) : Prop :=
  ∀ preamble, Preamble.scan bytes noLimit = .ok (some preamble) → preamble.frameSize < 2 ^ 64

theorem accepted_fill (h : Preamble.scan bytes noLimit = .ok (some preamble))
    (hshort : bytes.length ≤ preamble.frameSize) (hsize : preamble.frameSize < 2 ^ 64) :
    Accepted (bytes ++ List.replicate (preamble.frameSize - bytes.length) 0) := by
  have hlength : (bytes ++ List.replicate (preamble.frameSize - bytes.length) 0).length =
      preamble.frameSize := by
    rw [List.length_append, List.length_replicate]
    omega
  have hscan := (scan_append h (List.replicate (preamble.frameSize - bytes.length) 0)).1
  have hcut := cut_of_scan hscan
  rw [if_neg (by omega), List.drop_eq_nil_of_le hlength.le] at hcut
  exact ⟨hlength.trans_lt hsize, _, decode_eq_ok_iff.mpr hcut⟩

/-- **Bytes that make no frame yet can be completed to one.** -/
theorem cut_complete (h : cut bytes noLimit = .ok none) (hsize : Sizable bytes) :
    ∃ more, more ≠ [] ∧ Accepted (bytes ++ more) := by
  rcases scan_of_cut_none h with hscan | ⟨preamble, hscan, hshort⟩
  · -- header and length first, then the payload that they happen to announce
    obtain ⟨more, preamble, hmore, hall, hpayload⟩ := Preamble.scan_complete hscan
    have hmax : preamble.size ≤ 20 := Preamble.size_le_of_scan hmore
    have hfill := accepted_fill hmore (by rw [Preamble.frameSize, hall]; omega)
      (by rw [Preamble.frameSize]; omega)
    rw [List.append_assoc] at hfill
    refine ⟨_, ?_, hfill⟩
    intro hnil
    rw [(List.append_eq_nil_iff.mp hnil).1, List.append_nil, hscan] at hmore
    cases hmore
  · refine ⟨_, ?_, accepted_fill hscan hshort.le (hsize preamble hscan)⟩
    rw [Ne, List.replicate_eq_nil_iff]
    omega

/-! ### What is a frame, in front of other bytes and behind them -/

theorem fault_of_cut (h : cut bytes noLimit = .error fault) : fault = .varintOverflow := by
  rcases Preamble.values_of_scan_error (scan_of_cut_error h) with
    ⟨-, hfault⟩ | ⟨-, -, -, ⟨-, hfault⟩ | ⟨length, -, -, hlarge, -⟩⟩
  · exact hfault
  · exact hfault
  · have hlt := length.toNat_lt
    simp only [noLimit, UInt64.size] at hlarge
    omega

/-- A frame in front of other bytes is the one that is cut off. -/
theorem cut_of_accepted (hfront : front <+: bytes) (haccepted : Accepted front) :
    ∃ frame rest, cut bytes noLimit = .ok (some (frame, rest)) ∧ front ++ rest = bytes := by
  obtain ⟨rest, rfl⟩ := hfront
  obtain ⟨-, frame, hdecode⟩ := haccepted
  exact ⟨frame, rest, cut_append (decode_eq_ok_iff.mp hdecode) rest, rfl⟩

theorem accepted_of_cut (h : cut bytes noLimit = .ok (some (frame, rest)))
    (hsize : Sizable bytes) : Accepted (bytes.take (bytes.length - rest.length)) := by
  refine ⟨?_, frame, decode_eq_ok_iff.mpr (whole_of_cut h)⟩
  obtain ⟨preamble, hscan, hthere, -, rfl⟩ := scan_of_cut h
  have hfits := hsize preamble hscan
  rw [List.length_take, List.length_drop]
  omega

theorem cut_eq_none_of_append (hmore : more ≠ [])
    (h : cut (bytes ++ more) noLimit = .ok (some (frame, []))) : cut bytes noLimit = .ok none := by
  rcases hcut : cut bytes noLimit with fault | _ | ⟨other, rest⟩
  · rw [cut_error_append hcut] at h
    cases h
  · rfl
  · rw [cut_append hcut] at h
    obtain ⟨-, hrest⟩ := Prod.mk.inj (Option.some.inj (Except.ok.inj h))
    exact absurd (List.append_eq_nil_iff.mp hrest).2 hmore

/-! ### The answers -/

theorem decode_eq_truncated_iff :
    decode bytes = .error .truncated ↔ cut bytes noLimit = .ok none := by
  rw [decode_eq]
  rcases hcut : cut bytes noLimit with fault | _ | ⟨frame, rest⟩
  · simp [fault_of_cut hcut]
  · simp
  · by_cases hrest : rest = [] <;> simp [hrest]

theorem decode_eq_overflow_iff :
    decode bytes = .error .varintOverflow ↔ cut bytes noLimit = .error .varintOverflow := by
  rw [decode_eq]
  rcases hcut : cut bytes noLimit with fault | _ | ⟨frame, rest⟩
  · simp
  · simp
  · by_cases hrest : rest = [] <;> simp [hrest]

theorem decode_eq_mismatch_iff {expected actual : Nat} :
    decode bytes = .error (.sizeMismatch expected actual) ↔
      ∃ frame rest, rest ≠ [] ∧ cut bytes noLimit = .ok (some (frame, rest)) ∧
        expected = bytes.length - rest.length ∧ actual = bytes.length := by
  rw [decode_eq]
  rcases hcut : cut bytes noLimit with fault | _ | ⟨frame, rest⟩
  · simp [fault_of_cut hcut]
  · simp
  · by_cases hrest : rest = []
    · simp [hrest]
    · simp [hrest, eq_comm]

theorem decode_truncated_of_prefix (hdecode : decode whole = .ok frame) (hfront : bytes <+: whole)
    (hne : bytes ≠ whole) : decode bytes = .error .truncated := by
  obtain ⟨more, rfl⟩ := hfront
  have hmore : more ≠ [] := by
    rintro rfl
    exact hne (List.append_nil bytes).symm
  exact decode_eq_truncated_iff.mpr (cut_eq_none_of_append hmore (decode_eq_ok_iff.mp hdecode))

theorem truncated_iff (hsize : Sizable bytes) : decode bytes = .error .truncated ↔
    ∃ whole, bytes <+: whole ∧ bytes ≠ whole ∧ Accepted whole := by
  constructor
  · intro htruncated
    obtain ⟨more, hmore, haccepted⟩ := cut_complete (decode_eq_truncated_iff.mp htruncated) hsize
    exact ⟨_, List.prefix_append bytes more, by simpa using hmore, haccepted⟩
  · rintro ⟨whole, hfront, hne, -, frame, hdecode⟩
    exact decode_truncated_of_prefix hdecode hfront hne

theorem mismatch_iff (hsize : Sizable bytes) (expected actual : Nat) :
    decode bytes = .error (.sizeMismatch expected actual) ↔
      ∃ front, front <+: bytes ∧ front ≠ bytes ∧ Accepted front ∧
        expected = front.length ∧ actual = bytes.length := by
  rw [decode_eq_mismatch_iff]
  constructor
  · rintro ⟨frame, rest, hrest, hcut, rfl, rfl⟩
    have hlt := length_lt_of_cut hcut
    have hpos := List.length_pos_iff.mpr hrest
    have hfront : (bytes.take (bytes.length - rest.length)).length =
        bytes.length - rest.length := by
      rw [List.length_take]
      omega
    refine ⟨_, List.take_prefix _ bytes, ?_, accepted_of_cut hcut hsize, hfront.symm, rfl⟩
    intro hall
    rw [hall] at hfront
    omega
  · rintro ⟨front, hfront, hne, haccepted, rfl, rfl⟩
    obtain ⟨frame, rest, hcut, rfl⟩ := cut_of_accepted hfront haccepted
    refine ⟨frame, rest, ?_, hcut, by simp, rfl⟩
    rintro rfl
    exact hne (List.append_nil front).symm

/-- One frame stands in front of a byte string at most. -/
theorem eq_of_accepted (hfront : front <+: bytes) (hother : other <+: bytes)
    (haccepted : Accepted front) (haccepted' : Accepted other) : front = other := by
  obtain ⟨frame, rest, hcut, rfl⟩ := cut_of_accepted hfront haccepted
  obtain ⟨frame', rest', hcut', hsame⟩ := cut_of_accepted hother haccepted'
  rw [hcut] at hcut'
  cases hcut'
  exact List.append_cancel_right hsame.symm

theorem overflow_iff (hsize : Sizable bytes) : decode bytes = .error .varintOverflow ↔
    ∀ other, other <+: bytes ∨ bytes <+: other → ¬ Accepted other := by
  rw [decode_eq_overflow_iff]
  constructor
  · rintro hcut other (hfront | hbehind) haccepted
    · obtain ⟨frame, rest, hcut', -⟩ := cut_of_accepted hfront haccepted
      rw [hcut] at hcut'
      cases hcut'
    · -- what overflows in front overflows in the whole
      obtain ⟨more, rfl⟩ := hbehind
      obtain ⟨-, frame, hdecode⟩ := haccepted
      have hwhole := decode_eq_ok_iff.mp hdecode
      rw [cut_error_append hcut] at hwhole
      cases hwhole
  · -- without a fault there is a frame in front, or one that can still come of the bytes
    intro hnone
    rcases hcut : cut bytes noLimit with fault | _ | ⟨frame, rest⟩
    · rw [fault_of_cut hcut]
    · obtain ⟨more, -, haccepted⟩ := cut_complete hcut hsize
      exact absurd haccepted (hnone _ (Or.inr (List.prefix_append bytes more)))
    · exact absurd (accepted_of_cut hcut hsize) (hnone _ (Or.inl (List.take_prefix _ bytes)))

theorem exists_decode_iff (hsize : Sizable bytes) :
    (∃ frame, decode bytes = .ok frame) ↔ Accepted bytes := by
  constructor
  · rintro ⟨frame, hdecode⟩
    have haccepted := accepted_of_cut (decode_eq_ok_iff.mp hdecode) hsize
    rwa [List.length_nil, Nat.sub_zero, List.take_length] at haccepted
  · exact fun haccepted => haccepted.2

/-- The answer to a byte string, by what is accepted around it. -/
structure Classified (bytes : Bytes) : Prop where
  /-- It is truncated exactly if something behind it would make it a frame. -/
  truncated : decode bytes = .error .truncated ↔
    ∃ whole, bytes <+: whole ∧ bytes ≠ whole ∧ Accepted whole
  /-- It has a wrong size exactly if a frame stands in front of other bytes; the size to expect is
  that of this frame. -/
  mismatch : ∀ expected actual, decode bytes = .error (.sizeMismatch expected actual) ↔
    ∃ front, front <+: bytes ∧ front ≠ bytes ∧ Accepted front ∧
      expected = front.length ∧ actual = bytes.length
  /-- There is one such frame at most. -/
  unique : ∀ front other, front <+: bytes → other <+: bytes → Accepted front → Accepted other →
    front = other
  /-- A value in it overflows exactly if no frame is in front of it, and none can come of it. -/
  overflow : decode bytes = .error .varintOverflow ↔
    ∀ other, other <+: bytes ∨ bytes <+: other → ¬ Accepted other
  /-- It is a frame exactly if it is accepted. -/
  whole : (∃ frame, decode bytes = .ok frame) ↔ Accepted bytes
  /-- No other answer is given. -/
  complete : decode bytes = .error .truncated ∨
    (∃ expected actual, decode bytes = .error (.sizeMismatch expected actual)) ∨
    decode bytes = .error .varintOverflow ∨ ∃ frame, decode bytes = .ok frame
  /-- The bytes of a frame that was written are truncated as long as one is missing. -/
  written : ∀ (frame : Frame) whole, frame.encode = .ok whole → frame.payload.length < 2 ^ 64 →
    bytes <+: whole → bytes ≠ whole → decode bytes = .error .truncated

/-- **What the answer to a byte string says.**  It could still become a frame, or it is one, or a
frame stands in front of it, or none of these will ever be so. -/
theorem classified (bytes : Bytes) (hsize : Sizable bytes) : Classified bytes where
  truncated := truncated_iff hsize
  mismatch := mismatch_iff hsize
  unique := fun _ _ => eq_of_accepted
  overflow := overflow_iff hsize
  whole := exists_decode_iff hsize
  complete := by
    rw [decode_eq_truncated_iff, decode_eq_overflow_iff]
    simp only [decode_eq_mismatch_iff, decode_eq_ok_iff]
    rcases hcut : cut bytes noLimit with fault | _ | ⟨frame, rest⟩
    · rw [fault_of_cut hcut]
      simp
    · simp
    · by_cases hrest : rest = [] <;> simp [hrest]
  written := by
    intro frame whole hencode hlength hfront hne
    have hfits := fits_of_encode hencode hlength
    rw [eq_wire_of_encode hencode] at hfront hne
    exact decode_truncated_of_prefix (decode_wire hfits) hfront hne

/-- The longest header, and a length of nine groups.  They announce 2 ^ 63 - 1 bytes, of which none
is there. -/
def almostSized : Bytes :=
  [0xff, 0xff, 0xff, 0xff, 0xff, 0xff, 0xff, 0xff, 0xff, 0x01] ++
    [0xff, 0xff, 0xff, 0xff, 0xff, 0xff, 0xff, 0xff, 0x7f]

theorem classified_almostSized :
    Sizable almostSized ∧
      ∃ whole, almostSized <+: whole ∧ almostSized ≠ whole ∧ Accepted whole := by
  have hscan : Preamble.scan almostSized noLimit =
      .ok (some ⟨0x1fffffffffffffff, 7, 2 ^ 63 - 1, 19⟩) := by decide +kernel
  have hsize : Sizable almostSized := by
    intro preamble hpreamble
    rw [hscan] at hpreamble
    cases hpreamble
    decide
  have hdecode : decode almostSized = .error .truncated := by decide +kernel
  exact ⟨hsize, (classified almostSized hsize).truncated.mp hdecode⟩

/-! ### The shortest form -/

/-- **A frame that was read is written again in its shortest form.**  Whatever bytes it was read
from, it has room in the header, its bytes are read as the same frame, and they are fewer than those
it was read from, or the same. -/
theorem normal_form (hdecode : decode bytes = .ok frame) :
    frame.id.toNat ≤ 2 ^ 61 - 1 ∧ frame.flag.toNat ≤ 7 ∧
    ∃ written, frame.encode = .ok written ∧ decode written = .ok frame ∧
      written.length = frame.wireSize ∧ written.length ≤ bytes.length ∧
      (written.length = bytes.length ↔ written = bytes) := by
  have hcut := decode_eq_ok_iff.mp hdecode
  have hfits := (fits_of_cut hcut).1
  have hencode := encode_eq hfits.id_le hfits.flag_le
  obtain ⟨hid, hflag⟩ := frame.written_iff.mp ⟨_, hencode⟩
  obtain ⟨taken, htaken, hle, hshortest⟩ := taken_of_cut hcut
  rw [List.append_nil] at htaken
  subst htaken
  have hlength := frame.length_wire
  refine ⟨hid, hflag, frame.wire, hencode, decode_wire hfits, hlength, hlength.trans_le hle, ?_⟩
  constructor
  · intro hsame
    exact (hshortest (hsame.symm.trans hlength)).symm
  · exact congrArg List.length

/-- A frame with a byte too many in its header, and one in its length. -/
def padded : Bytes := [0x80, 0x00, 0x81, 0x00, 0x61]

theorem normal_form_padded :
    decode padded = .ok ⟨0, 0, [0x61]⟩ ∧
    ∃ written, encode ⟨0, 0, [0x61]⟩ = .ok written ∧ decode written = .ok ⟨0, 0, [0x61]⟩ ∧
      written.length = 3 ∧ written ≠ padded := by
  have hdecode : decode padded = .ok ⟨0, 0, [0x61]⟩ := by decide +kernel
  obtain ⟨-, -, written, hencode, hback, hlength, -, hsame⟩ := normal_form hdecode
  have hthree : written.length = 3 := hlength.trans (by decide +kernel)
  refine ⟨hdecode, written, hencode, hback, hthree, ?_⟩
  intro heq
  have hfive := hsame.mpr heq
  rw [hthree] at hfive
  cases hfive

end Frame

end StreamMux
