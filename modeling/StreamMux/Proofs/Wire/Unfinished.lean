import StreamMux.Proofs.Wire.Cuts

/-!
# Frames that are not all there

How many bytes can stand in front of a reader without making a frame.  Header and length take ten
bytes each at most; the longest unfinished row of bytes has both, and all of the payload but one
byte.

* `Preamble.length_lt_of_scan_none` — an unfinished header or length is shorter than the longest;
* `Frame.length_le_of_cut_none` — bytes that make no frame yet are few;
* `Link.length_le_of_read` — a read gives no more bytes than were asked for.
-/

namespace StreamMux

/-! ### What stands in front of a payload -/

namespace Preamble

/-- The most bytes that header and length can take. -/
def maxSize : Nat := 2 * Varint.maxSize

theorem length_lt_of_scan_none {bytes : Bytes} {limit : Nat} (h : scan bytes limit = .ok none) :
    bytes.length < maxSize := by
  unfold maxSize
  rcases values_of_scan_none h with hheader | ⟨header, headerSize, hheader, hlength⟩
  · have hlt := Varint.length_lt_of_incomplete hheader
    omega
  · have hsize := Varint.size_le_of_decode hheader
    have hlt := Varint.length_lt_of_incomplete hlength
    rw [List.length_drop] at hlt
    omega

theorem size_le_of_scan {bytes : Bytes} {limit : Nat} {preamble : Preamble}
    (h : scan bytes limit = .ok (some preamble)) : preamble.size ≤ maxSize := by
  obtain ⟨header, headerSize, length, lengthSize, hheader, hlength, -, rfl⟩ := values_of_scan h
  have hsize := Varint.size_le_of_decode hheader
  have hsize' := Varint.size_le_of_decode hlength
  simp only [maxSize]
  omega

end Preamble

/-! ### Unfinished frames -/

namespace Frame

/-- Bytes that make no frame yet are all of the longest preamble at most, and all but one of the
longest payload. -/
theorem length_le_of_cut_none {bytes : Bytes} {limit : Nat} (h : cut bytes limit = .ok none) :
    bytes.length ≤ 19 + limit := by
  have hmax : Preamble.maxSize = 20 := rfl
  rcases scan_of_cut_none h with hscan | ⟨preamble, hscan, hshort⟩
  · have hlt := Preamble.length_lt_of_scan_none hscan
    omega
  · have hsize := Preamble.size_le_of_scan hscan
    obtain ⟨-, -, hle, hlimit, -⟩ := scan_append hscan []
    rw [Preamble.frameSize] at hshort
    omega

/-- Twenty bytes and no frame yet: two values of ten bytes each, and a payload that lacks its only
byte. -/
example : cut ([0xff, 0xff, 0xff, 0xff, 0xff, 0xff, 0xff, 0xff, 0xff, 0x01] ++
    [0x81, 0x80, 0x80, 0x80, 0x80, 0x80, 0x80, 0x80, 0x80, 0x00]) 1 = .ok none := by
  decide +kernel

end Frame

/-! ### Reading the link -/

theorem Link.length_le_of_read {link after : Link} {side : Side} {size : Nat} {chunk : Bytes}
    (h : link.read side size = (after, .ok (some chunk))) : chunk.length ≤ max size 1 := by
  unfold read at h
  simp only at h
  split at h
  · cases h
  · split at h
    · cases h
    · split at h
      · cases h
        exact List.length_take_le ..
      · split at h
        · cases h
          exact List.length_take_le ..
        · split at h <;> cases h

end StreamMux
