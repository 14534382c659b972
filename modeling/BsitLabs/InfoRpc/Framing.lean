import BsitLabs.InfoRpc.Bounds

/-!
# The length in front of a reply

Every procedure ends alike: the text that stands at the start of the array is moved up by
four, in place and from its last byte down, and its length is stored in front of it.  For
a text of any length, shorter than the four bytes it moves by or longer, that leaves its
length, the text, and behind it what stood there before; and `print_response` makes of it
the text again (`framing`).
-/

namespace BsitLabs
namespace InfoRpc

open MachineInt SystemInfo

theorem replyText_eq (buf : Region UInt8) :
    replyText buf = (List.range (bufOutSize buf).toNat).map fun j => buf.get (4 + j) :=
  List.map_map

section SizeInFront

variable {r : Region UInt8}

/-- What the end of a procedure leaves: the length as an `int`, as much of the string that
stood at the start, and what stood behind. -/
theorem get_sizeInFront_toInt32 (r : Region UInt8) (i : ℕ) :
    (sizeInFront r).get i =
      if i < 4 then (int32Bytes (toInt32 (r.strlen 0))).getD i 0
      else if i < (toInt32 (r.strlen 0)).toNat + 4 then r.get (i - 4) else r.get i := by
  simp only [sizeInFront]
  rw [Region.get_write, length_int32Bytes, Nat.sub_zero]
  by_cases hi : i < 4
  · rw [if_pos ⟨Nat.zero_le _, hi⟩, if_pos hi]
  · rw [if_neg (by omega), if_neg hi, get_shiftUp]
    congr 1
    exact propext ⟨fun h => h.2, fun h => ⟨by omega, h⟩⟩

theorem get_sizeInFront (h : r.strlen 0 < 2 ^ 31) (i : ℕ) :
    (sizeInFront r).get i =
      if i < 4 then (int32Bytes (r.strlen 0)).getD i 0
      else if i < r.strlen 0 + 4 then r.get (i - 4) else r.get i := by
  rw [get_sizeInFront_toInt32, toInt32_of_lt h, Int.toNat_natCast]

/-- The reply behind its length: as much of the string as the length says. -/
theorem replyText_sizeInFront_take (r : Region UInt8) :
    replyText (sizeInFront r) = (r.cString 0).take (toInt32 (r.strlen 0)).toNat := by
  have hle : (toInt32 (r.strlen 0)).toNat ≤ r.strlen 0 := by
    have hsize := toInt32_le (r.strlen 0)
    omega
  have hget : ∀ j, j < (toInt32 (r.strlen 0)).toNat → (sizeInFront r).get (4 + j) = r.get j :=
    fun j hj => by
      simp only [sizeInFront]
      rw [Region.get_write_of_le _ (by simp), get_shiftUp, if_pos (by omega),
        Nat.add_sub_cancel_left]
  rw [replyText_eq, bufOutSize_sizeInFront, Region.cString, ← List.map_take, List.take_range,
    Nat.min_eq_left hle]
  refine List.map_congr_left fun j hj => ?_
  rw [Nat.zero_add]
  exact hget j (List.mem_range.mp hj)

/-- The reply behind its length is the string that stood at the start. -/
theorem replyText_sizeInFront (h : r.strlen 0 < 2 ^ 31) :
    replyText (sizeInFront r) = r.cString 0 := by
  rw [replyText_sizeInFront_take, toInt32_of_lt h, Int.toNat_natCast,
    List.take_of_length_le (by rw [Region.length_cString])]

/-- What is sent of an array with room for the length and the reply arrives. -/
theorem replyText_received (h : r.strlen 0 + 4 ≤ clientBufSize) :
    replyText (received (sizeInFront r)) = r.cString 0 := by
  have h256 : clientBufSize = 256 := rfl
  have hlt : r.strlen 0 < 2 ^ 31 := by omega
  rw [← replyText_sizeInFront hlt, replyText_eq, replyText_eq, bufOutSize_received,
    bufOutSize_sizeInFront, toInt32_of_lt hlt, Int.toNat_natCast]
  refine List.map_congr_left fun j hj => ?_
  have hjlt := List.mem_range.mp hj
  exact get_received _ (by omega)

end SizeInFront

/-- What the end of a procedure makes of an array that begins with a text. -/
structure Framed (before after : Region UInt8) (text : CText) : Prop where
  /-- The first four bytes are the length. -/
  length : ∀ j, j < 4 → after.get j = (int32Bytes text.length).getD j 0
  /-- The next ones are the text. -/
  moved : ∀ j (h : j < text.bytes.length), after.get (4 + j) = text.bytes[j]
  /-- The others are what they were. -/
  behind : ∀ i, 4 + text.length ≤ i → after.get i = before.get i
  /-- Nothing is stored behind the text. -/
  inside : after.top ≤ max before.top (text.length + 4)
  /-- The client prints the text and ends the line. -/
  printed : printResponse after = text.bytes ++ ascii "\n"

/-- **The length goes in front, and the client takes it off again**, for every text that
fits with it. -/
theorem framing (before : Region UInt8) (text : CText) (bufferSize : Int32)
    (hstart : ∀ j (h : j < text.bytes.length), before.get j = text.bytes[j])
    (hend : before.get text.length = 0) (hfits : (text.length + 4 : ℤ) ≤ bufferSize.toInt) :
    Framed before (sizeInFront before) text := by
  have hstring : before.cString 0 = text.bytes :=
    Region.cString_eq_of_get text.nonzero (fun j hj => by rw [Nat.zero_add, hstart j hj])
      (by rw [Nat.zero_add]; exact hend)
  have hlen : before.strlen 0 = text.length := by
    rw [← Region.length_cString, hstring]
    rfl
  have hlt : before.strlen 0 < 2 ^ 31 := by
    have hmax := Int32.toInt_lt bufferSize
    omega
  refine ⟨fun j hj => ?_, fun j hj => ?_, fun i hi => ?_, ?_, ?_⟩
  · rw [get_sizeInFront hlt, if_pos hj, hlen]
  · have hj' : j < text.length := hj
    rw [get_sizeInFront hlt, if_neg (by omega), if_pos (by omega), Nat.add_sub_cancel_left,
      hstart j hj]
  · rw [get_sizeInFront hlt, if_neg (by omega), if_neg (by omega)]
  · rw [top_sizeInFront hlt, hlen]
  · rw [printResponse, replyText_sizeInFront hlt, hstring]

/-- The name of a system, in an array as long as the client's. -/
theorem framing_win10 :
    Framed (OutBuffer.clear.memory.strcpy 0 (ascii "win10"))
      (sizeInFront (OutBuffer.clear.memory.strcpy 0 (ascii "win10"))) (.lit "win10") :=
  framing _ (.lit "win10") 256 (by decide) (by decide) (by decide)

end InfoRpc
end BsitLabs
