import Mathlib
import Blockwright.Flate.Zlib

/-!
# Reading stored streams back

A stream of stored blocks inflates to the bytes it was made of, for every reader that wants more
bytes than there are. The same holds of the wrapped stream, whose checksum is right.
-/

namespace Blockwright

namespace Flate

/-! ## Readers that want more -/

theorem isEnough_some_eq_false {wanted : Nat} {out : ByteArray} (room : out.size < wanted) :
    isEnough (some wanted) out = false := by
  simpa [isEnough] using room

theorem openWindow_eq_ok {wanted : Nat} {out : ByteArray} (room : out.size < wanted) :
    openWindow (some wanted) false out = .ok () := by
  simp [openWindow, isEnough_some_eq_false room]

/-- A reader that wants more goes on with whatever is read. -/
theorem readOn_eq_ok {α : Type} {wanted : Nat} {out : ByteArray} {reading : Reading α}
    {bits next : Bits} {value : α} (room : out.size < wanted)
    (reads : reading bits = .ok value next) :
    readOn (some wanted) out reading bits = .ok (value, next) := by
  simp [readOn, reads, isEnough_some_eq_false room]

/-! ## Stored blocks -/

theorem emitStored_append {wanted : Nat} (bytes front rest : List UInt8) (begun : Nat)
    (room : front.length + bytes.length < wanted) :
    emitStored (some wanted) bytes.length (Bytes.ofList front) (.behind begun (bytes ++ rest)) =
      .ok (Bytes.ofList (front ++ bytes), .behind (begun + bytes.length) rest) := by
  induction bytes generalizing front begun with
  | nil => simp [emitStored]
  | cons byte bytes ih =>
    have roomNow : (Bytes.ofList front).size < wanted := by
      simp only [Bytes.size_ofList, List.length_cons] at room ⊢
      omega
    have roomNext : (front ++ [byte]).length + bytes.length < wanted := by
      simp only [List.length_append, List.length_cons, List.length_nil] at room ⊢
      omega
    have reads : Reading.byte (.behind begun (byte :: (bytes ++ rest))) =
        .ok byte (.behind (begun + 1) (bytes ++ rest)) := rfl
    simp only [List.length_cons, List.cons_append, emitStored, readOn_eq_ok roomNow reads, emit,
      openWindow_eq_ok roomNow, bind, Except.bind, pure, Except.pure, Bytes.push_ofList]
    rw [ih (front ++ [byte]) (begun + 1) roomNext]
    simp [Nat.add_comm, Nat.add_left_comm]

/-- The beginning of a stored block tells that it is one, how long it is and whether it is the
last. -/
theorem read_storedBlock (last : Bool) (bytes rest : List UInt8) (begun : Nat)
    (fits : bytes.length ≤ storedLimit) :
    Block.read (.behind begun (storedBlock last bytes ++ rest)) =
      .ok (last, .stored bytes.length) (.behind (begun + 5) (bytes ++ rest)) := by
  have size : bytes.length % 256 + 256 * (bytes.length / 256 % 256) = bytes.length := by
    simp only [storedLimit] at fits
    omega
  have noSecond : Nat.testBit 1 1 = false := by decide
  have noThird : Nat.testBit 1 2 = false := by decide
  cases last <;>
    simp [Block.read, storedBlock, Bytes.littleEndianNat, Bits.behind, bind, EStateM.bind,
      Reading.bit, Reading.number, Block.readStored, Reading.align, Bits.align, Reading.byte,
      pure, EStateM.pure, noSecond, noThird, size]

theorem emitBlocks_storedBlock {wanted fuel : Nat} (last : Bool) (bytes front rest : List UInt8)
    (begun : Nat) (fits : bytes.length ≤ storedLimit)
    (room : front.length + bytes.length < wanted) :
    emitBlocks (some wanted) (fuel + 1) (Bytes.ofList front)
        (.behind begun (storedBlock last bytes ++ rest)) =
      if last then .ok (Bytes.ofList (front ++ bytes), .behind (begun + 5 + bytes.length) rest)
      else emitBlocks (some wanted) fuel (Bytes.ofList (front ++ bytes))
        (.behind (begun + 5 + bytes.length) rest) := by
  have roomNow : (Bytes.ofList front).size < wanted := by
    simp only [Bytes.size_ofList]
    omega
  simp only [emitBlocks, readOn_eq_ok roomNow (read_storedBlock last bytes rest begun fits), bind,
    Except.bind, emitStored_append bytes front rest (begun + 5) room]
  cases last <;> rfl

theorem length_lt_length_storedBlock (last : Bool) (bytes : List UInt8) :
    bytes.length < (storedBlock last bytes).length := by
  simp [storedBlock]
  omega

theorem length_lt_length_store (bytes : List UInt8) : bytes.length < (store bytes).length := by
  fun_induction store bytes with
  | case1 bytes fits => exact length_lt_length_storedBlock true bytes
  | case2 bytes large ih =>
    have front := length_lt_length_storedBlock false (bytes.take storedLimit)
    simp only [List.length_take, List.length_drop, List.length_append] at front ih ⊢
    omega

theorem length_storedBlock (last : Bool) (bytes : List UInt8) :
    (storedBlock last bytes).length = bytes.length + 5 := by
  simp [storedBlock]
  omega

theorem length_store_le (bytes : List UInt8) : (store bytes).length ≤ 2 * bytes.length + 5 := by
  fun_induction store bytes with
  | case1 bytes fits =>
    rw [length_storedBlock]
    omega
  | case2 bytes large ih =>
    rw [List.length_append, length_storedBlock]
    simp only [List.length_take, List.length_drop, storedLimit] at large ih ⊢
    omega

theorem emitBlocks_store {wanted : Nat} (bytes front rest : List UInt8) (fuel begun : Nat)
    (enough : bytes.length < fuel) (room : front.length + bytes.length < wanted) :
    ∃ done, emitBlocks (some wanted) fuel (Bytes.ofList front)
      (.behind begun (store bytes ++ rest)) =
      .ok (Bytes.ofList (front ++ bytes), .behind done rest) := by
  induction bytes using store.induct generalizing front fuel begun with
  | case1 bytes fits =>
    obtain ⟨fuel, rfl⟩ := Nat.exists_eq_succ_of_ne_zero (by omega : fuel ≠ 0)
    rw [store, if_pos fits, emitBlocks_storedBlock true bytes front rest begun fits room]
    exact ⟨_, rfl⟩
  | case2 bytes large ih =>
    obtain ⟨fuel, rfl⟩ := Nat.exists_eq_succ_of_ne_zero (by omega : fuel ≠ 0)
    have size : (bytes.take storedLimit).length = storedLimit := by
      simp only [List.length_take]
      omega
    have sizeRest : (bytes.drop storedLimit).length = bytes.length - storedLimit :=
      List.length_drop
    have positive : 0 < storedLimit := by decide
    rw [store, if_neg large, List.append_assoc,
      emitBlocks_storedBlock false _ front _ begun (by omega) (by omega), if_neg (by decide)]
    obtain ⟨done, reads⟩ := ih (front ++ bytes.take storedLimit) fuel
      (begun + 5 + (bytes.take storedLimit).length) (by omega)
      (by rw [List.length_append]; omega)
    refine ⟨done, ?_⟩
    rw [reads, List.append_assoc, List.take_append_drop]

theorem inflate_store {wanted : Nat} (bytes rest : List UInt8) (begun : Nat)
    (room : bytes.length < wanted) :
    ∃ done, inflate (some wanted) (.behind begun (store bytes ++ rest)) =
      .ok (Bytes.ofList bytes, .behind done rest) := by
  have long := length_lt_length_store bytes
  have enough : bytes.length < (Bits.behind begun (store bytes ++ rest)).remaining + 1 := by
    simp only [Bits.remaining, Bits.behind, List.length_append]
    omega
  exact emitBlocks_store bytes [] rest _ begun enough (by simpa using room)

end Flate

namespace Zlib

theorem readSum_bigEndian (sum : UInt32) (begun : Nat) :
    readSum (.behind begun (Bytes.bigEndian sum)) = .ok sum (.behind (begun + 4) []) := by
  have word := Bytes.wordAt_bigEndian sum []
  simp only [Bytes.bigEndian, List.append_nil, Bytes.wordAt] at word
  simp [readSum, Bytes.bigEndian, Flate.Bits.behind, bind, EStateM.bind, Flate.Reading.byte, pure,
    EStateM.pure, word]

theorem readAll_encode {wanted : Nat} (bytes : List UInt8) (room : bytes.length < wanted) :
    readAll wanted (encode bytes) = .ok (Bytes.ofList bytes) := by
  obtain ⟨done, inflated⟩ :=
    Flate.inflate_store bytes (Bytes.bigEndian (Adler32.ofBytes bytes)) 2 room
  have header : isHeader 0x78 0x01 = true := by decide
  have roomLeft : (Bytes.ofList bytes).size < wanted := by simpa using room
  have sum := Flate.readOn_eq_ok roomLeft (readSum_bigEndian (Adler32.ofBytes bytes) done)
  simp [readAll, encode, header, bind, Except.bind, pure, Except.pure, inflated, sum]

theorem decode_encode {wanted : Nat} (bytes : List UInt8) (room : bytes.length < wanted) :
    decode wanted (encode bytes) = some (Bytes.ofList bytes) := by
  have whole : (Bytes.ofList bytes).extract 0 wanted = Bytes.ofList bytes := by
    apply ByteArray.ext
    rw [ByteArray.data_extract]
    exact Array.extract_eq_self_of_le (by simpa [Bytes.ofList] using Nat.le_of_lt room)
  simp [decode, readAll_encode bytes room, whole]

/-- Whether decoding undoes a way to compress, for a reader that wants more than the bytes. -/
def Undoes (compress : List UInt8 → List UInt8) : Prop :=
  ∀ wanted bytes, bytes.length < wanted →
    decode wanted (compress bytes) = some (Bytes.ofList bytes)

/-- Something stands for no bytes at all. -/
theorem Undoes.ne_nil {compress : List UInt8 → List UInt8} (undone : Undoes compress)
    (bytes : List UInt8) : compress bytes ≠ [] := by
  intro empty
  have decoded := undone (bytes.length + 1) bytes (Nat.lt_succ_self _)
  rw [empty] at decoded
  cases decoded

theorem undoes_encode : Undoes encode := fun _ bytes room => decode_encode bytes room

theorem length_encode_le (bytes : List UInt8) : (encode bytes).length ≤ 2 * bytes.length + 11 := by
  have stored := Flate.length_store_le bytes
  rw [encode, List.length_cons, List.length_cons, List.length_append, Bytes.length_bigEndian]
  omega

end Zlib

end Blockwright
