import Blockwright.Flate.Block

/-!
# Inflating

The bytes of a compressed stream, which is a list of blocks. A copy that reaches behind the
beginning reads zeros.

A reader may want only the first bytes of a stream. It then looks whether it has enough at two
places: when a portion of the stream is used up, before it asks for another one, and when a window
of bytes is full, before another one begins. Between them it goes on, so that it meets faults that
lie behind the bytes it wants.
-/

namespace Blockwright

namespace Flate

/-- Why inflating stops before the end of a stream. -/
inductive Stop where
  /-- As many bytes are there as are wanted, or more. -/
  | full (out : ByteArray)
  /-- The stream has a fault, or ends too early. -/
  | faulty

/-- Whether as many bytes are there as are wanted. -/
def isEnough (limit : Option Nat) (out : ByteArray) : Bool := limit.any (· ≤ out.size)

/-- Reads on behind some output. Another portion of the stream is asked for only if the output is
not enough. -/
def readOn {α : Type} (limit : Option Nat) (out : ByteArray) (reading : Reading α) (bits : Bits) :
    Except Stop (α × Bits) :=
  let stop (asks : Bool) : Stop := if asks && isEnough limit out then .full out else .faulty
  match reading bits with
  | .ok value next =>
    if isEnough limit out && next.portion != bits.portion then .error (.full out)
    else .ok (value, next)
  | .error .short _ => .error (stop true)
  | .error .corrupt next => .error (stop (next.portion != bits.portion))

/-- Number of bytes of a window. -/
def windowSize : Nat := 32768

/-- Begins another window if there is a full one. That is not done if the output is enough, nor if
more is wanted and the stream is spent. -/
def openWindow (limit : Option Nat) (spent : Bool) (out : ByteArray) : Except Stop Unit :=
  if out.size = 0 || out.size % windowSize != 0 then .ok ()
  else if isEnough limit out then .error (.full out)
  else if limit.isSome && spent then .error .faulty
  else .ok ()

/-- Adds a byte. -/
def emit (limit : Option Nat) (spent : Bool) (out : ByteArray) (byte : UInt8) :
    Except Stop ByteArray := do
  openWindow limit spent out
  return out.push byte

/-- Adds bytes from a distance before the end. -/
def repeatBytes (limit : Option Nat) (spent : Bool) (distance : Nat) : (count : Nat) →
    ByteArray → Except Stop ByteArray
  | 0, out => .ok out
  | count + 1, out => do
    let byte := if distance ≤ out.size then Bytes.at0 out (out.size - distance) else 0
    let out ← emit limit spent out byte
    repeatBytes limit spent distance count out

/-- Adds bytes that stand in the stream as they are. -/
def emitStored (limit : Option Nat) : (count : Nat) → ByteArray → Bits →
    Except Stop (ByteArray × Bits)
  | 0, out, bits => .ok (out, bits)
  | count + 1, out, bits => do
    let (byte, bits) ← readOn limit out Reading.byte bits
    let out ← emit limit false out byte
    emitStored limit count out bits

/-- Adds the bytes of the items of a block. Every step reads a bit. -/
def emitCoded (limit : Option Nat) (codes : Codes) : (fuel : Nat) → ByteArray → Bits →
    Except Stop (ByteArray × Bits)
  | 0, _, _ => .error .faulty
  | fuel + 1, out, bits => do
    let (item, bits) ← readOn limit out codes.readItem bits
    match item with
    | .literal byte =>
      let out ← emit limit bits.isSpent out byte
      emitCoded limit codes fuel out bits
    | .copy distance length =>
      let out ← repeatBytes limit bits.isSpent distance length out
      emitCoded limit codes fuel out bits
    | .blockEnd => return (out, bits)

/-- Adds the bytes of blocks up to the last. Every block reads a bit. -/
def emitBlocks (limit : Option Nat) : (fuel : Nat) → ByteArray → Bits →
    Except Stop (ByteArray × Bits)
  | 0, _, _ => .error .faulty
  | fuel + 1, out, bits => do
    let ((last, block), bits) ← readOn limit out Block.read bits
    let (out, bits) ←
      match block with
      | .stored size => emitStored limit size out bits
      | .coded codes => emitCoded limit codes (bits.remaining + 1) out bits
    if last then return (out, bits.align) else emitBlocks limit fuel out bits

/-- The bytes of a compressed stream and what follows it, for a reader that wants as many bytes as
the limit says, or all. -/
def inflate (limit : Option Nat) (bits : Bits) : Except Stop (ByteArray × Bits) :=
  emitBlocks limit (bits.remaining + 1) .empty bits

end Flate

end Blockwright
