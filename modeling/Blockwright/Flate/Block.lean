import Blockwright.Flate.Huffman

/-!
# Blocks of a compressed stream

A block holds bytes as they are, or items written with prefix codes: literals, and copies of bytes
before. The codes are fixed ones, or stand in front of the items, where the lengths of their words
are written with a code of its own.
-/

namespace Blockwright

namespace Flate

/-- What a block with codes is made of. -/
inductive Item where
  | literal (byte : UInt8)
  /-- As many bytes as a length, from a distance before the end. -/
  | copy (distance length : Nat)
  | blockEnd
deriving DecidableEq, Repr

/-- Shortest length of each length symbol, and the number of bits that are added to it. -/
def lengthBases : Array (Nat × Nat) := #[
  (3, 0), (4, 0), (5, 0), (6, 0), (7, 0), (8, 0), (9, 0), (10, 0), (11, 1), (13, 1), (15, 1),
  (17, 1), (19, 2), (23, 2), (27, 2), (31, 2), (35, 3), (43, 3), (51, 3), (59, 3), (67, 4),
  (83, 4), (99, 4), (115, 4), (131, 5), (163, 5), (195, 5), (227, 5), (258, 0)]

/-- Shortest distance of each distance symbol, and the number of bits that are added to it. -/
def distanceBases : Array (Nat × Nat) := #[
  (1, 0), (2, 0), (3, 0), (4, 0), (5, 1), (7, 1), (9, 2), (13, 2), (17, 3), (25, 3), (33, 4),
  (49, 4), (65, 5), (97, 5), (129, 6), (193, 6), (257, 7), (385, 7), (513, 8), (769, 8),
  (1025, 9), (1537, 9), (2049, 10), (3073, 10), (4097, 11), (6145, 11), (8193, 12), (12289, 12),
  (16385, 13), (24577, 13)]

/-- Reads the bits that a symbol adds to its base. -/
def readExtended (table : Array (Nat × Nat)) (symbol : Nat) : Reading Nat :=
  match table[symbol]? with
  | none => throw .corrupt
  | some (base, extra) => return base + (← Reading.number extra)

/-- The two codes of a block. -/
structure Codes where
  /-- Code of literals, lengths and the end of the block. -/
  literals : Code
  distances : Code

namespace Codes

def readItem (codes : Codes) : Reading Item := do
  let symbol ← codes.literals.read
  if symbol < 256 then return .literal (UInt8.ofNat symbol)
  else if symbol = 256 then return .blockEnd
  else
    let length ← readExtended lengthBases (symbol - 257)
    let symbol ← codes.distances.read
    let distance ← readExtended distanceBases symbol
    return .copy distance length

/-- Lengths of the fixed code of literals. -/
def fixedLiteralLengths : List Nat :=
  List.replicate 144 8 ++ List.replicate 112 9 ++ List.replicate 24 7 ++ List.replicate 8 8

/-- Lengths of the fixed code of distances. -/
def fixedDistanceLengths : List Nat := List.replicate 32 5

/-- The fixed codes. -/
def fixed : Codes where
  literals := .ofLengths fixedLiteralLengths
  distances := .ofLengths fixedDistanceLengths

/-- The order in which the lengths of the code of lengths stand. -/
def lengthOrder : List Nat := [16, 17, 18, 0, 8, 7, 9, 6, 10, 5, 11, 4, 12, 3, 13, 2, 14, 1, 15]

/-- Reads lengths of three bits. -/
def readShortLengths : (count : Nat) → Reading (List Nat)
  | 0 => return []
  | count + 1 => do
    let length ← Reading.number 3
    let others ← readShortLengths count
    return length :: others

/-- The lengths of the code of lengths at their places. -/
def placeLengths (lengths : List Nat) : List Nat :=
  (List.range 19).map fun place => ((lengthOrder.zip lengths).lookup place).getD 0

/-- Reads lengths with the code of lengths until there are the given number. Lengths read before
are given latest first. A run must not go beyond. -/
def readLengths (code : Code) (count : Nat) : (fuel : Nat) → (done : List Nat) →
    Reading (List Nat)
  | 0, _ => throw .short
  | fuel + 1, done =>
    if done.length = count then return done.reverse
    else if count < done.length then throw .corrupt
    else do
      let symbol ← code.read
      if symbol < 16 then readLengths code count fuel (symbol :: done)
      else if symbol = 16 then
        match done with
        | [] => throw .corrupt
        | last :: _ =>
          let more ← Reading.number 2
          readLengths code count fuel (List.replicate (3 + more) last ++ done)
      else if symbol = 17 then
        let more ← Reading.number 3
        readLengths code count fuel (List.replicate (3 + more) 0 ++ done)
      else
        let more ← Reading.number 7
        readLengths code count fuel (List.replicate (11 + more) 0 ++ done)

/-- The code with the given lengths, which leaves no room unless it is trivial. -/
def codeOf (lengths : List Nat) : Reading Code :=
  let code := Code.ofLengths lengths
  if code.isComplete || code.isTrivial then return code else throw .corrupt

/-- Reads the codes of a block that brings its own. The code of their lengths leaves no room. -/
def read : Reading Codes := do
  let literals ← Reading.number 5
  let distances ← Reading.number 5
  let short ← Reading.number 4
  let literals := literals + 257
  let distances := distances + 1
  if 286 < literals || 30 < distances then throw .corrupt
  let lengths ← readShortLengths (short + 4)
  let code := Code.ofLengths (placeLengths lengths)
  unless code.isComplete do throw .corrupt
  let lengths ← readLengths code (literals + distances) (literals + distances + 1) []
  return {
    literals := ← codeOf (lengths.take literals)
    distances := ← codeOf (lengths.drop literals) }

end Codes

/-- The kind of a block. -/
inductive Block where
  /-- A block of so many bytes as they are. -/
  | stored (size : Nat)
  | coded (codes : Codes)

namespace Block

/-- Reads the number of the bytes of a block that holds them as they are. It is written twice, the
second time inverted. -/
def readStored : Reading Block := do
  Reading.align
  let low ← Reading.byte
  let high ← Reading.byte
  let lowInverse ← Reading.byte
  let highInverse ← Reading.byte
  if lowInverse = ~~~low && highInverse = ~~~high then
    return .stored (low.toNat + 256 * high.toNat)
  else throw .corrupt

/-- Reads the beginning of a block, and whether it is the last. -/
def read : Reading (Bool × Block) := do
  let last ← Reading.bit
  let kind ← Reading.number 2
  if kind = 0 then return (last, ← readStored)
  else if kind = 1 then return (last, .coded .fixed)
  else if kind = 2 then return (last, .coded (← Codes.read))
  else throw .corrupt

end Block

end Flate

end Blockwright
