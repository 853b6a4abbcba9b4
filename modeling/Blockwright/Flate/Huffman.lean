import Blockwright.Flate.Bits

/-!
# Canonical prefix codes

A code gives each symbol a length; the code words follow from the lengths, shorter ones first and
words of one length in the order of their symbols.
-/

namespace Blockwright

namespace Flate

/-- A canonical prefix code. -/
structure Code where
  /-- Number of words of each length, from one bit on. -/
  counts : List Nat
  /-- Symbols in the order of their words. -/
  symbols : Array Nat
deriving DecidableEq, Repr

namespace Code

/-- The symbols of a length. -/
def symbolsOf (lengths : List Nat) (length : Nat) : List Nat :=
  (lengths.zipIdx.filter (fun entry => entry.1 = length)).map Prod.snd

/-- The code in which the symbol at each place has the given length; those of length zero have no
word. -/
def ofLengths (lengths : List Nat) : Code :=
  let longest := lengths.foldl Nat.max 1
  let groups := (List.range longest).map (fun shorter => symbolsOf lengths (shorter + 1))
  { counts := groups.map List.length, symbols := groups.flatten.toArray }

/-- Number of further words of the greatest length that a code has room for. -/
def room (code : Code) : Int :=
  code.counts.foldl (fun (room : Int) (count : Nat) => 2 * room - count) 1

/-- Whether everything begins with a word of the code. -/
def isComplete (code : Code) : Bool := code.room = 0

/-- Whether the code has no words, or a single one of one bit. -/
def isTrivial (code : Code) : Bool := code.counts.length = 1 && code.symbols.size ≤ 1

/-- Reads a word bit by bit. The words of each length are consecutive numbers, whose first is
given together with the place of its symbol. -/
def readFrom (symbols : Array Nat) : (counts : List Nat) → (word first place : Nat) → Reading Nat
  | [], _, _, _ => throw .corrupt
  | count :: counts, word, first, place => do
    let low ← Reading.bit
    let word := 2 * word + low.toNat
    let first := 2 * first
    if word < first + count then
      match symbols[place + (word - first)]? with
      | some symbol => return symbol
      | none => throw .corrupt
    else readFrom symbols counts word (first + count) (place + count)

/-- Reads a symbol. -/
def read (code : Code) : Reading Nat := readFrom code.symbols code.counts 0 0 0

end Code

end Flate

end Blockwright
