import Mathlib
import Blockwright.Json.Printer
import Blockwright.Json.Token

/-!
# Reading quoted texts back

A text in quotes is scanned as the text itself: every escape stands for its character.
-/

namespace Blockwright

namespace Json

namespace Token

/-- The state after some characters, none of which is a surrogate. -/
def TextState.behind (read : List Char) : TextState := { read, leading := none, paired := true }

theorem unit?_hexByte {code : Nat} (control : code < 0x20) :
    unit? '0' '0' (Bytes.hexDigit (code / 16)) (Bytes.hexDigit (code % 16)) = some code := by
  have zero : Bytes.hexValue? '0' = some 0 := by decide
  have high := Bytes.hexValue?_hexDigit (by omega : code / 16 < 16)
  have low := Bytes.hexValue?_hexDigit (by omega : code % 16 < 16)
  have whole : code / 16 * 16 + code % 16 = code := by omega
  simp [unit?, zero, high, low, whole]

theorem pushUnit_behind {code : Nat} (control : code < 0x20) (read : List Char) :
    (TextState.behind read).pushUnit code = .behind (Char.ofNat code :: read) := by
  have noLeading : ¬ (0xd800 ≤ code ∧ code ≤ 0xdbff) := by omega
  have noTrailing : ¬ (0xdc00 ≤ code ∧ code ≤ 0xdfff) := by omega
  simp [TextState.pushUnit, TextState.behind, noLeading, noTrailing]

theorem scanText_plain {c : Char} (noQuote : c ≠ '"') (noBackslash : c ≠ '\\')
    (printed : 0x20 ≤ c.toNat) (state : TextState) (rest : List Char) :
    scanText state (c :: rest) = scanText (state.push c) rest := by
  have noControl : ¬ c.toNat < 0x20 := by omega
  rw [scanText]
  · rw [if_neg noControl]
  · exact noQuote
  all_goals simp [noBackslash]

theorem scanText_escape (read : List Char) (c : Char) (rest : List Char) :
    scanText (.behind read) (escape c ++ rest) = scanText (.behind (c :: read)) rest := by
  have back : Char.ofNat c.toNat = c := Char.ofNat_toNat c
  unfold escape
  split
  · next quote =>
    subst quote
    rfl
  · next noQuote =>
    split
    · next backslash =>
      subst backslash
      rfl
    · next noBackslash =>
      split
      · next printed => exact scanText_plain noQuote noBackslash printed _ rest
      · next control =>
        -- The five control characters with a letter of their own.
        iterate 5
          split
          · next code =>
            rw [code] at back
            subst back
            rfl
        have small : c.toNat < 0x20 := by omega
        have byte : (UInt8.ofNat c.toNat).toNat = c.toNat := by
          rw [UInt8.toNat_ofNat']
          omega
        simp only [Bytes.hexByte, byte, List.cons_append, List.nil_append]
        rw [scanText, unit?_hexByte small]
        simp only [pushUnit_behind small, back]

theorem scanText_flatMap_escape (read cs rest : List Char) :
    scanText (.behind read) (cs.flatMap escape ++ '"' :: rest) =
      (.text (some (String.ofList (read.reverse ++ cs))), rest) := by
  induction cs generalizing read with
  | nil => simp [scanText, TextState.finish, TextState.behind]
  | cons c cs ih =>
    rw [List.flatMap_cons, List.append_assoc, scanText_escape, ih]
    simp

/-- A quoted text is a token with the text itself, whatever follows it. -/
theorem list_quoted (value : String) (rest : List Char) :
    list (quoted value ++ rest) = .text (some value) :: list rest := by
  have scanned := scanText_flatMap_escape [] value.toList rest
  rw [quoted, List.cons_append, list, if_neg (by decide), List.append_assoc, List.singleton_append]
  simp only [scan]
  rw [show TextState.start = .behind [] from rfl, scanned]
  simp [isBroken]

end Token

end Json

end Blockwright
