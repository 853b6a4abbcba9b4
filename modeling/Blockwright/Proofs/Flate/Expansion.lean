import Blockwright.Proofs.Flate.Stored

/-!
# Bounds of inflated streams

Every item of a compressed stream takes a bit at least and stands for at most 258 bytes. So a stream
inflates to at most 2064 times its bytes, and no way to compress that can be undone does better.
-/

namespace Blockwright

namespace Flate

/-! ## Bits that are read -/

/-- Whether reading takes a number of bits at least whenever it gives a value, which then has a
property. -/
def Reading.Takes {α : Type} (least : Nat) (holds : α → Prop) (reading : Reading α) : Prop :=
  ∀ bits value next, bits.used < 8 → reading bits = .ok value next →
    next.used < 8 ∧ next.remaining + least ≤ bits.remaining ∧ holds value

namespace Reading

variable {α β : Type} {least more : Nat} {holds : α → Prop} {after : β → Prop}

theorem takes_pure {value : α} (isSo : holds value) : Takes 0 holds (pure value) := by
  rintro bits _ _ proper ⟨⟩
  exact ⟨proper, le_rfl, isSo⟩

theorem takes_throw (fault : Fault) : Takes least holds (throw fault) := by
  rintro bits _ _ - ⟨⟩

theorem Takes.bind {first : Reading α} {second : α → Reading β} (takes : Takes least holds first)
    (each : ∀ value, holds value → Takes more after (second value)) :
    Takes (least + more) after (first >>= second) := by
  intro bits value next proper reads
  cases read : first bits with
  | error fault rest => simp [Bind.bind, EStateM.bind, read] at reads
  | ok middle rest =>
    simp only [Bind.bind, EStateM.bind, read] at reads
    obtain ⟨properRest, fewer, isSo⟩ := takes _ _ _ proper read
    obtain ⟨properNext, fewest, isAfter⟩ := each middle isSo _ _ _ properRest reads
    exact ⟨properNext, by omega, isAfter⟩

theorem Takes.andThen {first : Reading α} {second : α → Reading β}
    (takes : Takes least holds first) (each : ∀ value, holds value → Takes 0 after (second value)) :
    Takes least after (first >>= second) :=
  takes.bind each

theorem Takes.mono {reading : Reading α} (takes : Takes more holds reading) {weaker : α → Prop}
    (fewer : least ≤ more) (weaken : ∀ value, holds value → weaker value) :
    Takes least weaker reading := by
  intro bits value next proper reads
  obtain ⟨properNext, fewest, isSo⟩ := takes _ _ _ proper reads
  exact ⟨properNext, by omega, weaken value isSo⟩

theorem takes_bit : Takes 1 (fun _ => True) bit := by
  intro bits value next proper reads
  rw [bit] at reads
  split at reads
  · cases reads
  · next byte rest form =>
    have length : bits.bytes.length = rest.length + 1 := by rw [form]; rfl
    cases reads
    rw [← and_assoc]
    refine ⟨?_, trivial⟩
    split
    · simp only [Bits.remaining, length]
      omega
    · simp only [Bits.remaining, length]
      omega

theorem takes_number (count : Nat) : Takes count (· < 2 ^ count) (number count) := by
  induction count with
  | zero => exact takes_pure Nat.one_pos
  | succ count ih =>
    rw [number, Nat.add_comm]
    refine takes_bit.bind fun low _ => ih.bind fun high small => takes_pure ?_
    have digit : low.toNat ≤ 1 := Bool.toNat_le low
    rw [Nat.pow_add]
    omega

theorem takes_align : Takes 0 (fun _ => True) align := by
  intro bits value next proper reads
  cases reads
  rw [Bits.align]
  split
  · exact ⟨proper, le_rfl, trivial⟩
  · refine ⟨Nat.zero_lt_succ 7, ?_, trivial⟩
    simp only [Bits.remaining, List.length_drop]
    omega

theorem takes_byte : Takes 1 (fun _ => True) byte := by
  intro bits value next proper reads
  rw [byte] at reads
  split at reads
  · cases reads
  · next byte rest form =>
    have length : bits.bytes.length = rest.length + 1 := by rw [form]; rfl
    cases reads
    refine ⟨Nat.zero_lt_succ 7, ?_, trivial⟩
    simp only [Bits.behind, Bits.remaining, length]
    omega

end Reading

/-! ## Items -/

theorem Code.takes_readFrom (symbols : Array Nat) (counts : List Nat) (word start place : Nat) :
    (readFrom symbols counts word start place).Takes 1 (fun _ => True) := by
  induction counts generalizing word start place with
  | nil => exact Reading.takes_throw _
  | cons count counts ih =>
    refine Reading.takes_bit.andThen fun low _ => ?_
    dsimp only
    split
    · split
      · exact Reading.takes_pure trivial
      · exact Reading.takes_throw _
    · exact (ih _ _ _).mono (Nat.zero_le _) fun _ _ => trivial

theorem Code.takes_read (code : Code) : code.read.Takes 1 (fun _ => True) :=
  takes_readFrom _ _ _ _ _

theorem takes_readExtended (bound : Nat) {table : Array (Nat × Nat)}
    (bounded : ∀ entry ∈ table, entry.1 + 2 ^ entry.2 ≤ bound) (symbol : Nat) :
    (readExtended table symbol).Takes 0 (· < bound) := by
  rw [readExtended]
  split
  · exact Reading.takes_throw _
  · next base extra found =>
    have entry := bounded _ (Array.mem_of_getElem? found)
    refine ((Reading.takes_number extra).andThen fun number small =>
      Reading.takes_pure ?_).mono (Nat.zero_le _) fun _ => id
    dsimp only at entry small ⊢
    omega

namespace Codes

/-- Whether an item stands for few bytes. -/
def IsShort (item : Item) : Prop := ∀ distance length, item = .copy distance length → length ≤ 258

theorem takes_readItem (codes : Codes) : codes.readItem.Takes 1 IsShort := by
  refine codes.literals.takes_read.andThen fun symbol _ => ?_
  split
  · exact Reading.takes_pure nofun
  · split
    · exact Reading.takes_pure nofun
    · refine (takes_readExtended 259 (by decide) _).andThen fun length small => ?_
      refine (codes.distances.takes_read.mono (Nat.zero_le _) fun _ => id).andThen
        fun symbol _ => ?_
      refine (takes_readExtended 32769 (by decide) _).andThen fun distance _ => ?_
      refine Reading.takes_pure ?_
      rintro _ _ ⟨⟩
      exact Nat.le_of_lt_succ small

end Codes

/-! ## Blocks -/

/-- Whether reading gives bits back only if it fails. -/
abbrev Reading.Advances {α : Type} (reading : Reading α) : Prop := reading.Takes 0 fun _ => True

namespace Reading

variable {α β : Type}

theorem advances_pure (value : α) : Advances (pure value) := takes_pure trivial

theorem Takes.advances {least : Nat} {holds : α → Prop} {reading : Reading α}
    (takes : Takes least holds reading) : reading.Advances :=
  takes.mono (Nat.zero_le _) fun _ _ => trivial

theorem Advances.bind {first : Reading α} {second : α → Reading β} (advances : first.Advances)
    (each : ∀ value, (second value).Advances) : (first >>= second).Advances :=
  Takes.bind advances fun value _ => each value

theorem advances_throw (fault : Fault) (second : α → Reading β) :
    (throw fault >>= second).Advances := by
  rintro bits _ _ - ⟨⟩

end Reading

namespace Codes

theorem advances_readShortLengths (count : Nat) : (readShortLengths count).Advances := by
  induction count with
  | zero => exact Reading.advances_pure _
  | succ count ih =>
    exact (Reading.takes_number 3).advances.bind fun _ => ih.bind fun _ => Reading.advances_pure _

theorem advances_readLengths (code : Code) (count fuel : Nat) (done : List Nat) :
    (readLengths code count fuel done).Advances := by
  induction fuel generalizing done with
  | zero => exact Reading.takes_throw _
  | succ fuel ih =>
    unfold readLengths
    split
    · exact Reading.advances_pure _
    split
    · exact Reading.takes_throw _
    refine code.takes_read.advances.bind fun symbol => ?_
    split
    · exact ih _
    split
    · split
      · exact Reading.takes_throw _
      · exact (Reading.takes_number 2).advances.bind fun _ => ih _
    split
    · exact (Reading.takes_number 3).advances.bind fun _ => ih _
    · exact (Reading.takes_number 7).advances.bind fun _ => ih _

theorem advances_codeOf (lengths : List Nat) : (codeOf lengths).Advances := by
  rw [codeOf]
  split
  · exact Reading.advances_pure _
  · exact Reading.takes_throw _

theorem advances_read : read.Advances := by
  refine (Reading.takes_number 5).advances.bind fun literals =>
    (Reading.takes_number 5).advances.bind fun distances =>
    (Reading.takes_number 4).advances.bind fun short => ?_
  dsimp only
  split
  · exact Reading.advances_throw _ _
  refine (advances_readShortLengths _).bind fun lengths => ?_
  split
  · exact (advances_readLengths _ _ _ _).bind fun _ => (advances_codeOf _).bind fun _ =>
      (advances_codeOf _).bind fun _ => Reading.advances_pure _
  · exact Reading.advances_throw _ _

end Codes

namespace Block

theorem advances_readStored : readStored.Advances := by
  have byte := Reading.takes_byte.advances
  refine Reading.takes_align.bind fun _ _ => byte.bind fun low => byte.bind fun high =>
    byte.bind fun lowInverse => byte.bind fun highInverse => ?_
  split
  · exact Reading.advances_pure _
  · exact Reading.takes_throw _

theorem advances_read : read.Advances := by
  refine Reading.takes_bit.advances.bind fun last => (Reading.takes_number 2).advances.bind
    fun kind => ?_
  split
  · exact advances_readStored.bind fun _ => Reading.advances_pure _
  split
  · exact Reading.advances_pure _
  split
  · exact Codes.advances_read.bind fun _ => Reading.advances_pure _
  · exact Reading.takes_throw _

end Block

/-! ## Output -/

/-- Whether a reader stops with output within a bound, or because of a fault. -/
def Stop.Within (bound : Nat) : Stop → Prop
  | .full out => out.size ≤ bound
  | .faulty => True

theorem Stop.Within.mono {stop : Stop} {least most : Nat} (within : stop.Within least)
    (wider : least ≤ most) : stop.Within most := by
  cases stop with
  | full out => exact Nat.le_trans within wider
  | faulty => exact trivial

/-- Whether the output, and 258 bytes for every bit that is left, are within a bound. -/
def Within (bound : Nat) : Except Stop (ByteArray × Bits) → Prop
  | .ok (out, bits) => bits.used < 8 ∧ out.size + 258 * bits.remaining ≤ bound
  | .error stop => stop.Within bound

section Within

variable {α : Type} {bound : Nat} {limit : Option Nat} {spent : Bool} {out : ByteArray}
  {bits : Bits}

theorem Within.bind {outcome : Except Stop (ByteArray × Bits)}
    {next : ByteArray × Bits → Except Stop (ByteArray × Bits)} (within : Within bound outcome)
    (each : ∀ out bits, bits.used < 8 → out.size + 258 * bits.remaining ≤ bound →
      Within bound (next (out, bits))) :
    Within bound (outcome >>= next) := by
  cases outcome with
  | error stop => exact within
  | ok found => exact each _ _ within.1 within.2

/-- A reader stops with the output that there is, or because of a fault. -/
theorem readOn_error {reading : Reading α} {stop : Stop}
    (stops : readOn limit out reading bits = .error stop) : stop.Within out.size := by
  have either (asks : Bool) : Stop.Within out.size (if asks then .full out else .faulty) := by
    cases asks with
    | false => exact trivial
    | true => exact le_rfl
  rw [readOn] at stops
  split at stops
  · split at stops
    · cases stops
      exact le_rfl
    · cases stops
  · cases stops
    exact either _
  · cases stops
    exact either _

theorem readOn_ok {reading : Reading α} {value : α} {next : Bits}
    (reads : readOn limit out reading bits = .ok (value, next)) :
    reading bits = .ok value next := by
  rw [readOn] at reads
  split at reads
  · next read =>
    split at reads
    · cases reads
    · cases reads
      exact read
  · cases reads
  · cases reads

theorem within_readOn {least : Nat} {holds : α → Prop} {reading : Reading α}
    {next : α × Bits → Except Stop (ByteArray × Bits)} (takes : reading.Takes least holds)
    (proper : bits.used < 8) (room : out.size + 258 * bits.remaining ≤ bound)
    (each : ∀ value rest, holds value → rest.used < 8 → rest.remaining + least ≤ bits.remaining →
      Within bound (next (value, rest))) :
    Within bound (readOn limit out reading bits >>= next) := by
  cases read : readOn limit out reading bits with
  | error stop => exact (readOn_error read).mono (by omega)
  | ok found =>
    obtain ⟨value, rest⟩ := found
    obtain ⟨properRest, fewer, isSo⟩ := takes _ _ _ proper (readOn_ok read)
    exact each value rest isSo properRest fewer

theorem openWindow_error {stop : Stop} (stops : openWindow limit spent out = .error stop) :
    stop.Within out.size := by
  rw [openWindow] at stops
  split at stops
  · cases stops
  split at stops
  · cases stops
    exact le_rfl
  split at stops
  · cases stops
    exact trivial
  · cases stops

theorem emit_cases (limit : Option Nat) (spent : Bool) (out : ByteArray) (byte : UInt8) :
    emit limit spent out byte = .ok (out.push byte) ∨
      ∃ stop, emit limit spent out byte = .error stop ∧ stop.Within out.size := by
  rw [emit]
  cases window : openWindow limit spent out with
  | error stop => exact .inr ⟨stop, rfl, openWindow_error window⟩
  | ok => exact .inl rfl

theorem repeatBytes_cases (limit : Option Nat) (spent : Bool) (distance count : Nat)
    (out : ByteArray) :
    (∃ after, repeatBytes limit spent distance count out = .ok after ∧
      after.size = out.size + count) ∨
    ∃ stop, repeatBytes limit spent distance count out = .error stop ∧
      stop.Within (out.size + count) := by
  induction count generalizing out with
  | zero => exact .inl ⟨out, rfl, rfl⟩
  | succ count ih =>
    rw [repeatBytes]
    generalize (if distance ≤ out.size then Bytes.at0 out (out.size - distance) else 0) = byte
    rcases emit_cases limit spent out byte with added | ⟨stop, stops, within⟩
    · rw [added]
      have size : (out.push byte).size = out.size + 1 := ByteArray.size_push
      rcases ih (out.push byte) with ⟨after, repeated, length⟩ | ⟨stop, stops, within⟩
      · exact .inl ⟨after, repeated, by omega⟩
      · exact .inr ⟨stop, stops, within.mono (by omega)⟩
    · rw [stops]
      exact .inr ⟨stop, rfl, within.mono (by omega)⟩

theorem within_emit {byte : UInt8} {next : ByteArray → Except Stop (ByteArray × Bits)}
    (room : out.size ≤ bound) (after : Within bound (next (out.push byte))) :
    Within bound (emit limit spent out byte >>= next) := by
  rcases emit_cases limit spent out byte with added | ⟨stop, stops, within⟩
  · rw [added]
    exact after
  · rw [stops]
    exact within.mono room

theorem within_emitStored (count : Nat) (proper : bits.used < 8)
    (room : out.size + 258 * bits.remaining ≤ bound) :
    Within bound (emitStored limit count out bits) := by
  induction count generalizing out bits with
  | zero => exact ⟨proper, room⟩
  | succ count ih =>
    refine within_readOn Reading.takes_byte proper room fun byte rest _ properRest fewer => ?_
    refine within_emit (by omega) (ih properRest ?_)
    rw [ByteArray.size_push]
    omega

theorem within_emitCoded (codes : Codes) (fuel : Nat) (proper : bits.used < 8)
    (room : out.size + 258 * bits.remaining ≤ bound) :
    Within bound (emitCoded limit codes fuel out bits) := by
  induction fuel generalizing out bits with
  | zero => exact trivial
  | succ fuel ih =>
    refine within_readOn codes.takes_readItem proper room
      fun item rest short properRest fewer => ?_
    cases item with
    | literal byte =>
      refine within_emit (by omega) (ih properRest ?_)
      rw [ByteArray.size_push]
      omega
    | copy distance length =>
      have few := short distance length rfl
      dsimp only
      rcases repeatBytes_cases limit rest.isSpent distance length out with
        ⟨after, repeated, size⟩ | ⟨stop, stops, within⟩
      · rw [repeated]
        exact ih properRest (by omega)
      · rw [stops]
        exact within.mono (by omega)
    | blockEnd => exact ⟨properRest, by omega⟩

theorem within_emitBlocks (fuel : Nat) (proper : bits.used < 8)
    (room : out.size + 258 * bits.remaining ≤ bound) :
    Within bound (emitBlocks limit fuel out bits) := by
  induction fuel generalizing out bits with
  | zero => exact trivial
  | succ fuel ih =>
    refine within_readOn Block.advances_read proper room fun found rest _ properRest fewer => ?_
    obtain ⟨last, block⟩ := found
    have roomRest : out.size + 258 * rest.remaining ≤ bound := by omega
    have others (out : ByteArray) (bits : Bits) (proper : bits.used < 8)
        (room : out.size + 258 * bits.remaining ≤ bound) :
        Within bound
          (if last then pure (out, bits.align) else emitBlocks limit fuel out bits) := by
      split
      · have aligned := Reading.takes_align bits () bits.align proper rfl
        exact ⟨aligned.1, by omega⟩
      · exact ih proper room
    cases block with
    | stored size => exact (within_emitStored size properRest roomRest).bind others
    | coded codes => exact (within_emitCoded codes _ properRest roomRest).bind others

end Within

theorem within_inflate (limit : Option Nat) (begun : Nat) (stream : List UInt8) :
    Within (2064 * stream.length) (inflate limit (.behind begun stream)) := by
  refine within_emitBlocks _ (Nat.zero_lt_succ 7) ?_
  simp only [Bits.remaining, Bits.behind, ByteArray.size_empty]
  omega

end Flate

namespace Zlib

theorem size_readAll (wanted : Nat) (stream : List UInt8) :
    (∃ out, readAll wanted stream = .ok out ∧ out.size ≤ 2064 * stream.length) ∨
      ∃ stop, readAll wanted stream = .error stop ∧ stop.Within (2064 * stream.length) := by
  rcases stream with _ | ⟨method, _ | ⟨flags, stream⟩⟩
  · exact .inr ⟨_, rfl, trivial⟩
  · exact .inr ⟨_, rfl, trivial⟩
  have shorter : 2064 * stream.length ≤ 2064 * (method :: flags :: stream).length := by
    simp only [List.length_cons]
    omega
  have inflated := Flate.within_inflate (some wanted) 2 stream
  rw [readAll]
  split
  · cases result : Flate.inflate (some wanted) (.behind 2 stream) with
    | error stop =>
      rw [result] at inflated
      exact .inr ⟨stop, rfl, inflated.mono shorter⟩
    | ok found =>
      obtain ⟨out, bits⟩ := found
      rw [result] at inflated
      have within : out.size ≤ 2064 * (method :: flags :: stream).length := by
        have room := inflated.2
        omega
      cases sum : Flate.readOn (some wanted) out readSum bits with
      | error stop =>
        refine .inr ⟨stop, ?_, (Flate.readOn_error sum).mono within⟩
        simp [bind, Except.bind, sum]
      | ok found =>
        by_cases same : found.1 = Adler32.ofBytes (Bytes.list out)
        · exact .inl ⟨out, by simp [bind, Except.bind, pure, Except.pure, sum, same], within⟩
        · refine .inr ⟨.faulty, ?_, trivial⟩
          simp only [bind, Except.bind, sum, same, if_false]
          rfl
  · exact .inr ⟨_, rfl, trivial⟩

theorem size_decode_le {wanted : Nat} {stream : List UInt8} {out : ByteArray}
    (decoded : decode wanted stream = some out) : out.size ≤ 2064 * stream.length := by
  have cut (whole : ByteArray) : (whole.extract 0 wanted).size ≤ whole.size := by
    rw [ByteArray.size_extract]
    omega
  rcases size_readAll wanted stream with
    ⟨whole, read, within⟩ | ⟨stop, stops, within⟩
  · rw [decode, read] at decoded
    cases decoded
    exact (cut whole).trans within
  · rw [decode, stops] at decoded
    cases stop with
    | full whole =>
      cases decoded
      exact (cut whole).trans within
    | faulty => cases decoded

/-- A way to compress that can be undone leaves at least a byte of 2064. -/
theorem Undoes.length_le {compress : List UInt8 → List UInt8} (undone : Undoes compress)
    (bytes : List UInt8) : bytes.length ≤ 2064 * (compress bytes).length := by
  have decoded := undone (bytes.length + 1) bytes (Nat.lt_succ_self _)
  simpa using size_decode_le decoded

end Zlib

end Blockwright
