import Mathlib
import Blockwright.Tree.File
import Blockwright.Zip.Directory
import Blockwright.Zip.Encode

/-!
# Reading written archives back

The directory of an archive stands between the records of its members and the last record. It is
found through the latest occurrence of what the last record starts with, and each of its records
leads to the member that it describes.
-/

namespace Blockwright

namespace Zip

/-! ## Records -/

theorem length_sharedFields (name bytes : List UInt8) : (sharedFields name bytes).length = 26 := by
  simp [sharedFields]

/-- The record of a member in the directory, without its name. -/
def directoryFront (shared : List UInt8) (position : Nat) : List UInt8 :=
  directorySignature ++ Bytes.littleEndianNat 2 version ++ shared ++ Bytes.littleEndianNat 10 0
    ++ Bytes.littleEndianNat 4 position

theorem length_directoryFront {shared : List UInt8} (length : shared.length = 26)
    (position : Nat) : (directoryFront shared position).length = directorySize := by
  simp [directoryFront, directorySignature, directorySize, length]

theorem field_directoryFront {name bytes : List UInt8} {position : Nat}
    (nameFits : name.length < 256 ^ 2) (bytesFit : bytes.length < 256 ^ 4)
    (positionFits : position < 256 ^ 4) :
    let record := directoryFront (sharedFields name bytes) position
    record.take 4 = directorySignature ∧
      field 8 2 record = (if name.all (· < 128) then 0 else 1 <<< textBit) ∧
      field 10 2 record = 0 ∧ field 16 4 record = (Crc32.ofBytes bytes).toNat ∧
      field 20 4 record = bytes.length ∧ field 28 2 record = name.length ∧
      field 30 2 record = 0 ∧ field 32 2 record = 0 ∧ field 42 4 record = position := by
  have checksum := (Crc32.ofBytes bytes).toNat_lt
  have flagsFit : (if name.all (· < 128) then 0 else 1 <<< textBit) < 256 ^ 2 := by
    split <;> decide
  simp only [directoryFront, sharedFields]
  generalize (Crc32.ofBytes bytes).toNat = sum at checksum
  generalize (if name.all (· < 128) then 0 else 1 <<< textBit) = flags at flagsFit
  generalize name.length = nameSize at nameFits
  generalize bytes.length = size at bytesFit
  simp [field, directorySignature, Bytes.littleEndianNat, Bytes.ofLittleEndian]
  omega

theorem field_memberFront {name bytes : List UInt8} (nameFits : name.length < 256 ^ 2) :
    let record := memberSignature ++ sharedFields name bytes
    record.take 4 = memberSignature ∧ field 26 2 record = name.length ∧ field 28 2 record = 0 := by
  simp only [sharedFields]
  generalize name.length = nameSize at nameFits
  simp [field, memberSignature, Bytes.littleEndianNat, Bytes.ofLittleEndian]
  omega

theorem field_endRecord {count size position : Nat} (countFits : count < full 2)
    (positionFits : position < full 4) :
    let record := endRecord count size position
    field 4 2 record = 0 ∧ field 6 2 record = 0 ∧ field 8 2 record = count ∧
      field 10 2 record = count ∧ field 16 4 record = position ∧ field 20 2 record = 0 := by
  simp only [endRecord, Nat.min_eq_left countFits.le, Nat.min_eq_left positionFits.le]
  simp only [full, Nat.pow_eq] at countFits positionFits
  simp [field, endSignature, Bytes.littleEndianNat, Bytes.ofLittleEndian]
  omega

theorem length_endRecord (count size position : Nat) :
    (endRecord count size position).length = endSize := by
  simp [endRecord, endSignature, endSize]

theorem ending_eq {count size position : Nat} (countFits : count < full 2)
    (sizeFits : size < full 4)
    (positionFits : position < full 4) :
    ending count size position = endRecord count size position := by
  rw [ending, if_pos (by simp [countFits, sizeFits, positionFits])]

/-! ## Names -/

/-- Whether a name consists of ASCII characters. -/
def IsPlain (name : String) : Prop := ∀ c ∈ name.toList, c.toNat < 128

instance (name : String) : Decidable (IsPlain name) :=
  List.decidableBAll (fun c : Char => c.toNat < 128) name.toList

theorem list_toUTF8 {name : String} (plain : IsPlain name) :
    Bytes.list name.toUTF8 = name.toList.map fun c => c.val.toUInt8 := by
  have encoded : Bytes.list name.toUTF8 = name.toList.flatMap String.utf8EncodeChar := by
    rw [Bytes.list, String.toUTF8, ← String.utf8Encode_toList, List.utf8Encode,
      List.toList_data_toByteArray]
  rw [encoded]
  rw [IsPlain] at plain
  generalize name.toList = cs at plain
  induction cs with
  | nil => rfl
  | cons c rest ih =>
    obtain ⟨first, others⟩ := List.forall_mem_cons.1 plain
    have single : c.utf8Size = 1 := by
      rw [Char.utf8Size_eq_one_iff, UInt32.le_iff_toNat_le]
      exact Nat.le_of_lt_succ first
    rw [List.flatMap_cons, String.utf8EncodeChar_eq_singleton single, ih others]
    rfl

theorem nameOf_plain {name : String} (plain : IsPlain name) :
    (Bytes.list name.toUTF8).all (· < 128) = true ∧
      Member.nameOf 0 (Bytes.list name.toUTF8) = name := by
  have each : ∀ c ∈ name.toList, c.val.toUInt8 < 128 ∧ Text.codePageChar c.val.toUInt8 = c := by
    intro c isCharacter
    have small : c.val.toNat < 128 := plain c isCharacter
    have value : c.val.toUInt8.toNat = c.val.toNat := by
      rw [UInt32.toNat_toUInt8]
      omega
    have byte : c.val.toUInt8 < 128 := by
      rw [UInt8.lt_iff_toNat_lt, value]
      exact small
    refine ⟨byte, ?_⟩
    rw [Text.codePageChar, if_pos byte, value]
    exact Char.ofNat_toNat c
  rw [list_toUTF8 plain]
  constructor
  · simpa using fun c isCharacter => (each c isCharacter).1
  · have back : (name.toList.map fun c => c.val.toUInt8).map Text.codePageChar = name.toList := by
      rw [List.map_map]
      exact List.map_congr_left (fun c isCharacter => (each c isCharacter).2) |>.trans
        (List.map_id _)
    have noText : (0 : Nat).testBit textBit = false := by decide
    simp only [Member.nameOf, noText, Bool.false_eq_true, if_false, Text.ofCodePage, back]
    exact String.ofList_toList

/-! ## Members -/

/-- The record of the member of an entry. -/
def recordOf (entry : Tree.Entry) : List UInt8 :=
  let name := Bytes.list entry.1.toUTF8
  memberRecord name (Bytes.list entry.2) (sharedFields name (Bytes.list entry.2))

/-- What the directory says about the members of entries whose records start at a position. -/
def membersAt : (position : Nat) → List Tree.Entry → List Member
  | _, [] => []
  | position, entry :: rest =>
    { name := entry.1
      encrypted := false
      method := 0
      checksum := (Crc32.ofBytes (Bytes.list entry.2)).toNat
      size := entry.2.size
      position } :: membersAt (position + (recordOf entry).length) rest

theorem records_cons (position : Nat) (entry : Tree.Entry) (rest : List Tree.Entry) :
    records position (entry :: rest) =
      let name := Bytes.list entry.1.toUTF8
      let others := records (position + (recordOf entry).length) rest
      (recordOf entry ++ others.1,
        directoryFront (sharedFields name (Bytes.list entry.2)) position ++ name ++ others.2) :=
  rfl

/-- Whether a name can be stated. -/
def IsProperName (name : String) : Prop :=
  IsPlain name ∧ (Bytes.list name.toUTF8).length < 256 ^ 2

instance (name : String) : Decidable (IsProperName name) := inferInstanceAs (Decidable (_ ∧ _))

theorem read?_directoryFront {entry : Tree.Entry} (proper : IsProperName entry.1)
    (bytesFit : entry.2.size < 256 ^ 4) {position : Nat} (positionFits : position < 256 ^ 4)
    (rest : List UInt8) :
    Member.read? 0 (directoryFront (sharedFields (Bytes.list entry.1.toUTF8)
        (Bytes.list entry.2)) position ++ Bytes.list entry.1.toUTF8 ++ rest) =
      some ({
        name := entry.1
        encrypted := false
        method := 0
        checksum := (Crc32.ofBytes (Bytes.list entry.2)).toNat
        size := entry.2.size
        position }, rest) := by
  obtain ⟨plain, nameFits⟩ := proper
  obtain ⟨ascii, nameBack⟩ := nameOf_plain plain
  rw [← Bytes.length_list] at bytesFit
  have fields := field_directoryFront nameFits bytesFit positionFits
  have front := length_directoryFront
    (length_sharedFields (Bytes.list entry.1.toUTF8) (Bytes.list entry.2)) position
  simp only [ascii, if_true] at fields
  obtain ⟨signed, flags, method, checksum, size, nameSize, extra, comment, place⟩ := fields
  have nothing : splitAt? 0 rest = some ([], rest) := rfl
  have noExtra : (Member.extra? Member.wideKind []).getD [] = [] := by
    rw [Member.extra?, Option.getD_none]
    simp
  have narrow (number : Nat) : Member.widen number [] = (number, []) := by simp [Member.widen]
  generalize Bytes.list entry.1.toUTF8 = name at *
  generalize directoryFront (sharedFields name (Bytes.list entry.2)) position = record at *
  have split := @splitAt?_append record (name ++ rest)
  rw [front, ← List.append_assoc] at split
  rw [Member.read?, split]
  simp [signed, flags, method, checksum, size, nameSize, extra, comment, place, splitAt?_append,
    nothing, nameBack, noExtra, narrow]

theorem length_recordOf (entry : Tree.Entry) : entry.2.size < (recordOf entry).length := by
  simp only [recordOf, memberRecord, memberSignature, List.length_append, List.length_cons,
    Bytes.length_list]
  omega

theorem readAll?_records {entries : List Tree.Entry}
    (proper : ∀ entry ∈ entries, IsProperName entry.1)
    {position : Nat} (fits : position + (records position entries).1.length < 256 ^ 4)
    (rest : List UInt8) :
    Member.readAll? 0 entries.length ((records position entries).2 ++ rest) =
      some (membersAt position entries) := by
  induction entries generalizing position with
  | nil => rfl
  | cons entry others ih =>
    obtain ⟨first, restProper⟩ := List.forall_mem_cons.1 proper
    have bytes := length_recordOf entry
    rw [records_cons] at fits ⊢
    simp only [List.length_append] at fits
    have read := read?_directoryFront first (show entry.2.size < 256 ^ 4 by omega)
      (show position < 256 ^ 4 by omega)
      ((records (position + (recordOf entry).length) others).2 ++ rest)
    have readOthers := ih restProper
      (show position + (recordOf entry).length +
        (records (position + (recordOf entry).length) others).1.length < 256 ^ 4 by omega)
    rw [← List.append_assoc] at read
    simp only [List.length_cons, Member.readAll?, read, readOthers, membersAt, bind, Option.bind,
      pure]

theorem bytes_recordOf {archive front rest : List UInt8} {entry : Tree.Entry}
    (nameFits : (Bytes.list entry.1.toUTF8).length < 256 ^ 2)
    (placed : archive = front ++ (recordOf entry ++ rest)) :
    Member.bytes archive {
      name := entry.1
      encrypted := false
      method := 0
      checksum := (Crc32.ofBytes (Bytes.list entry.2)).toNat
      size := entry.2.size
      position := front.length } = .ok entry.2 := by
  have fields := @field_memberFront _ (Bytes.list entry.2) nameFits
  have shared := length_sharedFields (Bytes.list entry.1.toUTF8) (Bytes.list entry.2)
  have record : recordOf entry = memberSignature ++
      sharedFields (Bytes.list entry.1.toUTF8) (Bytes.list entry.2) ++
        Bytes.list entry.1.toUTF8 ++ Bytes.list entry.2 := rfl
  have length : (memberSignature ++
      sharedFields (Bytes.list entry.1.toUTF8) (Bytes.list entry.2)).length = memberSize := by
    rw [List.length_append, shared]
    rfl
  generalize Bytes.list entry.1.toUTF8 = name at *
  generalize memberSignature ++ sharedFields name (Bytes.list entry.2) = start at *
  obtain ⟨signed, nameSize, extra⟩ := fields
  have there : archive.drop front.length = start ++ (name ++ (Bytes.list entry.2 ++ rest)) := by
    rw [placed, List.drop_left, record]
    simp only [List.append_assoc]
  have split := @splitAt?_append start (name ++ (Bytes.list entry.2 ++ rest))
  rw [length, ← there] at split
  have exactly : (Bytes.list entry.2 ++ rest).take entry.2.size = Bytes.list entry.2 := by
    rw [← Bytes.length_list, List.take_left]
  simp [Member.bytes, Member.stored, split, signed, nameSize, extra, exactly, bind, Except.bind,
    pure, Except.pure]

theorem forall₂_membersAt {archive : List UInt8} {entries : List Tree.Entry}
    (proper : ∀ entry ∈ entries, IsProperName entry.1) {front rest : List UInt8}
    (placed : archive = front ++ ((records front.length entries).1 ++ rest)) :
    List.Forall₂ (fun entry member => member.name = entry.1 ∧
      member.bytes archive = .ok entry.2) entries (membersAt front.length entries) := by
  induction entries generalizing front with
  | nil => exact .nil
  | cons entry others ih =>
    obtain ⟨first, restProper⟩ := List.forall_mem_cons.1 proper
    rw [records_cons, List.append_assoc] at placed
    refine .cons ⟨rfl, bytes_recordOf first.2 placed⟩ ?_
    have next : archive = (front ++ recordOf entry) ++
        ((records (front ++ recordOf entry).length others).1 ++ rest) := by
      rw [placed, List.length_append, List.append_assoc]
    have members := ih restProper next
    rwa [List.length_append] at members

/-! ## Occurrences -/

variable {pattern : List UInt8}

theorem occurrencesFrom_eq (position : Nat) (found : List (Nat × List UInt8))
    (bytes : List UInt8) :
    occurrencesFrom pattern position found bytes =
      occurrencesFrom pattern position [] bytes ++ found := by
  induction bytes generalizing position found with
  | nil => rfl
  | cons byte rest ih =>
    simp only [occurrencesFrom]
    rw [ih]
    split
    · rw [ih (position + 1) [_], List.append_assoc]
      rfl
    · rfl

theorem occurrencesFrom_cons (position : Nat) (byte : UInt8) (rest : List UInt8) :
    occurrencesFrom pattern position [] (byte :: rest) =
      occurrencesFrom pattern (position + 1) [] rest ++
        if pattern.isPrefixOf (byte :: rest) then [(position, byte :: rest)] else [] := by
  simp only [occurrencesFrom]
  rw [occurrencesFrom_eq]

theorem length_le_of_mem_occurrencesFrom {position : Nat} {bytes : List UInt8}
    {place : Nat × List UInt8} (isPlace : place ∈ occurrencesFrom pattern position [] bytes) :
    place.2.length ≤ bytes.length := by
  induction bytes generalizing position with
  | nil => simp [occurrencesFrom] at isPlace
  | cons byte rest ih =>
    rw [occurrencesFrom_cons] at isPlace
    rcases List.mem_append.1 isPlace with later | here
    · exact Nat.le_trans (ih later) (Nat.le_succ _)
    · split at here
      · obtain rfl := List.mem_singleton.1 here
        exact Nat.le_refl _
      · exact absurd here List.not_mem_nil

/-- If nothing is selected at a shorter end, the first selection is at the longest end of those
before it. -/
theorem findSome?_occurrencesFrom {α : Type} {select : Nat × List UInt8 → Option α}
    {last : List UInt8} (nonempty : last ≠ []) (starts : pattern.isPrefixOf last = true)
    (short : ∀ place, place.2.length < last.length → select place = none) (front : List UInt8)
    {position : Nat} {value : α} (selected : select (position + front.length, last) = some value) :
    (occurrencesFrom pattern position [] (front ++ last)).findSome? select = some value := by
  induction front generalizing position with
  | nil =>
    obtain ⟨byte, rest, rfl⟩ := List.exists_cons_of_ne_nil nonempty
    have later : (occurrencesFrom pattern (position + 1) [] rest).findSome? select = none := by
      rw [List.findSome?_eq_none_iff]
      intro place isPlace
      exact short place (Nat.lt_succ_of_le (length_le_of_mem_occurrencesFrom isPlace))
    rw [List.nil_append, occurrencesFrom_cons, List.findSome?_append, later, if_pos starts]
    simpa using selected
  | cons byte front ih =>
    have shifted : position + (byte :: front).length = position + 1 + front.length := by
      rw [List.length_cons]
      omega
    rw [shifted] at selected
    rw [List.cons_append, occurrencesFrom_cons, List.findSome?_append, ih selected]
    rfl

/-- If no place before an occurrence passes a test, the first place that passes is the
occurrence. -/
theorem find?_reverse_occurrencesFrom {test : Nat × List UInt8 → Bool} {there : List UInt8}
    (nonempty : there ≠ []) (starts : pattern.isPrefixOf there = true) (front : List UInt8)
    {position : Nat} (early : ∀ place, place.1 < position + front.length → test place = false)
    (found : test (position + front.length, there) = true) :
    (occurrencesFrom pattern position [] (front ++ there)).reverse.find? test =
      some (position + front.length, there) := by
  induction front generalizing position with
  | nil =>
    obtain ⟨byte, rest, rfl⟩ := List.exists_cons_of_ne_nil nonempty
    have passes : test (position, byte :: rest) = true := by simpa using found
    simp [occurrencesFrom_cons, starts, passes]
  | cons byte front ih =>
    have shifted : position + (byte :: front).length = position + 1 + front.length := by
      rw [List.length_cons]
      omega
    rw [shifted] at early found ⊢
    rw [List.cons_append, occurrencesFrom_cons, List.reverse_append, List.find?_append,
      ih early found]
    have here : List.find? test (if pattern.isPrefixOf (byte :: (front ++ there)) then
        [(position, byte :: (front ++ there))] else []).reverse = none := by
      split
      · simp [early (position, byte :: (front ++ there)) (by dsimp only; omega)]
      · rfl
    rw [here]
    rfl

/-! ## Archives -/

/-- Whether entries can be stated in an archive: they are few and short enough, with proper
names. -/
structure Fits (entries : List Tree.Entry) : Prop where
  count : entries.length < full 2
  /-- The numbers of bytes of both kinds of records. -/
  size : (records 0 entries).1.length + (records 0 entries).2.length < full 4
  proper : ∀ entry ∈ entries, IsProperName entry.1

/-- Whether the members of an archive have the names and bytes of entries. -/
def Stores (archive : List UInt8) (entries : List Tree.Entry) : Prop :=
  ∃ members, members? archive = some members ∧
    List.Forall₂ (fun entry member => member.name = entry.1 ∧
      member.bytes archive = .ok entry.2) entries members

variable {entries : List Tree.Entry} {body directory : List UInt8}

theorem Fits.body_lt (fits : Fits entries) (parts : records 0 entries = (body, directory)) :
    body.length < full 4 ∧ directory.length < full 4 := by
  have size := fits.size
  simp only [parts] at size
  omega

theorem encode_eq (fits : Fits entries) (parts : records 0 entries = (body, directory)) :
    encode entries =
      body ++ (directory ++ endRecord entries.length directory.length body.length) := by
  obtain ⟨bodyFits, directoryFits⟩ := fits.body_lt parts
  rw [encode, parts]
  simp only [ending_eq fits.count directoryFits bodyFits, List.append_assoc]

theorem directory_starts (parts : records 0 entries = (body, directory))
    (nonempty : entries ≠ []) :
    4 ≤ directory.length ∧
      ∀ rest, directorySignature.isPrefixOf (directory ++ rest) = true := by
  obtain ⟨entry, others, rfl⟩ := List.exists_cons_of_ne_nil nonempty
  rw [records_cons, Prod.mk.injEq] at parts
  rw [← parts.2]
  simp [directoryFront, directorySignature]

theorem shift?_encode (fits : Fits entries) (parts : records 0 entries = (body, directory))
    (nonempty : entries ≠ []) :
    shift? (encode entries) body.length (body.length + directory.length) = some 0 := by
  obtain ⟨long, starts⟩ := directory_starts parts nonempty
  have atDirectory := @find?_reverse_occurrencesFrom directorySignature
    (fun found => body.length ≤ found.1 && found.1 + 4 ≤ body.length + directory.length)
    (directory ++ endRecord entries.length directory.length body.length)
    (by simp [endRecord, endSignature]) (starts _) body 0
    (fun place early => by
      have before : ¬body.length ≤ place.1 := by omega
      simp [before])
    (by simpa using long)
  rw [shift?, occurrences, encode_eq fits parts, atDirectory]
  simp

theorem membersFrom?_endRecord (fits : Fits entries)
    (parts : records 0 entries = (body, directory)) :
    membersFrom? (encode entries) (body.length + directory.length)
        (endRecord entries.length directory.length body.length) =
      some (membersAt 0 entries) := by
  have countFits := fits.count
  have bodyFits := (fits.body_lt parts).1
  obtain ⟨disk, startDisk, count, all, place, comment⟩ :=
    @field_endRecord _ directory.length _ countFits bodyFits
  have whole := @splitAt?_append (endRecord entries.length directory.length body.length) []
  rw [List.append_nil, length_endRecord] at whole
  have nothing : splitAt? 0 [] = some ([], []) := rfl
  have there : (encode entries).drop body.length = directory ++
      endRecord entries.length directory.length body.length := by
    rw [encode_eq fits parts, List.drop_left]
  have read := @readAll?_records entries fits.proper 0
    (by rw [parts, Nat.zero_add]; exact Nat.lt_of_lt_pred bodyFits)
    (endRecord entries.length directory.length body.length)
  rw [parts] at read
  -- Without entries the directory has no records, and the last record follows the bodies at once.
  have shift : entries = [] → directory = [] := by
    rintro rfl
    cases parts
    rfl
  generalize endRecord entries.length directory.length body.length = record at *
  have narrow : isFull record = false := by
    simp [isFull, all, place, countFits.ne, bodyFits.ne]
  rw [membersFrom?, whole]
  simp only [bind, Option.bind, comment, nothing, narrow, narrowExtent?, place, all, disk,
    startDisk, count, bne_self_eq_false, Bool.false_eq_true, if_false, Option.none_or, pure]
  by_cases empty : entries = []
  · rw [if_pos (by simp [empty]), shift empty, List.length_nil, Nat.add_zero, Nat.sub_self]
    simp only [Nat.add_zero, there, read]
  · have long := (directory_starts parts empty).1
    rw [if_neg (by simpa using empty), if_neg (by omega), shift?_encode fits parts empty]
    simp only [Nat.add_zero, there, read]

/-- The members of an archive of entries that fit have their names and bytes. -/
theorem Fits.stores (fits : Fits entries) : Stores (encode entries) entries := by
  obtain ⟨body, directory, parts⟩ : ∃ body directory, records 0 entries = (body, directory) :=
    ⟨_, _, rfl⟩
  have whole := encode_eq fits parts
  refine ⟨membersAt 0 entries, ?_, ?_⟩
  · have selected := membersFrom?_endRecord fits parts
    rw [members?, occurrences]
    rw [← List.append_assoc] at whole
    conv => lhs; arg 2; rw [whole]
    refine findSome?_occurrencesFrom (by simp [endRecord, endSignature])
      (by simp [endRecord, endSignature]) ?_ (body ++ directory) ?_
    · intro place short
      rw [length_endRecord] at short
      have few : splitAt? endSize place.2 = none := by
        simp only [endSize] at short
        simp [splitAt?, endSize]
        omega
      rw [membersFrom?, few]
      rfl
    · simpa using selected
  · have placed : encode entries = [] ++ ((records ([] : List UInt8).length entries).1 ++
        (directory ++ endRecord entries.length directory.length body.length)) := by
      rw [List.length_nil, parts]
      exact whole
    exact forall₂_membersAt fits.proper placed

theorem length_records (position : Nat) (entries : List Tree.Entry) :
    (records position entries).1.length = (entries.map fun entry => (recordOf entry).length).sum ∧
      (records position entries).2.length =
        (entries.map fun entry => directorySize + (Bytes.list entry.1.toUTF8).length).sum := by
  induction entries generalizing position with
  | nil => exact ⟨rfl, rfl⟩
  | cons entry rest ih =>
    obtain ⟨bodies, directories⟩ := ih (position + (recordOf entry).length)
    have front := length_directoryFront
      (length_sharedFields (Bytes.list entry.1.toUTF8) (Bytes.list entry.2)) position
    rw [records_cons]
    simp only [List.length_append, List.map_cons, List.sum_cons, bodies, directories, front,
      true_and]

/-- Entries fit if they are few and none is long. -/
theorem fits_of_short {most : Nat} (proper : ∀ entry ∈ entries, IsProperName entry.1)
    (short : ∀ entry ∈ entries, entry.2.size ≤ most) (few : entries.length < full 2)
    (room : entries.length * (most + 2 * 256 ^ 2 + 76) < full 4) : Fits entries where
  count := few
  size := by
    rw [(length_records 0 entries).1, (length_records 0 entries).2, ← List.sum_map_add]
    refine (List.sum_le_card_nsmul _ (most + 2 * 256 ^ 2 + 76) ?_).trans_lt ?_
    · rw [List.forall_mem_map]
      intro entry isEntry
      have name := (proper entry isEntry).2
      have size := short entry isEntry
      simp only [recordOf, memberRecord, List.length_append, length_sharedFields, memberSignature,
        Bytes.length_list, List.length_cons, List.length_nil, directorySize]
      rw [Bytes.length_list] at name
      omega
    · rw [List.length_map, smul_eq_mul]
      exact room
  proper

/-- Entries in another order fit as well. -/
theorem Fits.perm {others : List Tree.Entry} (fits : Fits entries)
    (reordered : entries.Perm others) :
    Fits others where
  count := reordered.length_eq ▸ fits.count
  size := by
    have size := fits.size
    have bodies := (reordered.map fun entry => (recordOf entry).length).sum_nat
    have directories :=
      (reordered.map fun entry => directorySize + (Bytes.list entry.1.toUTF8).length).sum_nat
    simp only [length_records] at size ⊢
    omega
  proper entry isEntry := fits.proper entry (reordered.mem_iff.2 isEntry)

end Zip

end Blockwright
