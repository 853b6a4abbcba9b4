import Blockwright.Proofs.Ascending
import Blockwright.Proofs.Text.ByteOrder
import Blockwright.Proofs.Text.Pieces
import Blockwright.Tree.File

/-!
# Listings of trees

A path ends at a zero byte and a digest at a line feed, neither of which can stand inside it. The
listing of a tree therefore tells which paths have which digests, and nothing else.
-/

namespace Blockwright

/-- Whether two byte strings are different and have one digest. -/
def Sha256.Collide (first second : ByteArray) : Prop :=
  first ≠ second ∧ digest first = digest second

namespace Tree

variable {entries others : List Entry}

/-- What the listing tells of a file: its path and the digest of its contents. -/
def mark (entry : Entry) : String × List UInt8 := (entry.1, Sha256.digest entry.2)

/-- Whether files have different paths without zero characters. -/
structure Named (entries : List Entry) : Prop where
  different : (entries.map Prod.fst).Nodup
  noZero : ∀ entry ∈ entries, '\x00' ∉ entry.1.toList

/-! ## Lines -/

theorem zero_not_mem_bytes {path : String} (noZero : '\x00' ∉ path.toList) :
    0 ∉ Text.bytes path := fun inside =>
  noZero (Text.ofNat_mem_of_mem_bytes (by decide) inside)

theorem lineFeed_not_mem_bytes_hex (message : ByteArray) :
    10 ∉ Text.bytes (Sha256.hex message) := by
  intro inside
  have isDigit := Text.ofNat_mem_of_mem_bytes (by decide) inside
  rw [Sha256.hex, Bytes.hex, String.toList_ofList, List.mem_flatMap] at isDigit
  obtain ⟨byte, -, isDigit⟩ := isDigit
  have control : (Char.ofNat (10 : UInt8).toNat).toNat < 0x30 := by decide
  rw [Bytes.hexByte, List.mem_pair] at isDigit
  rcases isDigit with same | same
  · exact absurd (same ▸ control)
      (Nat.not_lt.2 (Bytes.le_toNat_hexDigit (by have := byte.toNat_lt; omega)))
  · exact absurd (same ▸ control)
      (Nat.not_lt.2 (Bytes.le_toNat_hexDigit (Nat.mod_lt _ (by decide))))

theorem line_eq (entry : Entry) :
    line entry = Text.bytes entry.1 ++ 0 :: (Text.bytes (Sha256.hex entry.2) ++ [10]) := rfl

theorem line_append_inj {entry other : Entry} {rest behind : List UInt8}
    (noZero : '\x00' ∉ entry.1.toList) (otherNoZero : '\x00' ∉ other.1.toList) :
    line entry ++ rest = line other ++ behind ↔ mark entry = mark other ∧ rest = behind := by
  simp only [line_eq, List.append_assoc, List.cons_append, List.nil_append]
  rw [Text.append_separator_inj (zero_not_mem_bytes noZero) (zero_not_mem_bytes otherNoZero),
    Text.append_separator_inj (lineFeed_not_mem_bytes_hex _) (lineFeed_not_mem_bytes_hex _),
    Text.bytes_injective.eq_iff, Text.bytes_injective.eq_iff, Sha256.hex, Sha256.hex,
    Bytes.hex_injective.eq_iff, mark, mark, Prod.mk.injEq, and_assoc]

theorem flatMap_line_inj {entries others : List Entry}
    (noZero : ∀ entry ∈ entries, '\x00' ∉ entry.1.toList)
    (otherNoZero : ∀ entry ∈ others, '\x00' ∉ entry.1.toList) :
    entries.flatMap line = others.flatMap line ↔ entries.map mark = others.map mark := by
  have notEmpty : ∀ (entry : Entry) (rest : List UInt8), line entry ++ rest ≠ [] := by
    intro entry rest isEmpty
    simp [line_eq] at isEmpty
  induction entries generalizing others with
  | nil =>
    cases others with
    | nil => simp
    | cons other behind =>
      rw [List.flatMap_nil, List.flatMap_cons]
      exact iff_of_false (notEmpty other _).symm nofun
  | cons entry rest ih =>
    cases others with
    | nil =>
      rw [List.flatMap_nil, List.flatMap_cons]
      exact iff_of_false (notEmpty entry _) nofun
    | cons other behind =>
      obtain ⟨first, restNoZero⟩ := List.forall_mem_cons.1 noZero
      obtain ⟨otherFirst, behindNoZero⟩ := List.forall_mem_cons.1 otherNoZero
      rw [List.flatMap_cons, List.flatMap_cons, line_append_inj first otherFirst, List.map_cons,
        List.map_cons, List.cons.injEq]
      exact and_congr_right' (ih restNoZero behindNoZero)

/-! ## Listings -/

theorem map_mark_mergeSort (entries : List Entry) :
    (entries.mergeSort fun first second => !decide (second.1 < first.1)).map mark =
      (entries.map mark).mergeSort fun first second => !decide (second.1 < first.1) :=
  List.map_mergeSort fun _ _ _ _ => rfl

theorem Named.nodup_mark (named : Named entries) : ((entries.map mark).map Prod.fst).Nodup := by
  rw [List.map_map]
  exact named.different

/-- Listings are alike exactly if the same paths have the same digests. -/
theorem listing_eq_iff (named : Named entries) (otherNamed : Named others) :
    listing entries = listing others ↔
      ∀ found, found ∈ entries.map mark ↔ found ∈ others.map mark := by
  rw [listing, listing, flatMap_line_inj
    (fun entry isEntry => named.noZero entry (List.mem_mergeSort.1 isEntry))
    (fun entry isEntry => otherNamed.noZero entry (List.mem_mergeSort.1 isEntry)),
    map_mark_mergeSort, map_mark_mergeSort]
  constructor
  · intro same found
    rw [← List.mem_mergeSort, same, List.mem_mergeSort]
  · intro same
    have reordered : (entries.map mark).Perm (others.map mark) :=
      (List.perm_ext_iff_of_nodup named.nodup_mark.of_map otherNamed.nodup_mark.of_map).2 same
    exact Ascending.mergeSort_eq_of_perm reordered named.nodup_mark

theorem listing_eq_of_perm (reordered : entries.Perm others)
    (different : (entries.map Prod.fst).Nodup) : listing entries = listing others := by
  rw [listing, listing, Ascending.mergeSort_eq_of_perm reordered different]

/-! ## Hashes -/

theorem exists_collision_of_mark {entry : Entry}
    (same : ∀ found, found ∈ entries.map mark ↔ found ∈ others.map mark)
    (isEntry : entry ∈ entries) :
    entry ∈ others ∨ ∃ other ∈ others, entry.1 = other.1 ∧ Sha256.Collide entry.2 other.2 := by
  obtain ⟨other, isOther, marked⟩ := List.mem_map.1 ((same _).1 (List.mem_map_of_mem isEntry))
  obtain ⟨samePath, sameDigest⟩ := Prod.mk.inj marked
  by_cases sameBytes : entry.2 = other.2
  · have whole : entry = other := Prod.ext samePath.symm sameBytes
    exact .inl (whole ▸ isOther)
  · exact .inr ⟨other, isOther, samePath.symm, sameBytes, sameDigest.symm⟩

/-- Trees of one hash hold the same files, or two byte strings collide: their listings, or the
contents of a path. -/
theorem same_or_collide (named : Named entries) (otherNamed : Named others)
    (same : hash entries = hash others) :
    (∀ entry, entry ∈ entries ↔ entry ∈ others) ∨
      Sha256.Collide (Bytes.ofList (listing entries)) (Bytes.ofList (listing others)) ∨
      ∃ entry ∈ entries, ∃ other ∈ others, entry.1 = other.1 ∧ Sha256.Collide entry.2 other.2 := by
  by_cases alike : listing entries = listing others
  · have marks := (listing_eq_iff named otherNamed).1 alike
    by_cases collides : ∃ entry ∈ entries, ∃ other ∈ others,
        entry.1 = other.1 ∧ Sha256.Collide entry.2 other.2
    · exact .inr (.inr collides)
    · refine .inl fun entry => ⟨fun isEntry => ?_, fun isOther => ?_⟩
      · exact (exists_collision_of_mark marks isEntry).resolve_right fun ⟨other, isOther, found⟩ =>
          collides ⟨entry, isEntry, other, isOther, found⟩
      · refine (exists_collision_of_mark (fun found => (marks found).symm) isOther).resolve_right ?_
        rintro ⟨other, isEntry, samePath, unlike, sameDigest⟩
        exact collides ⟨other, isEntry, entry, isOther, samePath.symm, unlike.symm, sameDigest.symm⟩
  · refine .inr (.inl ⟨fun sameArray => alike ?_, Bytes.hex_injective same⟩)
    rw [← Bytes.list_ofList (listing entries), sameArray, Bytes.list_ofList]

/-- The hash of a tree does not depend on the order of its files. What is hashed is the same for
two trees exactly if the same paths have the same digests, so that different trees share a hash
only if two byte strings share a digest. -/
theorem hash_identifies :
    (∀ entries others : List Entry, entries.Perm others → (entries.map Prod.fst).Nodup →
      hash entries = hash others) ∧
    ∀ entries others : List Entry, Named entries → Named others →
      (listing entries = listing others ↔
        ∀ found, found ∈ entries.map mark ↔ found ∈ others.map mark) ∧
      (hash entries = hash others →
        (∀ entry, entry ∈ entries ↔ entry ∈ others) ∨
          Sha256.Collide (Bytes.ofList (listing entries)) (Bytes.ofList (listing others)) ∨
          ∃ entry ∈ entries, ∃ other ∈ others,
            entry.1 = other.1 ∧ Sha256.Collide entry.2 other.2) := by
  refine ⟨fun entries others reordered different => ?_, fun entries others named otherNamed =>
    ⟨listing_eq_iff named otherNamed, same_or_collide named otherNamed⟩⟩
  rw [hash, hash, listing_eq_of_perm reordered different]

/-- Two files are listed alike in either order, and unlike the file that joins their paths. -/
theorem hash_identifies_pair :
    let pair : List Entry := [("b.json", "beta".toUTF8), ("a.json", "alpha".toUTF8)]
    let joined : List Entry := [("a.jsonb.json", "beta".toUTF8)]
    pair.Perm pair.reverse ∧ (pair.map Prod.fst).Nodup ∧ Named pair ∧ Named joined ∧
      hash pair = hash pair.reverse ∧ listing pair ≠ listing joined := by
  intro pair joined
  have different : (pair.map Prod.fst).Nodup := by decide
  have named : Named pair := ⟨different, by decide⟩
  have joinedNamed : Named joined := ⟨by decide, by decide⟩
  obtain ⟨reorders, tells⟩ := hash_identifies
  refine ⟨(List.reverse_perm pair).symm, different, named, joinedNamed,
    reorders pair _ (List.reverse_perm pair).symm different, fun alike => ?_⟩
  have isMarked := ((tells pair joined named joinedNamed).1.1 alike _).1 List.mem_cons_self
  have samePath : "b.json" = "a.jsonb.json" := congrArg Prod.fst (List.mem_singleton.1 isMarked)
  exact absurd samePath (by decide)

end Tree

end Blockwright
