import Blockwright.Proofs.Archive.Opening
import Blockwright.Proofs.Text.ByteOrder

/-!
# Packing and opening

Entries with different names are sorted when they are packed, and their names are sorted again when
the archive is opened. Listing, searching, reading and iterating then agree on the same files,
whatever order they came in.
-/

namespace Blockwright

namespace Archive

variable {archive : Archive} {entries : List Tree.Entry}

/-! ## Iterating -/

theorem readAll_cons (archive : Archive) (test : String → Bool) (name : String)
    (rest : List String) :
    archive.readAll test (name :: rest) =
      if test name then archive.entry name :: archive.readAll test rest
      else archive.readAll test rest := by
  rw [readAll, next?]
  split
  · next ends =>
    split at ends
    · cases ends
    · next skipped => rw [if_neg skipped, readAll, ends]
  · next found behind isNext =>
    split at isNext
    · next passed =>
      cases isNext
      rw [if_pos passed]
    · next skipped => rw [if_neg skipped, readAll.eq_def archive test rest, isNext]

theorem readAll_eq (archive : Archive) (test : String → Bool) (names : List String) :
    archive.readAll test names = (names.filter test).map archive.entry := by
  induction names with
  | nil => rw [readAll]; rfl
  | cons name rest ih =>
    rw [readAll_cons, List.filter_cons, ih]
    split <;> rfl

theorem entries_eq (archive : Archive) (test : String → Bool) :
    archive.entries test = (archive.names.filter test).map archive.entry :=
  readAll_eq archive test archive.names

/-! ## What an archive keeps -/

/-- Whether an archive tells exactly what entries say, in the order of the bytes of their names. -/
structure Keeps (archive : Archive) (entries : List Tree.Entry) : Prop where
  listed : archive.names.Perm (entries.map Prod.fst)
  inOrder : archive.names.Pairwise fun first second => Text.bytes first < Text.bytes second
  contains : ∀ name, archive.contains name = true ↔ name ∈ entries.map Prod.fst
  read : ∀ entry ∈ entries, archive.read entry.1 = .ok (some entry.2)
  unread : ∀ name ∉ entries.map Prod.fst, archive.read name = .ok none
  /-- The entries whose names pass a test are taken out one after another, once each. -/
  iterated : ∀ test : String → Bool, ∃ found : List Tree.Entry,
    archive.entries test = found.map .ok ∧
      found.Perm (entries.filter fun entry => test entry.1) ∧
      found.Pairwise fun first second => Text.bytes first.1 < Text.bytes second.1

/-- Sorted entries stand in the order of their names if these are different. -/
theorem pairwise_sort (different : (entries.map Prod.fst).Nodup) :
    ((sort entries).map Prod.fst).Pairwise (· < ·) := by
  have sorted := Ascending.pairwise_mergeSort Prod.fst entries
  have once : ((sort entries).map Prod.fst).Pairwise (· ≠ ·) :=
    ((sort_perm entries).map Prod.fst).nodup_iff.2 different
  rw [List.pairwise_map] at once ⊢
  exact (sorted.and once).imp fun both => lt_of_le_of_ne both.1 both.2

theorem Holds.names_eq (holds : archive.Holds entries) (different : (entries.map Prod.fst).Nodup)
    (files : ∀ entry ∈ entries, isFolderName entry.1 = false) :
    archive.names = (sort entries).map Prod.fst := by
  refine Ascending.eq_of_mem_iff (Text.pairwise_ascending _) (pairwise_sort different)
    fun name => ?_
  rw [holds.names, ((sort_perm entries).map Prod.fst).mem_iff]
  refine and_iff_left_of_imp fun isName => ?_
  obtain ⟨entry, isEntry, rfl⟩ := List.mem_map.1 isName
  exact files entry isEntry

theorem Holds.entry_eq (holds : archive.Holds entries) {entry : Tree.Entry}
    (isEntry : entry ∈ entries) : archive.entry entry.1 = .ok entry := by
  rw [Archive.entry, holds.read entry isEntry]
  rfl

theorem Holds.entries_eq (holds : archive.Holds entries)
    (isNames : archive.names = (sort entries).map Prod.fst) (test : String → Bool) :
    archive.entries test = ((sort entries).filter fun entry => test entry.1).map .ok := by
  rw [Archive.entries_eq, isNames, List.filter_map, List.map_map]
  refine List.map_congr_left fun entry isEntry => ?_
  exact holds.entry_eq ((sort_perm entries).mem_iff.1 (List.mem_of_mem_filter isEntry))

/-- An archive with the members of entries keeps the entries. -/
theorem Holds.keeps (holds : archive.Holds entries) (different : (entries.map Prod.fst).Nodup)
    (files : ∀ entry ∈ entries, isFolderName entry.1 = false)
    (members : (archive.members.map Zip.Member.name).Perm (entries.map Prod.fst)) :
    archive.Keeps entries := by
  have isNames := holds.names_eq different files
  have sorted := pairwise_sort different
  have listed : archive.names.Perm (entries.map Prod.fst) := by
    rw [isNames]
    exact (sort_perm entries).map Prod.fst
  refine ⟨listed, ?_, fun name => ?_, holds.read, fun name unknown => ?_, fun test => ?_⟩
  · rw [isNames]
    exact sorted.imp Text.lt_iff_bytes.1
  · rw [contains_iff, listed.mem_iff]
  · exact read_of_no_member fun isMember => unknown (members.mem_iff.1 isMember)
  · refine ⟨_, holds.entries_eq isNames test, (sort_perm entries).filter _, ?_⟩
    rw [List.pairwise_map] at sorted
    exact (sorted.imp Text.lt_iff_bytes.1).filter _

/-- Entries with different names, none of which is that of a folder, are packed into an archive that
keeps them when it is opened, provided that the members of the archive have the names and bytes that
are written. Their order does not count. -/
theorem packWith_keeps {write : List Tree.Entry → List UInt8} (path : String)
    (different : (entries.map Prod.fst).Nodup)
    (files : ∀ entry ∈ entries, isFolderName entry.1 = false)
    (stores : Zip.Stores (write (sort entries)) (sort entries)) :
    ∃ bytes archive, packWith write entries = .ok bytes ∧
      (∀ others, entries.Perm others → packWith write others = .ok bytes) ∧
      ofBytes path bytes = .ok archive ∧
      (∀ disk home, disk.read home path = .ok bytes → ofDisk disk home path = .ok archive) ∧
      archive.Keeps entries := by
  have sortedDifferent : ((sort entries).map Prod.fst).Nodup :=
    ((sort_perm entries).map Prod.fst).nodup_iff.2 different
  obtain ⟨archive, opened, holds, members⟩ := ofBytes_of_stores path sortedDifferent stores
  refine ⟨_, archive, if_pos different, fun others reordered => ?_, opened,
    fun disk home there => ?_, (holds.perm (sort_perm entries)).keeps different files ?_⟩
  · have othersDifferent := (reordered.map Prod.fst).nodup_iff.1 different
    rw [packWith, if_pos othersDifferent, sort, sort,
      Ascending.mergeSort_eq_of_perm reordered different]
  · rw [ofDisk, there]
    exact opened
  · rw [members]
    exact (sort_perm entries).map Prod.fst

/-- Two files are packed in either order, and read back. -/
theorem packWith_keeps_pair :
    ∃ bytes archive,
      packWith Zip.encode [("b.json", "7".toUTF8), ("a.json", "[]".toUTF8)] = .ok bytes ∧
      packWith Zip.encode [("a.json", "[]".toUTF8), ("b.json", "7".toUTF8)] = .ok bytes ∧
      ofBytes "ab.jar" bytes = .ok archive ∧ archive.contains "b.json" = true ∧
      archive.read "b.json" = .ok (some "7".toUTF8) ∧ archive.read "c.json" = .ok none := by
  let entries : List Tree.Entry := [("b.json", "7".toUTF8), ("a.json", "[]".toUTF8)]
  have fits : Zip.Fits entries := ⟨by decide, by decide +kernel, by decide +kernel⟩
  obtain ⟨bytes, archive, packed, reordered, opened, -, keeps⟩ :=
    @packWith_keeps entries Zip.encode "ab.jar" (by decide) (by decide +kernel)
      (fits.perm (sort_perm entries).symm).stores
  exact ⟨bytes, archive, packed, reordered _ (.swap _ _ _), opened,
    (keeps.contains _).2 (by decide), keeps.read _ (.head _), keeps.unread _ (by decide)⟩

end Archive

end Blockwright
