import Blockwright.Archive
import Blockwright.Proofs.Ascending
import Blockwright.Proofs.Outcome
import Blockwright.Proofs.Zip.RoundTrip

/-!
# Opening what was packed

An archive whose members have the names and bytes that were packed lists these names and answers
with these bytes.
-/

namespace Blockwright

namespace Archive

theorem isFolderName_json (front : String) : isFolderName (front ++ ".json") = false := by
  simp [isFolderName]

theorem isFolderName_png (front : String) : isFolderName (front ++ ".png") = false := by
  simp [isFolderName]

theorem contains_iff {archive : Archive} {name : String} :
    archive.contains name = true ↔ name ∈ archive.names := by
  have ascends : (archive.names.map id).Pairwise (· < ·) := by
    rw [List.map_id]
    exact Text.pairwise_ascending _
  rw [contains, Option.isSome_iff_exists]
  simp only [Bisection.find?_eq_some ascends, id, exists_eq_right]

/-- Nothing is read under a name that no member has. -/
theorem read_of_no_member {archive : Archive} {name : String}
    (unknown : name ∉ archive.members.map Zip.Member.name) : archive.read name = .ok none := by
  have noMember : archive.member? name = none := by
    rw [member?, List.find?_eq_none]
    intro member isMember sameName
    exact unknown (List.mem_map.2 ⟨member, List.mem_reverse.1 isMember, by simpa using sameName⟩)
  rw [read, bytes?, noMember]
  rfl

/-- Nothing is read of a file that is not listed. -/
theorem read_of_not_mem {archive : Archive} {name : String} (noFolder : isFolderName name = false)
    (unlisted : name ∉ archive.names) : archive.read name = .ok none := by
  refine read_of_no_member fun isMember => unlisted ?_
  exact Text.mem_ascending.2 (List.mem_filter.2 ⟨isMember, by simp [noFolder]⟩)

/-- Whether an archive lists the names of entries and answers with their bytes. -/
structure Holds (archive : Archive) (entries : List Tree.Entry) : Prop where
  names : ∀ name, name ∈ archive.names ↔
    name ∈ entries.map Prod.fst ∧ isFolderName name = false
  read : ∀ entry ∈ entries, archive.read entry.1 = .ok (some entry.2)

theorem Holds.perm {archive : Archive} {entries others : List Tree.Entry}
    (holds : archive.Holds entries) (reordered : entries.Perm others) : archive.Holds others where
  names name := by rw [holds.names, (reordered.map Prod.fst).mem_iff]
  read entry isEntry := holds.read entry (reordered.mem_iff.2 isEntry)

theorem member?_of_nodup {archive : Archive}
    (different : (archive.members.map Zip.Member.name).Nodup) {member : Zip.Member}
    (isMember : member ∈ archive.members) : archive.member? member.name = some member := by
  rw [member?]
  cases found : archive.members.reverse.find? (·.name == member.name) with
  | none =>
    have unlike := List.find?_eq_none.1 found member (List.mem_reverse.2 isMember)
    simp at unlike
  | some other =>
    have sameName : other.name = member.name := by simpa using List.find?_some found
    have isOther : other ∈ archive.members := List.mem_reverse.1 (List.mem_of_find?_eq_some found)
    rw [List.inj_on_of_nodup_map different isOther isMember sameName]

/-- An archive of entries with different names, opened. -/
theorem ofBytes_of_stores (path : String) {bytes : List UInt8} {entries : List Tree.Entry}
    (different : (entries.map Prod.fst).Nodup) (stores : Zip.Stores bytes entries) :
    ∃ archive, ofBytes path (Bytes.ofList bytes) = .ok archive ∧ archive.Holds entries ∧
      archive.members.map Zip.Member.name = entries.map Prod.fst := by
  obtain ⟨members, opened, each⟩ := stores
  have sameNames : members.map Zip.Member.name = entries.map Prod.fst :=
    Outcome.map_eq_map_of_forall₂ each.flip fun _ _ both => both.1
  let archive : Archive := { path, bytes, members }
  refine ⟨archive, ?_, ⟨?_, ?_⟩, sameNames⟩
  · rw [ofBytes, Bytes.list_ofList, opened]
  · intro name
    rw [names, Text.mem_ascending, List.mem_filter, ← sameNames]
    simp [archive]
  · intro entry isEntry
    obtain ⟨member, isMember, name, isBytes⟩ := Outcome.exists_result_of_forall₂ each isEntry
    have found : archive.member? member.name = some member :=
      member?_of_nodup (sameNames ▸ different) isMember
    rw [read, bytes?, ← name, found]
    show Except.mapError _ (Except.map some (member.bytes bytes)) = _
    rw [isBytes]
    rfl

theorem sort_perm (entries : List Tree.Entry) : (sort entries).Perm entries :=
  List.mergeSort_perm ..

/-- A packed mod can be opened, and then lists the names of its files and answers with their
bytes. -/
theorem open_packFiles {write : List Tree.Entry → List UInt8} (path : String)
    {files : List TreeFile} {entries : List Tree.Entry}
    (finished : entriesOf files = .ok entries) (different : (entries.map Prod.fst).Nodup)
    (stores : Zip.Stores (write (sort entries)) (sort entries)) :
    ∃ bytes archive, packFiles write path files = .ok bytes ∧ ofBytes path bytes = .ok archive ∧
      archive.Holds entries := by
  have sortedDifferent : ((sort entries).map Prod.fst).Nodup :=
    ((sort_perm entries).map Prod.fst).nodup_iff.2 different
  obtain ⟨archive, opened, holds, -⟩ := ofBytes_of_stores path sortedDifferent stores
  refine ⟨_, archive, ?_, opened, holds.perm (sort_perm entries)⟩
  rw [packFiles, finished]
  simp [bind, Except.bind, packWith, different, Except.mapError]

end Archive

end Blockwright
