import Blockwright.Build
import Blockwright.Proofs.Disk.Storing
import Blockwright.Tree.Write

/-!
# Written trees

Finished files with plain paths, none of which leads through another, are all written below an
empty folder, which then holds exactly them.
-/

namespace Blockwright

/-- Whether neither of two paths leads through the place of the other. -/
def Path.Apart (first second : String) : Prop :=
  ¬ Text.splitOnChar '/' first <+: Text.splitOnChar '/' second ∧
    ¬ Text.splitOnChar '/' second <+: Text.splitOnChar '/' first

/-- Different paths are apart unless one goes on behind the other. -/
theorem Path.apart_of_ne {first second : String} (different : first ≠ second)
    (noFront : ∀ rest, second ≠ first ++ "/" ++ rest)
    (noOtherFront : ∀ rest, first ≠ second ++ "/" ++ rest) : Path.Apart first second := by
  constructor
  · intro isPrefix
    rcases Text.eq_append_of_prefix isPrefix with same | ⟨rest, same⟩
    · exact different same.symm
    · exact noFront rest same
  · intro isPrefix
    rcases Text.eq_append_of_prefix isPrefix with same | ⟨rest, same⟩
    · exact different same
    · exact noOtherFront rest same

namespace Disk

variable {disk after : Disk} {home place : Place} {folder path : String} {bytes : ByteArray}
  {entries : List Tree.Entry}

/-! ## Folders with entries -/

/-- Whether a place is a folder with nothing in it. -/
structure IsEmptyFolder (disk : Disk) (place : Place) : Prop where
  isFolder : disk.node? place = some .folder
  isEmpty : ∀ node ∈ disk.nodes, place <+: node.1 → node = (place, .folder)

/-- Whether exactly the given entries stand in a folder, each at the names of its path, and the
folders that lead to them. -/
structure Holds (disk : Disk) (place : Place) (entries : List Tree.Entry) : Prop where
  files : ∀ names bytes, disk.node? (place ++ names) = some (.file bytes) ↔
    ∃ path, (path, bytes) ∈ entries ∧ names = Text.splitOnChar '/' path
  folders : ∀ names, disk.node? (place ++ names) = some .folder ↔ names = [] ∨
    ∃ entry ∈ entries, names <+: Text.splitOnChar '/' entry.1 ∧
      names ≠ Text.splitOnChar '/' entry.1

theorem Holds.of_mem_iff {others : List Tree.Entry} (holds : disk.Holds place entries)
    (same : ∀ entry, entry ∈ entries ↔ entry ∈ others) : disk.Holds place others where
  files names bytes := by simp only [holds.files, same]
  folders names := by simp only [holds.folders, same]

theorem IsEmptyFolder.holds (isEmptyFolder : disk.IsEmptyFolder place) : disk.Holds place [] := by
  have bare : ∀ names, names ≠ [] → disk.node? (place ++ names) = none := by
    intro names notEmpty
    have below : place ++ names ≠ [] := fun isEmpty => notEmpty (List.append_eq_nil_iff.1 isEmpty).2
    rw [node?_of_ne_nil below, List.lookup_eq_none_iff]
    intro node isNode
    rw [bne_iff_ne]
    intro here
    have atPlace := isEmptyFolder.isEmpty node isNode (here ▸ List.prefix_append place names)
    rw [atPlace] at here
    exact notEmpty (List.append_right_eq_self.1 here)
  constructor
  · intro names bytes
    by_cases isEmpty : names = []
    · simp [isEmpty, isEmptyFolder.isFolder]
    · simp [bare names isEmpty]
  · intro names
    by_cases isEmpty : names = []
    · simp [isEmpty, isEmptyFolder.isFolder]
    · simp [bare names isEmpty, isEmpty]

theorem IsEmptyFolder.filesBelow (isEmptyFolder : disk.IsEmptyFolder place) :
    disk.filesBelow place = [] := by
  rw [Disk.filesBelow, List.filterMap_eq_nil_iff]
  rintro ⟨other, node⟩ isNode
  cases node with
  | folder => rfl
  | file bytes =>
    by_cases isBelow : place <+: other
    · cases isEmptyFolder.isEmpty _ isNode isBelow
    · simp [isBelow]

/-- Nothing is in the way of a path that is apart from all entries. -/
theorem Holds.free (holds : disk.Holds place entries)
    (apart : ∀ entry ∈ entries, Path.Apart entry.1 path) :
    disk.node? (place ++ Text.splitOnChar '/' path) = none ∧
      ∀ between bytes, OnWay place (Text.splitOnChar '/' path) between →
        disk.node? between ≠ some (.file bytes) := by
  have noFile : ∀ between bytes, OnWay place (Text.splitOnChar '/' path) between →
      disk.node? between ≠ some (.file bytes) := by
    rintro _ bytes ⟨names, isPrefix, rfl⟩ isFile
    obtain ⟨other, isEntry, rfl⟩ := (holds.files names bytes).1 isFile
    exact (apart _ isEntry).1 isPrefix
  refine ⟨?_, noFile⟩
  cases found : disk.node? (place ++ Text.splitOnChar '/' path) with
  | none => rfl
  | some node =>
    cases node with
    | file bytes => exact absurd found (noFile _ bytes (onWay_append.2 List.prefix_rfl))
    | folder =>
      rcases (holds.folders _).1 found with isEmpty | ⟨entry, isEntry, isPrefix, -⟩
      · exact absurd isEmpty (Text.splitOnChar_ne_nil _ _)
      · exact absurd isPrefix (apart entry isEntry).2

/-- A file that is stored is one more entry. -/
theorem Holds.stores (holds : disk.Holds place entries)
    (apart : ∀ entry ∈ entries, Path.Apart entry.1 path)
    (stores : disk.Stores place (Text.splitOnChar '/' path) bytes after) :
    after.Holds place ((path, bytes) :: entries) := by
  constructor
  · intro names found
    simp only [List.mem_cons, Prod.mk.injEq, or_and_right, exists_or, and_assoc, exists_eq_left]
    by_cases isEnd : names = Text.splitOnChar '/' path
    · rw [isEnd, stores.file]
      refine ⟨fun same => ?_, ?_⟩
      · cases same
        exact .inl ⟨rfl, rfl⟩
      · rintro (⟨rfl, -⟩ | ⟨other, isEntry, same⟩)
        · rfl
        · exact absurd (same ▸ List.prefix_rfl) (apart _ isEntry).1
    · by_cases onWay : names <+: Text.splitOnChar '/' path
      · rw [stores.folder _ (onWay_append.2 onWay) (by simpa using isEnd)]
        refine iff_of_false nofun ?_
        rintro (⟨-, same⟩ | ⟨other, isEntry, rfl⟩)
        · exact isEnd same
        · exact (apart _ isEntry).1 onWay
      · rw [stores.other _ (onWay_append.not.2 onWay), holds.files]
        exact (or_iff_right fun same => isEnd same.2).symm
  · intro names
    simp only [List.mem_cons, or_and_right, exists_or, exists_eq_left]
    by_cases isEnd : names = Text.splitOnChar '/' path
    · rw [isEnd, stores.file]
      refine iff_of_false nofun ?_
      rintro (isEmpty | ⟨-, notEnd⟩ | ⟨entry, isEntry, isPrefix, -⟩)
      · exact Text.splitOnChar_ne_nil _ _ isEmpty
      · exact notEnd rfl
      · exact (apart entry isEntry).2 isPrefix
    · by_cases onWay : names <+: Text.splitOnChar '/' path
      · rw [stores.folder _ (onWay_append.2 onWay) (by simpa using isEnd)]
        exact iff_of_true rfl (.inr (.inl ⟨onWay, isEnd⟩))
      · rw [stores.other _ (onWay_append.not.2 onWay), holds.folders]
        exact or_congr_right (or_iff_right fun new => onWay new.1).symm

/-! ## Writing -/

/-- Whether entries have been written below an empty folder, and nothing else has changed. -/
structure Gains (disk : Disk) (home : Place) (folder : String) (place : Place)
    (entries : List Tree.Entry) (after : Disk) : Prop where
  opens : after.Opens home folder place
  holds : after.Holds place entries
  listed : after.filesBelow place = entries
  elsewhere : ∀ other, ¬ place <+: other → after.node? other = disk.node? other

theorem gains_nil (opens : disk.Opens home folder place)
    (isEmptyFolder : disk.IsEmptyFolder place) : disk.Gains home folder place [] disk :=
  ⟨opens, isEmptyFolder.holds, isEmptyFolder.filesBelow, fun _ _ => rfl⟩

theorem Gains.exists_write {middle : Disk} (gains : disk.Gains home folder place entries middle)
    {file : TreeFile} (isBytes : file.bytes? = some bytes) (plain : Path.IsPlain file.path)
    (apart : ∀ entry ∈ entries, Path.Apart entry.1 file.path) :
    ∃ after, file.write middle home folder = .ok after ∧
      disk.Gains home folder place ((file.path, bytes) :: entries) after := by
  obtain ⟨free, noFile⟩ := gains.holds.free apart
  obtain ⟨after, stored, stores⟩ := gains.opens.exists_store plain free noFile bytes
  refine ⟨after, ?_, ?_, gains.holds.stores apart stores, ?_, ?_⟩
  · rw [TreeFile.write, plain.isInside, isBytes]
    exact Outcome.mapError_eq_ok.2 stored
  · exact gains.opens.keeps (stores.keeps free)
  · rw [stores.files, gains.listed]
    exact congrArg (fun joined => (joined, bytes) :: entries) (Text.join_splitOnChar '/' file.path)
  · intro other isElsewhere
    rw [stores.other other, gains.elsewhere other isElsewhere]
    rintro ⟨names, -, rfl⟩
    exact isElsewhere (List.prefix_append place names)

/-- Finished files with plain paths are all written if their paths are apart. -/
theorem Gains.exists_writeAll {files : List TreeFile} {middle : Disk}
    (gains : disk.Gains home folder place entries middle)
    (finished : ∀ file ∈ files, file.bytes?.isSome = true)
    (plain : ∀ file ∈ files, Path.IsPlain file.path)
    (apart : (files.map TreeFile.path).Pairwise Path.Apart)
    (apartBefore : ∀ entry ∈ entries, ∀ file ∈ files, Path.Apart entry.1 file.path) :
    ∃ after, TreeFile.writeAll home folder files middle = (none, after) ∧
      disk.Gains home folder place ((Build.entriesOf files).reverse ++ entries) after := by
  induction files generalizing middle entries with
  | nil => exact ⟨middle, rfl, gains⟩
  | cons file rest ih =>
    obtain ⟨isFinished, restFinished⟩ := List.forall_mem_cons.1 finished
    obtain ⟨isPlain, restPlain⟩ := List.forall_mem_cons.1 plain
    obtain ⟨fileApart, restApart⟩ := List.pairwise_cons.1 apart
    obtain ⟨bytes, isBytes⟩ := Option.isSome_iff_exists.1 isFinished
    obtain ⟨next, written, gains⟩ := gains.exists_write isBytes isPlain
      fun entry isEntry => apartBefore entry isEntry file List.mem_cons_self
    obtain ⟨after, allWritten, gains⟩ := ih gains restFinished restPlain restApart
      (List.forall_mem_cons.2 ⟨fun other isOther => fileApart _ (List.mem_map_of_mem isOther),
        fun entry isEntry other isOther =>
          apartBefore entry isEntry other (List.mem_cons_of_mem _ isOther)⟩)
    have entriesOf :
        Build.entriesOf (file :: rest) = (file.path, bytes) :: Build.entriesOf rest := by
      simp [Build.entriesOf, isBytes]
    refine ⟨after, ?_, ?_⟩
    · rw [TreeFile.writeAll, written]
      exact allWritten
    · rw [entriesOf, List.reverse_cons, List.append_assoc]
      exact gains

end Disk

/-- Finished files with plain paths that are apart are all written below an empty folder. It then
holds and lists exactly their entries, and nothing has changed elsewhere. -/
theorem TreeFile.exists_writeAll {files : List TreeFile} {disk : Disk} {home place : Place}
    {folder : String} (finished : ∀ file ∈ files, file.bytes?.isSome = true)
    (plain : ∀ file ∈ files, Path.IsPlain file.path)
    (apart : (files.map TreeFile.path).Pairwise Path.Apart)
    (opens : disk.Opens home folder place) (isEmptyFolder : disk.IsEmptyFolder place) :
    ∃ after, writeAll home folder files disk = (none, after) ∧
      after.Holds place (Build.entriesOf files) ∧
      (after.filesBelow place).Perm (Build.entriesOf files) ∧
      ∀ other, ¬ place <+: other → after.node? other = disk.node? other := by
  obtain ⟨after, written, gains⟩ :=
    (Disk.gains_nil opens isEmptyFolder).exists_writeAll finished plain apart nofun
  rw [List.append_nil] at gains
  refine ⟨after, written, gains.holds.of_mem_iff fun _ => List.mem_reverse, ?_, gains.elsewhere⟩
  rw [gains.listed]
  exact List.reverse_perm _

end Blockwright
