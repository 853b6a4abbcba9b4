import Blockwright.Assets.Source
import Blockwright.Proofs.Disk.Resolving
import Blockwright.Tree.Write

/-!
# Confinement

A path that stays inside leads to a place below every folder that it is followed from. A tree is
written in the order of its files and, up to the first that cannot be written, changes nothing but
what lies below its folder. Assets are not read from elsewhere than their folder either.
-/

namespace Blockwright

namespace Component

/-- Only two dots are not a name or no step at all. -/
theorem isName_of_ofPiece?_iff {piece : String} :
    (∀ step ∈ (ofPiece? piece).toList, step.isName = true) ↔ piece ≠ ".." := by
  rw [ofPiece?]
  split_ifs with isEmpty isHere isAbove
  · simp [isEmpty]
  · simp [isHere]
  · simp [isAbove, isName]
  · simp [isAbove, isName]

theorem isName_of_ofFirst?_iff {piece : String} :
    (∀ step ∈ (ofFirst? piece).toList, step.isName = true) ↔ piece ≠ "." ∧ piece ≠ ".." := by
  rw [ofFirst?]
  split_ifs with isHere
  · simp [isHere, isName]
  · rw [isName_of_ofPiece?_iff]
    simp [isHere]

theorem isName_of_filterMap_iff {pieces : List String} :
    (∀ step ∈ pieces.filterMap ofPiece?, step.isName = true) ↔ ".." ∉ pieces := by
  induction pieces with
  | nil => simp
  | cons piece rest ih =>
    rw [List.mem_cons, not_or, ← Ne, ne_comm, ← ih, ← isName_of_ofPiece?_iff,
      List.filterMap_cons]
    cases ofPiece? piece <;> simp

end Component

namespace Path

variable {path : String}

/-- Only at the root can a path begin with an empty piece. -/
theorem head?_pieces_eq_empty (notEmpty : path ≠ "") :
    (Text.splitOnChar '/' path).head? = some "" ↔ path.toList.head? = some '/' := by
  rw [Text.head?_splitOnChar_eq_empty, or_iff_right notEmpty]

theorem isInside_iff :
    isInside path = true ↔ path ≠ "" ∧ path.toList.head? ≠ some '/' ∧
      (Text.splitOnChar '/' path).head? ≠ some "." ∧ ".." ∉ Text.splitOnChar '/' path := by
  rw [isInside, Bool.and_eq_true, bne_iff_ne, List.all_eq_true, Component.ofPath]
  refine and_congr_right fun notEmpty => ?_
  have isRoot := head?_pieces_eq_empty notEmpty
  have joined := Text.join_splitOnChar '/' path
  obtain ⟨first, others, form⟩ := List.exists_cons_of_ne_nil (Text.splitOnChar_ne_nil '/' path)
  rw [form, List.head?_cons, Option.some_inj] at isRoot
  rw [form] at joined ⊢
  rw [Ne, ← isRoot, List.head?_cons]
  by_cases isEmpty : first = ""
  · -- The path would be empty if nothing came behind the empty piece.
    have goesOn : others ≠ [] := by
      rintro rfl
      exact notEmpty (joined.symm.trans isEmpty)
    simp [isEmpty, goesOn, Component.isName]
  · have noRoot : (decide (first = "") && !others.isEmpty) = false := by simp [isEmpty]
    simp only [noRoot, Bool.false_eq_true, if_false, List.nil_append, List.forall_mem_append,
      Component.isName_of_ofFirst?_iff, Component.isName_of_filterMap_iff, List.mem_cons]
    simp [isEmpty, and_assoc, eq_comm (a := "..")]

theorem noAbove_of_isInside (inside : isInside path = true) :
    ".." ∉ Text.splitOnChar '/' path := (isInside_iff.1 inside).2.2.2

theorem names_ne_nil_of_isInside (inside : isInside path = true) :
    Place.names (Text.splitOnChar '/' path) ≠ [] := by
  obtain ⟨notEmpty, notRoot, notHere, -⟩ := isInside_iff.1 inside
  have isRoot := head?_pieces_eq_empty notEmpty
  obtain ⟨first, others, form⟩ := List.exists_cons_of_ne_nil (Text.splitOnChar_ne_nil '/' path)
  rw [form, List.head?_cons, Option.some_inj] at isRoot
  rw [form, List.head?_cons, Ne, Option.some_inj] at notHere
  rw [form, Place.names_cons_of_name (not_or.2 ⟨isRoot.not.2 notRoot, notHere⟩)]
  exact List.cons_ne_nil _ _

/-- A path that stays inside ends below the folder that it is followed from, and never leaves it. -/
theorem isBelow_of_isInside (inside : isInside path = true) (place : Place) :
    Place.IsBelow place (Place.moves place (Text.splitOnChar '/' path)) ∧
      ∀ other, Place.Visits place (Text.splitOnChar '/' path) other → place <+: other := by
  have noAbove := noAbove_of_isInside inside
  refine ⟨⟨Place.prefix_of_visits noAbove Place.visits_end, ?_⟩, fun other =>
    Place.prefix_of_visits noAbove⟩
  rw [Place.moves_eq_append noAbove, Ne, List.append_right_eq_self]
  exact names_ne_nil_of_isInside inside

end Path

namespace AssetSource

variable {path : String}

theorem pieces_of_isSafe (safe : isSafe path = true) :
    path.toList.head? ≠ some '/' ∧ ".." ∉ Text.splitOnChar '/' path := by
  rw [isSafe, Bool.and_eq_true, List.all_eq_true] at safe
  obtain ⟨-, pieces⟩ := safe
  constructor
  · intro isRoot
    have isFirst := Text.head?_splitOnChar_eq_empty.2 (.inr isRoot)
    simpa using pieces "" (List.mem_of_head? isFirst)
  · intro isPiece
    simpa using pieces ".." isPiece

theorem read_ofFolder_congr {disk other : Disk} {home place : Place} {folder : String}
    (opens : disk.Opens home folder place) (otherOpens : other.Opens home folder place)
    (same : ∀ inner, place <+: inner → disk.node? inner = other.node? inner) (path : String) :
    (ofFolder disk home folder).read path = (ofFolder other home folder).read path := by
  rw [ofFolder, ofFolder, guarded, guarded]
  dsimp only
  split_ifs with safe
  · obtain ⟨notRoot, noAbove⟩ := pieces_of_isSafe safe
    unfold readBelow
    rw [Disk.read_congr opens otherOpens same notRoot noAbove]
  · rfl

end AssetSource

namespace TreeFile

variable {disk middle after : Disk} {home place : Place} {folder : String} {file : TreeFile}
  {files rest : List TreeFile} {error : Option WriteError}

/-! ## Single files -/

theorem write_eq_ok :
    file.write disk home folder = .ok after ↔ Path.isInside file.path = true ∧
      ∃ bytes, file.bytes? = some bytes ∧
        disk.store home (Path.append folder file.path) bytes = .ok after := by
  rw [write]
  cases Path.isInside file.path with
  | false => simp
  | true =>
    cases file.bytes? with
    | none => simp
    | some bytes => simp [Outcome.mapError_eq_ok]

/-- Why files are not written: none is left, or the first cannot be. -/
inductive Stops : List TreeFile → Option WriteError → Prop
  | finished : Stops [] none
  | unsafePath {file : TreeFile} {rest : List TreeFile} :
      Path.isInside file.path = false → Stops (file :: rest) (some (.unsafePath file.path))
  | placeholder {file : TreeFile} {rest : List TreeFile} :
      Path.isInside file.path = true → file.bytes? = none →
        Stops (file :: rest) (some (.placeholder file.path))

theorem stops_of_write {fault : WriteError} (failed : file.write disk home folder = .error fault)
    (noFault : ∀ path reason, fault ≠ .disk path reason) : Stops (file :: rest) (some fault) := by
  rw [write] at failed
  cases inside : Path.isInside file.path with
  | false =>
    rw [inside] at failed
    cases failed
    exact .unsafePath inside
  | true =>
    rw [inside] at failed
    cases finished : file.bytes? with
    | none =>
      rw [finished] at failed
      cases failed
      exact .placeholder inside finished
    | some bytes =>
      rw [finished] at failed
      cases stored : disk.store home (Path.append folder file.path) bytes with
      | ok after => simp [stored, Except.mapError] at failed
      | error reason =>
        simp only [stored, Except.mapError] at failed
        cases failed
        exact absurd rfl (noFault _ reason)

/-! ## Written files -/

/-- The place of a file below the folder that a tree is written to. -/
def placeIn (home : Place) (folder : String) (file : TreeFile) : Place :=
  Disk.destination home folder ++ Place.names (Text.splitOnChar '/' file.path)

/-- Whether a place is on the way to a file below the folder that a tree is written to. -/
def LeadsThrough (home : Place) (folder : String) (file : TreeFile) (between : Place) : Prop :=
  Disk.OnWay (Disk.destination home folder) (Place.names (Text.splitOnChar '/' file.path)) between

/-- What files that are written below a folder make of a disk. -/
structure Populates (disk : Disk) (home : Place) (folder : String) (files : List TreeFile)
    (after : Disk) : Prop where
  inside : ∀ file ∈ files, Path.isInside file.path = true
  /-- Of several files with one place, the last stands there. -/
  stored : ∀ before file behind, files = before ++ file :: behind →
    (∀ later ∈ behind, placeIn home folder later ≠ placeIn home folder file) →
      ∃ bytes, file.bytes? = some bytes ∧
        after.node? (placeIn home folder file) = some (.file bytes)
  folders : ∀ file ∈ files, ∀ between, LeadsThrough home folder file between →
    between ≠ placeIn home folder file → after.node? between = some .folder
  keepsFolders : disk.Keeps after
  keepsFiles : ∀ other bytes, disk.node? other = some (.file bytes) →
    (∀ file ∈ files, other ≠ placeIn home folder file) → after.node? other = some (.file bytes)
  /-- All that else can happen is that the folder itself is made, with those that lead to it. -/
  elsewhere : ∀ other,
    (∀ file ∈ files, LeadsThrough home folder file other → other = Disk.destination home folder) →
      after.node? other = disk.node? other ∨
        disk.node? other = none ∧ after.node? other = some .folder ∧
          Place.Visits (Disk.start home folder) (Text.splitOnChar '/' folder) other

theorem populates_nil : Populates disk home folder [] disk where
  inside _ isFile := absurd isFile List.not_mem_nil
  stored before file behind split := by cases before <;> cases split
  folders _ isFile := absurd isFile List.not_mem_nil
  keepsFolders _ := id
  keepsFiles _ _ isFile _ := isFile
  elsewhere _ _ := .inl rfl

theorem populates_of_write (written : file.write disk home folder = .ok after) :
    Populates disk home folder [file] after := by
  obtain ⟨inside, bytes, isBytes, stored⟩ := write_eq_ok.1 written
  have receives := Disk.receives_of_store stored
  have notRoot := (Path.isInside_iff.1 inside).2.1
  have noAbove := Path.noAbove_of_isInside inside
  have isPlace : Place.moves (Disk.start home (Path.append folder file.path))
      (Text.splitOnChar '/' (Path.append folder file.path)) = placeIn home folder file :=
    Disk.destination_append folder notRoot noAbove
  constructor
  · simpa using inside
  · intro before other behind split _
    cases before with
    | nil =>
      cases split
      exact ⟨bytes, isBytes, isPlace ▸ receives.file⟩
    | cons first before => simp at split
  · intro other isFile between onWay notEnd
    obtain rfl := List.mem_singleton.1 isFile
    have visited := (Disk.visits_append_iff folder notRoot noAbove).2 (.inr onWay)
    exact receives.folder between visited (isPlace ▸ notEnd)
  · exact receives.keeps
  · intro other held isFile notEnd
    exact receives.file_of_ne isFile (isPlace ▸ notEnd file List.mem_cons_self)
  · intro other onlyRoot
    have notEnd : other ≠ placeIn home folder file := by
      rintro rfl
      have isRoot := onlyRoot file List.mem_cons_self (Disk.onWay_append.2 List.prefix_rfl)
      exact Path.names_ne_nil_of_isInside inside (List.append_right_eq_self.1 isRoot)
    refine (receives.same_or_opened (isPlace ▸ notEnd)).imp_right ?_
    rintro ⟨wasNone, isFolder, visited⟩
    refine ⟨wasNone, isFolder, ?_⟩
    obtain toFolder | onWay := (Disk.visits_append_iff folder notRoot noAbove).1 visited
    · exact toFolder
    · rw [onlyRoot file List.mem_cons_self onWay]
      exact Place.visits_end

theorem Populates.cons (first : Populates disk home folder [file] middle)
    (others : Populates middle home folder rest after) :
    Populates disk home folder (file :: rest) after where
  inside := List.forall_mem_cons.2 ⟨first.inside file List.mem_cons_self, others.inside⟩
  stored before other behind split apart := by
    cases before with
    | nil =>
      cases split
      obtain ⟨bytes, isBytes, isFile⟩ := first.stored [] file [] rfl
        fun _ isLater => absurd isLater List.not_mem_nil
      exact ⟨bytes, isBytes, others.keepsFiles _ _ isFile fun later isLater =>
        (apart later isLater).symm⟩
    | cons _ before => exact others.stored before other behind (List.cons.inj split).2 apart
  folders := List.forall_mem_cons.2 ⟨fun between onWay notEnd =>
    others.keepsFolders _ (first.folders file List.mem_cons_self between onWay notEnd),
    others.folders⟩
  keepsFolders place isFolder := others.keepsFolders _ (first.keepsFolders _ isFolder)
  keepsFiles other bytes isFile apart := by
    obtain ⟨notFirst, notOthers⟩ := List.forall_mem_cons.1 apart
    exact others.keepsFiles _ _
      (first.keepsFiles _ _ isFile (List.forall_mem_singleton.2 notFirst)) notOthers
  elsewhere other onlyRoot := by
    obtain ⟨onlyFirst, onlyOthers⟩ := List.forall_mem_cons.1 onlyRoot
    have firstly := first.elsewhere other (List.forall_mem_singleton.2 onlyFirst)
    rcases firstly with same | ⟨wasNone, isFolder, visits⟩
    · rcases others.elsewhere other onlyOthers with stays | ⟨wasNone, isFolder, visits⟩
      · exact .inl (stays.trans same)
      · exact .inr ⟨same ▸ wasNone, isFolder, visits⟩
    · exact .inr ⟨wasNone, others.keepsFolders _ isFolder, visits⟩

theorem populates_of_writeAll (written : writeAll home folder files disk = (none, after)) :
    Populates disk home folder files after := by
  induction files generalizing disk with
  | nil =>
    cases written
    exact populates_nil
  | cons file rest ih =>
    rw [writeAll] at written
    split at written
    · next middle first => exact (populates_of_write first).cons (ih written)
    · cases written

theorem Populates.elsewhere_of_opens (populates : Populates disk home folder files after)
    (opens : disk.Opens home folder place) {other : Place} (outside : ¬ Place.IsBelow place other) :
    after.node? other = disk.node? other := by
  have onlyRoot : ∀ file ∈ files, LeadsThrough home folder file other →
      other = Disk.destination home folder := by
    rintro file - ⟨front, -, rfl⟩
    rw [← opens.eq_destination] at outside ⊢
    by_contra different
    exact outside ⟨List.prefix_append place front, different⟩
  rcases populates.elsewhere other onlyRoot with same | ⟨wasNone, -, visits⟩
  · exact same
  · cases wasNone.symm.trans (opens.folder_of_visits visits)

/-! ## Runs -/

theorem writeAll_append {front : List TreeFile} :
    writeAll home folder (front ++ rest) disk =
      match writeAll home folder front disk with
      | (none, middle) => writeAll home folder rest middle
      | (some error, middle) => (some error, middle) := by
  induction front generalizing disk with
  | nil => rfl
  | cons file front ih =>
    rw [List.cons_append, writeAll, writeAll]
    cases file.write disk home folder with
    | error fault => rfl
    | ok next => exact ih

theorem exists_writeAll_of_prefix {front : List TreeFile}
    (written : writeAll home folder files disk = (none, after)) (isPrefix : front <+: files) :
    ∃ middle, writeAll home folder front disk = (none, middle) := by
  obtain ⟨rest, rfl⟩ := isPrefix
  rw [writeAll_append] at written
  split at written
  · next middle first => exact ⟨middle, first⟩
  · cases written

theorem exists_stops (written : writeAll home folder files disk = (error, after))
    (noFault : ∀ path reason, error ≠ some (.disk path reason)) :
    ∃ done rest, files = done ++ rest ∧ Stops rest error ∧
      writeAll home folder done disk = (none, after) := by
  induction files generalizing disk with
  | nil =>
    cases written
    exact ⟨[], [], rfl, .finished, rfl⟩
  | cons file files ih =>
    rw [writeAll] at written
    cases first : file.write disk home folder with
    | error fault =>
      rw [first] at written
      cases written
      refine ⟨[], file :: files, rfl, stops_of_write first fun path reason same => ?_, rfl⟩
      exact noFault path reason (congrArg some same)
    | ok next =>
      rw [first] at written
      obtain ⟨done, rest, rfl, stops, doneWritten⟩ := ih written
      refine ⟨file :: done, rest, rfl, stops, ?_⟩
      rw [writeAll, first]
      exact doneWritten

/-- A path stays inside if it is not empty, does not begin at the root or with a dot, and has no
piece that goes up; it then ends below the folder that it is followed from and never leaves it.
Neither do the paths of assets, which therefore are what the folder of the source says. A tree is
written file by file up to the first that could leave its folder or is a placeholder, unless the
disk refuses, and nothing changes but what lies below that folder. -/
theorem stays_inside :
    (∀ path, Path.isInside path = true ↔ path ≠ "" ∧ path.toList.head? ≠ some '/' ∧
      (Text.splitOnChar '/' path).head? ≠ some "." ∧ ".." ∉ Text.splitOnChar '/' path) ∧
    (∀ path, Path.isInside path = true → ∀ place,
      Place.IsBelow place (Place.moves place (Text.splitOnChar '/' path)) ∧
        ∀ other, Place.Visits place (Text.splitOnChar '/' path) other → place <+: other) ∧
    (∀ path, AssetSource.isSafe path = true → ∀ place other,
      Place.Visits place (Text.splitOnChar '/' path) other → place <+: other) ∧
    (∀ (disk other : Disk) (home place : Place) (folder : String),
      disk.Opens home folder place → other.Opens home folder place →
        (∀ inner, place <+: inner → disk.node? inner = other.node? inner) → ∀ path,
          (AssetSource.ofFolder disk home folder).read path =
            (AssetSource.ofFolder other home folder).read path) ∧
    ∀ (files : List TreeFile) (disk after : Disk) (home : Place) (folder : String)
        (error : Option WriteError),
      writeAll home folder files disk = (error, after) →
        (∀ path fault, error ≠ some (.disk path fault)) →
          ∃ done rest, files = done ++ rest ∧ Stops rest error ∧
            writeAll home folder done disk = (none, after) ∧
            ∀ front, front <+: done → ∃ middle,
              writeAll home folder front disk = (none, middle) ∧
              Populates disk home folder front middle ∧
              ∀ place, disk.Opens home folder place → ∀ other, ¬ Place.IsBelow place other →
                middle.node? other = disk.node? other := by
  refine ⟨fun path => Path.isInside_iff, fun path => Path.isBelow_of_isInside,
    fun path safe place other => Place.prefix_of_visits (AssetSource.pieces_of_isSafe safe).2,
    fun disk other home place folder => AssetSource.read_ofFolder_congr, ?_⟩
  intro files disk after home folder error written noFault
  obtain ⟨done, rest, split, stops, doneWritten⟩ := exists_stops written noFault
  refine ⟨done, rest, split, stops, doneWritten, fun front isPrefix => ?_⟩
  obtain ⟨middle, frontWritten⟩ := exists_writeAll_of_prefix doneWritten isPrefix
  have populates := populates_of_writeAll frontWritten
  exact ⟨middle, frontWritten, populates, fun place opens other =>
    populates.elsewhere_of_opens opens⟩

/-- A file replaces another, one gets a folder of its own, and a path upwards ends the run. What
stands beside the folder is not touched and does not matter to a source of assets. -/
theorem stays_inside_upward :
    let disk : Disk := { nodes := [(["out"], .folder), (["out", "a.txt"], .file "old".toUTF8)] }
    let other : Disk := disk.put ["beside"] .folder
    let files := [ofText "a.txt" "new", ofText "sub/./b.txt" "text", ofText "../c.txt" "text",
      ofText "d.txt" "text"]
    disk.Opens [] "out" ["out"] ∧ other.Opens [] "out" ["out"] ∧
      Place.IsBelow ["out"] (Place.moves ["out"] (Text.splitOnChar '/' "sub/./b.txt")) ∧
      (∀ place, Place.Visits ["out"] (Text.splitOnChar '/' "models/./block") place →
        ["out"] <+: place) ∧
      (AssetSource.ofFolder disk [] "out").read "a.txt" =
        (AssetSource.ofFolder other [] "out").read "a.txt" ∧
      ∃ after done rest, writeAll [] "out" files disk = (some (.unsafePath "../c.txt"), after) ∧
        files = done ++ rest ∧ Stops rest (some (.unsafePath "../c.txt")) ∧
        Populates disk [] "out" done after ∧
        ∀ place, ¬ Place.IsBelow ["out"] place → after.node? place = disk.node? place := by
  intro disk other files
  have opens : disk.Opens [] "out" ["out"] := ⟨.inr rfl, rfl⟩
  have otherOpens : other.Opens [] "out" ["out"] := ⟨.inr rfl, rfl⟩
  have same : ∀ inner, ["out"] <+: inner → disk.node? inner = other.node? inner := by
    intro inner inside
    have elsewhere : inner ≠ ["beside"] := by
      rintro rfl
      simp at inside
    exact ((Disk.node?_put_of_ne_nil (by simp) .folder inner).trans (if_neg elsewhere)).symm
  have stopped : writeAll [] "out" files disk =
      (some (.unsafePath "../c.txt"), (writeAll [] "out" files disk).2) := by rfl
  obtain ⟨-, below, stays, reads, writes⟩ := stays_inside
  obtain ⟨done, rest, split, stops, doneWritten, each⟩ :=
    writes files disk _ [] "out" _ stopped nofun
  obtain ⟨middle, written, populates, elsewhere⟩ := each done List.prefix_rfl
  cases doneWritten.symm.trans written
  exact ⟨opens, otherOpens, (below _ (by rfl) _).1, stays _ (by rfl) _,
    reads _ _ _ _ _ opens otherOpens same _, _, done, rest, stopped, split, stops, populates,
    elsewhere _ opens⟩

end TreeFile

end Blockwright
