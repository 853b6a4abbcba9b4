import Blockwright.Proofs.Disk.Storing

/-!
# Where paths lead

Each piece of a path leads from one place to the next, and without two dots it never leads up. When
a file is stored, the places that the pieces visit become folders, the last one the file, and all
other places are as before.
-/

namespace Blockwright

namespace Place

/-- The place that a piece leads to. -/
def move (place : Place) (piece : String) : Place :=
  if piece = "" || piece = "." then place
  else if piece = ".." then place.dropLast
  else place ++ [piece]

/-- The place that pieces lead to, one after the other. -/
def moves (place : Place) (pieces : List String) : Place := pieces.foldl move place

/-- Whether a place is the start or lies behind some of the first pieces. -/
def Visits (place : Place) (pieces : List String) (other : Place) : Prop :=
  ∃ front, front <+: pieces ∧ other = moves place front

/-- The pieces that name an entry, if none of them goes up. -/
def names (pieces : List String) : List String :=
  pieces.filter fun piece => piece != "" && piece != "."

/-- Whether a place lies in a folder, which itself does not. -/
def IsBelow (place other : Place) : Prop := place <+: other ∧ other ≠ place

variable {place other : Place} {piece : String} {front pieces rest : List String}

theorem visits_nil : Visits place [] other ↔ other = place := by simp [Visits, moves]

theorem visits_start : Visits place pieces place := ⟨[], List.nil_prefix, rfl⟩

theorem visits_end : Visits place pieces (moves place pieces) := ⟨pieces, List.prefix_rfl, rfl⟩

theorem visits_cons :
    Visits place (piece :: rest) other ↔ other = place ∨ Visits (move place piece) rest other := by
  simp only [Visits, List.prefix_cons_iff]
  constructor
  · rintro ⟨front, rfl | ⟨behind, rfl, isPrefix⟩, rfl⟩
    · exact .inl rfl
    · exact .inr ⟨behind, isPrefix, rfl⟩
  · rintro (rfl | ⟨behind, isPrefix, rfl⟩)
    · exact ⟨[], .inl rfl, rfl⟩
    · exact ⟨piece :: behind, .inr ⟨behind, rfl, isPrefix⟩, rfl⟩

theorem moves_append : moves place (front ++ rest) = moves (moves place front) rest :=
  List.foldl_append

theorem moves_concat : moves place (front ++ [piece]) = move (moves place front) piece :=
  List.foldl_concat ..

theorem visits_append :
    Visits place (front ++ rest) other ↔
      Visits place front other ∨ Visits (moves place front) rest other := by
  induction front generalizing place with
  | nil =>
    rw [visits_nil, List.nil_append]
    exact (or_iff_right_of_imp fun here => here ▸ visits_start).symm
  | cons piece front ih =>
    rw [List.cons_append, visits_cons, visits_cons, ih, or_assoc]
    rfl

theorem moves_concat_empty : moves place (pieces ++ [""]) = moves place pieces := moves_concat

theorem visits_concat_empty : Visits place (pieces ++ [""]) other ↔ Visits place pieces other := by
  rw [visits_append]
  refine or_iff_left_of_imp fun behind => ?_
  obtain rfl | here := visits_cons.1 behind
  · exact visits_end
  · exact visits_nil.1 here ▸ visits_end

/-! ## Pieces that do not go up -/

theorem names_cons_of_stays (stays : piece = "" ∨ piece = ".") :
    names (piece :: rest) = names rest := by
  rcases stays with rfl | rfl <;> rfl

theorem names_cons_of_name (stays : ¬ (piece = "" ∨ piece = ".")) :
    names (piece :: rest) = piece :: names rest :=
  List.filter_cons_of_pos (by simpa using stays)

theorem move_of_stays (stays : piece = "" ∨ piece = ".") : move place piece = place := by
  simp [move, stays]

theorem move_of_name (stays : ¬ (piece = "" ∨ piece = ".")) (notAbove : piece ≠ "..") :
    move place piece = place ++ [piece] := by
  simp [move, stays, notAbove]

/-- Pieces that do not go up lead to the place of their names. -/
theorem moves_eq_append (noAbove : ".." ∉ pieces) : moves place pieces = place ++ names pieces := by
  induction pieces generalizing place with
  | nil => exact (List.append_nil place).symm
  | cons piece rest ih =>
    obtain ⟨notAbove, noAbove⟩ := not_or.1 (List.mem_cons.not.1 noAbove)
    change moves (move place piece) rest = _
    by_cases stays : piece = "" ∨ piece = "."
    · rw [move_of_stays stays, names_cons_of_stays stays, ih noAbove]
    · rw [move_of_name stays (Ne.symm notAbove), names_cons_of_name stays, ih noAbove,
        List.append_assoc, List.singleton_append]

theorem visits_iff_onWay (noAbove : ".." ∉ pieces) :
    Visits place pieces other ↔ Disk.OnWay place (names pieces) other := by
  induction pieces generalizing place with
  | nil => rw [visits_nil, names, List.filter_nil, Disk.onWay_nil]
  | cons piece rest ih =>
    obtain ⟨notAbove, noAbove⟩ := not_or.1 (List.mem_cons.not.1 noAbove)
    rw [visits_cons]
    by_cases stays : piece = "" ∨ piece = "."
    · rw [move_of_stays stays, names_cons_of_stays stays, ← ih noAbove]
      exact or_iff_right_of_imp fun here => here ▸ visits_start
    · rw [move_of_name stays (Ne.symm notAbove), names_cons_of_name stays, ih noAbove,
        Disk.onWay_cons]

/-- Pieces that do not go up never leave the place that they start from. -/
theorem prefix_of_visits (noAbove : ".." ∉ pieces) (visits : Visits place pieces other) :
    place <+: other := by
  obtain ⟨front, -, rfl⟩ := (visits_iff_onWay noAbove).1 visits
  exact List.prefix_append place front

end Place

namespace Disk

open Place (Visits moves)

variable {disk after : Disk} {home place last : Place} {folder path : String}
  {pieces : List String} {bytes : ByteArray}

/-! ## Following -/

theorem eq_move_of_step {piece : String} (stepped : disk.step place piece = .ok last) :
    last = Place.move place piece := by
  rw [step, folder_of_step stepped] at stepped
  rw [Place.move]
  dsimp only at stepped
  split_ifs at stepped ⊢ <;> cases stepped <;> rfl

theorem eq_moves_of_steps (followed : pieces.foldlM disk.step place = .ok last) :
    last = moves place pieces := by
  induction pieces generalizing place with
  | nil =>
    cases followed
    rfl
  | cons piece rest ih =>
    rw [List.foldlM_cons] at followed
    obtain ⟨next, stepped, followed⟩ := Outcome.bind_eq_ok.1 followed
    rw [ih followed, eq_move_of_step stepped]
    rfl

/-- All places on the way to a folder are folders. -/
theorem folder_of_visits (followed : pieces.foldlM disk.step place = .ok last)
    (isFolder : disk.node? last = some .folder) {other : Place}
    (visits : Visits place pieces other) : disk.node? other = some .folder := by
  induction pieces generalizing place with
  | nil =>
    cases followed
    rwa [Place.visits_nil.1 visits]
  | cons piece rest ih =>
    rw [List.foldlM_cons] at followed
    obtain ⟨next, stepped, followed⟩ := Outcome.bind_eq_ok.1 followed
    obtain rfl | behind := Place.visits_cons.1 visits
    · exact folder_of_step stepped
    · exact ih followed (eq_move_of_step stepped ▸ behind)

/-! ## Folders on the way -/

/-- What becomes of a disk when all places that pieces visit are made folders. -/
structure Clears (disk : Disk) (place : Place) (pieces : List String) (after : Disk) : Prop where
  folder : ∀ other, Visits place pieces other → after.node? other = some .folder
  noFile : ∀ other, Visits place pieces other → ∀ bytes, disk.node? other ≠ some (.file bytes)
  other : ∀ other, ¬ Visits place pieces other → after.node? other = disk.node? other

theorem clears_nil (isFolder : disk.node? place = some .folder) : disk.Clears place [] disk where
  folder other here := by rw [Place.visits_nil.1 here, isFolder]
  noFile other here bytes := by
    rw [Place.visits_nil.1 here, isFolder]
    nofun
  other _ _ := rfl

/-- A folder is made at the next place, and then those behind it. -/
theorem Clears.cons {middle : Disk} {piece : String} {rest : List String}
    (isFolder : disk.node? place = some .folder)
    (noFile : ∀ bytes, disk.node? (Place.move place piece) ≠ some (.file bytes))
    (first : disk.Paves (Place.move place piece) [] middle)
    (clears : middle.Clears (Place.move place piece) rest after) :
    disk.Clears place (piece :: rest) after := by
  have before : ∀ other, other ≠ Place.move place piece → middle.node? other = disk.node? other :=
    fun other away => first.other other (onWay_nil.not.2 away)
  have elsewhere : ∀ other, ¬ Visits (Place.move place piece) rest other →
      after.node? other = disk.node? other := by
    intro other notBehind
    rw [clears.other other notBehind, before other]
    rintro rfl
    exact notBehind Place.visits_start
  refine ⟨fun other visits => ?_, fun other visits bytes => ?_, fun other away => ?_⟩
  · by_cases behind : Visits (Place.move place piece) rest other
    · exact clears.folder other behind
    · rw [elsewhere other behind, (Place.visits_cons.1 visits).resolve_right behind, isFolder]
  · obtain rfl | behind := Place.visits_cons.1 visits
    · rw [isFolder]
      nofun
    · by_cases next : other = Place.move place piece
      · exact next ▸ noFile bytes
      · exact before other next ▸ clears.noFile other behind bytes
  · exact elsewhere other fun behind => away (Place.visits_cons.2 (.inr behind))

theorem noFile_of_makeFolders (made : disk.makeFolders place pieces = .ok (after, last))
    (bytes : ByteArray) : disk.node? place ≠ some (.file bytes) := by
  intro isFile
  cases pieces with
  | nil => simp [makeFolders, isFile] at made
  | cons piece rest =>
    obtain ⟨next, stepped, -⟩ := Outcome.bind_eq_ok.1 made
    cases isFile.symm.trans (folder_of_step stepped)

theorem folder_of_makeFolders (made : disk.makeFolders place pieces = .ok (after, last))
    (isFolder : after.node? last = some .folder) : disk.node? place = some .folder := by
  cases pieces with
  | nil =>
    rw [makeFolders] at made
    split at made
    · cases made
    · cases made
      exact isFolder
  | cons piece rest =>
    obtain ⟨next, stepped, -⟩ := Outcome.bind_eq_ok.1 made
    exact folder_of_step stepped

theorem clears_of_makeFolders (made : disk.makeFolders place pieces = .ok (after, last))
    (isFolder : disk.node? place = some .folder) :
    last = moves place pieces ∧ disk.Clears place pieces after := by
  induction pieces generalizing disk place with
  | nil =>
    simp only [makeFolders, isFolder] at made
    cases made
    exact ⟨rfl, clears_nil isFolder⟩
  | cons piece rest ih =>
    obtain ⟨next, stepped, made⟩ := Outcome.bind_eq_ok.1 made
    obtain rfl := eq_move_of_step stepped
    have noFile : ∀ bytes, disk.node? (Place.move place piece) ≠ some (.file bytes) := by
      intro bytes isFile
      have unchanged := noFile_of_makeFolders made bytes
      simp [isFile] at unchanged
    have first := paves_makeFolder noFile
    obtain ⟨isLast, clears⟩ := ih made (first.folder _ (onWay_nil.2 rfl))
    exact ⟨isLast, clears.cons isFolder noFile first⟩

/-! ## Files -/

/-- What becomes of a disk when a file is stored where pieces lead. -/
structure Receives (disk : Disk) (place : Place) (pieces : List String) (bytes : ByteArray)
    (after : Disk) : Prop where
  file : after.node? (moves place pieces) = some (.file bytes)
  /-- A file does not take the place of a folder. -/
  notFolder : disk.node? (moves place pieces) ≠ some .folder
  folder : ∀ other, Visits place pieces other → other ≠ moves place pieces →
    after.node? other = some .folder
  noFile : ∀ other, Visits place pieces other → other ≠ moves place pieces →
    ∀ bytes, disk.node? other ≠ some (.file bytes)
  other : ∀ other, ¬ Visits place pieces other → after.node? other = disk.node? other

theorem exists_name_of_named {named : List String}
    (form : named = (pieces.reverse.dropWhile fun piece => piece == "" || piece == ".").reverse)
    (whole : ¬ named.length < pieces.length) (notEmpty : named.getLastD "" ≠ "") :
    named = pieces ∧ ∃ front name, pieces = front ++ [name] ∧ ¬ (name = "" ∨ name = ".") := by
  have shortened := List.dropWhile_suffix (l := pieces.reverse)
    fun piece => piece == "" || piece == "."
  have unchanged := shortened.eq_of_length_le (by
    rw [form] at whole
    simpa using whole)
  rw [unchanged, List.reverse_reverse] at form
  refine ⟨form, ?_⟩
  rw [form] at notEmpty
  obtain rfl | ⟨front, name, rfl⟩ := List.eq_nil_or_concat pieces
  · exact absurd rfl notEmpty
  · rw [List.concat_eq_append] at unchanged notEmpty ⊢
    rw [List.reverse_concat, List.dropWhile_eq_self_iff] at unchanged
    refine ⟨front, name, rfl, ?_⟩
    simpa using unchanged (by simp)

/-- A file is put behind folders that are there or have been made. -/
theorem Clears.receives {middle : Disk} {front : List String} {name : String}
    (clears : disk.Clears place front middle)
    (leads : moves place (front ++ [name]) = moves place front ++ [name])
    (notFolder : middle.node? (moves place (front ++ [name])) ≠ some .folder) :
    disk.Receives place (front ++ [name]) bytes
      (middle.put (moves place (front ++ [name])) (.file bytes)) := by
  have below : moves place (front ++ [name]) ≠ [] := by simp [leads]
  have visitsFront : ∀ other, Visits place (front ++ [name]) other →
      other ≠ moves place (front ++ [name]) → Visits place front other := by
    intro other visits notEnd
    obtain before | behind := Place.visits_append.1 visits
    · exact before
    · obtain rfl | isEnd := Place.visits_cons.1 behind
      · exact Place.visits_end
      · exact absurd ((Place.visits_nil.1 isEnd).trans Place.moves_concat.symm) notEnd
  have notBefore : ¬ Visits place front (moves place (front ++ [name])) := fun visits =>
    notFolder (clears.folder _ visits)
  constructor
  · rw [node?_put_of_ne_nil below, if_pos rfl]
  · exact clears.other _ notBefore ▸ notFolder
  · intro other visits notEnd
    rw [node?_put_of_ne_nil below, if_neg notEnd]
    exact clears.folder other (visitsFront other visits notEnd)
  · exact fun other visits notEnd => clears.noFile other (visitsFront other visits notEnd)
  · intro other away
    have notEnd : other ≠ moves place (front ++ [name]) := by
      rintro rfl
      exact away Place.visits_end
    rw [node?_put_of_ne_nil below, if_neg notEnd]
    exact clears.other other fun before => away (Place.visits_append.2 (.inl before))

/-- If a file can be stored, only the places that its path visits change. -/
theorem receives_of_store (stored : disk.store home path bytes = .ok after) :
    disk.Receives (start home path) (Text.splitOnChar '/' path) bytes after := by
  rw [store] at stored
  obtain ⟨-, stored⟩ := Outcome.check_bind_eq_ok.1 stored
  dsimp only at stored
  generalize isNamed : (List.dropWhile (fun piece => piece == "" || piece == ".")
    (Text.splitOnChar '/' path).reverse).reverse = named at stored
  obtain ⟨⟨middle, reached⟩, made, stored⟩ := Outcome.bind_eq_ok.1 stored
  obtain ⟨target, stepped, stored⟩ := Outcome.bind_eq_ok.1 stored
  dsimp only at stepped stored
  split at stored
  · cases stored
  next accepted =>
    simp only [Bool.or_eq_true, decide_eq_true_eq, not_or] at accepted
    obtain ⟨⟨notEmpty, notAbove⟩, whole⟩ := accepted
    obtain ⟨rfl, front, name, form, isName⟩ := exists_name_of_named isNamed.symm whole notEmpty
    rw [form, List.dropLast_concat] at made
    rw [form, List.getLastD_concat] at stepped notAbove
    have isFolder := folder_of_makeFolders made (folder_of_step stepped)
    obtain ⟨rfl, clears⟩ := clears_of_makeFolders made isFolder
    have leads : moves (start home path) (front ++ [name]) =
        moves (start home path) front ++ [name] := by
      rw [Place.moves_concat, Place.move_of_name isName notAbove]
    obtain rfl := (eq_move_of_step stepped).trans Place.moves_concat.symm
    rw [form]
    rw [putFile] at stored
    split at stored
    · cases stored
    · next notFolder =>
      cases stored
      exact clears.receives leads notFolder

/-- Folders stay folders when a file is stored. -/
theorem Receives.keeps (receives : disk.Receives place pieces bytes after) : disk.Keeps after := by
  intro other isFolder
  by_cases visits : Visits place pieces other
  · refine receives.folder other visits ?_
    rintro rfl
    exact receives.notFolder isFolder
  · rw [receives.other other visits, isFolder]

/-- Files at other places stay as they are. -/
theorem Receives.file_of_ne (receives : disk.Receives place pieces bytes after) {other : Place}
    {held : ByteArray} (isFile : disk.node? other = some (.file held))
    (notEnd : other ≠ moves place pieces) : after.node? other = some (.file held) := by
  by_cases visits : Visits place pieces other
  · exact absurd isFile (receives.noFile other visits notEnd held)
  · rw [receives.other other visits, isFile]

/-- Elsewhere nothing happens, but for folders that are made on the way. -/
theorem Receives.same_or_opened (receives : disk.Receives place pieces bytes after) {other : Place}
    (notEnd : other ≠ moves place pieces) :
    after.node? other = disk.node? other ∨
      disk.node? other = none ∧ after.node? other = some .folder ∧ Visits place pieces other := by
  by_cases visits : Visits place pieces other
  · have isFolder := receives.folder other visits notEnd
    cases was : disk.node? other with
    | none => exact .inr ⟨rfl, isFolder, visits⟩
    | some node =>
      cases node with
      | folder => exact .inl isFolder
      | file held => exact absurd was (receives.noFile other visits notEnd held)
  · exact .inl (receives.other other visits)

/-! ## Paths behind a folder -/

/-- The place that a path leads to. -/
def destination (home : Place) (path : String) : Place :=
  moves (start home path) (Text.splitOnChar '/' path)

theorem Opens.eq_destination (opens : disk.Opens home folder place) :
    place = destination home folder := eq_moves_of_steps opens.steps

theorem Opens.folder_of_visits (opens : disk.Opens home folder place) {other : Place}
    (visits : Visits (start home folder) (Text.splitOnChar '/' folder) other) :
    disk.node? other = some .folder := Disk.folder_of_visits opens.steps opens.isFolder visits

/-- A path behind a folder leads to its names there. -/
theorem destination_append (folder : String) (notRoot : path.toList.head? ≠ some '/')
    (noAbove : ".." ∉ Text.splitOnChar '/' path) :
    destination home (Path.append folder path) =
      destination home folder ++ Place.names (Text.splitOnChar '/' path) := by
  obtain ⟨starts, front, form, ends⟩ := exists_append folder notRoot home
  rw [destination, starts, form, Place.moves_append, Place.moves_eq_append noAbove, destination]
  rcases ends with same | same <;> rw [same]
  rw [Place.moves_concat_empty]

/-- A path behind a folder visits what the folder visits, and then the places on the way along its
names. -/
theorem visits_append_iff (folder : String) (notRoot : path.toList.head? ≠ some '/')
    (noAbove : ".." ∉ Text.splitOnChar '/' path) {other : Place} :
    Visits (start home (Path.append folder path))
        (Text.splitOnChar '/' (Path.append folder path)) other ↔
      Visits (start home folder) (Text.splitOnChar '/' folder) other ∨
        OnWay (destination home folder) (Place.names (Text.splitOnChar '/' path)) other := by
  obtain ⟨starts, front, form, ends⟩ := exists_append folder notRoot home
  rw [starts, form, Place.visits_append, Place.visits_iff_onWay noAbove, destination]
  rcases ends with same | same <;> rw [same]
  rw [Place.visits_concat_empty, Place.moves_concat_empty]

/-! ## Reading -/

variable {other : Disk}

theorem steps_congr (same : ∀ inner, place <+: inner → disk.node? inner = other.node? inner)
    (noAbove : ".." ∉ pieces) {reached : Place} (inside : place <+: reached) :
    pieces.foldlM disk.step reached = pieces.foldlM other.step reached := by
  induction pieces generalizing reached with
  | nil => rfl
  | cons piece rest ih =>
    have first : disk.step reached piece = other.step reached piece := by
      rw [step, step, same reached inside]
    rw [List.foldlM_cons, List.foldlM_cons, ← first]
    cases stepped : disk.step reached piece with
    | error fault => rfl
    | ok next =>
      have goesOn : Visits reached (piece :: rest) next :=
        Place.visits_cons.2 (.inr (eq_move_of_step stepped ▸ Place.visits_start))
      exact ih (not_or.1 (List.mem_cons.not.1 noAbove)).2
        (inside.trans (Place.prefix_of_visits noAbove goesOn))

theorem follow_congr (opens : disk.Opens home folder place)
    (otherOpens : other.Opens home folder place)
    (same : ∀ inner, place <+: inner → disk.node? inner = other.node? inner)
    (notRoot : path.toList.head? ≠ some '/') (noAbove : ".." ∉ Text.splitOnChar '/' path) :
    disk.follow home (Path.append folder path) = other.follow home (Path.append folder path) := by
  obtain ⟨starts, front, form, ends⟩ := exists_append folder notRoot home
  have behind := steps_congr same noAbove List.prefix_rfl
  rw [follow, follow, starts, form, List.foldlM_append, List.foldlM_append,
    opens.steps_front ends, otherOpens.steps_front ends]
  exact congrArg (fun outcome => checkPath _ >>= fun _ => outcome) behind

/-- Disks that are the same in a folder hold the same file at a path behind it. -/
theorem read_congr (opens : disk.Opens home folder place)
    (otherOpens : other.Opens home folder place)
    (same : ∀ inner, place <+: inner → disk.node? inner = other.node? inner)
    (notRoot : path.toList.head? ≠ some '/') (noAbove : ".." ∉ Text.splitOnChar '/' path) :
    disk.read home (Path.append folder path) = other.read home (Path.append folder path) := by
  rw [read, read, ← follow_congr opens otherOpens same notRoot noAbove]
  cases followed : disk.follow home (Path.append folder path) with
  | error fault => rfl
  | ok target =>
    have isTarget := eq_moves_of_steps (Outcome.check_bind_eq_ok.1 followed).2
    change target = destination home (Path.append folder path) at isTarget
    rw [destination_append folder notRoot noAbove, ← opens.eq_destination] at isTarget
    have sameTarget := same target (isTarget ▸ List.prefix_append place _)
    simp only [bind, Except.bind, sameTarget]

end Disk

end Blockwright
