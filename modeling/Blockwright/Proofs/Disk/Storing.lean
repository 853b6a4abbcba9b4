import Blockwright.Disk.Basic
import Blockwright.Proofs.Outcome
import Blockwright.Proofs.Text.Pieces
import Blockwright.Tree.Component

/-!
# Storing files

A file that is stored below a folder stands at the names of its path, all places on the way there
are folders, and all other places are as before.
-/

namespace Blockwright

namespace Disk

variable {disk after : Disk} {home place : Place} {folder : String}

/-! ## Nodes -/

theorem node?_of_ne_nil (below : place ≠ []) : disk.node? place = disk.nodes.lookup place := by
  rw [node?, if_neg below]

theorem ne_nil_of_free (free : disk.node? place = none) : place ≠ [] := by
  rintro rfl
  cases free

theorem nodes_put (free : disk.node? place = none) (node : Node) :
    (disk.put place node).nodes = (place, node) :: disk.nodes := by
  rw [node?_of_ne_nil (ne_nil_of_free free), List.lookup_eq_none_iff] at free
  rw [put, List.filter_eq_self.2 fun entry isEntry => ?_]
  rw [bne_comm]
  exact free entry isEntry

theorem lookup_filter_ne {nodes : List (Place × Node)} {other : Place} (different : other ≠ place) :
    (nodes.filter fun entry => entry.1 != place).lookup other = nodes.lookup other := by
  induction nodes with
  | nil => rfl
  | cons entry rest ih =>
    by_cases here : entry.1 = place
    · rw [List.filter_cons_of_neg (by simp [here]), ih, List.lookup_cons,
        beq_eq_false_iff_ne.2 (here ▸ different)]
    · rw [List.filter_cons_of_pos (by simp [here]), List.lookup_cons, List.lookup_cons, ih]

/-- What is put at a place below the root stands there, and all else stays where it is. -/
theorem node?_put_of_ne_nil (below : place ≠ []) (node : Node) (other : Place) :
    (disk.put place node).node? other = if other = place then some node else disk.node? other := by
  by_cases isRoot : other = []
  · subst isRoot
    rw [if_neg below.symm]
    rfl
  · rw [node?_of_ne_nil isRoot, put, List.lookup_cons, node?_of_ne_nil isRoot]
    by_cases same : other = place
    · rw [if_pos same, beq_iff_eq.2 same]
    · rw [if_neg same, beq_eq_false_iff_ne.2 same, lookup_filter_ne same]

theorem node?_put (free : disk.node? place = none) (node : Node) (other : Place) :
    (disk.put place node).node? other = if other = place then some node else disk.node? other :=
  node?_put_of_ne_nil (ne_nil_of_free free) node other

theorem filesBelow_put_folder (free : disk.node? place = none) (root : Place) :
    (disk.put place .folder).filesBelow root = disk.filesBelow root := by
  rw [filesBelow, nodes_put free]
  rfl

theorem filesBelow_put_file {names : List String} (free : disk.node? (place ++ names) = none)
    (bytes : ByteArray) :
    (disk.put (place ++ names) (.file bytes)).filesBelow place =
      (Text.join "/" names, bytes) :: disk.filesBelow place := by
  have isBelow : place.isPrefixOf (place ++ names) = true :=
    List.isPrefixOf_iff_prefix.2 (List.prefix_append place names)
  rw [filesBelow, nodes_put free, List.filterMap_cons]
  simp only [isBelow, if_true, List.drop_left]
  rfl

/-! ## Steps -/

/-- Whether a name leads from a folder to an entry in it. -/
structure IsName (name : String) : Prop where
  ne_empty : name ≠ ""
  ne_here : name ≠ "."
  ne_above : name ≠ ".."
  short : name.utf8ByteSize ≤ nameLimit

theorem step_name (isFolder : disk.node? place = some .folder) {name : String}
    (isName : IsName name) : disk.step place name = .ok (place ++ [name]) := by
  simp [step, isFolder, isName.ne_empty, isName.ne_here, isName.ne_above,
    Nat.not_lt.2 isName.short]

/-- Steps are taken from folders only. -/
theorem folder_of_step {piece : String} {next : Place}
    (stepped : disk.step place piece = .ok next) :
    disk.node? place = some .folder := by
  rw [step] at stepped
  split at stepped
  · cases stepped
  · cases stepped
  · assumption

/-- Whether the folders of a disk are still folders of another. -/
def Keeps (disk after : Disk) : Prop :=
  ∀ place, disk.node? place = some .folder → after.node? place = some .folder

theorem Keeps.step (keeps : disk.Keeps after) {piece : String} {next : Place}
    (stepped : disk.step place piece = .ok next) : after.step place piece = .ok next := by
  have isFolder := folder_of_step stepped
  rw [Disk.step, isFolder] at stepped
  rw [Disk.step, keeps place isFolder]
  exact stepped

theorem Keeps.steps (keeps : disk.Keeps after) {pieces : List String} {next : Place}
    (followed : pieces.foldlM disk.step place = .ok next) :
    pieces.foldlM after.step place = .ok next := by
  induction pieces generalizing place with
  | nil => exact followed
  | cons piece rest ih =>
    rw [List.foldlM_cons] at followed ⊢
    obtain ⟨middle, stepped, followed⟩ := Outcome.bind_eq_ok.1 followed
    exact Outcome.bind_eq_ok.2 ⟨middle, keeps.step stepped, ih followed⟩

/-! ## Folders -/

theorem makeFolders_followed {front rest : List String} {last : Place}
    (followed : front.foldlM disk.step place = .ok last)
    (isFolder : disk.node? last = some .folder) :
    disk.makeFolders place (front ++ rest) = disk.makeFolders last rest := by
  induction front generalizing place with
  | nil =>
    cases followed
    rfl
  | cons piece others ih =>
    rw [List.foldlM_cons] at followed
    obtain ⟨next, stepped, followed⟩ := Outcome.bind_eq_ok.1 followed
    have isThere : disk.node? next = some .folder := by
      cases others with
      | nil =>
        cases followed
        exact isFolder
      | cons second others =>
        rw [List.foldlM_cons] at followed
        obtain ⟨_, stepped, -⟩ := Outcome.bind_eq_ok.1 followed
        exact folder_of_step stepped
    rw [List.cons_append, makeFolders, stepped, ← ih followed]
    simp [isThere, bind, Except.bind]

/-- Whether a place is on the way from another along names, its start and its end included. -/
def OnWay (place : Place) (names : List String) (between : Place) : Prop :=
  ∃ front, front <+: names ∧ between = place ++ front

theorem onWay_append {names others : List String} :
    OnWay place names (place ++ others) ↔ others <+: names := by
  simp [OnWay]

theorem onWay_nil {between : Place} : OnWay place [] between ↔ between = place := by
  simp [OnWay]

/-- A way begins where it starts and goes on behind its first name. -/
theorem onWay_cons {name : String} {names : List String} {between : Place} :
    OnWay place (name :: names) between ↔
      between = place ∨ OnWay (place ++ [name]) names between := by
  simp only [OnWay, List.prefix_cons_iff]
  constructor
  · rintro ⟨front, rfl | ⟨rest, rfl, isPrefix⟩, rfl⟩
    · exact .inl (List.append_nil place)
    · exact .inr ⟨rest, isPrefix, by simp⟩
  · rintro (rfl | ⟨rest, isPrefix, rfl⟩)
    · exact ⟨[], .inl rfl, (List.append_nil _).symm⟩
    · exact ⟨name :: rest, .inr ⟨rest, rfl, isPrefix⟩, by simp⟩

theorem onWay_concat {name : String} {names : List String} {between : Place} :
    OnWay place (names ++ [name]) between ↔
      between = place ++ (names ++ [name]) ∨ OnWay place names between := by
  simp only [OnWay, List.prefix_concat_iff, or_and_right, exists_or, exists_eq_left]

/-- What becomes of a disk when all places on a way are made folders. -/
structure Paves (disk : Disk) (place : Place) (names : List String) (after : Disk) : Prop where
  folder : ∀ between, OnWay place names between → after.node? between = some .folder
  other : ∀ between, ¬ OnWay place names between → after.node? between = disk.node? between
  files : ∀ root, after.filesBelow root = disk.filesBelow root

theorem paves_nil (isFolder : disk.node? place = some .folder) : disk.Paves place [] disk where
  folder between onWay := by rw [onWay_nil.1 onWay, isFolder]
  other _ _ := rfl
  files _ := rfl

/-- Where no file stands there is a folder or one can be made. -/
theorem paves_makeFolder (noFile : ∀ bytes, disk.node? place ≠ some (.file bytes)) :
    disk.Paves place [] (if (disk.node? place).isNone then disk.put place .folder else disk) := by
  cases found : disk.node? place with
  | none =>
    rw [Option.isNone_none, if_pos rfl]
    refine ⟨fun between onWay => ?_, fun between away => ?_, filesBelow_put_folder found⟩
    · rw [onWay_nil.1 onWay, node?_put found, if_pos rfl]
    · rw [node?_put found, if_neg fun same => away (onWay_nil.2 same)]
  | some node =>
    cases node with
    | folder => exact paves_nil found
    | file bytes => exact absurd found (noFile bytes)

theorem Paves.cons {middle : Disk} {name : String} {names : List String}
    (isFolder : disk.node? place = some .folder)
    (first : disk.Paves (place ++ [name]) [] middle)
    (rest : middle.Paves (place ++ [name]) names after) :
    disk.Paves place (name :: names) after := by
  have before : ∀ between, ¬ OnWay (place ++ [name]) names between →
      after.node? between = disk.node? between := by
    intro between away
    have notFirst : ¬ OnWay (place ++ [name]) [] between := by
      rintro ⟨front, isPrefix, rfl⟩
      exact away ⟨front, isPrefix.trans List.nil_prefix, rfl⟩
    rw [rest.other between away, first.other between notFirst]
  refine ⟨fun between onWay => ?_, fun between away => ?_, fun root => ?_⟩
  · by_cases behind : OnWay (place ++ [name]) names between
    · exact rest.folder between behind
    · rw [before between behind, (onWay_cons.1 onWay).resolve_right behind, isFolder]
  · exact before between fun behind => away (onWay_cons.2 (.inr behind))
  · rw [rest.files, first.files]

/-- Folders are made along names unless a file is in the way. -/
theorem exists_makeFolders {names : List String} (isFolder : disk.node? place = some .folder)
    (areNames : ∀ name ∈ names, IsName name)
    (noFile : ∀ between bytes, OnWay place names between →
      disk.node? between ≠ some (.file bytes)) :
    ∃ after, disk.makeFolders place names = .ok (after, place ++ names) ∧
      disk.Paves place names after := by
  induction names generalizing disk place with
  | nil => exact ⟨disk, by simp [makeFolders, isFolder], paves_nil isFolder⟩
  | cons name rest ih =>
    obtain ⟨isName, restNames⟩ := List.forall_mem_cons.1 areNames
    have onWay : ∀ between, OnWay (place ++ [name]) rest between →
        OnWay place (name :: rest) between := fun between behind => onWay_cons.2 (.inr behind)
    have here : OnWay (place ++ [name]) rest (place ++ [name]) :=
      ⟨[], List.nil_prefix, (List.append_nil _).symm⟩
    have first := paves_makeFolder fun bytes => noFile _ bytes (onWay _ here)
    have isThere := first.folder _ (onWay_nil.2 rfl)
    obtain ⟨after, made, paves⟩ := ih isThere restNames fun between bytes behind => by
      by_cases same : between = place ++ [name]
      · rw [same, isThere]
        nofun
      · rw [first.other between fun isHere => same (onWay_nil.1 isHere)]
        exact noFile between bytes (onWay between behind)
    refine ⟨after, ?_, .cons isFolder first paves⟩
    have spelled : place ++ name :: rest = place ++ [name] ++ rest := by simp
    rw [makeFolders, step_name isFolder isName, spelled]
    exact made

/-! ## Files -/

/-- What becomes of a disk when a file is stored at the end of a way. -/
structure Stores (disk : Disk) (place : Place) (names : List String) (bytes : ByteArray)
    (after : Disk) : Prop where
  file : after.node? (place ++ names) = some (.file bytes)
  folder : ∀ between, OnWay place names between → between ≠ place ++ names →
    after.node? between = some .folder
  other : ∀ between, ¬ OnWay place names between → after.node? between = disk.node? between
  files : after.filesBelow place = (Text.join "/" names, bytes) :: disk.filesBelow place

/-- A file is stored at the end of a way if nothing stands there and the way to it is paved. -/
theorem Paves.stores {middle : Disk} {folders : List String} {name : String}
    (paves : disk.Paves place folders middle)
    (free : middle.node? (place ++ (folders ++ [name])) = none) (bytes : ByteArray) :
    disk.Stores place (folders ++ [name]) bytes
      (middle.put (place ++ (folders ++ [name])) (.file bytes)) where
  file := by rw [node?_put free, if_pos rfl]
  folder between onWay notEnd := by
    rw [node?_put free, if_neg notEnd]
    exact paves.folder between ((onWay_concat.1 onWay).resolve_left notEnd)
  other between away := by
    obtain ⟨notEnd, notBefore⟩ := not_or.1 (onWay_concat.not.1 away)
    rw [node?_put free, if_neg notEnd, paves.other between notBefore]
  files := by rw [filesBelow_put_file free, paves.files]

/-- A folder stays one if nothing stood where the file is stored. -/
theorem Stores.keeps {names : List String} {bytes : ByteArray}
    (stores : disk.Stores place names bytes after) (free : disk.node? (place ++ names) = none) :
    disk.Keeps after := by
  intro other isFolder
  by_cases onWay : OnWay place names other
  · refine stores.folder other onWay ?_
    rintro rfl
    rw [free] at isFolder
    cases isFolder
  · rw [stores.other other onWay, isFolder]

/-- Whether a folder is the one at a place. The empty path is the folder where one is. -/
structure Opens (disk : Disk) (home : Place) (folder : String) (place : Place) : Prop where
  leads : folder = "" ∧ place = home ∨ disk.follow home folder = .ok place
  isFolder : disk.node? place = some .folder

theorem Opens.keeps (opens : disk.Opens home folder place) (keeps : disk.Keeps after) :
    after.Opens home folder place where
  leads := opens.leads.imp_right fun followed => by
    obtain ⟨checked, followed⟩ := Outcome.check_bind_eq_ok.1 followed
    exact Outcome.check_bind_eq_ok.2 ⟨checked, keeps.steps followed⟩
  isFolder := keeps place opens.isFolder

end Disk

/-- Whether a path consists of names that lead from folder to folder. -/
structure Path.IsPlain (path : String) : Prop where
  names : ∀ name ∈ Text.splitOnChar '/' path, Disk.IsName name
  noZero : '\x00' ∉ path.toList

namespace Path.IsPlain

variable {path : String}

theorem ne_empty (plain : IsPlain path) : path ≠ "" := by
  rintro rfl
  exact (plain.names "" (by decide)).ne_empty rfl

theorem head?_ne (plain : IsPlain path) : path.toList.head? ≠ some '/' := by
  intro isRoot
  obtain ⟨rest, form⟩ := List.head?_eq_some_iff.1 isRoot
  have parts : path = "" ++ String.singleton '/' ++ String.ofList rest := by
    simp [← String.toList_inj, form]
  refine (plain.names "" ?_).ne_empty rfl
  rw [parts, Text.splitOnChar_append]
  exact List.mem_append_left _ (by decide)

/-- A plain path stays inside the folder that it starts from. -/
theorem isInside (plain : IsPlain path) : Path.isInside path = true := by
  have ofPiece : ∀ name, Disk.IsName name → Component.ofPiece? name = some (.name name) :=
    fun name isName => by
      simp [Component.ofPiece?, isName.ne_empty, isName.ne_here, isName.ne_above]
  obtain ⟨first, others, form⟩ := List.exists_cons_of_ne_nil (Text.splitOnChar_ne_nil '/' path)
  have areNames := plain.names
  rw [form, List.forall_mem_cons] at areNames
  obtain ⟨isFirst, areOthers⟩ := areNames
  have rest : others.filterMap Component.ofPiece? = others.map Component.name := by
    rw [← List.filterMap_eq_map]
    exact List.filterMap_congr fun name isOther => ofPiece name (areOthers name isOther)
  have steps : Component.ofPath path = (first :: others).map Component.name := by
    simp [Component.ofPath, form, Component.ofFirst?, isFirst.ne_empty, isFirst.ne_here,
      ofPiece first isFirst, rest]
  rw [Path.isInside, steps, Bool.and_eq_true, bne_iff_ne, List.all_map]
  exact ⟨plain.ne_empty, List.all_eq_true.2 fun _ _ => rfl⟩

end Path.IsPlain

namespace Disk

variable {disk after : Disk} {home place : Place} {folder path : String}

theorem checkPath_eq_ok : checkPath path = .ok () ↔ '\x00' ∉ path.toList ∧ path ≠ "" := by
  rw [checkPath]
  split
  · next isThere => simp [List.contains_iff_mem.1 isThere]
  · next absent =>
    rw [List.contains_iff_mem] at absent
    split <;> simp [*]

theorem start_append (notEmpty : folder ≠ "") (rest : String) :
    start home (folder ++ rest) = start home folder := by
  rw [start, start, String.toList_append, List.head?_append_of_ne_nil]
  rwa [Ne, String.toList_eq_nil_iff]

/-- The pieces of a path behind a folder are the pieces of the folder, up to a separator at its end,
and those of the path. -/
theorem exists_append (folder : String) (notRoot : path.toList.head? ≠ some '/') (home : Place) :
    start home (Path.append folder path) = start home folder ∧
      ∃ front, Text.splitOnChar '/' (Path.append folder path) =
          front ++ Text.splitOnChar '/' path ∧
        (Text.splitOnChar '/' folder = front ∨ Text.splitOnChar '/' folder = front ++ [""]) := by
  by_cases notEmpty : folder = ""
  · have whole : Path.append folder path = path := by simp [Path.append, notEmpty]
    rw [whole, notEmpty, start, if_neg notRoot]
    exact ⟨rfl, [], rfl, .inr rfl⟩
  · by_cases slashed : folder.toList.getLast? = some '/'
    · have whole : Path.append folder path = folder ++ path := by
        simp [Path.append, notRoot, notEmpty, slashed]
      obtain ⟨characters, form⟩ := List.getLast?_eq_some_iff.1 slashed
      obtain ⟨stem, rfl⟩ : ∃ stem, folder = stem ++ String.singleton '/' :=
        ⟨String.ofList characters, by simp [← String.toList_inj, form]⟩
      rw [whole]
      refine ⟨start_append notEmpty path, _, Text.splitOnChar_append '/' stem path, .inr ?_⟩
      rw [← String.append_empty (s := stem ++ String.singleton '/'), Text.splitOnChar_append]
      rfl
    · have whole : Path.append folder path = folder ++ String.singleton '/' ++ path := by
        simp [Path.append, notRoot, notEmpty, slashed]
      rw [whole, String.append_assoc, start_append notEmpty, ← String.append_assoc]
      exact ⟨rfl, _, Text.splitOnChar_append '/' folder path, .inl rfl⟩

theorem steps_of_empty {pieces : List String} {first : Place}
    (followed : (pieces ++ [""]).foldlM disk.step first = .ok place) :
    pieces.foldlM disk.step first = .ok place := by
  rw [List.foldlM_append] at followed
  obtain ⟨last, followed, stays⟩ := Outcome.bind_eq_ok.1 followed
  obtain ⟨next, stepped, isLast⟩ := Outcome.bind_eq_ok.1 stays
  cases isLast
  simp only [step, folder_of_step stepped] at stepped
  cases stepped
  exact followed

theorem Opens.steps (opens : disk.Opens home folder place) :
    (Text.splitOnChar '/' folder).foldlM disk.step (start home folder) = .ok place := by
  obtain ⟨rfl, rfl⟩ | followed := opens.leads
  · have stays : disk.step place "" = .ok place := by simp [step, opens.isFolder]
    exact Outcome.bind_eq_ok.2 ⟨place, stays, rfl⟩
  · exact (Outcome.check_bind_eq_ok.1 followed).2

/-- The pieces of a folder lead to it also without a separator at its end. -/
theorem Opens.steps_front (opens : disk.Opens home folder place) {front : List String}
    (ends : Text.splitOnChar '/' folder = front ∨ Text.splitOnChar '/' folder = front ++ [""]) :
    front.foldlM disk.step (start home folder) = .ok place := by
  rcases ends with whole | whole
  · exact whole ▸ opens.steps
  · exact steps_of_empty (whole ▸ opens.steps)

theorem Opens.exists_front (opens : disk.Opens home folder place)
    (notRoot : path.toList.head? ≠ some '/') :
    ∃ front, Text.splitOnChar '/' (Path.append folder path) =
        front ++ Text.splitOnChar '/' path ∧
      front.foldlM disk.step (start home (Path.append folder path)) = .ok place := by
  obtain ⟨starts, front, pieces, ends⟩ := exists_append folder notRoot home
  exact ⟨front, pieces, starts ▸ opens.steps_front ends⟩

theorem Opens.checkPath_append (opens : disk.Opens home folder place) (plain : Path.IsPlain path) :
    checkPath (Path.append folder path) = .ok () := by
  rw [checkPath_eq_ok]
  obtain ⟨rfl, rfl⟩ | followed := opens.leads
  · simp [Path.append, plain.noZero, plain.ne_empty]
  · obtain ⟨checked, -⟩ := Outcome.check_bind_eq_ok.1 followed
    obtain ⟨noZero, notEmpty⟩ := checkPath_eq_ok.1 checked
    by_cases slashed : folder.toList.getLast? = some '/' <;>
      simp [Path.append, slashed, noZero, notEmpty, plain.noZero, plain.head?_ne]

/-- A file is stored behind a folder if nothing stands at its place and no file on the way. -/
theorem Opens.exists_store (opens : disk.Opens home folder place) (plain : Path.IsPlain path)
    (free : disk.node? (place ++ Text.splitOnChar '/' path) = none)
    (noFile : ∀ between bytes, OnWay place (Text.splitOnChar '/' path) between →
      disk.node? between ≠ some (.file bytes)) (bytes : ByteArray) :
    ∃ after, disk.store home (Path.append folder path) bytes = .ok after ∧
      disk.Stores place (Text.splitOnChar '/' path) bytes after := by
  have checked := opens.checkPath_append plain
  obtain ⟨front, pieces, followed⟩ := opens.exists_front plain.head?_ne
  obtain ⟨folders, name, form⟩ := List.eq_nil_or_concat (Text.splitOnChar '/' path) |>.resolve_left
    (Text.splitOnChar_ne_nil _ _)
  rw [List.concat_eq_append] at form
  have areNames := plain.names
  rw [form, List.forall_mem_append, List.forall_mem_singleton] at areNames
  obtain ⟨areFolders, isName⟩ := areNames
  rw [form] at pieces noFile free ⊢
  obtain ⟨middle, made, paves⟩ := exists_makeFolders opens.isFolder areFolders
    fun between bytes onWay => noFile between bytes (onWay_concat.2 (.inr onWay))
  have notBefore : ¬ OnWay place folders (place ++ (folders ++ [name])) := by
    rw [onWay_append]
    exact fun isPrefix => by simpa using isPrefix.length_le
  have isFree : middle.node? (place ++ (folders ++ [name])) = none := by
    rw [paves.other _ notBefore, free]
  have named : ((front ++ (folders ++ [name])).reverse.dropWhile
      fun piece => piece == "" || piece == ".").reverse = front ++ folders ++ [name] := by
    rw [← List.append_assoc, List.reverse_concat, List.dropWhile_cons_of_neg, ← List.reverse_concat,
      List.reverse_reverse]
    simp [isName.ne_empty, isName.ne_here]
  refine ⟨_, ?_, paves.stores isFree bytes⟩
  rw [store, checked, pieces]
  dsimp only [bind, Except.bind]
  rw [named, List.dropLast_concat, makeFolders_followed followed opens.isFolder, made]
  dsimp only
  rw [List.getLastD_concat, step_name (paves.folder _ (onWay_append.2 List.prefix_rfl)) isName,
    List.append_assoc]
  simp [isName.ne_empty, isName.ne_above, putFile, isFree]

end Disk

end Blockwright
