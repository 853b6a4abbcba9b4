import Blockwright.Gate.Check
import Blockwright.Proofs.Archive.Opening
import Blockwright.Proofs.Data.Folders
import Blockwright.Proofs.Text.ByteOrder

/-!
# What the gate decides

Each check of the gate has a law: either names that no file may have, or files that blocks need. An
archive whose entries can be read passes the gate if it keeps all laws. Otherwise the first law
that it breaks is reported, at the least name that offends or at the first file that is needed and
does not do. Only a texture of a door whose size fits no word stops the program instead.
-/

namespace Blockwright

/-- Whether all entries of an archive can be read. -/
def Archive.Readable (archive : Archive) : Prop :=
  ∀ name ∈ archive.names, ∃ bytes, archive.read name = .ok (some bytes)

theorem Archive.Holds.readable {archive : Archive} {entries : List Tree.Entry}
    (holds : archive.Holds entries) : archive.Readable := by
  intro name isName
  obtain ⟨entry, isEntry, rfl⟩ := List.mem_map.1 ((holds.names name).1 isName).1
  exact ⟨entry.2, holds.read entry isEntry⟩

/-- All checks, in their order. -/
def GateCheck.all : List GateCheck := [
  .recipeFolder, .recipeForm, .lootTableFolder, .lootTableForm, .lootTableCoverage, .doorTextures,
  .signAssets]

namespace Gate

/-! ## Laws -/

/-- Whether a value is the first of a list that has a property. -/
def IsFirst {α : Type} (test : α → Prop) (values : List α) (value : α) : Prop :=
  ∃ before after, values = before ++ value :: after ∧ test value ∧ ∀ other ∈ before, ¬ test other

theorem IsFirst.eq_head {α : Type} {test : α → Prop} {first value : α} {others : List α}
    (isFirst : IsFirst test (first :: others) value) (passes : test first) : value = first := by
  obtain ⟨before, after, same, -, earlier⟩ := isFirst
  cases before with
  | nil => exact (List.cons.inj same).1.symm
  | cons head tail =>
    obtain ⟨rfl, -⟩ := List.cons.inj same
    exact absurd passes (earlier first (by simp))

/-- A file that a block needs: its path and what must hold of it. -/
structure Need where
  path : String
  met : Prop

/-- What a check demands of an archive. -/
inductive Law where
  | names (offends : String → Prop)
  | files (needs : List Need)

namespace Law

/-- Whether a law is kept. -/
def Kept : Law → Prop
  | names offends => ∀ name, ¬ offends name
  | files needs => ∀ need ∈ needs, need.met

/-- Whether a path is the one at which a law is said to be broken: the name that offends whose
bytes come first, or the path of the first need that is not met. -/
def BrokenAt : Law → String → Prop
  | names offends, path =>
    offends path ∧ ∀ other, offends other → Text.bytes path ≤ Text.bytes other
  | files needs, path => ∃ met, IsFirst (fun need => ¬ need.met) needs ⟨path, met⟩

theorem BrokenAt.not_kept {law : Law} {path : String} (broken : law.BrokenAt path) :
    ¬ law.Kept := by
  cases law with
  | names offends => exact fun kept => kept path broken.1
  | files needs =>
    obtain ⟨met, before, after, rfl, unmet, -⟩ := broken
    exact fun kept => unmet (kept _ (by simp))

end Law

/-! ## The laws of the checks -/

section Laws

variable (settings : GateSettings) (archive : Archive)

/-- Whether a name is that of a file somewhere below a folder of the data of some namespace. -/
def InDataFolder (folder name : String) : Prop :=
  ∃ space rest, '/' ∉ space.toList ∧ rest ≠ "" ∧
    name = "data/" ++ space ++ "/" ++ folder ++ "/" ++ rest

/-- Whether bytes are an object with the members that every data file of a kind has. -/
def HasForm (kind : DataKind) (bytes : ByteArray) : Prop :=
  ∃ members, Json.parseBytes bytes = .ok (.object members) ∧
    (∃ value, Json.lookup "type" members = some value) ∧
    match kind with
    | .recipe => ∃ value, Json.lookup "result" members = some value
    | .lootTable => ∃ elements, Json.lookup "pools" members = some (.array elements)

/-- Whether a file of a kind is where the game does not look for it. -/
def IsMisplaced (kind : DataKind) (name : String) : Prop :=
  name ∈ archive.names ∧ InDataFolder (kind.folder (.rejected settings.version)) name

/-- Whether a document of a kind is where the game looks for it and does not have its form. -/
def IsMalformed (kind : DataKind) (name : String) : Prop :=
  name ∈ archive.names ∧ InDataFolder (kind.folder (.accepted settings.version)) name ∧
    (∃ front, name = front ++ ".json") ∧
    ¬ ∃ bytes, archive.read name = .ok (some bytes) ∧ HasForm kind bytes

/-- The need of a file that is listed. -/
def Need.listed (path : String) : Need := { path, met := path ∈ archive.names }

/-- Whether there is an image at a path whose sides have a length, a multiple of sixteen. -/
def HasSide (path : String) (side : UInt32) : Prop :=
  ∃ bytes png, archive.read path = .ok (some bytes) ∧ Png.decode (Bytes.list bytes) = .ok png ∧
    png.header.width = side ∧ png.header.height = side ∧ 16 ∣ side.toNat

/-- What a door needs: a texture for each half, both of one size. -/
def doorNeeds (id : String) : List Need :=
  let bottom := Path.texture settings.modId .block (id ++ "_bottom")
  let top := Path.texture settings.modId .block (id ++ "_top")
  [ { path := bottom, met := ∃ side, HasSide archive bottom side },
    { path := top, met := ∃ side, HasSide archive bottom side ∧ HasSide archive top side } ]

/-- What a sign needs. -/
def signNeeds (id : String) : List Need :=
  let folder := if settings.shape id = .hangingSign then "entity/signs/hanging" else "entity/signs"
  [ Path.blockState settings.modId id,
    Path.model settings.modId .block id,
    Path.texture settings.modId .block id,
    Location.textureFile (settings.modId ++ ":" ++ folder ++ "/" ++ Shape.signMaterial id)
  ].map (Need.listed archive)

/-- The law of a check. -/
def law : GateCheck → Law
  | .recipeFolder => .names (IsMisplaced settings archive .recipe)
  | .recipeForm => .names (IsMalformed settings archive .recipe)
  | .lootTableFolder => .names (IsMisplaced settings archive .lootTable)
  | .lootTableForm => .names (IsMalformed settings archive .lootTable)
  | .lootTableCoverage =>
    .files ((settings.blockIds.filter (· ∉ settings.noDropIds)).map fun id =>
      .listed archive (Path.lootTable (.accepted settings.version) settings.modId id))
  | .doorTextures =>
    .files ((settings.blockIds.filter (settings.shape · = .door)).flatMap
      (doorNeeds settings archive))
  | .signAssets =>
    .files ((settings.blockIds.filter fun id =>
      settings.shape id = .sign ∨ settings.shape id = .hangingSign).flatMap
        (signNeeds settings archive))

end Laws

/-! ## Verdicts -/

/-- Whether a check stops the program at a path: at a texture of a door whose sides take more bytes
than are counted. -/
def Halts (archive : Archive) (check : GateCheck) (path : String) : Prop :=
  check = .doorTextures ∧ ∃ bytes, archive.read path = .ok (some bytes) ∧
    Png.decode (Bytes.list bytes) = .error .overflow

/-- Whether a verdict is one that a check can end with at a path. -/
def EndsAt (archive : Archive) (check : GateCheck) (path : String) (verdict : Verdict) : Prop :=
  (Halts archive check path ∧ verdict = .error .halted) ∨
    (¬ Halts archive check path ∧ ∃ reason, verdict = fail check path reason)

/-- Whether a verdict is the one that the law of a check demands. -/
def Decides (archive : Archive) (check : GateCheck) (law : Law) (verdict : Verdict) : Prop :=
  (law.Kept ∧ verdict = .ok none) ∨
    ∃ path, law.BrokenAt path ∧ EndsAt archive check path verdict

section Verdicts

variable {archive : Archive}

theorem endsAt_fail {check : GateCheck} (answers : check ≠ .doorTextures) (path : String)
    (reason : GateReason) : EndsAt archive check path (fail check path reason) :=
  .inr ⟨fun halts => answers halts.1, reason, rfl⟩

theorem EndsAt.ne_passed {check : GateCheck} {path : String} {verdict : Verdict}
    (ends : EndsAt archive check path verdict) : verdict ≠ .ok none := by
  rintro rfl
  rcases ends with ⟨-, halted⟩ | ⟨-, reason, failed⟩
  · cases halted
  · cases failed

theorem EndsAt.firstOf_cons {check : GateCheck} {path : String} {first : Unit → Verdict}
    (ends : EndsAt archive check path (first ())) (others : List (Unit → Verdict)) :
    firstOf (first :: others) = first () := by
  rw [firstOf]
  split
  · next passed => exact absurd passed ends.ne_passed
  · rfl

theorem firstOf_decides {law : GateCheck → Law} {kinds : List GateCheck}
    {checks : List (Unit → Verdict)}
    (each : List.Forall₂ (fun kind check => Decides archive kind (law kind) (check ()))
      kinds checks) :
    ((∀ kind ∈ kinds, (law kind).Kept) ∧ firstOf checks = .ok none) ∨
      ∃ kind path, IsFirst (fun kind => ¬ (law kind).Kept) kinds kind ∧
        (law kind).BrokenAt path ∧ EndsAt archive kind path (firstOf checks) := by
  induction each with
  | nil => exact .inl ⟨by simp, rfl⟩
  | @cons kind check kinds checks first _ ih =>
    rcases first with ⟨kept, passed⟩ | ⟨path, broken, ends⟩
    · rw [firstOf, passed]
      rcases ih with ⟨othersKept, othersPassed⟩ |
        ⟨later, path, ⟨before, after, rfl, unkept, earlier⟩, broken, ends⟩
      · exact .inl ⟨List.forall_mem_cons.2 ⟨kept, othersKept⟩, othersPassed⟩
      · exact .inr ⟨later, path, ⟨kind :: before, after, rfl, unkept,
          List.forall_mem_cons.2 ⟨not_not_intro kept, earlier⟩⟩, broken, ends⟩
    · rw [ends.firstOf_cons]
      exact .inr ⟨kind, path, ⟨[], kinds, rfl, broken.not_kept, by simp⟩, broken, ends⟩

theorem firstOf_decides_needs {check : GateCheck} {needs : String → List Need}
    {verdict : String → Verdict} {ids : List String}
    (each : ∀ id ∈ ids, Decides archive check (.files (needs id)) (verdict id)) :
    Decides archive check (.files (ids.flatMap needs))
      (firstOf (ids.map fun id _ => verdict id)) := by
  induction ids with
  | nil => exact .inl ⟨by simp [Law.Kept], rfl⟩
  | cons id ids ih =>
    obtain ⟨first, others⟩ := List.forall_mem_cons.1 each
    rw [List.map_cons, List.flatMap_cons]
    rcases first with ⟨kept, passed⟩ | ⟨path, ⟨met, before, after, same, unmet, earlier⟩, ends⟩
    · rw [firstOf, passed]
      rcases ih others with ⟨othersKept, othersPassed⟩ |
        ⟨path, ⟨met, before, after, same, unmet, earlier⟩, ends⟩
      · exact .inl ⟨List.forall_mem_append.2 ⟨kept, othersKept⟩, othersPassed⟩
      · refine .inr ⟨path, ⟨met, needs id ++ before, after, ?_, unmet, ?_⟩, ends⟩
        · rw [same, List.append_assoc]
        · exact List.forall_mem_append.2
            ⟨fun need isNeed => not_not_intro (kept need isNeed), earlier⟩
    · rw [EndsAt.firstOf_cons ends]
      refine .inr ⟨path, ⟨met, before, after ++ ids.flatMap needs, ?_, unmet, earlier⟩, ends⟩
      rw [same, List.append_assoc, List.cons_append]

theorem decides_of_find? {check : GateCheck} (answers : check ≠ .doorTextures) {α : Type}
    {values : List α} (path : α → String) {verdict : Verdict}
    (passed : values.find? (fun value => !archive.contains (path value)) = none →
      verdict = .ok none)
    (failed : ∀ value, values.find? (fun value => !archive.contains (path value)) = some value →
      ∃ reason, verdict = fail check (path value) reason) :
    Decides archive check (.files (values.map fun value => .listed archive (path value)))
      verdict := by
  have agrees : ∀ value, (!archive.contains (path value)) = true ↔ path value ∉ archive.names := by
    intro value
    rw [Bool.not_eq_true', ← Bool.not_eq_true, Archive.contains_iff]
  cases found : values.find? (fun value => !archive.contains (path value)) with
  | none =>
    refine .inl ⟨?_, passed found⟩
    rw [Law.Kept, List.forall_mem_map]
    intro value isValue
    by_contra unlisted
    exact List.find?_eq_none.1 found value isValue ((agrees value).2 unlisted)
  | some value =>
    obtain ⟨reason, isFailure⟩ := failed value found
    obtain ⟨isLacking, before, after, rfl, earlier⟩ := List.find?_eq_some_iff_append.1 found
    refine .inr ⟨path value, ⟨_, before.map _, after.map _,
      by rw [List.map_append, List.map_cons]; rfl, (agrees value).1 isLacking, ?_⟩,
      isFailure ▸ endsAt_fail answers (path value) reason⟩
    rw [List.forall_mem_map]
    intro other isEarlier unlisted
    simpa [(agrees other).2 unlisted] using earlier other isEarlier

end Verdicts

/-! ## Names -/

theorem isInDataFolder_iff {folder name : String} (oneFolder : '/' ∉ folder.toList) :
    isInDataFolder folder name = true ↔ InDataFolder folder name := by
  constructor
  · intro inside
    simp only [isInDataFolder] at inside
    split at inside
    · next below isData =>
      split at inside
      · next space rest isSpace =>
        split at inside
        · next found rest isFound =>
          obtain ⟨-, rfl⟩ := Text.cut?_eq_some.1 isData
          obtain ⟨oneSpace, rfl⟩ := Text.cut?_eq_some.1 isSpace
          obtain ⟨-, rfl⟩ := Text.cut?_eq_some.1 isFound
          simp only [Bool.and_eq_true, beq_iff_eq, bne_iff_ne] at inside
          obtain ⟨rfl, nonempty⟩ := inside
          refine ⟨space, rest, oneSpace, nonempty, ?_⟩
          simp [← String.toList_inj]
        · cases inside
      · cases inside
    · cases inside
  · rintro ⟨space, rest, oneSpace, nonempty, rfl⟩
    rw [isInDataFolder_data folder oneSpace oneFolder]
    simpa using nonempty

theorem noSlash_folder (kind : DataKind) (version : Version) :
    '/' ∉ (kind.folder (.accepted version)).toList ∧
      '/' ∉ (kind.folder (.rejected version)).toList := by
  rw [Folders.accepted, Folders.rejected]
  split <;> cases kind <;> decide

theorem brokenAt_of_isFirst {names : List String} (ascends : names.Pairwise (· < ·))
    {offends test : String → Prop} (agrees : ∀ name, offends name ↔ name ∈ names ∧ test name)
    {first : String} (isFirst : IsFirst test names first) :
    (Law.names offends).BrokenAt first := by
  obtain ⟨before, after, rfl, passes, earlier⟩ := isFirst
  refine ⟨(agrees first).2 ⟨by simp, passes⟩, fun other offendsToo => Text.le_iff_bytes.1 ?_⟩
  obtain ⟨isName, passesToo⟩ := (agrees other).1 offendsToo
  rcases List.mem_append.1 isName with isEarlier | isName
  · exact absurd passesToo (earlier other isEarlier)
  · rcases List.mem_cons.1 isName with rfl | isLater
    · exact String.le_refl _
    · have inOrder := List.pairwise_cons.1 (List.pairwise_append.1 ascends).2.1
      exact String.not_lt.1 (String.lt_asymm (inOrder.1 other isLater))

section Checks

variable (settings : GateSettings) (archive : Archive)

theorem checkFolder_decides (kind : DataKind) :
    Decides archive kind.folderCheck (.names (IsMisplaced settings archive kind))
      (checkFolder settings kind archive) := by
  have agrees : ∀ name, IsMisplaced settings archive kind name ↔ name ∈ archive.names ∧
      isInDataFolder (kind.folder (.rejected settings.version)) name = true := by
    intro name
    rw [isInDataFolder_iff (noSlash_folder kind settings.version).2, IsMisplaced]
  rw [checkFolder]
  split
  · next none =>
    refine .inl ⟨fun name misplaced => ?_, rfl⟩
    simpa [none] using List.mem_filter.2 ((agrees name).1 misplaced)
  · next first others found =>
    obtain ⟨before, after, same, earlier, passes, -⟩ := List.filter_eq_cons_iff.1 found
    exact .inr ⟨first, brokenAt_of_isFirst (Text.pairwise_ascending _) agrees
      ⟨before, after, same, passes, earlier⟩, endsAt_fail (by cases kind <;> decide) first _⟩

theorem any_holds_any {member : Option Json} :
    member.any MemberForm.any.holds = true ↔ ∃ value, member = some value := by
  cases member <;> simp [MemberForm.holds]

theorem any_holds_array {member : Option Json} :
    member.any MemberForm.array.holds = true ↔ ∃ elements, member = some (.array elements) := by
  rcases member with _ | value
  · simp
  · cases value <;> simp [MemberForm.holds]

theorem formFault?_eq_none {kind : DataKind} {bytes : ByteArray} :
    formFault? kind bytes = none ↔ HasForm kind bytes := by
  rw [formFault?, HasForm]
  split
  · next error => simp [error]
  · next value parsed =>
    rw [parsed]
    cases value <;> cases kind <;>
      simp [DataKind.members, Json.get?, any_holds_any, any_holds_array]

theorem checkFormsOf_decides (kind : DataKind) {names : List String}
    (readable : ∀ name ∈ names, ∃ bytes, archive.read name = .ok (some bytes)) :
    let lacks (name : String) :=
      ¬ ∃ bytes, archive.read name = .ok (some bytes) ∧ HasForm kind bytes
    ((∀ name ∈ names, ¬ lacks name) ∧ checkFormsOf kind archive names = .ok none) ∨
      ∃ name reason, checkFormsOf kind archive names = fail kind.formCheck name reason ∧
        IsFirst lacks names name := by
  intro lacks
  induction names with
  | nil => exact .inl ⟨by simp, rfl⟩
  | cons name rest ih =>
    obtain ⟨⟨bytes, read⟩, others⟩ := List.forall_mem_cons.1 readable
    have entry : archive.entry name = .ok (name, bytes) := by
      rw [Archive.entry, read]
      rfl
    rw [checkFormsOf, entry]
    simp only [Except.mapError, bind, Except.bind]
    cases fault : formFault? kind bytes with
    | some reason =>
      refine .inr ⟨name, reason, rfl, [], rest, rfl, ?_, by simp⟩
      rintro ⟨other, readToo, hasForm⟩
      obtain rfl : bytes = other := by simpa [read] using readToo
      rw [formFault?_eq_none.2 hasForm] at fault
      cases fault
    | none =>
      have inOrder : ¬ lacks name := not_not_intro ⟨bytes, read, formFault?_eq_none.1 fault⟩
      rcases ih others with ⟨restInOrder, passed⟩ |
        ⟨later, reason, failed, before, after, rfl, isLacking, earlier⟩
      · exact .inl ⟨List.forall_mem_cons.2 ⟨inOrder, restInOrder⟩, passed⟩
      · exact .inr ⟨later, reason, failed, name :: before, after, rfl, isLacking,
          List.forall_mem_cons.2 ⟨inOrder, earlier⟩⟩

theorem checkForms_decides (kind : DataKind) (readable : archive.Readable) :
    Decides archive kind.formCheck (.names (IsMalformed settings archive kind))
      (checkForms settings kind archive) := by
  let isDocument (name : String) : Bool :=
    isInDataFolder (kind.folder (.accepted settings.version)) name &&
      ".json".toList.isSuffixOf name.toList
  have agrees : ∀ name, IsMalformed settings archive kind name ↔
      name ∈ archive.names.filter isDocument ∧
        ¬ ∃ bytes, archive.read name = .ok (some bytes) ∧ HasForm kind bytes := by
    intro name
    rw [List.mem_filter, Bool.and_eq_true, Text.isSuffixOf_iff,
      isInDataFolder_iff (noSlash_folder kind settings.version).1, IsMalformed, and_assoc,
      and_assoc]
  have inOrder : (archive.names.filter isDocument).Pairwise (· < ·) :=
    (Text.pairwise_ascending _).filter _
  have readableEach : ∀ name ∈ archive.names.filter isDocument,
      ∃ bytes, archive.read name = .ok (some bytes) :=
    fun name isName => readable name (List.mem_of_mem_filter isName)
  rcases checkFormsOf_decides archive kind readableEach with
    ⟨each, passed⟩ | ⟨name, reason, failed, isFirst⟩
  · refine .inl ⟨fun name malformed => ?_, passed⟩
    obtain ⟨isName, lacks⟩ := (agrees name).1 malformed
    exact each name isName lacks
  · refine .inr ⟨name, brokenAt_of_isFirst inOrder agrees isFirst, ?_⟩
    rw [checkForms, failed]
    exact endsAt_fail (by cases kind <;> decide) name reason

theorem kept_of_noData {settings : GateSettings} {archive : Archive} {kind : DataKind}
    (noData : ∀ name ∈ archive.names,
      isInDataFolder (kind.folder (.rejected settings.version)) name = false ∧
      isInDataFolder (kind.folder (.accepted settings.version)) name = false) :
    (Law.names (IsMisplaced settings archive kind)).Kept ∧
      (Law.names (IsMalformed settings archive kind)).Kept := by
  constructor
  · rintro name ⟨isName, inside⟩
    rw [← isInDataFolder_iff (noSlash_folder kind settings.version).2] at inside
    exact absurd inside (Bool.eq_false_iff.1 (noData name isName).1)
  · rintro name ⟨isName, inside, -⟩
    rw [← isInDataFolder_iff (noSlash_folder kind settings.version).1] at inside
    exact absurd inside (Bool.eq_false_iff.1 (noData name isName).2)

/-! ## Needs of blocks -/

theorem checkLoot_decides :
    Decides archive .lootTableCoverage (law settings archive .lootTableCoverage)
      (checkLoot settings archive) := by
  have searched : settings.blockIds.find? (fun id => !settings.noDropIds.contains id &&
        !archive.contains (Path.lootTable (.accepted settings.version) settings.modId id)) =
      (settings.blockIds.filter (· ∉ settings.noDropIds)).find? fun id =>
        !archive.contains (Path.lootTable (.accepted settings.version) settings.modId id) := by
    rw [List.find?_filter]
    congr 1
    funext id
    simp
  rw [checkLoot]
  simp only [searched]
  refine decides_of_find? (by decide) (Path.lootTable (.accepted settings.version) settings.modId)
    (fun none => ?_) fun id found => ⟨.noLootTable id, ?_⟩
  · rw [none]
  · rw [found]

theorem hasSide_iff {archive : Archive} {path : String} {bytes : ByteArray}
    (read : archive.read path = .ok (some bytes)) {side : UInt32} :
    HasSide archive path side ↔ ∃ png, Png.decode (Bytes.list bytes) = .ok png ∧
      png.header.width = side ∧ png.header.height = side ∧ 16 ∣ side.toNat := by
  simp [HasSide, read]

theorem HasSide.eq {archive : Archive} {path : String} {side other : UInt32}
    (hasSide : HasSide archive path side) (hasOther : HasSide archive path other) :
    side = other := by
  obtain ⟨bytes, png, read, decoded, rfl, -⟩ := hasSide
  obtain ⟨otherPng, decodedToo, rfl, -⟩ := (hasSide_iff read).1 hasOther
  obtain rfl : png = otherPng := Except.ok.inj (decoded.symm.trans decodedToo)
  rfl

theorem mod_eq_zero_iff_dvd {side : UInt32} : side % 16 = 0 ↔ 16 ∣ side.toNat := by
  rw [← UInt32.toNat_inj, UInt32.toNat_mod]
  exact (Nat.dvd_iff_mod_eq_zero ..).symm

theorem doorSide_decides {path : String}
    (answered : ∃ found, archive.read path = .ok found) :
    (∃ side, doorSide archive path = .ok (.ok side) ∧ HasSide archive path side) ∨
      (¬ ∃ side, HasSide archive path side) ∧
        ((Halts archive .doorTextures path ∧ doorSide archive path = .error .halted) ∨
          ¬ Halts archive .doorTextures path ∧
            ∃ reason, doorSide archive path = .ok (.error reason)) := by
  obtain ⟨found, read⟩ := answered
  rw [doorSide, read]
  cases found with
  | none =>
    refine .inr ⟨?_, .inr ⟨?_, _, rfl⟩⟩
    · rintro ⟨side, bytes, png, readToo, -⟩
      simp [read] at readToo
    · rintro ⟨-, bytes, readToo, -⟩
      simp [read] at readToo
  | some bytes =>
    have halts : Halts archive .doorTextures path ↔
        Png.decode (Bytes.list bytes) = .error .overflow := by
      simp [Halts, read]
    simp only [Except.mapError, bind, Except.bind, hasSide_iff read, halts]
    cases decoded : Png.decode (Bytes.list bytes) with
    | error error => cases error <;> simp [throw, throwThe, MonadExceptOf.throw, pure, Except.pure]
    | ok png =>
      dsimp only
      split
      · next unfit =>
        refine .inr ⟨?_, .inr ⟨nofun, _, rfl⟩⟩
        rintro ⟨side, otherPng, same, width, height, grid⟩
        obtain rfl : png = otherPng := Except.ok.inj same
        rw [width, height, bne_self_eq_false, Bool.false_or, bne_iff_ne] at unfit
        exact unfit (mod_eq_zero_iff_dvd.2 grid)
      · next fit =>
        rw [Bool.or_eq_true, not_or, bne_iff_ne, bne_iff_ne, not_not, not_not] at fit
        exact .inl ⟨_, rfl, png, rfl, rfl, fit.1.symm, mod_eq_zero_iff_dvd.1 fit.2⟩

theorem HasSide.not_halts {archive : Archive} {path : String} {side : UInt32}
    (hasSide : HasSide archive path side) : ¬ Halts archive .doorTextures path := by
  obtain ⟨bytes, png, read, decoded, -⟩ := hasSide
  rintro ⟨-, other, readToo, overflow⟩
  obtain rfl : bytes = other := by simpa [read] using readToo
  cases decoded.symm.trans overflow

theorem checkDoor_decides (readable : archive.Readable) (id : String) :
    Decides archive .doorTextures (.files (doorNeeds settings archive id))
      (checkDoor settings archive id) := by
  have answered : ∀ name, ∃ found,
      archive.read (Path.texture settings.modId .block name) = .ok found := by
    intro name
    by_cases listed : Path.texture settings.modId .block name ∈ archive.names
    · obtain ⟨bytes, read⟩ := readable _ listed
      exact ⟨some bytes, read⟩
    · exact ⟨none, Archive.read_of_not_mem (Archive.isFolderName_png _) listed⟩
  rw [checkDoor, doorNeeds]
  simp only [doorTexture]
  rcases doorSide_decides archive (answered (id ++ "_bottom")) with
    ⟨bottom, isBottom, hasBottom⟩ | ⟨unfit, ends⟩
  · rcases doorSide_decides archive (answered (id ++ "_top")) with
      ⟨top, isTop, hasTop⟩ | ⟨unfit, ends⟩
    · simp only [isBottom, isTop, bind, Except.bind]
      split
      · next different =>
        refine .inr ⟨_, ⟨_, [_], [], rfl, ?_, by simpa using ⟨_, hasBottom⟩⟩,
          .inr ⟨hasTop.not_halts, _, rfl⟩⟩
        rintro ⟨side, bottomHas, topHas⟩
        simp [hasBottom.eq bottomHas, hasTop.eq topHas] at different
      · next same =>
        obtain rfl : bottom = top := by simpa using same
        refine .inl ⟨?_, rfl⟩
        simpa [Law.Kept] using ⟨⟨_, hasBottom⟩, _, hasBottom, hasTop⟩
    · refine .inr ⟨_, ⟨_, [_], [], rfl, ?_, by simpa using ⟨_, hasBottom⟩⟩, ?_⟩
      · rintro ⟨side, -, topHas⟩
        exact unfit ⟨side, topHas⟩
      · refine ends.imp (And.imp_right fun halted => ?_) (And.imp_right fun ⟨reason, found⟩ => ?_)
        · rw [isBottom, halted]
          rfl
        · rw [isBottom, found]
          exact ⟨reason, rfl⟩
  · refine .inr ⟨_, ⟨_, [], _, rfl, unfit, by simp⟩, ?_⟩
    refine ends.imp (And.imp_right fun halted => ?_) (And.imp_right fun ⟨reason, found⟩ => ?_)
    · rw [halted]
      rfl
    · rw [found]
      exact ⟨reason, rfl⟩

theorem checkDoors_decides (readable : archive.Readable) :
    Decides archive .doorTextures (law settings archive .doorTextures)
      (checkDoors settings archive) := by
  rw [checkDoors]
  exact firstOf_decides_needs fun id _ => checkDoor_decides settings archive readable id

theorem checkSign_decides {id : String}
    (isSign : settings.shape id = .sign ∨ settings.shape id = .hangingSign) :
    Decides archive .signAssets (.files (signNeeds settings archive id))
      (checkSign settings archive id) := by
  have files : signNeeds settings archive id =
      (signFiles settings id).map (Need.listed archive) := by
    rcases isSign with shape | shape <;>
      simp [signNeeds, signFiles, shape, Shape.entityTexture?, Shape.entityFolder?]
  rw [files, checkSign]
  refine decides_of_find? (by decide) (fun path => path) (fun none => ?_)
    fun path found => ⟨.incompleteSign (settings.shape id) id, ?_⟩
  · rw [none]
  · rw [found]

theorem checkSigns_decides :
    Decides archive .signAssets (law settings archive .signAssets)
      (checkSigns settings archive) := by
  have signs : settings.blockIds.filter (fun id => (settings.shape id).isSign) =
      settings.blockIds.filter fun id =>
        settings.shape id = .sign ∨ settings.shape id = .hangingSign := by
    congr 1
    funext id
    cases settings.shape id <;> rfl
  rw [checkSigns, signs]
  refine firstOf_decides_needs fun id isSign => checkSign_decides settings archive ?_
  simpa using (List.mem_filter.1 isSign).2

end Checks

/-- An archive whose entries can be read passes the gate if it keeps all laws. Otherwise the first
law that it breaks is reported, at the path where it is broken, unless the texture of a door there
stops the program. -/
theorem check_decides (settings : GateSettings) {archive : Archive} (readable : archive.Readable) :
    (check settings archive = .ok none ↔ ∀ kind, (law settings archive kind).Kept) ∧
      ((∃ kind, ¬ (law settings archive kind).Kept) →
        ∃ kind path, IsFirst (fun kind => ¬ (law settings archive kind).Kept) GateCheck.all kind ∧
          (law settings archive kind).BrokenAt path ∧
          EndsAt archive kind path (check settings archive)) := by
  have each : List.Forall₂
      (fun kind check => Decides archive kind (law settings archive kind) (check ()))
      GateCheck.all (checks settings archive) :=
    .cons (checkFolder_decides settings archive .recipe) <|
    .cons (checkForms_decides settings archive .recipe readable) <|
    .cons (checkFolder_decides settings archive .lootTable) <|
    .cons (checkForms_decides settings archive .lootTable readable) <|
    .cons (checkLoot_decides settings archive) <|
    .cons (checkDoors_decides settings archive readable) <|
    .cons (checkSigns_decides settings archive) .nil
  have complete : ∀ kind, kind ∈ GateCheck.all := by
    intro kind
    cases kind <;> decide
  rw [check]
  rcases firstOf_decides each with ⟨kept, passed⟩ | ⟨kind, path, isFirst, broken, ends⟩
  · have allKept := fun kind => kept kind (complete kind)
    exact ⟨iff_of_true passed allKept, fun ⟨kind, unkept⟩ => absurd (allKept kind) unkept⟩
  · exact ⟨iff_of_false ends.ne_passed fun allKept => broken.not_kept (allKept kind), fun _ =>
      ⟨kind, path, isFirst, broken, ends⟩⟩

/-- The header of an image whose rows have as many bytes as a word counts, with a few bytes of image
data. -/
def hugeImage : List UInt8 := [
  0x89, 0x50, 0x4e, 0x47, 0x0d, 0x0a, 0x1a, 0x0a, 0x00, 0x00, 0x00, 0x0d, 0x49, 0x48, 0x44, 0x52,
  0x20, 0x00, 0x00, 0x00, 0xff, 0xff, 0xff, 0xff, 0x10, 0x06, 0x00, 0x00, 0x00, 0xc1, 0x93, 0x00,
  0xf5, 0x00, 0x00, 0x00, 0x0d, 0x49, 0x44, 0x41, 0x54, 0x78, 0x9c, 0x63, 0x60, 0x64, 0x62, 0x66,
  0x01, 0x00, 0x00, 0x19, 0x00, 0x0b, 0xe7, 0x5a, 0x46, 0xa4, 0x00, 0x00, 0x00, 0x00, 0x49, 0x45,
  0x4e, 0x44, 0xae, 0x42, 0x60, 0x82]

/-- Of two recipes in the folder that is not loaded the one with the lesser name is reported. The
huge image as the lower half of a door stops the program. -/
theorem check_misplaced_or_halted :
    (∃ archive failure,
      Archive.ofBytes "ab.jar" (Bytes.ofList (Zip.encode [
        ("data/ab/recipes/torch.json", "7".toUTF8), ("data/ab/recipes/bowl.json", "{}".toUTF8)])) =
          .ok archive ∧ archive.Readable ∧
      check { modId := "ab", blockIds := [] } archive = .ok (some failure) ∧
      failure.check = .recipeFolder ∧ failure.path = "data/ab/recipes/bowl.json") ∧
    ∃ archive,
      Archive.ofBytes "ab.jar" (Bytes.ofList (Zip.encode [
        ("assets/ab/textures/block/red_door_bottom.png", Bytes.ofList hugeImage)])) =
          .ok archive ∧ archive.Readable ∧
      check { modId := "ab", blockIds := ["red_door"], noDropIds := ["red_door"] } archive =
        .error .halted := by
  constructor
  · let entries : List Tree.Entry := [
      ("data/ab/recipes/torch.json", "7".toUTF8), ("data/ab/recipes/bowl.json", "{}".toUTF8)]
    have fits : Zip.Fits entries := ⟨by decide, by decide +kernel, by decide +kernel⟩
    obtain ⟨archive, opened, holds, -⟩ :=
      Archive.ofBytes_of_stores "ab.jar" (by decide) fits.stores
    have names : ∀ name, name ∈ archive.names ↔
        name = "data/ab/recipes/torch.json" ∨ name = "data/ab/recipes/bowl.json" := by
      intro name
      rw [holds.names]
      constructor
      · rintro ⟨isName, -⟩
        simpa [entries] using isName
      · rintro (rfl | rfl) <;> decide
    have misplaced : IsMisplaced { modId := "ab", blockIds := [] } archive .recipe
        "data/ab/recipes/bowl.json" :=
      ⟨(names _).2 (.inr rfl), "ab", "bowl.json", by decide, by decide, rfl⟩
    obtain ⟨-, decided⟩ := check_decides { modId := "ab", blockIds := [] } holds.readable
    obtain ⟨kind, path, isFirst, broken, ends⟩ :=
      decided ⟨.recipeFolder, fun kept => kept _ misplaced⟩
    obtain rfl := isFirst.eq_head fun kept => kept _ misplaced
    obtain ⟨⟨isDoor, -⟩, -⟩ | ⟨-, reason, failed⟩ := ends
    · cases isDoor
    refine ⟨archive, _, opened, holds.readable, failed, rfl, ?_⟩
    rcases (names _).1 broken.1.1 with isTorch | isBowl
    · have least := Text.le_iff_bytes.2 (broken.2 _ misplaced)
      rw [isTorch] at least
      exact absurd least (by decide)
    · exact isBowl
  · let path := "assets/ab/textures/block/red_door_bottom.png"
    let settings : GateSettings :=
      { modId := "ab", blockIds := ["red_door"], noDropIds := ["red_door"] }
    have fits : Zip.Fits [(path, Bytes.ofList hugeImage)] :=
      ⟨by decide, by decide +kernel, by decide +kernel⟩
    obtain ⟨archive, opened, holds, -⟩ :=
      Archive.ofBytes_of_stores "ab.jar" (by decide) fits.stores
    have only : ∀ name ∈ archive.names, name = path := fun name isName => by
      simpa using ((holds.names name).1 isName).1
    have kept (kind : DataKind) : (Law.names (IsMisplaced settings archive kind)).Kept ∧
        (Law.names (IsMalformed settings archive kind)).Kept := by
      refine kept_of_noData fun name isName => ?_
      rw [only name isName]
      cases kind <;> decide +kernel
    have halts : Halts archive .doorTextures path :=
      ⟨rfl, Bytes.ofList hugeImage, holds.read _ List.mem_cons_self, by decide +kernel⟩
    obtain ⟨-, decided⟩ := check_decides settings holds.readable
    have unfit : ¬ ∃ side, HasSide archive path side := fun ⟨side, hasSide⟩ =>
      hasSide.not_halts halts
    obtain ⟨kind, found, ⟨before, after, -, unkept, -⟩, broken, ends⟩ :=
      decided ⟨.doorTextures, fun kept => unfit (kept _ List.mem_cons_self)⟩
    have isDoor : kind = .doorTextures := by
      cases kind with
      | recipeFolder => exact absurd (kept .recipe).1 unkept
      | recipeForm => exact absurd (kept .recipe).2 unkept
      | lootTableFolder => exact absurd (kept .lootTable).1 unkept
      | lootTableForm => exact absurd (kept .lootTable).2 unkept
      | lootTableCoverage => exact absurd (fun need isNeed => by cases isNeed) unkept
      | doorTextures => rfl
      | signAssets => exact absurd (fun need isNeed => by cases isNeed) unkept
    subst isDoor
    obtain ⟨met, isFirst⟩ := broken
    obtain rfl : found = path := congrArg Need.path (isFirst.eq_head unfit)
    obtain ⟨-, halted⟩ | ⟨answers, -⟩ := ends
    · exact ⟨archive, opened, holds.readable, halted⟩
    · exact absurd halts answers

end Gate

end Blockwright
