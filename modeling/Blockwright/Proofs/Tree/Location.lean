import Mathlib
import Blockwright.Shape.Model
import Blockwright.Tree.Location
import Blockwright.Tree.Path

/-!
# Locations and paths

A location of a mod leads to the path at which the mod writes the asset. Paths of different kinds
of assets are different.
-/

namespace Blockwright

namespace Text

/-- A text is cut at the first of its separators. -/
theorem cut?_append {separator : Char} {front : String} (absent : separator ∉ front.toList)
    (rest : String) :
    cut? separator (front ++ String.singleton separator ++ rest) = some (front, rest) := by
  have passes : ∀ c ∈ front.toList, (c != separator) = true := by
    intro c isCharacter
    rw [bne_iff_ne]
    rintro rfl
    exact absent isCharacter
  have behind : (front.toList ++ separator :: rest.toList).dropWhile (· != separator) =
      separator :: rest.toList := by
    rw [List.dropWhile_append_of_pos passes]
    simp
  have before : (front.toList ++ separator :: rest.toList).takeWhile (· != separator) =
      front.toList := by
    rw [List.takeWhile_append_of_pos passes]
    simp
  simp [cut?, behind, before]

/-- A text that can be cut has the separator between its parts, and not in the first of them. -/
theorem cut?_eq_some {separator : Char} {text front rest : String} :
    cut? separator text = some (front, rest) ↔
      separator ∉ front.toList ∧ text = front ++ String.singleton separator ++ rest := by
  constructor
  · intro cut
    rw [cut?] at cut
    split at cut
    · cases cut
    · next stop behind characters =>
      cases cut
      have whole := List.takeWhile_append_dropWhile (p := (· != separator)) (l := text.toList)
      have stops := List.head?_dropWhile_not (· != separator) text.toList
      rw [characters] at whole stops
      obtain rfl : stop = separator := by simpa using stops
      refine ⟨?_, ?_⟩
      · rw [String.toList_ofList]
        intro isInside
        simpa using List.mem_takeWhile_imp isInside
      · rw [← String.toList_inj]
        simpa using whole.symm
  · rintro ⟨absent, rfl⟩
    exact cut?_append absent rest

theorem isSuffixOf_iff {ending name : String} :
    ending.toList.isSuffixOf name.toList = true ↔ ∃ front, name = front ++ ending := by
  rw [List.isSuffixOf_iff_suffix]
  constructor
  · rintro ⟨front, same⟩
    refine ⟨String.ofList front, ?_⟩
    rw [← String.toList_inj]
    simpa using same.symm
  · rintro ⟨front, rfl⟩
    exact ⟨front.toList, by simp⟩

end Text

namespace Location

/-- Namespace of a location. -/
def space (location : String) : String := (split location).1

theorem split_append {space : String} (noColon : ':' ∉ space.toList) (path : String) :
    split (space ++ ":" ++ path) = (space, path) := by
  rw [split, show ":" = String.singleton ':' from rfl, Text.cut?_append noColon]
  rfl

theorem modelFile_append {space : String} (noColon : ':' ∉ space.toList) (path : String) :
    modelFile (space ++ ":" ++ path) = "assets/" ++ space ++ "/models/" ++ path ++ ".json" := by
  rw [modelFile, split_append noColon]

theorem textureFile_append {space : String} (noColon : ':' ∉ space.toList) (path : String) :
    textureFile (space ++ ":" ++ path) = "assets/" ++ space ++ "/textures/" ++ path ++ ".png" := by
  rw [textureFile, split_append noColon]

/-- The location of a model of a block leads to the path of the model. -/
theorem modelFile_location {modId : String} (noColon : ':' ∉ modId.toList) (id ending : String) :
    modelFile (ModelTemplate.location modId id ending) =
      Path.model modId .block (id ++ ending) := by
  rw [ModelTemplate.location, show modId ++ ":block/" ++ id ++ ending =
    modId ++ ":" ++ ("block/" ++ (id ++ ending)) by simp [← String.toList_inj],
    modelFile_append noColon]
  simp [Path.model, AssetKind.name, ← String.toList_inj]

/-- The location of a texture of a block leads to the path of the texture. -/
theorem textureFile_location {modId : String} (noColon : ':' ∉ modId.toList)
    (id ending : String) :
    textureFile (ModelTemplate.location modId id ending) =
      Path.texture modId .block (id ++ ending) := by
  rw [ModelTemplate.location, show modId ++ ":block/" ++ id ++ ending =
    modId ++ ":" ++ ("block/" ++ (id ++ ending)) by simp [← String.toList_inj],
    textureFile_append noColon]
  simp [Path.texture, AssetKind.name, ← String.toList_inj]

/-- The location of the sprite of an item leads to the path of the texture. -/
theorem textureFile_item {modId : String} (noColon : ':' ∉ modId.toList) (id : String) :
    textureFile (modId ++ ":item/" ++ id) = Path.texture modId .item id := by
  rw [show modId ++ ":item/" ++ id = modId ++ ":" ++ ("item/" ++ id) by
    simp [← String.toList_inj], textureFile_append noColon]
  simp [Path.texture, AssetKind.name, ← String.toList_inj]

end Location

namespace Path

theorem ne_of_ending {front other : String} : front ++ ".png" ≠ other ++ ".json" := by
  intro same
  have lastSame := congrArg (fun path => path.toList.getLast?) same
  simp at lastSame

theorem blockState_ne_model (modId id : String) (kind : AssetKind) (name : String) :
    blockState modId id ≠ model modId kind name := by
  intro same
  have characters := congrArg String.toList same
  simp [blockState, model] at characters

theorem language_ne_model (modId : String) (kind : AssetKind) (name : String) :
    language modId ≠ model modId kind name := by
  intro same
  have characters := congrArg String.toList same
  simp [language, model] at characters

theorem language_ne_blockState (modId id : String) : language modId ≠ blockState modId id := by
  intro same
  have characters := congrArg String.toList same
  simp [language, blockState] at characters

end Path

end Blockwright
