import Blockwright.Proofs.Assets.Dependencies

/-!
# What the files of a block depend on

The walk from a block state asks a source for the models that the block state names and for the
parents of the models that it reads. Two sources that answer alike there yield the same files.
-/

namespace Blockwright

theorem AssetSource.model?_congr {first second : AssetSource} {location : String}
    (same : first.read (Location.modelFile location) = second.read (Location.modelFile location)) :
    first.model? location = second.model? location := by
  rw [model?, model?, load?, load?, same]

namespace Dependencies

/-- Whether the walk from a block state comes to a location, with or without a model: the block
state names it, or a model that is read has it as its parent. -/
inductive Reaches (source : AssetSource) (state : VanillaState) : String → Prop where
  | named {location : String} (named : state.Names location) : Reaches source state location
  | parent {root location : String} {line : List (String × VanillaModel)}
      {entry : String × VanillaModel} (named : state.Names root)
      (isLineage : IsLineage source chainLimit [] root line) (isEntry : entry ∈ line)
      (isParent : entry.2.parent.map Location.canonical = some location) :
      Reaches source state location

/-- Whether two sources answer alike for a block: for its block state, for all models that the walk
comes to and for the textures that are found. -/
structure Alike (block : String) (first second : AssetSource) : Prop where
  state : first.read (Location.blockStateFile block) =
    second.read (Location.blockStateFile block)
  models : ∀ state, first.Provides VanillaState.read (Location.blockStateFile block) state →
    ∀ location, Reaches first state location →
      first.read (Location.modelFile location) = second.read (Location.modelFile location)
  textures : ∀ path ∈ (ofBlock first block).textures, first.read path = second.read path

variable {first second : AssetSource} {room : Nat} {visited : List String} {root : String}
  {line : List (String × VanillaModel)}

theorem IsLineage.root_or_parent (isLineage : IsLineage first room visited root line)
    {entry : String × VanillaModel} (isEntry : entry ∈ line) :
    entry.1 = root ∨
      ∃ child ∈ line, child.2.parent.map Location.canonical = some entry.1 := by
  obtain ⟨before, after, rfl⟩ := List.append_of_mem isEntry
  rcases List.eq_nil_or_concat before with rfl | ⟨front, child, rfl⟩
  · exact .inl (isLineage.starts entry rfl)
  · have linked := isLineage.linked
    rw [List.concat_eq_append, List.append_assoc, List.singleton_append,
      List.isChain_append_cons_cons] at linked
    exact .inr ⟨child, by simp, linked.2.1⟩

theorem root_or_parent_of_next {location : String} (isNext : location ∈ next root line) :
    location = root ∨ ∃ child ∈ line, child.2.parent.map Location.canonical = some location := by
  rw [next] at isNext
  split at isNext
  · exact .inl (Option.some.inj isNext).symm
  · next last isLast => exact .inr ⟨last, List.mem_of_getLast? isLast, isNext⟩

/-- A lineage is one in every source that has the same model at its root and at the parents of its
models. -/
theorem IsLineage.congr (isLineage : IsLineage first room visited root line)
    (atRoot : first.model? root = second.model? root)
    (atParents : ∀ child ∈ line, ∀ location,
      child.2.parent.map Location.canonical = some location →
        first.model? location = second.model? location) :
    IsLineage second room visited root line := by
  have same : ∀ location, (location = root ∨
      ∃ child ∈ line, child.2.parent.map Location.canonical = some location) →
        first.model? location = second.model? location := by
    rintro location (rfl | ⟨child, isChild, isParent⟩)
    · exact atRoot
    · exact atParents child isChild location isParent
  refine { isLineage with read := fun entry isEntry => ?_, ends := ?_ }
  · rw [← same _ (isLineage.root_or_parent isEntry)]
    exact isLineage.read entry isEntry
  · refine isLineage.ends.imp_right fun ends location isNext => ?_
    rw [← same _ (root_or_parent_of_next isNext)]
    exact ends location isNext

/-- A block has the same files in sources that answer alike for it. -/
theorem ofBlock_congr {block : String} (alike : Alike block first second) :
    ofBlock first block = ofBlock second block := by
  have sameState : first.state? block = second.state? block := by
    rw [AssetSource.state?, AssetSource.load?, AssetSource.state?, AssetSource.load?, alike.state]
  cases isState : first.state? block with
  | none => rw [ofBlock, ofBlock, ← sameState, isState]
  | some state =>
    have sameModel : ∀ location, Reaches first state location →
        first.model? location = second.model? location := fun location reached =>
      AssetSource.model?_congr
        (alike.models state (AssetSource.load?_eq_some.1 isState) location reached)
    have sameLineage : ∀ root ∈ state.models,
        lineage first chainLimit [] root = lineage second chainLimit [] root := by
      intro root isRoot
      have named := VanillaState.mem_models.1 isRoot
      have isLineage : IsLineage first chainLimit [] root (lineage first chainLimit [] root) :=
        isLineage_iff.2 rfl
      refine isLineage_iff.1 (isLineage.congr (sameModel root (.named named)) ?_)
      intro child isChild location isParent
      exact sameModel location (.parent named isLineage isChild isParent)
    rw [ofBlock_eq isState, ofBlock_eq (sameState ▸ isState), List.flatMap_congr sameLineage,
      List.flatMap_congr fun root isRoot => congrArg texturesOf (sameLineage root isRoot)]

end Dependencies

end Blockwright
