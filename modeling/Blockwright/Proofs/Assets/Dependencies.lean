import Blockwright.Proofs.Ascending
import Blockwright.Proofs.Assets.Lineage
import Blockwright.Proofs.Assets.Variables
import Blockwright.Proofs.Outcome

/-!
# The files that a block is made of

Nothing is listed for a block without a block state. Otherwise exactly the models of the lineages
of the models that the block state names are listed, and exactly the textures that the variables of
these lineages lead to.
-/

namespace Blockwright

open Json (Document Fault)

/-- Whether a source has a file at a path that reads as a value. -/
def AssetSource.Provides {α : Type} (source : AssetSource) (read : Document → Except Fault α)
    (path : String) (value : α) : Prop :=
  ∃ bytes, source.read path = .ok (some bytes) ∧ Document.readBytes read bytes = some value

theorem AssetSource.load?_eq_some {α : Type} {source : AssetSource}
    {read : Document → Except Fault α} {path : String} {value : α} :
    source.load? read path = some value ↔ source.Provides read path value := by
  rw [load?, Provides]
  split
  · next bytes isRead => simp only [isRead, Except.ok.injEq, Option.some.injEq, exists_eq_left']
  · next unread =>
    refine iff_of_false (by simp) ?_
    rintro ⟨bytes, isRead, -⟩
    exact unread bytes isRead

/-- Whether a block state names the model at a location, as a choice of a variant or of a part. -/
def VanillaState.Names (state : VanillaState) (location : String) : Prop :=
  ∃ choice, location = Location.canonical choice ∧
    ((∃ variant ∈ state.variants, choice ∈ variant.2) ∨ ∃ part ∈ state.parts, choice ∈ part)

theorem VanillaState.mem_models {state : VanillaState} {location : String} :
    location ∈ state.models ↔ state.Names location := by
  simp only [models, Text.mem_ascending, List.mem_map, List.mem_append, List.mem_flatMap,
    List.mem_flatten, Names, eq_comm, and_comm]

namespace Dependencies

/-- Whether what is listed was found: a model is read and named by the block state or as the parent
of another model that is listed, and a texture is the value of a variable of a model that is
listed. -/
structure Sound (source : AssetSource) (state : VanillaState) (found : Dependencies) : Prop where
  models : ∀ path ∈ found.models, ∃ location model, path = Location.modelFile location ∧
    source.Provides VanillaModel.read path model ∧
    (state.Names location ∨ ∃ other ∈ found.models, other ≠ path ∧
      ∃ child, source.Provides VanillaModel.read other child ∧
        child.parent.map Location.canonical = some location)
  textures : ∀ path ∈ found.textures, ∃ value,
    path = Location.textureFile (Location.canonical value) ∧ (∀ key, value ≠ "#" ++ key) ∧
      ∃ other ∈ found.models, ∃ model, source.Provides VanillaModel.read other model ∧
        ∃ key, model.textures.lookup key = some value

/-- Whether exactly that is listed which the block state leads to. -/
structure Complete (source : AssetSource) (state : VanillaState) (found : Dependencies) :
    Prop where
  models : ∀ path, path ∈ found.models ↔ ∃ root line, state.Names root ∧
    IsLineage source chainLimit [] root line ∧ ∃ entry ∈ line, path = Location.modelFile entry.1
  textures : ∀ path, path ∈ found.textures ↔ ∃ root line, state.Names root ∧
    IsLineage source chainLimit [] root line ∧
      ∃ key value location, Defines line key value ∧ Leads line value location ∧
        path = Location.textureFile (Location.canonical location)

variable {source : AssetSource} {state : VanillaState}

theorem IsLineage.exists_child {room : Nat} {visited : List String} {root : String}
    {line : List (String × VanillaModel)} (isLineage : IsLineage source room visited root line)
    {entry : String × VanillaModel} (isEntry : entry ∈ line) :
    ∃ first ∈ line, Location.modelFile first.1 = Location.modelFile entry.1 ∧ (first.1 = root ∨
      ∃ child ∈ line, Location.modelFile child.1 ≠ Location.modelFile entry.1 ∧
        child.2.parent.map Location.canonical = some first.1) := by
  let isHere (other : String × VanillaModel) : Bool :=
    Location.modelFile other.1 == Location.modelFile entry.1
  obtain ⟨first, found⟩ : ∃ first, line.find? isHere = some first := by
    rw [← Option.isSome_iff_exists, List.find?_isSome]
    exact ⟨entry, isEntry, by simp [isHere]⟩
  obtain ⟨here, before, after, rfl, earlier⟩ := List.find?_eq_some_iff_append.1 found
  refine ⟨first, by simp, by simpa [isHere] using here, ?_⟩
  rcases List.eq_nil_or_concat before with rfl | ⟨front, child, rfl⟩
  · exact .inl (isLineage.starts first rfl)
  · have linked := isLineage.linked
    rw [List.concat_eq_append, List.append_assoc, List.singleton_append,
      List.isChain_append_cons_cons] at linked
    have elsewhere := earlier child (by simp)
    exact .inr ⟨child, by simp, by simpa [isHere] using elsewhere, linked.2.1⟩

theorem ofBlock_eq {block : String} (isState : source.state? block = some state) :
    ofBlock source block =
      { state := some (Location.blockStateFile block)
        models := Text.ascending ((state.models.flatMap (lineage source chainLimit [])).map
          fun entry => Location.modelFile entry.1)
        textures := Text.ascending
          (state.models.flatMap fun root => texturesOf (lineage source chainLimit [] root)) } := by
  rw [ofBlock, isState]
  simp only [chains_eq coherent_nil, List.flatMap_map, ← List.flatMap_def]

theorem complete_ofBlock {block : String} (isState : source.state? block = some state) :
    Complete source state (ofBlock source block) := by
  rw [ofBlock_eq isState]
  constructor
  · intro path
    rw [Text.mem_ascending]
    simp only [List.mem_map, List.mem_flatMap, VanillaState.mem_models, isLineage_iff]
    constructor
    · rintro ⟨entry, ⟨root, named, isEntry⟩, rfl⟩
      exact ⟨root, _, named, rfl, entry, isEntry, rfl⟩
    · rintro ⟨root, _, named, rfl, entry, isEntry, rfl⟩
      exact ⟨entry, ⟨root, named, isEntry⟩, rfl⟩
  · intro path
    rw [Text.mem_ascending]
    simp only [List.mem_flatMap, VanillaState.mem_models, texturesOf, List.mem_map, mem_locations,
      isLineage_iff]
    constructor
    · rintro ⟨root, named, location, ⟨key, value, defined, leads⟩, rfl⟩
      exact ⟨root, _, named, rfl, key, value, location, defined, leads, rfl⟩
    · rintro ⟨root, _, named, rfl, key, value, location, defined, leads, rfl⟩
      exact ⟨root, named, location, ⟨key, value, defined, leads⟩, rfl⟩

theorem Complete.sound {found : Dependencies} (complete : Complete source state found) :
    Sound source state found := by
  have provides : ∀ {root line}, IsLineage source chainLimit [] root line → ∀ entry ∈ line,
      source.Provides VanillaModel.read (Location.modelFile entry.1) entry.2 :=
    fun isLineage entry isEntry => AssetSource.load?_eq_some.1 (isLineage.read entry isEntry)
  constructor
  · intro path listed
    obtain ⟨root, line, named, isLineage, entry, isEntry, rfl⟩ := (complete.models path).1 listed
    obtain ⟨first, isFirst, here, origin⟩ := isLineage.exists_child isEntry
    refine ⟨first.1, first.2, here.symm, here ▸ provides isLineage first isFirst, ?_⟩
    rcases origin with rfl | ⟨child, isChild, elsewhere, hasParent⟩
    · exact .inl named
    · exact .inr ⟨_, (complete.models _).2 ⟨root, line, named, isLineage, child, isChild, rfl⟩,
        elsewhere, child.2, provides isLineage child isChild, hasParent⟩
  · intro path listed
    obtain ⟨root, line, named, isLineage, key, value, location, defined, leads, rfl⟩ :=
      (complete.textures path).1 listed
    obtain ⟨plain, entry, isEntry, name, isValue⟩ := leads.occurs defined
    exact ⟨location, rfl, plain, _,
      (complete.models _).2 ⟨root, line, named, isLineage, entry, isEntry, rfl⟩, entry.2,
      provides isLineage entry isEntry, name, isValue⟩

/-- A block without a block state has no files. For any other block the files are listed in
ascending order, soundly and completely, and what has been read for one model does not change what
is found for the next. -/
theorem ofBlock_faithful (source : AssetSource) (block : String) :
    ((¬ ∃ state, source.Provides VanillaState.read (Location.blockStateFile block) state) →
      ofBlock source block = {}) ∧
    ∀ state, source.Provides VanillaState.read (Location.blockStateFile block) state →
      (ofBlock source block).state = some (Location.blockStateFile block) ∧
      (ofBlock source block).models.Pairwise (· < ·) ∧
      (ofBlock source block).textures.Pairwise (· < ·) ∧
      Sound source state (ofBlock source block) ∧
      Complete source state (ofBlock source block) ∧
      (∀ root, ∃! line, IsLineage source chainLimit [] root line) ∧
      (chains source state.models []).1 =
        state.models.map fun root => (chain source chainLimit [] root []).1 := by
  constructor
  · intro noState
    have missing : source.state? block = none := by
      rw [Option.eq_none_iff_forall_ne_some]
      intro state isState
      exact noState ⟨state, AssetSource.load?_eq_some.1 isState⟩
    rw [ofBlock, missing]
  · intro state provided
    have isState : source.state? block = some state := AssetSource.load?_eq_some.2 provided
    have complete := complete_ofBlock isState
    refine ⟨?_, ?_, ?_, complete.sound, complete, fun root => ?_, ?_⟩
    · rw [ofBlock_eq isState]
    · rw [ofBlock_eq isState]
      exact Text.pairwise_ascending _
    · rw [ofBlock_eq isState]
      exact Text.pairwise_ascending _
    · exact ⟨_, isLineage_iff.2 rfl, fun line isLineage => isLineage_iff.1 isLineage⟩
    · rw [chains_eq coherent_nil]
      refine List.map_congr_left fun root _ => ?_
      obtain ⟨later, walked, -⟩ := chain_eq coherent_nil chainLimit [] root
      rw [walked]

/-- The assets of a lamp whose model is its own parent, with two variables that refer to each other
and one that refers to a texture. -/
def lamp : AssetSource := .ofTable { entries := [
  ("assets/minecraft/blockstates/lamp.json",
    "\x7b\"variants\":\x7b\"\":\x7b\"model\":\"block/lamp\"\x7d\x7d\x7d".toUTF8),
  ("assets/minecraft/models/block/lamp.json",
    ("\x7b\"parent\":\"block/lamp\",\"textures\":"
      ++ "\x7b\"a\":\"#b\",\"b\":\"#a\",\"c\":\"#d\",\"d\":\"block/glow\"\x7d\x7d").toUTF8)] }

/-- The model and the texture of the lamp are listed. -/
theorem ofBlock_lamp :
    let state : VanillaState := { variants := [("", ["block/lamp"])] }
    lamp.Provides VanillaState.read (Location.blockStateFile "lamp") state ∧
      Complete lamp state (ofBlock lamp "lamp") ∧
      ofBlock lamp "lamp" =
        { state := some "assets/minecraft/blockstates/lamp.json"
          models := ["assets/minecraft/models/block/lamp.json"]
          textures := ["assets/minecraft/textures/block/glow.png"] } := by
  intro state
  have provided : lamp.Provides VanillaState.read (Location.blockStateFile "lamp") state :=
    ⟨"\x7b\"variants\":\x7b\"\":\x7b\"model\":\"block/lamp\"\x7d\x7d\x7d".toUTF8, by rfl, by cbv⟩
  obtain ⟨-, -, -, -, complete, -⟩ := (ofBlock_faithful lamp "lamp").2 state provided
  exact ⟨provided, complete, by decide +kernel⟩

end Dependencies

end Blockwright
