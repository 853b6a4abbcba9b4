import Mathlib
import Blockwright.Assets.Dependencies

/-!
# Lineages of models

A lineage starts at a model, goes on with its parent, and so on, as far as the models can be read
and do not come up again. That is the chain that is walked, whatever has been read before.
-/

namespace Blockwright

namespace Dependencies

/-- Where a lineage goes on: at its root if it is empty, or else at the parent of its last model. -/
def next (root : String) (line : List (String × VanillaModel)) : Option String :=
  match line.getLast? with
  | none => some root
  | some last => last.2.parent.map Location.canonical

/-- Whether models, with their locations, are those at a root, at the location of its parent, and
so on. There is room for some models, and some locations have been visited. -/
structure IsLineage (source : AssetSource) (room : Nat) (visited : List String) (root : String)
    (line : List (String × VanillaModel)) : Prop where
  read : ∀ entry ∈ line, source.model? entry.1 = some entry.2
  /-- The first one is at the root. -/
  starts : ∀ entry ∈ line.head?, entry.1 = root
  /-- Every other one is at the location of the parent of the one before it. -/
  linked : line.IsChain fun child parent =>
    child.2.parent.map Location.canonical = some parent.1
  different : (line.map Prod.fst).Nodup
  fresh : ∀ entry ∈ line, entry.1 ∉ visited
  short : line.length ≤ room
  /-- The lineage is not cut early: there is no more room, or the next location has been visited,
  comes up again or has no model. -/
  ends : line.length = room ∨ ∀ location ∈ next root line,
    location ∈ visited ∨ location ∈ line.map Prod.fst ∨ source.model? location = none

/-- The lineage of the model at a location. -/
def lineage (source : AssetSource) :
    (room : Nat) → (visited : List String) → (location : String) → List (String × VanillaModel)
  | 0, _, _ => []
  | room + 1, visited, location =>
    if location ∈ visited then []
    else
      match source.model? location with
      | none => []
      | some model =>
        (location, model) ::
          match model.parent with
          | none => []
          | some parent => lineage source room (location :: visited) (Location.canonical parent)

variable {source : AssetSource}

/-! ## Reading once -/

/-- Whether what has been read is what the source holds. -/
def Coherent (source : AssetSource) (models : Models) : Prop :=
  ∀ location found, models.lookup location = some found → found = source.model? location

theorem coherent_nil : Coherent source [] := by
  intro location found known
  simp at known

theorem readOnce_eq {models : Models} (coherent : Coherent source models) (location : String) :
    ∃ later, readOnce source location models = (source.model? location, later) ∧
      Coherent source later := by
  rw [readOnce]
  cases known : models.lookup location with
  | some found =>
    rw [coherent location found known]
    exact ⟨models, rfl, coherent⟩
  | none =>
    refine ⟨_, rfl, fun other found known => ?_⟩
    rw [List.lookup_cons] at known
    split at known
    · next same =>
      rw [beq_iff_eq.1 same]
      exact (Option.some.inj known).symm
    · exact coherent other found known

/-- A chain does not depend on what has been read before. -/
theorem chain_eq {models : Models} (coherent : Coherent source models) (room : Nat)
    (visited : List String) (location : String) :
    ∃ later, chain source room visited location models =
        (lineage source room visited location, later) ∧ Coherent source later := by
  induction room generalizing models visited location with
  | zero => exact ⟨models, rfl, coherent⟩
  | succ room ih =>
    rw [chain, lineage]
    by_cases again : location ∈ visited
    · rw [if_pos (List.contains_iff_mem.2 again), if_pos again]
      exact ⟨models, rfl, coherent⟩
    · rw [if_neg (List.contains_iff_mem.not.2 again), if_neg again]
      obtain ⟨later, recalled, laterCoherent⟩ := readOnce_eq coherent location
      rw [recalled]
      cases source.model? location with
      | none => exact ⟨later, rfl, laterCoherent⟩
      | some model =>
        cases hasParent : model.parent with
        | none =>
          simp only [hasParent]
          exact ⟨later, rfl, laterCoherent⟩
        | some parent =>
          obtain ⟨last, walked, lastCoherent⟩ :=
            ih laterCoherent (location :: visited) (Location.canonical parent)
          simp only [hasParent, walked]
          exact ⟨last, rfl, lastCoherent⟩

/-- The chains of several models are their lineages, though what is read for one is kept for the
next. -/
theorem chains_eq {models : Models} (coherent : Coherent source models) (roots : List String) :
    (chains source roots models).1 = roots.map (lineage source chainLimit []) := by
  induction roots generalizing models with
  | nil => rfl
  | cons root rest ih =>
    obtain ⟨later, walked, laterCoherent⟩ := chain_eq coherent chainLimit [] root
    rw [chains, walked, List.map_cons, ← ih laterCoherent]

/-! ## The lineage -/

theorem isLineage_nil {room : Nat} {visited : List String} {root : String} :
    IsLineage source room visited root [] ↔
      room = 0 ∨ root ∈ visited ∨ source.model? root = none := by
  constructor
  · intro isLineage
    simpa [next, eq_comm] using isLineage.ends
  · intro ends
    exact ⟨by simp, by simp, by simp, by simp, by simp, by simp,
      by simpa [next, eq_comm] using ends⟩

theorem next_cons {root location parent : String} {model : VanillaModel}
    (hasParent : model.parent = some parent) (rest : List (String × VanillaModel)) :
    next root ((location, model) :: rest) = next (Location.canonical parent) rest := by
  rw [next, next, List.getLast?_cons]
  cases rest.getLast? with
  | none => simp [hasParent]
  | some last => simp

theorem stops_cons {location place : String} {visited line : List String} {noModel : Prop} :
    place ∈ location :: visited ∨ place ∈ line ∨ noModel ↔
      place ∈ visited ∨ place ∈ location :: line ∨ noModel := by
  simp only [List.mem_cons]
  tauto

section Cons

variable {room : Nat} {visited : List String} {root location parent : String}
  {model : VanillaModel} {rest : List (String × VanillaModel)}

theorem IsLineage.rest_eq_nil (noParent : model.parent = none)
    (isLineage : IsLineage source room visited root ((location, model) :: rest)) : rest = [] := by
  obtain ⟨follows, -⟩ := List.isChain_cons.1 isLineage.linked
  refine List.eq_nil_iff_forall_not_mem.2 fun entry isEntry => ?_
  obtain ⟨second, others, rfl⟩ := List.exists_cons_of_ne_nil (List.ne_nil_of_mem isEntry)
  simpa [noParent] using follows second rfl

theorem IsLineage.goes_on (hasParent : model.parent = some parent)
    (isLineage : IsLineage source (room + 1) visited root ((location, model) :: rest)) :
    IsLineage source room (location :: visited) (Location.canonical parent) rest := by
  obtain ⟨-, readRest⟩ := List.forall_mem_cons.1 isLineage.read
  obtain ⟨-, freshRest⟩ := List.forall_mem_cons.1 isLineage.fresh
  obtain ⟨follows, linked⟩ := List.isChain_cons.1 isLineage.linked
  obtain ⟨once, different⟩ := List.nodup_cons.1 isLineage.different
  refine ⟨readRest, ?_, linked, different, ?_, Nat.le_of_succ_le_succ isLineage.short, ?_⟩
  · intro entry isFirst
    simpa [hasParent, eq_comm] using follows entry isFirst
  · intro entry isEntry isVisited
    rcases List.mem_cons.1 isVisited with same | isVisited
    · exact once (List.mem_map.2 ⟨entry, isEntry, same⟩)
    · exact freshRest entry isEntry isVisited
  · refine isLineage.ends.imp Nat.succ.inj fun ends place isNext => stops_cons.2 ?_
    rw [next_cons hasParent] at ends
    exact ends place isNext

theorem isLineage_single (fresh : location ∉ visited)
    (read : source.model? location = some model) (noParent : model.parent = none) :
    IsLineage source (room + 1) visited location [(location, model)] :=
  ⟨by simpa using read, by simp, by simp, by simp, by simpa using fresh, by simp,
    .inr (by simp [next, noParent])⟩

theorem IsLineage.cons (fresh : location ∉ visited) (read : source.model? location = some model)
    (hasParent : model.parent = some parent)
    (isLineage : IsLineage source room (location :: visited) (Location.canonical parent) rest) :
    IsLineage source (room + 1) visited location ((location, model) :: rest) := by
  refine ⟨List.forall_mem_cons.2 ⟨read, isLineage.read⟩, by simp,
    List.isChain_cons.2 ⟨?_, isLineage.linked⟩, ?_, ?_, Nat.succ_le_succ isLineage.short, ?_⟩
  · intro entry isFirst
    rw [isLineage.starts entry isFirst, hasParent]
    rfl
  · refine List.nodup_cons.2 ⟨fun again => ?_, isLineage.different⟩
    obtain ⟨entry, isEntry, same⟩ := List.mem_map.1 again
    exact isLineage.fresh entry isEntry (by simp [same])
  · refine List.forall_mem_cons.2 ⟨fresh, fun entry isEntry isVisited => ?_⟩
    exact isLineage.fresh entry isEntry (List.mem_cons_of_mem _ isVisited)
  · rw [next_cons hasParent]
    exact isLineage.ends.imp (congrArg Nat.succ) fun ends place isNext =>
      stops_cons.1 (ends place isNext)

theorem isLineage_cons :
    IsLineage source (room + 1) visited root ((location, model) :: rest) ↔
      location = root ∧ location ∉ visited ∧ source.model? location = some model ∧
        ((model.parent = none ∧ rest = []) ∨ ∃ parent, model.parent = some parent ∧
          IsLineage source room (location :: visited) (Location.canonical parent) rest) := by
  constructor
  · intro isLineage
    obtain ⟨readFirst, -⟩ := List.forall_mem_cons.1 isLineage.read
    obtain ⟨freshFirst, -⟩ := List.forall_mem_cons.1 isLineage.fresh
    refine ⟨isLineage.starts _ rfl, freshFirst, readFirst, ?_⟩
    cases hasParent : model.parent with
    | none => exact .inl ⟨rfl, isLineage.rest_eq_nil hasParent⟩
    | some parent => exact .inr ⟨parent, rfl, isLineage.goes_on hasParent⟩
  · rintro ⟨rfl, fresh, read, ⟨noParent, rfl⟩ | ⟨parent, hasParent, isLineage⟩⟩
    · exact isLineage_single fresh read noParent
    · exact isLineage.cons fresh read hasParent

end Cons

/-- There is exactly one lineage. -/
theorem isLineage_iff {room : Nat} {visited : List String} {root : String}
    {line : List (String × VanillaModel)} :
    IsLineage source room visited root line ↔ line = lineage source room visited root := by
  induction room generalizing visited root line with
  | zero =>
    rw [lineage]
    constructor
    · intro isLineage
      exact List.eq_nil_of_length_eq_zero (Nat.le_zero.1 isLineage.short)
    · rintro rfl
      exact isLineage_nil.2 (.inl rfl)
  | succ room ih =>
    rw [lineage]
    cases line with
    | nil =>
      rw [isLineage_nil]
      split
      · next again => simp [again]
      · next fresh =>
        cases source.model? root <;> simp [fresh]
    | cons entry rest =>
      obtain ⟨location, model⟩ := entry
      rw [isLineage_cons]
      split
      · next again =>
        refine iff_of_false ?_ (List.cons_ne_nil _ _)
        rintro ⟨rfl, fresh, -⟩
        exact fresh again
      · next fresh =>
        cases read : source.model? root with
        | none =>
          refine iff_of_false ?_ (List.cons_ne_nil _ _)
          rintro ⟨rfl, -, readToo, -⟩
          simp [read] at readToo
        | some other =>
          rw [List.cons.injEq, Prod.mk.injEq]
          constructor
          · rintro ⟨rfl, -, readToo, goesOn⟩
            obtain rfl : other = model := by simpa [read] using readToo
            rcases goesOn with ⟨noParent, rfl⟩ | ⟨parent, hasParent, isLineage⟩
            · simp [noParent]
            · simpa [hasParent] using ih.1 isLineage
          · rintro ⟨⟨rfl, rfl⟩, goesOn⟩
            refine ⟨rfl, fresh, read, ?_⟩
            cases hasParent : model.parent with
            | none => exact .inl ⟨rfl, by simpa [hasParent] using goesOn⟩
            | some parent => exact .inr ⟨parent, rfl, ih.2 (by simpa [hasParent] using goesOn)⟩

end Dependencies

end Blockwright
