import Mathlib
import Blockwright.Assets.Dependencies

/-!
# Texture variables

A model may define a texture variable by a reference to another one. The definition of a child
counts before that of its parent. References are followed as often as there are definitions; that
is enough, because references that lead somewhere do not come back to a variable.
-/

namespace Blockwright

theorem Text.dropStart?_eq_some {start text rest : String} :
    Text.dropStart? start text = some rest ↔ text = start ++ rest := by
  have spelled : text = start ++ rest ↔ text.toList = start.toList ++ rest.toList := by
    rw [← String.toList_inj, String.toList_append]
  rw [Text.dropStart?, spelled]
  split
  · next starts =>
    obtain ⟨others, same⟩ := List.isPrefixOf_iff_prefix.1 starts
    rw [← same, List.drop_left, List.append_cancel_left_eq, Option.some.injEq,
      ← String.toList_inj, String.toList_ofList]
  · next startsNot =>
    refine iff_of_false (by simp) fun same => startsNot ?_
    rw [same]
    exact List.isPrefixOf_iff_prefix.2 (List.prefix_append ..)

namespace Dependencies

variable {line : List (String × VanillaModel)}

/-- Whether a variable has a value in a line of models: the first model that defines it gives it
that value. -/
def Defines (line : List (String × VanillaModel)) (key value : String) : Prop :=
  ∃ before entry after, line = before ++ entry :: after ∧
    entry.2.textures.lookup key = some value ∧
    ∀ other ∈ before, other.2.textures.lookup key = none

/-- Where a value leads: it is a location, or it refers to a variable whose value leads there. -/
inductive Leads (line : List (String × VanillaModel)) : String → String → Prop where
  | location {value : String} (plain : ∀ key, value ≠ "#" ++ key) : Leads line value value
  | reference {key value location : String} (defined : Defines line key value)
      (leads : Leads line value location) : Leads line ("#" ++ key) location

theorem lookup_bindings {key value : String} :
    (bindings line).lookup key = some value ↔ Defines line key value := by
  induction line with
  | nil => simp [bindings, Defines]
  | cons entry rest ih =>
    rw [bindings, List.flatMap_cons, List.lookup_append, ← bindings, Option.or_eq_some_iff, ih]
    constructor
    · rintro (here | ⟨undefined, before, other, after, rfl, defined, earlier⟩)
      · exact ⟨[], entry, rest, rfl, here, by simp⟩
      · exact ⟨entry :: before, other, after, rfl, defined,
          List.forall_mem_cons.2 ⟨undefined, earlier⟩⟩
    · rintro ⟨before, other, after, same, defined, earlier⟩
      cases before with
      | nil =>
        obtain ⟨rfl, rfl⟩ := List.cons.inj same
        exact .inl defined
      | cons first before =>
        obtain ⟨rfl, rfl⟩ := List.cons.inj same
        obtain ⟨undefined, earlier⟩ := List.forall_mem_cons.1 earlier
        exact .inr ⟨undefined, before, other, after, rfl, defined, earlier⟩

theorem Defines.mem_bindings {key value : String} (defined : Defines line key value) :
    (key, value) ∈ bindings line := by
  obtain ⟨before, after, same, -⟩ := List.lookup_eq_some_iff.1 (lookup_bindings.2 defined)
  simp [same]

theorem Defines.eq {key value other : String} (defined : Defines line key value)
    (definedToo : Defines line key other) : value = other :=
  Option.some.inj ((lookup_bindings.2 defined).symm.trans (lookup_bindings.2 definedToo))

/-! ## Following references -/

theorem location?_plain {bindings : List (String × String)} {value : String}
    (plain : ∀ key, value ≠ "#" ++ key) (room : Nat) :
    location? bindings (room + 1) value = some value := by
  cases start : Text.dropStart? "#" value with
  | none => rw [location?, start]
  | some key => exact absurd (Text.dropStart?_eq_some.1 start) (plain key)

theorem location?_reference (bindings : List (String × String)) (room : Nat) (key : String) :
    location? bindings (room + 1) ("#" ++ key) =
      (bindings.lookup key).bind (location? bindings room) := by
  rw [location?, Text.dropStart?_eq_some.2 rfl]
  dsimp only
  cases bindings.lookup key <;> rfl

theorem leads_of_location? {room : Nat} {value location : String}
    (found : location? (bindings line) room value = some location) : Leads line value location := by
  induction room generalizing value with
  | zero => cases found
  | succ room ih =>
    by_cases plain : ∀ key, value ≠ "#" ++ key
    · obtain rfl : value = location := by simpa [location?_plain plain] using found
      exact .location plain
    · push Not at plain
      obtain ⟨key, rfl⟩ := plain
      rw [location?_reference, Option.bind_eq_some_iff] at found
      obtain ⟨value, defined, found⟩ := found
      exact .reference (lookup_bindings.1 defined) (ih found)

/-- References with the variables that they go through. -/
inductive Follows (line : List (String × VanillaModel)) : List String → String → String → Prop where
  | location {value : String} (plain : ∀ key, value ≠ "#" ++ key) : Follows line [] value value
  | reference {key value location : String} {keys : List String} (defined : Defines line key value)
      (follows : Follows line keys value location) :
      Follows line (key :: keys) ("#" ++ key) location

theorem Leads.follows {value location : String} (leads : Leads line value location) :
    ∃ keys, Follows line keys value location := by
  induction leads with
  | location plain => exact ⟨[], .location plain⟩
  | @reference key _ _ defined _ ih =>
    obtain ⟨keys, follows⟩ := ih
    exact ⟨key :: keys, .reference defined follows⟩

namespace Follows

theorem keys_eq {keys others : List String} {value location other : String}
    (follows : Follows line keys value location) (followsToo : Follows line others value other) :
    keys = others := by
  induction follows generalizing others with
  | location plain =>
    cases followsToo with
    | location => rfl
    | reference => exact absurd rfl (plain _)
  | @reference key _ _ _ defined _ ih =>
    generalize same : "#" ++ key = start at followsToo
    cases followsToo with
    | location plain => exact absurd same.symm (plain key)
    | @reference otherKey _ _ _ definedToo followsToo =>
      obtain rfl : key = otherKey := by simpa using same
      obtain rfl := defined.eq definedToo
      rw [ih followsToo]

/-- From any of the variables the rest of the references leads on. -/
theorem drop {keys : List String} {value location : String}
    (follows : Follows line keys value location) {key : String} (isKey : key ∈ keys) :
    ∃ rest, Follows line (key :: rest) ("#" ++ key) location ∧ rest.length < keys.length := by
  induction follows with
  | location => simp at isKey
  | @reference first _ _ keys defined follows ih =>
    rcases List.mem_cons.1 isKey with rfl | isKey
    · exact ⟨keys, .reference defined follows, Nat.lt_succ_self _⟩
    · obtain ⟨rest, followsRest, shorter⟩ := ih isKey
      exact ⟨rest, followsRest, Nat.lt_succ_of_lt shorter⟩

/-- References that lead somewhere go through no variable twice: they would do so forever. -/
theorem nodup {keys : List String} {value location : String}
    (follows : Follows line keys value location) : keys.Nodup := by
  induction follows with
  | location => exact List.nodup_nil
  | reference defined follows ih =>
    refine List.nodup_cons.2 ⟨fun again => ?_, ih⟩
    obtain ⟨rest, followsRest, shorter⟩ := follows.drop again
    obtain ⟨-, rfl⟩ := List.cons.inj (followsRest.keys_eq (.reference defined follows))
    exact Nat.lt_irrefl _ shorter

theorem length_le {keys : List String} {value location : String}
    (follows : Follows line keys value location) : keys.length ≤ (bindings line).length := by
  have isDefined : keys ⊆ (bindings line).map Prod.fst := by
    induction follows with
    | location => simp
    | reference defined _ ih =>
      exact List.cons_subset.2 ⟨List.mem_map_of_mem defined.mem_bindings, ih⟩
  simpa using (follows.nodup.subperm isDefined).length_le

theorem location?_eq_some {keys : List String} {value location : String}
    (follows : Follows line keys value location) {room : Nat} (enough : keys.length < room) :
    location? (bindings line) room value = some location := by
  induction follows generalizing room with
  | location plain =>
    obtain ⟨room, rfl⟩ := Nat.exists_eq_succ_of_ne_zero (Nat.ne_of_gt enough)
    exact location?_plain plain room
  | reference defined follows ih =>
    obtain ⟨room, rfl⟩ := Nat.exists_eq_succ_of_ne_zero (Nat.ne_of_gt (Nat.zero_lt_of_lt enough))
    rw [location?_reference, lookup_bindings.2 defined]
    exact ih (Nat.lt_of_succ_lt_succ enough)

end Follows

/-- The locations of a line of models are those that its variables lead to. -/
theorem mem_locations {location : String} :
    location ∈ locations (bindings line) ↔
      ∃ key value, Defines line key value ∧ Leads line value location := by
  simp only [locations, List.mem_filterMap, Option.bind_eq_some_iff]
  constructor
  · rintro ⟨entry, -, value, defined, found⟩
    exact ⟨entry.1, value, lookup_bindings.1 defined, leads_of_location? found⟩
  · rintro ⟨key, value, defined, leads⟩
    obtain ⟨keys, follows⟩ := leads.follows
    exact ⟨(key, value), defined.mem_bindings, value,
      lookup_bindings.2 defined, follows.location?_eq_some (Nat.lt_succ_of_le follows.length_le)⟩

/-- A location that a defined value leads to is no reference, and a model has it as the value of a
variable. -/
theorem Leads.occurs {key value location : String} (defined : Defines line key value)
    (leads : Leads line value location) :
    (∀ name, location ≠ "#" ++ name) ∧
      ∃ entry ∈ line, ∃ name, entry.2.textures.lookup name = some location := by
  induction leads generalizing key with
  | location plain =>
    obtain ⟨before, entry, after, rfl, isValue, -⟩ := defined
    exact ⟨plain, entry, by simp, key, isValue⟩
  | reference definedNext _ ih => exact ih definedNext

end Dependencies

end Blockwright
