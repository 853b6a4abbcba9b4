import Blockwright.Image.Hsv
import Blockwright.Digest.Fnv
import Blockwright.Rules

/-!
# Hues

The hue that textures of an entity are themed to: that of a color hint, or the hue that a word of
its id names, or one that is hashed from the id.
-/

namespace Blockwright

namespace Hue

/-- Words that name a hue, in degrees. -/
def rules : RuleTable Nat :=
  [ ⟨.word "ruby", 350⟩,
    ⟨.word "garnet", 345⟩,
    ⟨.word "cherry", 345⟩,
    ⟨.word "crimson", 350⟩,
    ⟨.word "red", 0⟩,
    ⟨.word "rose", 340⟩,
    ⟨.word "maple", 18⟩,
    ⟨.word "copper", 22⟩,
    ⟨.word "orange", 28⟩,
    ⟨.word "bronze", 30⟩,
    ⟨.word "amber", 38⟩,
    ⟨.word "topaz", 42⟩,
    ⟨.word "gold", 48⟩,
    ⟨.word "citrine", 50⟩,
    ⟨.word "yellow", 55⟩,
    ⟨.word "lime", 90⟩,
    ⟨.word "green", 120⟩,
    ⟨.word "emerald", 140⟩,
    ⟨.word "jade", 145⟩,
    ⟨.word "malachite", 155⟩,
    ⟨.word "aquamarine", 170⟩,
    ⟨.word "teal", 175⟩,
    ⟨.word "turquoise", 175⟩,
    ⟨.word "cyan", 185⟩,
    ⟨.word "sky", 200⟩,
    ⟨.word "cobalt", 215⟩,
    ⟨.word "sapphire", 220⟩,
    ⟨.word "blue", 225⟩,
    ⟨.word "lapis", 225⟩,
    ⟨.word "indigo", 250⟩,
    ⟨.word "obsidian", 265⟩,
    ⟨.word "amethyst", 275⟩,
    ⟨.word "purple", 280⟩,
    ⟨.word "violet", 285⟩,
    ⟨.word "magenta", 300⟩,
    ⟨.word "pink", 330⟩ ]

/-- The hue of an id in whole degrees. -/
def degrees (id : String) : Nat := (rules.classify id).getD ((Fnv.hash id).toNat % 360)

/-- The hue of an id. -/
def ofId (id : String) : Float32 := Single.ofNat (degrees id)

/-- The hue of a color hint, unless it is nearly gray or black. -/
def ofHint? (hint : Color) : Option Float32 :=
  let hsv := Hsv.ofColor hint
  if 0.1 < hsv.saturation && 0.1 < hsv.value then some hsv.hue else none

/-- The hue of an entity with the given hint and id. -/
def ofEntity (hint : Option Color) (id : String) : Float32 := (hint.bind ofHint?).getD (ofId id)

end Hue

end Blockwright
