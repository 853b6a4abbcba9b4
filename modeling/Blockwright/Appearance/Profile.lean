import Blockwright.Appearance.Material

/-!
# Texture profiles

A profile says what a texture should look like: the material, one or two physical traits, one or
two surface styles and up to two motifs. It is derived from the names of an entity, so that the
same entity always looks the same, and may be overridden in part.
-/

namespace Blockwright

/-- Physical trait of a surface. -/
inductive Trait where
  | hard
  | soft
  | dense
  | light
  | brittle
  | fibrous
  | reflective
  | organic
deriving DecidableEq, Repr

namespace Trait

def all : List Trait :=
  [.hard, .soft, .dense, .light, .brittle, .fibrous, .reflective, .organic]

def name : Trait → String
  | .hard => "hard"
  | .soft => "soft"
  | .dense => "dense"
  | .light => "light"
  | .brittle => "brittle"
  | .fibrous => "fibrous"
  | .reflective => "reflective"
  | .organic => "organic"

def ofName? (name : String) : Option Trait := all.find? (fun value => value.name == name)

/-- Words that tell a trait. -/
def rules : RuleTable Trait :=
  [ ⟨.word "heavy", .dense⟩,
    ⟨.word "dense", .dense⟩,
    ⟨.word "soft", .soft⟩,
    ⟨.word "fluffy", .soft⟩,
    ⟨.word "light", .light⟩,
    ⟨.word "brittle", .brittle⟩,
    ⟨.word "cracked", .brittle⟩,
    ⟨.word "shiny", .reflective⟩,
    ⟨.word "polished", .reflective⟩,
    ⟨.word "hardened", .hard⟩ ]

end Trait

/-- Finish of a surface. -/
inductive Style where
  | smooth
  | rough
  | polished
  | grainy
  | faceted
  | porous
  | matte
deriving DecidableEq, Repr

namespace Style

def all : List Style :=
  [.smooth, .rough, .polished, .grainy, .faceted, .porous, .matte]

def name : Style → String
  | .smooth => "smooth"
  | .rough => "rough"
  | .polished => "polished"
  | .grainy => "grainy"
  | .faceted => "faceted"
  | .porous => "porous"
  | .matte => "matte"

def ofName? (name : String) : Option Style := all.find? (fun value => value.name == name)

/-- Words that tell a style. -/
def rules : RuleTable Style :=
  [ ⟨.word "polished", .polished⟩,
    ⟨.word "smooth", .smooth⟩,
    ⟨.word "rough", .rough⟩,
    ⟨.word "raw", .rough⟩,
    ⟨.word "cracked", .rough⟩,
    ⟨.word "porous", .porous⟩,
    ⟨.word "sponge", .porous⟩,
    ⟨.word "cut", .faceted⟩ ]

end Style

/-- Pattern stamped on a texture; the values are in stamping order. -/
inductive Motif where
  | strata
  | grain
  | rings
  | veins
  | holes
  | bubbles
  | flakes
deriving DecidableEq, Repr

namespace Motif

def all : List Motif :=
  [.strata, .grain, .rings, .veins, .holes, .bubbles, .flakes]

def name : Motif → String
  | .strata => "strata"
  | .grain => "grain"
  | .rings => "rings"
  | .veins => "veins"
  | .holes => "holes"
  | .bubbles => "bubbles"
  | .flakes => "flakes"

def ofName? (name : String) : Option Motif := all.find? (fun value => value.name == name)

/-- Position in stamping order. -/
def rank : Motif → Nat
  | .strata => 0
  | .grain => 1
  | .rings => 2
  | .veins => 3
  | .holes => 4
  | .bubbles => 5
  | .flakes => 6

/-- Noise amplitude of a texture that bears the motif. -/
def amplitude : Motif → Nat
  | .grain => 16
  | .strata => 14
  | .flakes => 14
  | .holes => 12
  | .veins => 10
  | .rings => 10
  | .bubbles => 8

/-- Words that tell a motif. -/
def rules : RuleTable Motif :=
  [ ⟨.word "log", .rings⟩,
    ⟨.word "stump", .rings⟩,
    ⟨.word "trunk", .rings⟩,
    ⟨.word "marble", .veins⟩,
    ⟨.wordStart "vein", .veins⟩,
    ⟨.word "cheese", .holes⟩,
    ⟨.word "sponge", .holes⟩,
    ⟨.word "porous", .holes⟩,
    ⟨.word "slime", .bubbles⟩,
    ⟨.word "lava", .bubbles⟩,
    ⟨.wordStart "bubbl", .bubbles⟩,
    ⟨.word "sandstone", .strata⟩,
    ⟨.wordStart "layer", .strata⟩,
    ⟨.word "ore", .flakes⟩,
    ⟨.word "granite", .flakes⟩,
    ⟨.word "speckled", .flakes⟩ ]

/-- Inserts a motif behind those that are stamped no later. -/
def insertSorted (motif : Motif) : List Motif → List Motif
  | [] => [motif]
  | first :: rest =>
    if motif.rank ≤ first.rank then motif :: first :: rest
    else first :: insertSorted motif rest

/-- Motifs in stamping order. -/
def sort (motifs : List Motif) : List Motif := motifs.foldr insertSorted []

end Motif

/-- What a texture should look like. -/
structure Profile where
  hint : String
  material : Material
  traits : List Trait
  styles : List Style
  /-- Up to two motifs in stamping order. -/
  motifs : List Motif
deriving DecidableEq, Repr

/-- The parts of a profile that a specification states itself. -/
structure ProfileOverride where
  hint : Option String
  traits : Option (List Trait)
  styles : Option (List Style)
  motifs : Option (List Motif)
deriving DecidableEq, Repr

/-- The look of a material without further words. -/
def Material.look : Material → Trait × Style × Option Motif
  | .wood => (.fibrous, .grainy, some .grain)
  | .stone => (.hard, .rough, some .strata)
  | .metal => (.dense, .polished, none)
  | .food => (.organic, .matte, none)
  | .crystal => (.hard, .faceted, none)
  | .generic => (.hard, .matte, none)

namespace Profile

/-- Most entries that a list of a profile holds. -/
def limit : Nat := 2

/-- The first different entries of a list, as many as a profile holds. -/
def bounded {α : Type} [BEq α] (entries : List α) : List α := entries.eraseDups.take limit

/-- The text whose words tell the look of an entity. -/
def subject (displayName id : String) : String :=
  displayName ++ " " ++ id.map (fun c => if c = '_' then ' ' else c)

/-- The profile told by the names of an entity of a material. -/
def derive (displayName id : String) (hint : Option String) (material : Material) : Profile :=
  let subject := subject displayName id
  let look := material.look
  { hint := hint.getD material.name
    material
    traits := bounded (look.1 :: Trait.rules.classifyAll subject)
    styles := bounded (Style.rules.classifyAll subject ++ [look.2.1])
    motifs := Motif.sort (bounded (Motif.rules.classifyAll subject ++ look.2.2.toList)) }

/-- The profile with the stated parts in place of its own. Stated traits and styles count only
if there are any, stated motifs also if there are none. -/
def override (profile : Profile) (stated : ProfileOverride) : Profile :=
  { hint := stated.hint.getD profile.hint
    material := profile.material
    traits :=
      match stated.traits with
      | some (first :: rest) => bounded (first :: rest)
      | _ => profile.traits
    styles :=
      match stated.styles with
      | some (first :: rest) => bounded (first :: rest)
      | _ => profile.styles
    motifs :=
      match stated.motifs with
      | some motifs => Motif.sort (bounded motifs)
      | none => profile.motifs }

/-- Noise amplitude: the largest of the motifs, or that of a plain texture. -/
def amplitude (profile : Profile) : Nat :=
  match profile.motifs with
  | [] => 12
  | first :: rest => rest.foldl (fun most motif => max most motif.amplitude) first.amplitude

end Profile

end Blockwright
