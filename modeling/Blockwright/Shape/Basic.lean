import Blockwright.Rules

/-!
# Block shapes

The twelve shapes a block can have, their names, and the rule that reads a shape off a block id.
-/

namespace Blockwright

/-- Geometry of a block. -/
inductive Shape where
  | cube
  /-- A full cube with its own end texture. -/
  | column
  | stairs
  | slab
  | fence
  | fenceGate
  | door
  | trapdoor
  | button
  | pressurePlate
  /-- A sign on a post or a wall. -/
  | sign
  | hangingSign
deriving DecidableEq, Repr

namespace Shape

/-- Every shape, in the order of the registry. -/
def all : List Shape :=
  [.cube, .column, .stairs, .slab, .fence, .fenceGate, .door, .trapdoor, .button, .pressurePlate,
    .sign, .hangingSign]

theorem mem_all (shape : Shape) : shape ∈ all := by
  cases shape <;> decide

/-- Name of a shape in specifications. -/
def name : Shape → String
  | .cube => "cube"
  | .column => "column"
  | .stairs => "stairs"
  | .slab => "slab"
  | .fence => "fence"
  | .fenceGate => "fence_gate"
  | .door => "door"
  | .trapdoor => "trapdoor"
  | .button => "button"
  | .pressurePlate => "pressure_plate"
  | .sign => "sign"
  | .hangingSign => "hanging_sign"

/-- The shape with the given name. -/
def ofName? (name : String) : Option Shape := all.find? (fun shape => shape.name == name)

theorem ofName?_name (shape : Shape) : ofName? shape.name = some shape := by
  cases shape <;> decide

/-- Whether a shape is a sign, which is drawn as an entity. -/
def isSign : Shape → Bool
  | .sign => true
  | .hangingSign => true
  | _ => false

/-- Endings of ids that tell the shape; an ending stands before the shorter ones that end it. -/
def rules : RuleTable Shape :=
  [ ⟨.endsWith "_hanging_sign", .hangingSign⟩,
    ⟨.endsWith "_sign", .sign⟩,
    ⟨.endsWith "_fence_gate", .fenceGate⟩,
    ⟨.endsWith "_fence", .fence⟩,
    ⟨.endsWith "_pressure_plate", .pressurePlate⟩,
    ⟨.endsWith "_trapdoor", .trapdoor⟩,
    ⟨.endsWith "_door", .door⟩,
    ⟨.endsWith "_button", .button⟩,
    ⟨.endsWith "_stairs", .stairs⟩,
    ⟨.endsWith "_slab", .slab⟩,
    ⟨.endsWith "_log", .column⟩,
    ⟨.endsWith "_wood", .column⟩,
    ⟨.endsWith "_stem", .column⟩,
    ⟨.endsWith "_hyphae", .column⟩,
    ⟨.endsWith "_pillar", .column⟩,
    ⟨.always, .cube⟩ ]

/-- The shape that a block id tells. -/
def ofId (id : String) : Shape := (rules.classify id).getD .cube

end Shape

end Blockwright
