import Blockwright.Shape.Model

/-!
# Block states

The block state of a shape says which model stands for each combination of properties, and how it
is turned.
-/

namespace Blockwright

/-- A turned model of a block. -/
structure Placement where
  /-- Ending of the model's name behind the block id. -/
  ending : String
  /-- Turn about the horizontal axis in degrees. -/
  x : Nat := 0
  /-- Turn about the vertical axis in degrees. -/
  y : Nat := 0
  /-- Whether textures keep their direction when the model is turned. -/
  uvlock : Bool := false
deriving DecidableEq, Repr

/-- The models for the combinations of a block's properties. -/
inductive BlockState where
  | variants (choices : List (String × Placement))
  /-- A model that is always shown, and further ones where the named side is joined. -/
  | multipart (always : Placement) (sides : List (String × Placement))
deriving DecidableEq, Repr

/-- The four horizontal directions. -/
inductive Facing where
  | east
  | north
  | south
  | west
deriving DecidableEq, Repr

namespace Facing

/-- Every direction. -/
def all : List Facing := [.east, .north, .south, .west]

/-- Name of a direction. -/
def name : Facing → String
  | .east => "east"
  | .north => "north"
  | .south => "south"
  | .west => "west"

/-- Turn of a model made to face east. -/
def fromEast : Facing → Nat
  | .east => 0
  | .south => 90
  | .west => 180
  | .north => 270

/-- Turn of a model made to face north. -/
def fromNorth : Facing → Nat
  | .north => 0
  | .east => 90
  | .south => 180
  | .west => 270

/-- Turn of a model made to face south. -/
def fromSouth : Facing → Nat
  | .south => 0
  | .west => 90
  | .north => 180
  | .east => 270

end Facing

/-- Every truth value. -/
def BlockState.flags : List Bool := [false, true]

/-- Text of a truth value. -/
def BlockState.flag (value : Bool) : String := if value then "true" else "false"

namespace Placement

/-- The placement of a model of a block. -/
def toJson (placement : Placement) (modId id : String) : Json :=
  Json.ofMembers (
    [("model", Json.text (ModelTemplate.location modId id placement.ending))]
      ++ (if placement.x = 0 then [] else [("x", Json.nat placement.x)])
      ++ (if placement.y = 0 then [] else [("y", Json.nat placement.y)])
      ++ (if placement.uvlock then [("uvlock", Json.bool true)] else []))

end Placement

namespace BlockState

/-- Every placement of a block state. -/
def placements : BlockState → List Placement
  | variants choices => choices.map Prod.snd
  | multipart always sides => always :: sides.map Prod.snd

/-- The block state of a block. -/
def toJson (modId id : String) : BlockState → Json
  | variants choices =>
    .single "variants" (Json.ofMembers (choices.map fun choice =>
      (choice.1, choice.2.toJson modId id)))
  | multipart always sides =>
    let first := Json.single "apply" (always.toJson modId id)
    let others := sides.map fun side => Json.ofMembers [
      ("when", .single side.1 (.text "true")),
      ("apply", side.2.toJson modId id)]
    .single "multipart" (.array (first :: others))

/-- The only model of a block without properties. -/
def still : BlockState := variants [("", { ending := "" })]

/-- A column along each axis. -/
def column : BlockState := variants [
  ("axis=x", { ending := "_horizontal", x := 90, y := 90 }),
  ("axis=y", { ending := "" }),
  ("axis=z", { ending := "_horizontal", x := 90 })]

/-- The halves of a slab. -/
def slab : BlockState := variants [
  ("type=bottom", { ending := "" }),
  ("type=double", { ending := "_double" }),
  ("type=top", { ending := "_top" })]

/-- A plate that is free or pressed. -/
def pressurePlate : BlockState := variants [
  ("powered=false", { ending := "" }),
  ("powered=true", { ending := "_down" })]

/-- How stairs join their neighbours. -/
inductive Corner where
  | innerLeft
  | innerRight
  | outerLeft
  | outerRight
  | straight
deriving DecidableEq, Repr

namespace Corner

/-- Every corner. -/
def all : List Corner := [.innerLeft, .innerRight, .outerLeft, .outerRight, .straight]

/-- Name of a corner. -/
def name : Corner → String
  | .innerLeft => "inner_left"
  | .innerRight => "inner_right"
  | .outerLeft => "outer_left"
  | .outerRight => "outer_right"
  | .straight => "straight"

/-- Ending of the model of a corner. -/
def ending : Corner → String
  | .innerLeft => "_inner"
  | .innerRight => "_inner"
  | .outerLeft => "_outer"
  | .outerRight => "_outer"
  | .straight => ""

/-- Turn of a corner in degrees, beyond that of the direction. -/
def turn (upper : Bool) : Corner → Nat
  | .innerLeft => if upper then 0 else 270
  | .outerLeft => if upper then 0 else 270
  | .innerRight => if upper then 90 else 0
  | .outerRight => if upper then 90 else 0
  | .straight => 0

end Corner

/-- Stairs in each direction, half and corner. -/
def stairs : BlockState := variants (
  Facing.all.flatMap fun facing => flags.flatMap fun upper => Corner.all.map fun corner =>
    let x := if upper then 180 else 0
    let y := (facing.fromEast + corner.turn upper) % 360
    ("facing=" ++ facing.name ++ ",half=" ++ (if upper then "top" else "bottom") ++ ",shape="
      ++ corner.name,
      { ending := corner.ending, x, y, uvlock := x != 0 || y != 0 }))

/-- A post and its arms. -/
def fence : BlockState := multipart { ending := "_post" } (
  [("north", 0), ("east", 90), ("south", 180), ("west", 270)].map fun side =>
    (side.1, { ending := "_side", y := side.2, uvlock := true }))

/-- Ending of the model of a gate. -/
def gateEnding (inWall isOpen : Bool) : String :=
  (if inWall then "_wall" else "") ++ (if isOpen then "_open" else "")

/-- A gate in each direction, in a wall or not, open or shut. -/
def fenceGate : BlockState := variants (
  Facing.all.flatMap fun facing => flags.flatMap fun inWall => flags.map fun isOpen =>
    ("facing=" ++ facing.name ++ ",in_wall=" ++ flag inWall ++ ",open=" ++ flag isOpen,
      { ending := gateEnding inWall isOpen, y := facing.fromSouth, uvlock := true }))

/-- Ending of the model of a door's half. -/
def doorEnding (upper right isOpen : Bool) : String :=
  (if upper then "_top" else "_bottom") ++ (if right then "_right" else "_left")
    ++ (if isOpen then "_open" else "")

/-- A door in each direction, half and hinge, open or shut. -/
def door : BlockState := variants (
  Facing.all.flatMap fun facing => flags.flatMap fun upper => flags.flatMap fun right =>
    flags.map fun isOpen =>
      let turn := if !isOpen then 0 else if right then 270 else 90
      ("facing=" ++ facing.name ++ ",half=" ++ (if upper then "upper" else "lower") ++ ",hinge="
        ++ (if right then "right" else "left") ++ ",open=" ++ flag isOpen,
        { ending := doorEnding upper right isOpen, y := (facing.fromEast + turn) % 360 }))

/-- A trapdoor in each direction and half, open or shut. -/
def trapdoor : BlockState := variants (
  Facing.all.flatMap fun facing => flags.flatMap fun upper => flags.map fun isOpen =>
    let y := facing.fromNorth
    let placement : Placement :=
      if !isOpen then { ending := if upper then "_top" else "_bottom", y }
      else if upper then { ending := "_open", x := 180, y := (y + 180) % 360 }
      else { ending := "_open", y }
    ("facing=" ++ facing.name ++ ",half=" ++ (if upper then "top" else "bottom") ++ ",open="
      ++ flag isOpen, placement))

/-- A button on each face and in each direction, free or pressed. -/
def button : BlockState := variants (
  ["ceiling", "floor", "wall"].flatMap fun face => Facing.all.flatMap fun facing =>
    flags.map fun powered =>
      let y := facing.fromNorth
      let ending := if powered then "_pressed" else ""
      let placement : Placement :=
        if face == "floor" then { ending, y }
        else if face == "wall" then { ending, x := 90, y, uvlock := true }
        else { ending, x := 180, y := (y + 180) % 360 }
      ("face=" ++ face ++ ",facing=" ++ facing.name ++ ",powered=" ++ flag powered, placement))

end BlockState

/-- Block state of a shape. -/
def Shape.blockState : Shape → BlockState
  | .cube => .still
  | .column => .column
  | .stairs => .stairs
  | .slab => .slab
  | .fence => .fence
  | .fenceGate => .fenceGate
  | .door => .door
  | .trapdoor => .trapdoor
  | .button => .button
  | .pressurePlate => .pressurePlate
  | .sign => .still
  | .hangingSign => .still

end Blockwright
