import Blockwright.Json.Value
import Blockwright.Png.Pixels

/-!
# Validation

Rules for textures that the game loads. A rule that fails is a violation; an error keeps the
texture out, a warning does not.
-/

namespace Blockwright

/-- Whether a violation keeps a texture out. -/
inductive Severity where
  | error
  | warning
deriving DecidableEq, Repr

/-- Name of a severity. -/
def Severity.name : Severity → String
  | .error => "error"
  | .warning => "warning"

/-- A rule for textures. -/
inductive TextureRule where
  | colorType
  /-- Both sides have a least size. -/
  | minimumSize
  | alpha
  | distinctValues
  | gridAlignment
deriving DecidableEq, Repr

/-- What is wrong with a texture. -/
structure Violation where
  rule : String
  severity : Severity
  message : String
  expected : Option String
  actual : Option String
  remedies : List String
deriving DecidableEq, Repr

namespace TextureRule

/-- Least side of a texture. -/
def minimum : UInt32 := 16

/-- Every rule, in the order in which they are applied. -/
def all : List TextureRule := [.colorType, .minimumSize, .alpha, .distinctValues, .gridAlignment]

/-- Whether an image obeys a rule. -/
def holds (rule : TextureRule) (png : Png) (image : Image) : Bool :=
  match rule with
  | .colorType => png.header.color.isTruecolor
  | .minimumSize => minimum ≤ image.width && minimum ≤ image.height
  | .alpha => image.pixels.any Pixel.isVisible
  | .distinctValues => image.pixels.any (· != image.get 0 0)
  | .gridAlignment => image.width % 16 == 0 && image.height % 16 == 0

/-- Name of a rule. -/
def name : TextureRule → String
  | .colorType => "color_type"
  | .minimumSize => "minimum_size"
  | .alpha => "alpha"
  | .distinctValues => "distinct_values"
  | .gridAlignment => "grid_alignment"

/-- Severity of violations of a rule. -/
def severity : TextureRule → Severity
  | .gridAlignment => .warning
  | _ => .error

/-- What violations of a rule say. -/
def message : TextureRule → String
  | .colorType => "Texture must be RGB or RGBA"
  | .minimumSize => "Texture too small"
  | .alpha => "Texture is fully transparent"
  | .distinctValues => "Texture is a single flat color"
  | .gridAlignment => "Texture size is not a multiple of 16"

/-- What a rule asks for. -/
def expected : TextureRule → String
  | .colorType => "color type 2 or 6"
  | .minimumSize => "16x16 minimum"
  | .alpha => "at least one pixel with alpha > 0"
  | .distinctValues => "at least 2 distinct pixel values"
  | .gridAlignment => "multiples of 16"

/-- What an image has that violates a rule. -/
def actual (rule : TextureRule) (png : Png) (image : Image) : String :=
  match rule with
  | .colorType => "color type " ++ toString png.header.color.byte.toNat
  | .minimumSize => Png.sides image.width image.height
  | .alpha => "all pixels alpha = 0"
  | .distinctValues => (if image.pixels.isEmpty then "0" else "1") ++ " distinct value"
  | .gridAlignment => Png.sides image.width image.height

/-- What can be done about violations of a rule. -/
def remedy : TextureRule → String
  | .colorType => "Normalize the texture before writing"
  | .minimumSize => "Synthesize at 16x16 or larger"
  | .alpha => "Check the source texture or the synthesis profile"
  | .distinctValues => "Add noise or a motif to the texture"
  | .gridAlignment => "Resize to a 16-pixel grid"

/-- The violation of a rule by an image. -/
def violation (rule : TextureRule) (png : Png) (image : Image) : Violation :=
  { rule := rule.name
    severity := rule.severity
    message := rule.message
    expected := some rule.expected
    actual := some (rule.actual png image)
    remedies := [rule.remedy] }

/-- The violations of all rules by an image. -/
def violations (png : Png) (image : Image) : List Violation :=
  (all.filter fun rule => !rule.holds png image).map fun rule => rule.violation png image

end TextureRule

namespace Violation

/-- The violation of a byte string that is no image. -/
def ofError (error : Png.Error) (remedies : List String) : Violation :=
  { rule := "decode"
    severity := .error
    message := error.message
    expected := none
    actual := none
    remedies }

/-- The members of a violation. -/
def toJson (violation : Violation) : Json := Json.ofMembers [
  ("rule", .text violation.rule),
  ("severity", .text violation.severity.name),
  ("message", .text violation.message),
  ("expected", .optionalText violation.expected),
  ("actual", .optionalText violation.actual),
  ("remediation", .texts violation.remedies)]

/-- What is wrong in one line. -/
def summary (violation : Violation) : String :=
  violation.rule ++ ": " ++ violation.message ++
    match violation.expected, violation.actual with
    | some expected, some actual => " (expected " ++ expected ++ ", got " ++ actual ++ ")"
    | _, _ => ""

/-- The first of the violations that keeps a texture out. -/
def firstError? (violations : List Violation) : Option Violation :=
  violations.find? fun violation => violation.severity = .error

end Violation

/-- What validating a texture says. -/
structure Validation where
  path : String
  valid : Bool
  violations : List Violation
deriving DecidableEq, Repr

namespace Validation

/-- A texture that is kept out. -/
def failure (path : String) (violations : List Violation) : Validation :=
  { path, valid := false, violations }

/-- Whether some violation keeps the texture out. -/
def hasErrors (validation : Validation) : Bool :=
  validation.violations.any fun violation => violation.severity = .error

/-- The first violation that keeps the texture out, in one line. -/
def firstError? (validation : Validation) : Option String :=
  (Violation.firstError? validation.violations).map Violation.summary

/-- What the rules say of an image. Warnings are told, but do not keep it out. -/
def ofImage (path : String) (png : Png) (image : Image) : Validation :=
  let violations := TextureRule.violations png image
  if violations.any fun violation => violation.severity = .error then failure path violations
  else { path, valid := true, violations }

/-- What is said of the texture in a byte string that goes to a path, unless reading it stops the
program. -/
def ofBytes? (path : String) (bytes : List UInt8) : Option Validation :=
  match Png.decode bytes with
  | .error .overflow => none
  | .error error => some (failure path [Violation.ofError error ["Re-encode the texture"]])
  | .ok png =>
    match png.toImage with
    | .error error => some (failure path [Violation.ofError error []])
    | .ok image => some (ofImage path png image)

end Validation

end Blockwright
