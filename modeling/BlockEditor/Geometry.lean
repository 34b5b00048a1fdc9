import BlockEditor.Json.Reading

/-!
# Sizes, paddings and text metrics

All lengths are binary32 numbers, and every length is computed by the operations of that format in
the order written here. A `LayoutConfig` holds the paddings and least sizes before scaling, a
`TextMetrics` measures text, a `Geometry` holds the scaled lengths together with such a measure, and
a `Style` adds how labels are shown. `stackExtent` is the extent of blocks above each other.
-/

namespace BlockEditor

open Json

/-- The greater of two numbers, or the other one if one of them is not a number. -/
def greater (first second : Float32) : Float32 :=
  if first < second then second else if first == first then first else second

/-- A width and a height. -/
structure Size where
  /-- The width. -/
  width : Float32
  /-- The height. -/
  height : Float32
deriving DecidableEq

namespace Size

/-- The size of nothing. -/
def zero : Size := ⟨0, 0⟩

/-- Whether a point lies in the rectangle of this size, its border included. -/
def contains (size : Size) (x y : Float32) : Bool :=
  0 ≤ x && 0 ≤ y && x ≤ size.width && y ≤ size.height

/-- Whether two sizes differ as numbers; a size that is not a number differs from itself. -/
def differs (first second : Size) : Bool :=
  !(first.width == second.width) || !(first.height == second.height)

end Size

/-- The paddings and least sizes of a layout. -/
structure LayoutConfig where
  /-- The gap between the cells of a row. -/
  innerPaddingHorizontal : Float32 := 8
  /-- The space above and below the tallest cell of a row. -/
  innerPaddingVertical : Float32 := 4
  /-- The space left and right of a nested block, and the indentation of a stack. -/
  elementPaddingHorizontal : Float32 := 4
  /-- The space above and below a nested block, and the gap between blocks of a stack. -/
  elementPaddingVertical : Float32 := 4
  /-- The width of a child column that holds nothing. -/
  emptyFieldWidth : Float32 := 40
  /-- The height of a child column that holds nothing. -/
  emptyFieldHeight : Float32 := 24
  /-- The width of the gutter to the left of a stack. -/
  emptyLineWidth : Float32 := 16
  /-- The width of the bar below a stack on the last line. -/
  endLineWidth : Float32 := 48
  /-- The factor for all lengths. -/
  scale : Float32 := 1
deriving DecidableEq

namespace LayoutConfig

/-- The names of the fields, in the order of their declaration. -/
def fieldNames : List String :=
  ["inner_padding_horizontal", "inner_padding_vertical", "element_padding_horizontal",
    "element_padding_vertical", "empty_field_width", "empty_field_height", "empty_line_width",
    "end_line_width", "scale"]

/-- The values of the fields, in the order of their declaration. -/
def values (config : LayoutConfig) : List Float32 :=
  [config.innerPaddingHorizontal, config.innerPaddingVertical, config.elementPaddingHorizontal,
    config.elementPaddingVertical, config.emptyFieldWidth, config.emptyFieldHeight,
    config.emptyLineWidth, config.endLineWidth, config.scale]

/-- Reads a configuration; a field that is left out has its default value. -/
def ofNode? (node : Node) : Option LayoutConfig := do
  let members ← node.members? fieldNames
  let length (name : String) (value : Float32) := members.withDefault name Node.single? value
  return {
    innerPaddingHorizontal := ← length "inner_padding_horizontal" 8
    innerPaddingVertical := ← length "inner_padding_vertical" 4
    elementPaddingHorizontal := ← length "element_padding_horizontal" 4
    elementPaddingVertical := ← length "element_padding_vertical" 4
    emptyFieldWidth := ← length "empty_field_width" 40
    emptyFieldHeight := ← length "empty_field_height" 24
    emptyLineWidth := ← length "empty_line_width" 16
    endLineWidth := ← length "end_line_width" 48
    scale := ← length "scale" 1 }

/-- The configuration with the factor worked into all lengths. -/
def scaled (config : LayoutConfig) : LayoutConfig where
  innerPaddingHorizontal := config.innerPaddingHorizontal * config.scale
  innerPaddingVertical := config.innerPaddingVertical * config.scale
  elementPaddingHorizontal := config.elementPaddingHorizontal * config.scale
  elementPaddingVertical := config.elementPaddingVertical * config.scale
  emptyFieldWidth := config.emptyFieldWidth * config.scale
  emptyFieldHeight := config.emptyFieldHeight * config.scale
  emptyLineWidth := config.emptyLineWidth * config.scale
  endLineWidth := config.endLineWidth * config.scale
  scale := 1

end LayoutConfig

/-- A measure of shown text. -/
structure TextMetrics where
  /-- The width of a text. -/
  width : String → Float32
  /-- The height of a line of text. -/
  lineHeight : Float32

/-- The measure in which every character has the same width. -/
def TextMetrics.monospace (charWidth lineHeight : Float32) : TextMetrics :=
  ⟨fun text => Float32.ofNat text.length * charWidth, lineHeight⟩

/-- Scaled lengths, and a measure of text. -/
structure Geometry where
  /-- The paddings and least sizes, after scaling. -/
  config : LayoutConfig
  /-- The measure of text. -/
  metrics : TextMetrics

namespace Geometry

/-- The geometry of a configuration, which is scaled here, with characters of one width. -/
def ofConfig (config : LayoutConfig) (charWidth lineHeight : Float32) : Geometry :=
  ⟨config.scaled, .monospace charWidth lineHeight⟩

/-- The geometry of the default configuration. -/
def standard : Geometry := .ofConfig {} 8 16

/-- The width of a text. -/
def textWidth (geometry : Geometry) (text : String) : Float32 := geometry.metrics.width text

/-- The height of a text. -/
def textHeight (geometry : Geometry) : Float32 := geometry.metrics.lineHeight

/-- The height of the bar below a stack on the last line. -/
def closingLineHeight (geometry : Geometry) : Float32 :=
  geometry.textHeight + 2 * geometry.config.innerPaddingVertical

end Geometry

/-- What the layout of blocks depends on. -/
structure Style where
  /-- The lengths. -/
  geometry : Geometry
  /-- The text that is shown for the text of a label. -/
  label : String → String

/-- The paddings and least sizes of a style. -/
def Style.config (style : Style) : LayoutConfig := style.geometry.config

/-- The extent of things of the given sizes above each other with a gap between them. -/
def stackExtent (gap : Float32) (sizes : List Size) : Size :=
  if sizes.isEmpty then .zero
  else
    { width := (sizes.map Size.width).foldl greater 0
      height :=
        (sizes.map Size.height).foldl (· + ·) 0 + gap * Float32.ofNat (sizes.length - 1) }

/-- The upper edges of things of the given heights above each other with a gap between them. -/
def stackOffsets (gap top : Float32) : List Float32 → List Float32
  | [] => []
  | height :: rest => top :: stackOffsets gap (top + (height + gap)) rest

/-- Which of two neighbouring stacks a point between them belongs to. -/
inductive Side where
  /-- The upper stack. -/
  | previous
  /-- The lower stack. -/
  | next
deriving DecidableEq, Repr

/-- The side of the midpoint between the end of one stack and the start of the next; the midpoint
itself belongs to the upper stack. -/
def midpointSide (y previousEnd nextStart : Float32) : Side :=
  if y ≤ (previousEnd + nextStart) / 2 then .previous else .next

end BlockEditor
