import VideoExport.Settings.Basic

/-!
# Filter expressions

Resizing and recolouring are asked for by filter expressions, which a chain
joins with commas. Numbers in them have at most three places and no zeros at
the end of those.

* `Resize.filter`, `Color.filter?`: the expressions;
* `Filter.number`: a number in an expression;
* `Filter.chain?`: several expressions as one chain.
-/

namespace VideoExport

namespace Filter

/-- A text without the characters `c` at its end. -/
def trimEndOf (c : Char) (s : List Char) : List Char := (s.reverse.dropWhile (· == c)).reverse

/-- A number with at most three places. What rounds to zero has no sign. -/
def number (x : Float) : String :=
  let digits := trimEndOf '.' (trimEndOf '0' (Number.fixed 3 x).toList)
  if digits = [] ∨ digits = ['-', '0'] then "0" else String.ofList digits

/-- Expressions as one chain. -/
def chain (parts : List String) : String := String.intercalate "," parts

/-- Expressions as one chain, if there are any. -/
def chain? (parts : List String) : Option String :=
  if parts.isEmpty then none else some (chain parts)

/-- A size as an argument. -/
def size (width height : UInt32) : String :=
  Number.text width.toNat ++ ":" ++ Number.text height.toNat

end Filter

/-- The expression that resizes frames. To cover its box a frame is enlarged
    and then cropped. -/
def Resize.filter (r : Resize) : String :=
  let box := Filter.size r.width r.height
  match r.fit with
  | .stretch => s!"scale={box}"
  | .contain => s!"scale={box}:force_original_aspect_ratio=decrease"
  | .cover => s!"scale={box}:force_original_aspect_ratio=increase,crop={box}"

namespace Color

/-- The parts of an adjustment by name, each with its neutral value. -/
def parts (c : Color) : List (String × Float × Float) :=
  [("brightness", c.brightness, identity.brightness),
    ("contrast", c.contrast, identity.contrast),
    ("saturation", c.saturation, identity.saturation),
    ("hue", c.hue, identity.hue)]

/-- The parts whose text is not that of their neutral value. -/
def activeParts (c : Color) : List String :=
  c.parts.filterMap fun (name, value, neutral) =>
    if Filter.number value == Filter.number neutral then none
    else some (name ++ "=" ++ Filter.number value)

/-- The expression that recolours frames, unless it would change nothing. -/
def filter? (c : Color) : Option String :=
  if c.isIdentity || c.activeParts.isEmpty then none
  else some ("eq=" ++ String.intercalate ":" c.activeParts)

end Color

end VideoExport
