import VideoExport.Filter.Chain
import VideoExport.Text.Utf8

/-!
# Grading

Colours are changed pixel by pixel: brightness and contrast scale, contrast
around the middle grey, and saturation and hue turn colours around the grey
axis. All of it is one matrix and one offset.

* `Grading`: the factors of a change of colours;
* `Grading.transform`: the matrix and the offset;
* `Transform.pixel`: one pixel; what it is seen through stays as it is.
-/

namespace VideoExport

/-- Factors for brightness, contrast and saturation, and a rotation of hue in
    degrees. -/
structure Grading where
  brightness : Float32
  contrast : Float32
  saturation : Float32
  hue : Float32

namespace Grading

/-- The range of factors. -/
def factorRange : Float32 × Float32 := (0.0, 4.0)

/-- A factor within the range of factors; what is not finite changes
    nothing. -/
def factor (x : Float32) : Float32 :=
  if x.isFinite then
    if x < factorRange.1 then factorRange.1 else if factorRange.2 < x then factorRange.2 else x
  else 1.0

/-- The grading of these factors. -/
def ofFactors (brightness contrast saturation hue : Float32) : Grading :=
  ⟨factor brightness, factor contrast, factor saturation, if hue.isFinite then hue else 0.0⟩

/-- The grading of an adjustment, whose brightness is what is added to a factor
    of one. -/
def ofColor (c : Color) : Grading :=
  ofFactors (1.0 + c.brightness).toFloat32 c.contrast.toFloat32 c.saturation.toFloat32
    c.hue.toFloat32

/-- Whether a grading changes nothing: factors of one and full turns. -/
def isIdentity (g : Grading) : Bool :=
  g.brightness == 1.0 && g.contrast == 1.0 && g.saturation == 1.0 &&
    Number.isMultipleOf 360 g.hue.toFloat

end Grading

/-! ## Matrices -/

/-- A row of three numbers. -/
structure Row where
  x : Float32
  y : Float32
  z : Float32

namespace Row

/-- The inner product. -/
def dot (a b : Row) : Float32 := a.x * b.x + a.y * b.y + a.z * b.z

/-- Every number multiplied by a factor. -/
def scale (k : Float32) (a : Row) : Row := ⟨a.x * k, a.y * k, a.z * k⟩

end Row

/-- A matrix of three rows. -/
structure Matrix3 where
  r : Row
  g : Row
  b : Row

namespace Matrix3

/-- The matrix with rows and columns exchanged. -/
def transpose (m : Matrix3) : Matrix3 :=
  ⟨⟨m.r.x, m.g.x, m.b.x⟩, ⟨m.r.y, m.g.y, m.b.y⟩, ⟨m.r.z, m.g.z, m.b.z⟩⟩

/-- The matrix with every row replaced. -/
def mapRows (f : Row → Row) (m : Matrix3) : Matrix3 := ⟨f m.r, f m.g, f m.b⟩

/-- The product of two matrices. -/
def mul (m n : Matrix3) : Matrix3 :=
  let columns := n.transpose
  m.mapRows fun row => ⟨row.dot columns.r, row.dot columns.g, row.dot columns.b⟩

end Matrix3

/-- The weights of the colours in brightness. -/
def lumaWeights : Row := ⟨0.2126, 0.7152, 0.0722⟩

/-- The matrix of a saturation: a mean of the colour and its grey. -/
def saturationMatrix (s : Float32) : Matrix3 :=
  let grey := lumaWeights.scale (1.0 - s)
  ⟨⟨grey.x + s, grey.y, grey.z⟩, ⟨grey.x, grey.y + s, grey.z⟩, ⟨grey.x, grey.y, grey.z + s⟩⟩

/-- The ratio of the circumference of a circle to its diameter. -/
def circleRatio : Float32 := 3.1415927

/-- The matrix of a rotation of hue, which keeps brightness. -/
def hueMatrix (degrees : Float32) : Matrix3 :=
  let angle := degrees * (circleRatio / 180.0)
  let sin := angle.sin
  let cos := angle.cos
  ⟨⟨0.213 + cos * 0.787 - sin * 0.213,
      0.715 - cos * 0.715 - sin * 0.715,
      0.072 - cos * 0.072 + sin * 0.928⟩,
    ⟨0.213 - cos * 0.213 + sin * 0.143,
      0.715 + cos * 0.285 + sin * 0.140,
      0.072 - cos * 0.072 - sin * 0.283⟩,
    ⟨0.213 - cos * 0.213 - sin * 0.787,
      0.715 - cos * 0.715 + sin * 0.715,
      0.072 + cos * 0.928 + sin * 0.072⟩⟩

/-! ## Pixels -/

/-- A pixel: three colours and how opaque it is. -/
structure Pixel where
  r : UInt8
  g : UInt8
  b : UInt8
  a : UInt8
  deriving DecidableEq, Repr, Inhabited

/-- The pixels of a sequence of bytes, four to each. -/
def Pixel.ofBytes : Bytes → List Pixel
  | r :: g :: b :: a :: rest => ⟨r, g, b, a⟩ :: ofBytes rest
  | _ => []

/-- The bytes of a pixel. -/
def Pixel.toBytes (p : Pixel) : Bytes := [p.r, p.g, p.b, p.a]

/-- A matrix and an offset that take colours to colours. -/
structure Transform where
  matrix : Matrix3
  offset : Float32

namespace Grading

/-- The matrix and the offset of a grading. Every row of the rotation and of
    the saturation sums to one, so the offset needs no turning. -/
def transform (g : Grading) : Transform :=
  let gain := g.brightness * g.contrast
  { matrix := ((hueMatrix g.hue).mul (saturationMatrix g.saturation)).mapRows (Row.scale gain)
    offset := 0.5 * (1.0 - g.contrast) }

end Grading

/-- A colour from zero to one as a byte. -/
def channel (x : Float32) : UInt8 :=
  let v := (x * 255.0).round
  if v < 0.0 then 0 else if 255.0 < v then 255 else v.toUInt8

/-- A byte as a colour from zero to one. -/
def intensity (b : UInt8) : Float32 := b.toNat.toFloat32 / 255.0

namespace Transform

/-- A pixel with its colours changed. -/
def pixel (t : Transform) (p : Pixel) : Pixel :=
  let rgb : Row := ⟨intensity p.r, intensity p.g, intensity p.b⟩
  let change (row : Row) : UInt8 := channel (row.dot rgb + t.offset)
  ⟨change t.matrix.r, change t.matrix.g, change t.matrix.b, p.a⟩

/-- The bytes of pixels with their colours changed. -/
def bytes (t : Transform) (frame : Bytes) : Bytes :=
  ((Pixel.ofBytes frame).map t.pixel).flatMap Pixel.toBytes

end Transform

end VideoExport
