import VideoExport.Filter.Expression

/-!
# Filter chains

A chain of filter expressions is read back: its sizes, its colours and its
frame rate. Every expression is kept, in order, whether or not it is
understood; a crop to the size of the enlargement before it belongs to that.

* `FilterItem.scan`: the items of a chain;
* `FilterItem.flatMap_texts_scan`: no expression is lost or repeated;
* `Filters.append`: what the items of one or several chains come down to.
-/

namespace VideoExport

/-- A box to scale to. A negative side follows from the other one. -/
structure ScaleBox where
  width : Int32
  height : Int32
  fit : Fit
  deriving DecidableEq, Repr, Inhabited

/-- One or two expressions of a chain, with what they mean. -/
inductive FilterItem
  /-- A change of size, with the crop that belongs to it. -/
  | scale (text : String) (crop : Option String) (box : ScaleBox)
  /-- A change of colours. -/
  | eq (text : String) (color : Color)
  /-- A change of size or colours that cannot be read. -/
  | unread (text : String)
  /-- Any other expression. -/
  | other (text : String)

namespace FilterItem

/-- The expressions of an item. -/
def texts : FilterItem → List String
  | scale text crop _ => text :: crop.toList
  | eq text _ | unread text | other text => [text]

/-! ## Reading expressions -/

/-- The two numbers that arguments start with. -/
def dimensions? (args : String) : Option (Int32 × Int32) :=
  match Text.splitOn ':' args with
  | w :: h :: _ => do return (← Number.int32? (Text.trim w), ← Number.int32? (Text.trim h))
  | _ => none

/-- The fit that the arguments after the two numbers ask for: the first word
    on proportions counts. -/
def fitOf (args : String) : Fit :=
  match ((Text.splitOn ':' args).drop 2).findSome? (Text.after? "force_original_aspect_ratio=") with
  | some "decrease" => .contain
  | some "increase" => .cover
  | _ => .stretch

/-- The box of a change of size, by its arguments. -/
def box? (args : String) : Option ScaleBox :=
  (dimensions? args).map fun (w, h) => ⟨w, h, fitOf args⟩

/-- A colour adjustment with one part set, if the name is one of its parts. -/
def withPart? (c : Color) (name : String) (value : Float) : Option Color :=
  match name with
  | "brightness" => some { c with brightness := value }
  | "contrast" => some { c with contrast := value }
  | "saturation" => some { c with saturation := value }
  | "hue" => some { c with hue := value }
  | _ => none

/-- The name and the value of a part of a change of colours. -/
def part? (pair : String) : Option (String × Float) := do
  let (name, value) ← Text.cut? '=' pair
  let x ← Number.float? (Text.trim value)
  if x.isFinite then some (Text.trim name, x) else none

/-- The adjustment of a change of colours, by its arguments. Parts that cannot
    be read are skipped, but not all of them may be. -/
def color? (args : String) : Option Color :=
  ((Text.splitOn ':' args).filterMap part?).foldl
    (fun acc (name, value) => withPart? (acc.getD .identity) name value <|> acc) none

/-- The frame rate of a name, a fraction or a number. -/
def namedRate? (value : String) : Option Float :=
  match value with
  | "ntsc" => some (30000.0 / 1001.0)
  | "pal" => some 25.0
  | "film" => some 24.0
  | _ =>
    match Text.cut? '/' value with
    | some (num, den) => do
      let n ← Number.float? (Text.trim num)
      let d ← Number.float? (Text.trim den)
      return n / d
    | none => Number.float? value

/-- The frame rate of a rate expression, by its arguments. It has to be finite
    and positive. -/
def rate? (args : String) : Option Float :=
  let first := Text.trim ((Text.splitOn ':' args).headD "")
  (namedRate? ((Text.after? "fps=" first).getD first)).filter fun rate =>
    rate.isFinite && 0.0 < rate

/-! ## Scanning -/

/-- Whether an expression crops to the size of a box. -/
def crops (box : ScaleBox) (text : String) : Bool :=
  ((Text.after? "crop=" text).bind dimensions?) == some (box.width, box.height)

/-- The item of an expression on its own. An enlargement without its crop
    merely fills its box. -/
def single (text : String) : FilterItem :=
  match Text.after? "scale=" text, Text.after? "eq=" text with
  | some args, _ =>
    match box? args with
    | some box => scale text none { box with fit := if box.fit = .cover then .stretch else box.fit }
    | none => unread text
  | none, some args =>
    match color? args with
    | some c => eq text c
    | none => unread text
  | none, none => other text

/-- The item of two expressions, if the second one belongs to the first. -/
def pair? (text next : String) : Option FilterItem :=
  match (Text.after? "scale=" text).bind box? with
  | some box =>
    if box.fit = .cover && crops box next then some (scale text (some next) box) else none
  | none => none

/-- The items of a list of expressions. -/
def scan : List String → List FilterItem
  | [] => []
  | [text] => [single text]
  | text :: next :: rest =>
    match pair? text next with
    | some item => item :: scan rest
    | none => single text :: scan (next :: rest)

theorem texts_single (text : String) : (single text).texts = [text] := by
  unfold single
  split
  · split <;> rfl
  · split <;> rfl
  · rfl

theorem texts_of_pair? {text next : String} {item : FilterItem} (h : pair? text next = some item) :
    item.texts = [text, next] := by
  unfold pair? at h
  split at h
  · split at h
    · cases h; rfl
    · cases h
  · cases h

/-- No expression is lost, repeated or moved. -/
theorem flatMap_texts_scan (l : List String) : (scan l).flatMap texts = l := by
  fun_induction scan l with
  | case1 => rfl
  | case2 text => simp [texts_single]
  | case3 text next rest item h ih => simp [texts_of_pair? h, ih]
  | case4 text next rest h ih => simp [texts_single, ih]

/-- The expressions of a chain. -/
def expressions (chain : String) : List String := (Text.splitOn ',' chain).filterMap Text.nonBlank?

/-- The items of a chain. -/
def ofChain (chain : String) : List FilterItem := scan (expressions chain)

/-- The box of an item. -/
def boxOf? : FilterItem → Option ScaleBox
  | scale _ _ box => some box
  | _ => none

/-- The adjustment of an item. -/
def colorOf? : FilterItem → Option Color
  | eq _ c => some c
  | _ => none

/-- Whether an item needs decoded frames. What cannot be read does not. -/
def needsFrames : FilterItem → Bool
  | unread _ => false
  | _ => true

end FilterItem

/-- The filters of a plan. -/
structure Filters where
  /-- Every expression, in order. -/
  chain : List String
  /-- The last change of size that can be read. -/
  resize : Option ScaleBox
  /-- The last change of colours that can be read. -/
  color : Option Color
  deriving Inhabited

namespace Filters

/-- No filters. -/
def none : Filters := ⟨[], .none, .none⟩

/-- Filters with more items after them. -/
def append (f : Filters) (items : List FilterItem) : Filters where
  chain := f.chain ++ items.flatMap FilterItem.texts
  resize := (items.reverse.findSome? FilterItem.boxOf?) <|> f.resize
  color := (items.reverse.findSome? FilterItem.colorOf?) <|> f.color

/-- The chain without changes of colours. -/
def geometry (f : Filters) : List String := f.chain.filter fun e => !Text.startsWith "eq=" e

/-- The frame rate of the last rate expression that can be read. -/
def frameRate? (f : Filters) : Option Float :=
  f.chain.reverse.findSome? fun e => (Text.after? "fps=" e).bind FilterItem.rate?

end Filters

/-- Whether an adjustment is exactly the one that changes nothing. -/
def Color.isNeutral (c : Color) : Bool :=
  c.brightness == 0.0 && c.contrast == 1.0 && c.saturation == 1.0 && c.hue == 0.0

end VideoExport
