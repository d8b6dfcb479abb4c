import VideoExport.Animation.Basic
import VideoExport.Proofs.Frame.Attempts

/-!
# Frames of an animation

An animation is written frame by frame, by an encoder with a state of its own. A frame that does
not have the size of the animation is refused before anything is touched. So an encoder that does
not fail has been given the other ones, in their order and all with one delay, and what it makes of
them is the file.

* `AnimationEncoder.IsReliable`: what is expected of an encoder;
* `AnimationEncoder.file`: the file that an encoder makes of frames;
* `offer_taken`, `offer_refused`: one frame;
* `attempts_offer`: any number of frames, and the finished file;
* `PixelPair.encoder`: an encoder of files for frames of two pixels.
-/

namespace VideoExport

/-! ## Encoders -/

namespace AnimationEncoder

variable (e : AnimationEncoder) (width height : UInt16)

/-- An image is made of as many pixels as there are in a frame. -/
def IsImage (image : e.Image) : Prop :=
  ∃ speed pixels, pixels.length = width.toNat * height.toNat * 4 ∧
    image = (e.quantize width height speed pixels).1

/-- An encoder does not fail with images of a size. -/
structure IsReliable : Prop where
  write : ∀ state delay image, e.IsImage width height image →
    ∃ state', e.write state ⟨delay, image⟩ = (.ok (), state')
  finish : ∀ state, ∃ file, e.finish state = .ok file

/-- The state after a frame that has been written. -/
def written (state : e.State) (frame : AnimationFrame e.Image) : Except String e.State :=
  match e.write state frame with
  | (.ok (), state) => .ok state
  | (.error reason, _) => .error reason

/-- The file of frames one after the other. -/
def file (frames : List (AnimationFrame e.Image)) : Except String Bytes := do
  let state ← e.create width height >>= e.repeatForever
  e.finish (← frames.foldlM e.written state)

/-- Files are read back if all frames are found in them, in their order and with their delays, and
    each of them shows what is to be seen of its image. -/
def IsReadBy {Picture : Type} (read : Bytes → List (AnimationFrame Picture))
    (shown : e.Image → Picture) : Prop :=
  ∀ frames file, (∀ frame ∈ frames, e.IsImage width height frame.image) →
    e.file width height frames = .ok file → read file = frames.map fun f => ⟨f.delay, shown f.image⟩

end AnimationEncoder

namespace AnimationWriter

/-! ## The start -/

theorem of_side?_eq_some {n : UInt32} {k : UInt16} (h : side? n = some k) :
    (0 < n.toNat ∧ n.toNat < 65536) ∧ k.toNat = n.toNat := by
  rw [side?] at h
  split at h
  case isTrue hn =>
    obtain rfl := Option.some.inj h
    exact ⟨hn, Nat.mod_eq_of_lt hn.2⟩
  case isFalse => cases h

variable {e : AnimationEncoder} {size : FrameSize} {fps : Float} {speed : UInt32}
  {w v : AnimationWriter e}

/-- What is so of a writer that has been started: the animation has two sides of one pixel at
    least, each of them in sixteen bits, and there are no frames yet. -/
structure IsStarted (size : FrameSize) (fps : Float) (speed : UInt32) (w : AnimationWriter e) :
    Prop where
  width : 0 < size.width.toNat ∧ size.width.toNat < 65536
  height : 0 < size.height.toNat ∧ size.height.toNat < 65536
  byteCount : w.byteCount = 4 * (size.width.toNat * size.height.toNat)
  delay : w.delay = frameDelay fps
  speed : w.speed = clampSpeed speed
  count : w.count = 0
  encoder : (e.create w.width w.height >>= e.repeatForever) = .ok w.encoder

theorem isStarted_of_start (h : start e size fps speed = .ok w) : w.IsStarted size fps speed := by
  rw [start] at h
  split at h
  case h_1 width height hwidth hheight =>
    obtain ⟨hw, hwn⟩ := of_side?_eq_some hwidth
    obtain ⟨hh, hhn⟩ := of_side?_eq_some hheight
    split at h
    case h_1 state hstate =>
      obtain rfl := Except.ok.inj h
      refine ⟨hw, hh, ?_, rfl, rfl, rfl, hstate⟩
      rw [AnimationWriter.byteCount, hwn, hhn, Nat.mul_comm 4]
    case h_2 => cases h
  case h_2 => cases h

/-! ## One frame -/

/-- What is written for pixels. -/
def frame (w : AnimationWriter e) (pixels : Bytes) : AnimationFrame e.Image :=
  ⟨w.delay, (e.quantize w.width w.height w.speed pixels).1⟩

/-- A writer is of the same animation as another one: it differs in no more than what has been
    written. -/
structure SameKind (w v : AnimationWriter e) : Prop where
  width : v.width = w.width
  height : v.height = w.height
  delay : v.delay = w.delay
  speed : v.speed = w.speed

theorem SameKind.refl (w : AnimationWriter e) : SameKind w w := ⟨rfl, rfl, rfl, rfl⟩

theorem SameKind.byteCount (h : SameKind w v) : v.byteCount = w.byteCount := by
  rw [AnimationWriter.byteCount, h.width, h.height, AnimationWriter.byteCount]

theorem SameKind.frame (h : SameKind w v) : v.frame = w.frame := by
  funext pixels
  rw [AnimationWriter.frame, h.delay, h.width, h.height, h.speed, AnimationWriter.frame]

theorem SameKind.isReliable (h : SameKind w v) (he : e.IsReliable w.width w.height) :
    e.IsReliable v.width v.height := by
  rw [h.width, h.height]
  exact he

/-- A frame that has its size is written, and counted. -/
theorem offer_taken (he : e.IsReliable v.width v.height) {pixels : Bytes}
    (h : pixels.length = v.byteCount) :
    (v.offer pixels).1 = .ok () ∧ SameKind v (v.offer pixels).2 ∧
      (v.offer pixels).2.count = v.count + 1 ∧
      e.written v.encoder (v.frame pixels) = .ok (v.offer pixels).2.encoder := by
  obtain ⟨state, hstate⟩ := he.write v.encoder v.delay _ ⟨v.speed, pixels, h, rfl⟩
  rw [offer, if_pos h, write]
  simp only [hstate]
  refine ⟨trivial, ⟨rfl, rfl, rfl, rfl⟩, trivial, ?_⟩
  rw [AnimationEncoder.written, frame, hstate]

/-- Any other frame leaves everything as it was. -/
theorem offer_refused (v : AnimationWriter e) {pixels : Bytes} (h : pixels.length ≠ v.byteCount) :
    v.offer pixels = (.error (v.refusal pixels), v) := if_neg h

theorem SameKind.offer (h : SameKind w v) (he : e.IsReliable w.width w.height) (pixels : Bytes) :
    SameKind w (v.offer pixels).2 := by
  by_cases hlength : pixels.length = v.byteCount
  · obtain ⟨-, hsame, -⟩ := offer_taken (h.isReliable he) hlength
    exact ⟨hsame.width.trans h.width, hsame.height.trans h.height, hsame.delay.trans h.delay,
      hsame.speed.trans h.speed⟩
  · rw [v.offer_refused hlength]
    exact h

theorem SameKind.offer_fst (h : SameKind w v) (he : e.IsReliable w.width w.height)
    (pixels : Bytes) :
    (v.offer pixels).1 =
      if pixels.length = w.byteCount then .ok () else .error (w.refusal pixels) := by
  rw [← h.byteCount]
  split
  case isTrue hlength => exact (offer_taken (h.isReliable he) hlength).1
  case isFalse hlength =>
    rw [v.offer_refused hlength, refusal, refusal, h.byteCount, h.width, h.height]

/-! ## Any number of frames -/

/-- Frames that are taken are written one after the other, and counted. -/
theorem attempts_taken (h : SameKind w v) (he : e.IsReliable w.width w.height) {frames : List Bytes}
    (hframes : ∀ pixels ∈ frames, pixels.length = w.byteCount) :
    (frames.map w.frame).foldlM e.written v.encoder = .ok (attempts offer v frames).2.encoder ∧
      (attempts offer v frames).2.count = v.count + frames.length := by
  induction frames generalizing v with
  | nil => exact ⟨rfl, rfl⟩
  | cons pixels frames ih =>
    have hlength : pixels.length = v.byteCount :=
      (hframes pixels List.mem_cons_self).trans h.byteCount.symm
    obtain ⟨-, -, hone, hwritten⟩ := offer_taken (h.isReliable he) hlength
    obtain ⟨hall, hcount⟩ := ih (h.offer he pixels) fun later hlater =>
      hframes later (List.mem_cons_of_mem _ hlater)
    rw [attempts_cons, List.map_cons, List.foldlM_cons, ← h.frame, hwritten, h.frame]
    exact ⟨hall, by rw [hcount, hone, List.length_cons]; omega⟩

/-- Frames that are offered to an animation of an admissible size, whatever encodes it without
    failing, are taken exactly if they have its size, and these are counted. Afterwards the writer
    is as if those that were refused had never been offered. It is finished exactly if a frame was
    taken, and then its file is what the encoder makes of the frames that were taken, one for each,
    in their order and all with the delay of the rate. So this is what is found in it by whoever
    reads such files. -/
theorem attempts_offer (h : start e size fps speed = .ok w) (he : e.IsReliable w.width w.height)
    (frames : List Bytes) :
    let run := attempts offer w frames
    let taken := frames.filter (·.length = 4 * (size.width.toNat * size.height.toNat))
    let written (pixels : Bytes) : AnimationFrame e.Image :=
      ⟨frameDelay fps, (e.quantize w.width w.height (clampSpeed speed) pixels).1⟩
    run.1 = frames.map (fun pixels =>
        if pixels.length = 4 * (size.width.toNat * size.height.toNat) then .ok ()
        else .error (w.refusal pixels)) ∧
      run.2.count = taken.length ∧
      run.2 = (attempts offer w taken).2 ∧
      (taken = [] → run.2.finish = .error (.conversion "no frames were decoded for the GIF")) ∧
      (taken ≠ [] → ∃ file, run.2.finish = .ok file ∧
        e.file w.width w.height (taken.map written) = .ok file ∧
        ∀ {Picture : Type} (read : Bytes → List (AnimationFrame Picture)) (shown : e.Image → Picture),
          e.IsReadBy w.width w.height read shown →
          read file = taken.map fun pixels => ⟨frameDelay fps, shown (written pixels).image⟩) := by
  intro run taken written
  have hstart := isStarted_of_start h
  have hbytes := hstart.byteCount
  have hkind : ∀ {v : AnimationWriter e}, SameKind w v →
      ∀ pixels, SameKind w (v.offer pixels).2 := fun hv pixels => hv.offer he pixels
  have hlast : run.2 = (attempts offer w taken).2 := by
    refine attempts_snd (p := SameKind w) hkind (fun {v} hv {pixels} hfits => ?_) (.refl w) frames
    rw [decide_eq_false_iff_not, ← hbytes, ← hv.byteCount] at hfits
    rw [v.offer_refused hfits]
  have htaken : ∀ pixels ∈ taken, pixels.length = w.byteCount := fun pixels hpixels => by
    rw [hbytes]
    exact of_decide_eq_true (List.mem_filter.1 hpixels).2
  obtain ⟨hall, hcount⟩ := attempts_taken (.refl w) he htaken
  rw [← hlast] at hall hcount
  rw [hstart.count, Nat.zero_add] at hcount
  have hwritten : w.frame = written := by
    funext pixels
    rw [frame, hstart.delay, hstart.speed]
  refine ⟨?_, hcount, hlast, fun hnone => ?_, fun hsome => ?_⟩
  · rw [← hbytes]
    exact attempts_fst (p := SameKind w) hkind (fun hv => hv.offer_fst he) (.refl w) frames
  · rw [finish, if_pos (by rw [hcount, hnone]; rfl)]
  · obtain ⟨file, hfile⟩ := he.finish run.2.encoder
    have hmade : e.file w.width w.height (taken.map written) = .ok file := by
      rw [AnimationEncoder.file, hstart.encoder, ← hwritten]
      show (taken.map w.frame).foldlM e.written w.encoder >>= e.finish = .ok file
      rw [hall]
      exact hfile
    refine ⟨file, ?_, hmade, fun read shown hread => ?_⟩
    · rw [finish, if_neg (by rw [hcount]; exact mt List.length_eq_zero_iff.1 hsome), hfile]
      rfl
    · rw [hread _ _ ?_ hmade, List.map_map]
      · rfl
      · intro f hf
        obtain ⟨pixels, hpixels, rfl⟩ := List.mem_map.1 hf
        exact ⟨_, pixels, htaken pixels hpixels, rfl⟩

end AnimationWriter

/-! ## Frames of two pixels -/

/-- The image of two pixels: the lower one of their colours and the other one, which of them is not
    seen, and which of them each pixel has. -/
structure PixelPair where
  low : Pixel
  high : Option Pixel
  unseen : Option Bool
  left : Bool
  right : Bool
  deriving DecidableEq, Repr, Inhabited

namespace PixelPair

/-- A pixel that is either opaque or not seen at all. -/
def harden (p : Pixel) : Pixel := if p.a = 0 then p else { p with a := 255 }

/-- The image of two hard pixels. The last one that is not seen makes its colour what is not
    seen. -/
def ofHard (p q : Pixel) : PixelPair :=
  let left := decide (q.toBytes < p.toBytes)
  let right := decide (p.toBytes < q.toBytes)
  { low := if left then q else p
    high := if p = q then none else some (if left then p else q)
    unseen := if q.a = 0 then some right else if p.a = 0 then some left else none
    left, right }

/-- The bytes of a number, the lower one first. -/
def word (n : UInt16) : Bytes := [n.toUInt8, (n >>> 8).toUInt8]

/-- A truth value as a byte. -/
def bit : Bool → UInt8
  | false => 0
  | true => 1

/-- The colour of a pixel. -/
def color (p : Pixel) : Bytes := [p.r, p.g, p.b]

/-- What is seen of an image, pixel by pixel. -/
def shown (i : PixelPair) : List (Option Bytes) :=
  [i.left, i.right].map fun high =>
    if i.unseen = some high then none
    else some (if high then i.high.elim [0, 0, 0] color else color i.low)

/-- The bytes of a frame: how it is shown, where, its two colours, and the pixels, each as a code of
    three bits, between one that clears the table of codes and one that ends them. -/
def block (width height : UInt16) (f : AnimationFrame PixelPair) : Bytes :=
  [0x21, 0xF9, 4, 4 + bit f.image.unseen.isSome, f.delay.toUInt8, (f.delay >>> 8).toUInt8,
      bit (f.image.unseen.getD false), 0] ++
    ([0x2C, 0, 0, 0, 0] ++ word width ++ word height ++ [0x80]) ++
    (color f.image.low ++ f.image.high.elim [0, 0, 0] color) ++
    [2, 2, 4 + 8 * bit f.image.left + 64 * bit f.image.right, 10, 0]

/-- A file as far as it has been written. -/
structure Draft where
  width : UInt16
  height : UInt16
  bytes : Bytes

/-- The bytes before all others: the kind of the file, its size, and two colours that no frame
    uses. -/
def head (width height : UInt16) : Bytes :=
  [0x47, 0x49, 0x46, 0x38, 0x39, 0x61] ++ word width ++ word height ++
    [0x80, 0, 0, 0, 0, 0, 0, 0, 0]

/-- The order to show the frames over and over. -/
def loop : Bytes :=
  [0x21, 0xFF, 11, 0x4E, 0x45, 0x54, 0x53, 0x43, 0x41, 0x50, 0x45, 0x32, 0x2E, 0x30, 3, 1, 0, 0, 0]

/-- An encoder of animations of two pixels. -/
abbrev encoder : AnimationEncoder where
  State := Draft
  Image := PixelPair
  create width height := .ok ⟨width, height, head width height⟩
  repeatForever s := .ok { s with bytes := s.bytes ++ loop }
  quantize _ _ _ pixels :=
    match Pixel.ofBytes pixels with
    | [p, q] => (ofHard (harden p) (harden q), (harden p).toBytes ++ (harden q).toBytes)
    | _ => (default, pixels)
  write s f := (.ok (), { s with bytes := s.bytes ++ block s.width s.height f })
  finish s := .ok (s.bytes ++ [0x3B])

/-- The frame of a block. -/
def readBlock (b : Bytes) : AnimationFrame (List (Option Bytes)) where
  delay := (b.getD 4 0).toUInt16 + 256 * (b.getD 5 0).toUInt16
  image := [8, 64].map fun unit =>
    let code := (b.getD 26 0).toNat / unit % 8
    if b.getD 3 0 = 5 ∧ (b.getD 6 0).toNat = code then none
    else some ((b.drop (18 + 3 * code)).take 3)

/-- The frames of so many blocks. -/
def readBlocks : Nat → Bytes → List (AnimationFrame (List (Option Bytes)))
  | 0, _ => []
  | n + 1, b => readBlock b :: readBlocks n (b.drop 29)

/-- The frames of a file. -/
def read (file : Bytes) : List (AnimationFrame (List (Option Bytes))) :=
  readBlocks ((file.length - 39) / 29) (file.drop 38)

theorem isReliable_encoder (width height : UInt16) : encoder.IsReliable width height :=
  ⟨fun _ _ _ _ => ⟨_, rfl⟩, fun _ => ⟨_, rfl⟩⟩

theorem foldlM_written (s : Draft) (frames : List (AnimationFrame PixelPair)) :
    frames.foldlM encoder.written s =
      .ok { s with bytes := s.bytes ++ frames.flatMap (block s.width s.height) } := by
  induction frames generalizing s with
  | nil =>
    rw [List.flatMap_nil, List.append_nil]
    rfl
  | cons f frames ih =>
    rw [List.foldlM_cons]
    show frames.foldlM encoder.written { s with bytes := s.bytes ++ block s.width s.height f } = _
    rw [ih, List.flatMap_cons, List.append_assoc]

theorem file_encoder (width height : UInt16) (frames : List (AnimationFrame PixelPair)) :
    encoder.file width height frames =
      .ok (head width height ++ loop ++ (frames.flatMap (block width height) ++ [0x3B])) := by
  show frames.foldlM encoder.written (⟨width, height, head width height ++ loop⟩ : Draft) >>=
    encoder.finish = _
  rw [foldlM_written]
  show Except.ok _ = Except.ok _
  rw [List.append_assoc]

theorem word_read (n : UInt16) :
    n.toUInt8.toUInt16 + (256 : UInt16) * (n >>> 8).toUInt8.toUInt16 = n := by
  have hn := n.toNat_lt
  rw [← UInt16.toNat_inj]
  simp [UInt16.toNat_add, UInt16.toNat_mul, UInt16.toNat_shiftRight, Nat.shiftRight_eq_div_pow]
  omega

theorem readBlock_block (width height : UInt16) (f : AnimationFrame PixelPair) (rest : Bytes) :
    readBlock (block width height f ++ rest) = ⟨f.delay, shown f.image⟩ := by
  have hdelay : (readBlock (block width height f ++ rest)).delay = f.delay := word_read f.delay
  have himage : (readBlock (block width height f ++ rest)).image = shown f.image := by
    obtain ⟨delay, low, high, unseen, left, right⟩ := f
    cases left <;> cases right <;> rcases unseen with _ | _ | _ <;> cases high <;>
      simp [readBlock, block, shown, word, color, bit]
  rw [← hdelay, ← himage]

theorem length_block (width height : UInt16) (f : AnimationFrame PixelPair) :
    (block width height f).length = 29 := by
  cases hhigh : f.image.high <;> simp [block, word, color, hhigh]

theorem readBlocks_blocks (width height : UInt16) (frames : List (AnimationFrame PixelPair))
    (rest : Bytes) :
    readBlocks frames.length (frames.flatMap (block width height) ++ rest) =
      frames.map fun f => ⟨f.delay, shown f.image⟩ := by
  induction frames with
  | nil => rfl
  | cons f frames ih =>
    rw [List.length_cons, readBlocks, List.flatMap_cons, List.append_assoc, readBlock_block,
      List.drop_left' (length_block width height f), ih, List.map_cons]

theorem length_blocks (width height : UInt16) (frames : List (AnimationFrame PixelPair)) :
    (frames.flatMap (block width height)).length = 29 * frames.length := by
  induction frames with
  | nil => rfl
  | cons f frames ih =>
    rw [List.flatMap_cons, List.length_append, length_block, ih, List.length_cons]
    omega

/-- What is written is read back. -/
theorem isReadBy_encoder (width height : UInt16) : encoder.IsReadBy width height read shown := by
  intro frames file _ hfile
  have hhead : (head width height ++ loop).length = 38 := rfl
  rw [file_encoder] at hfile
  obtain rfl := Except.ok.inj hfile
  have hcount : ((head width height ++ loop ++
      (frames.flatMap (block width height) ++ [0x3B])).length - 39) / 29 = frames.length := by
    rw [List.length_append, hhead, List.length_append, length_blocks, List.length_singleton]
    omega
  rw [read, hcount, List.drop_left' hhead, readBlocks_blocks]

end PixelPair

/-- Two frames of two pixels, and between them one that is too short. Alone, that one makes no
    animation. -/
theorem AnimationWriter.attempts_offer_pair :
    let first : Bytes := [255, 0, 0, 255, 0, 0, 255, 255]
    let last : Bytes := [0, 255, 0, 255, 9, 9, 9, 0]
    let refusal : Failure := .conversion "GIF frame has 3 bytes, expected 8 for 2x1"
    let file : Bytes :=
      [0x47, 0x49, 0x46, 0x38, 0x39, 0x61, 2, 0, 1, 0, 0x80, 0, 0, 0, 0, 0, 0, 0, 0,
        0x21, 0xFF, 11, 0x4E, 0x45, 0x54, 0x53, 0x43, 0x41, 0x50, 0x45, 0x32, 0x2E, 0x30, 3, 1, 0, 0, 0,
        0x21, 0xF9, 4, 4, 8, 0, 0, 0, 0x2C, 0, 0, 0, 0, 2, 0, 1, 0, 0x80, 0, 0, 255, 255, 0, 0,
        2, 2, 0x0C, 0x0A, 0,
        0x21, 0xF9, 4, 5, 8, 0, 1, 0, 0x2C, 0, 0, 0, 0, 2, 0, 1, 0, 0x80, 0, 255, 0, 9, 9, 9,
        2, 2, 0x44, 0x0A, 0,
        0x3B]
    let w : AnimationWriter PixelPair.encoder :=
      ⟨⟨2, 1, PixelPair.head 2 1 ++ PixelPair.loop⟩, 2, 1, 8, 30, [], 0⟩
    let run := attempts offer w [first, [1, 2, 3], last]
    start PixelPair.encoder ⟨2, 1⟩ 12.0 99 = .ok w ∧ PixelPair.encoder.IsReliable 2 1 ∧
      run.1 = [.ok (), .error refusal, .ok ()] ∧ run.2.count = 2 ∧
      run.2 = (attempts offer w [first, last]).2 ∧ run.2.finish = .ok file ∧
      PixelPair.read file = [⟨8, [some [255, 0, 0], some [0, 0, 255]]⟩,
        ⟨8, [some [0, 255, 0], none]⟩] ∧
      (attempts offer w [[1, 2, 3]]).2.finish =
        .error (.conversion "no frames were decoded for the GIF") := by
  intro first last refusal file w run
  have hdelay : frameDelay 12.0 = 8 := by decide +kernel
  have hstart : start PixelPair.encoder ⟨2, 1⟩ 12.0 99 = .ok w := by
    rw [start, hdelay]
    rfl
  have hreliable := PixelPair.isReliable_encoder 2 1
  obtain ⟨hresults, hcount, hlast, -, hfile⟩ :=
    attempts_offer hstart hreliable [first, [1, 2, 3], last]
  obtain ⟨-, -, -, hnone, -⟩ := attempts_offer hstart hreliable [[1, 2, 3]]
  have htaken : [first, [1, 2, 3], last].filter (·.length = 4 * ((2 : UInt32).toNat *
      (1 : UInt32).toNat)) = [first, last] := by decide
  rw [htaken] at hlast hfile
  obtain ⟨made, hfinish, hmade, hread⟩ := hfile (List.cons_ne_nil _ _)
  rw [hdelay, PixelPair.file_encoder] at hmade
  rw [hdelay] at hread
  obtain rfl : made = file := (Except.ok.inj hmade).symm.trans (by decide +kernel)
  have hrefusal : w.refusal [1, 2, 3] = refusal := by decide +kernel
  have hresults : run.1 = [.ok (), .error refusal, .ok ()] := by
    rw [← hrefusal]
    exact hresults
  exact ⟨hstart, hreliable, hresults, hcount, hlast, hfinish,
    hread _ _ (PixelPair.isReadBy_encoder 2 1), hnone rfl⟩

end VideoExport
