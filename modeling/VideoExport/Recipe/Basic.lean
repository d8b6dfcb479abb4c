import VideoExport.Directive.Basic
import VideoExport.Filter.Chain

/-!
# Recipes

Whoever carries out a plan has its directives and the name of its output. A
recipe is what these say, put in order: what each kind of track is encoded
with, which tracks are wanted, and how frames are filtered. Of directives that
contradict each other the last one counts; those that nobody understands are
put aside.

* `Recipe.ofDirectives`, `Recipe.read`: the recipe of directives and tokens;
* `Recipe.settle`: what is transcoded is not copied.
-/

namespace VideoExport

/-- How video is encoded. -/
structure VideoRecipe where
  codec : Option String
  copy : Bool
  transcode : Bool
  kbps : Option UInt32
  maxKbps : Option UInt32
  bufferKbps : Option UInt32
  crf : Option UInt32
  qp : Option UInt32
  speed : Option String
  quality : Option UInt32
  deriving DecidableEq, Repr, Inhabited

/-- How sound is encoded. -/
structure AudioRecipe where
  codec : Option String
  copy : Bool
  transcode : Bool
  kbps : Option UInt32
  deriving DecidableEq, Repr, Inhabited

/-- What directives say, put in order. -/
structure Recipe where
  container : Container
  trimStart : Option Float
  trimDuration : Option Float
  video : VideoRecipe
  audio : AudioRecipe
  subtitleCodec : Option String
  filters : Filters
  primaryVideo : Bool
  allAudio : Bool
  allSubtitles : Bool
  /-- The indices of tracks that are asked for one by one, in order and without
      repetitions. -/
  tracks : List UInt64
  threads : Option UInt32
  /-- The tokens that nobody understands. -/
  ignored : List String
  deriving Inhabited

/-- Nothing said about video. -/
def VideoRecipe.empty : VideoRecipe :=
  ⟨none, false, false, none, none, none, none, none, none, none⟩

/-- Nothing said about sound. -/
def AudioRecipe.empty : AudioRecipe := ⟨none, false, false, none⟩

/-- The way in which the encoder's rate is controlled: a quantizer comes
    before a quality and this before a rate. -/
def VideoRecipe.rateMode? (v : VideoRecipe) : Option RateMode :=
  if v.qp.isSome then some .qp
  else if v.crf.isSome then some .crf
  else if v.kbps.isSome then some .bitrate
  else none

namespace Recipe

/-- A recipe for a container that says nothing else. -/
def empty (k : Container) : Recipe where
  container := k
  trimStart := none
  trimDuration := none
  video := .empty
  audio := .empty
  subtitleCodec := none
  filters := .none
  primaryVideo := false
  allAudio := false
  allSubtitles := false
  tracks := []
  threads := none
  ignored := []

/-- An ordered list of indices with one more. -/
def insertTrack (index : UInt64) : List UInt64 → List UInt64
  | [] => [index]
  | i :: rest =>
    if index < i then index :: i :: rest
    else if index = i then i :: rest
    else i :: insertTrack index rest

/-- A recipe with one more codec for video. -/
def withVideoCodec (r : Recipe) : CodecValue → Recipe
  | .copy => { r with video := { r.video with codec := none, copy := true } }
  | .named name =>
    { r with video := { r.video with codec := some name, copy := false, transcode := true } }

/-- A recipe with one more codec for sound. -/
def withAudioCodec (r : Recipe) : CodecValue → Recipe
  | .copy => { r with audio := { r.audio with codec := none, copy := true } }
  | .named name =>
    { r with audio := { r.audio with codec := some name, copy := false, transcode := true } }

/-- A recipe with one more chain of filters. -/
def withChain (r : Recipe) (chain : String) : Recipe :=
  let items := FilterItem.ofChain chain
  { r with
    filters := r.filters.append items
    video := { r.video with transcode := r.video.transcode || items.any FilterItem.needsFrames } }

/-- A recipe with one more target. -/
def withTarget (r : Recipe) : MapTarget → Recipe
  | .primaryVideo => { r with primaryVideo := true }
  | .allAudio => { r with allAudio := true }
  | .allSubtitles => { r with allSubtitles := true }
  | .track index => { r with tracks := insertTrack index r.tracks }

/-- A recipe with one more directive. -/
def apply (r : Recipe) : Directive → Recipe
  | .trimStart s => { r with trimStart := some s }
  | .trimDuration s => { r with trimDuration := some s }
  | .videoCodec c => r.withVideoCodec c
  | .audioCodec c => r.withAudioCodec c
  | .subtitleCodec name => { r with subtitleCodec := some name }
  | .videoRate rate =>
    { r with video := { r.video with kbps := some rate.kbps, transcode := true } }
  | .audioRate rate =>
    { r with audio := { r.audio with kbps := some rate.kbps, transcode := true } }
  | .maxRate rate => { r with video := { r.video with maxKbps := some rate.kbps } }
  | .bufferSize rate => { r with video := { r.video with bufferKbps := some rate.kbps } }
  | .qp n => { r with video := { r.video with qp := some n, crf := none } }
  | .crf n => { r with video := { r.video with crf := some n, qp := none } }
  | .speed name => { r with video := { r.video with speed := some name } }
  | .videoFilter chain => r.withChain chain
  | .map target => r.withTarget target
  | .threads n => { r with threads := some n }
  | .quality n => { r with video := { r.video with quality := some n } }
  | .unknown tokens => { r with ignored := r.ignored ++ tokens }

/-- A recipe in which nothing is both transcoded and copied. -/
def settle (r : Recipe) : Recipe :=
  { r with
    video := { r.video with copy := r.video.copy && !r.video.transcode }
    audio := { r.audio with copy := r.audio.copy && !r.audio.transcode } }

/-- The recipe of a list of directives for an output of a name. -/
def ofDirectives (ds : List Directive) (output : String) : Recipe :=
  settle (ds.foldl apply (empty (Container.ofOutput output)))

/-- The recipe of a list of tokens for an output of a name. -/
def read (tokens : List String) (output : String) : Recipe :=
  ofDirectives (Directive.lex tokens) output

end Recipe

end VideoExport
