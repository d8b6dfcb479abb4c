import VideoExport.Media.Container

/-!
# Codecs

The codecs that an export can ask for. A codec has a name, by which probing
reports it, and an encoder, by which a command asks for it; either is accepted
where a codec is to be read, and so are some other spellings in use.

* `VideoCodec.read`, `AudioCodec.read`: a codec by any of its names;
* `VideoCodec.alias?_name`, `VideoCodec.alias?_encoder`: a codec's own names
  are names of it.
-/

namespace VideoExport

/-- The codecs to encode video with. -/
inductive VideoCodec
  | h264
  | hevc
  | vp9
  | av1
  deriving DecidableEq, Repr, Inhabited

namespace VideoCodec

/-- The name by which probing reports a codec. -/
def name : VideoCodec → String
  | h264 => "h264"
  | hevc => "hevc"
  | vp9 => "vp9"
  | av1 => "av1"

/-- The name of a codec's encoder. -/
def encoder : VideoCodec → String
  | h264 => "libx264"
  | hevc => "libx265"
  | vp9 => "libvpx-vp9"
  | av1 => "libsvtav1"

/-- The codec of a name in documents. -/
def named? : String → Option VideoCodec
  | "h264" => some h264
  | "hevc" => some hevc
  | "vp9" => some vp9
  | "av1" => some av1
  | _ => none

/-- The codec of a name in lower case. -/
def alias? : String → Option VideoCodec
  | "h264" | "avc" | "libx264" => some h264
  | "hevc" | "h265" | "libx265" => some hevc
  | "vp9" | "libvpx-vp9" => some vp9
  | "av1" | "libsvtav1" | "libaom-av1" => some av1
  | _ => none

/-- The codec of a name, with blanks around it or capitals in it. -/
def known? (text : String) : Option VideoCodec := alias? (Text.lower (Text.trim text))

/-- The codec of a name. -/
def read (text : String) : Except Failure VideoCodec :=
  match known? text with
  | some c => .ok c
  | none => .error (.unsupportedCodec (Text.lower (Text.trim text)))

theorem alias?_name (c : VideoCodec) : alias? c.name = some c := by cases c <;> rfl

theorem alias?_encoder (c : VideoCodec) : alias? c.encoder = some c := by cases c <;> rfl

end VideoCodec

/-- The codecs to encode sound with. -/
inductive AudioCodec
  | aac
  | opus
  | mp3
  | vorbis
  | flac
  deriving DecidableEq, Repr, Inhabited

namespace AudioCodec

/-- The name by which probing reports a codec. -/
def name : AudioCodec → String
  | aac => "aac"
  | opus => "opus"
  | mp3 => "mp3"
  | vorbis => "vorbis"
  | flac => "flac"

/-- The name of a codec's encoder. -/
def encoder : AudioCodec → String
  | aac => "aac"
  | opus => "libopus"
  | mp3 => "libmp3lame"
  | vorbis => "libvorbis"
  | flac => "flac"

/-- The codec of a name in documents. -/
def named? : String → Option AudioCodec
  | "aac" => some aac
  | "opus" => some opus
  | "mp3" => some mp3
  | "vorbis" => some vorbis
  | "flac" => some flac
  | _ => none

/-- The codec of a name in lower case. -/
def alias? : String → Option AudioCodec
  | "aac" => some aac
  | "opus" | "libopus" => some opus
  | "mp3" | "libmp3lame" => some mp3
  | "vorbis" | "libvorbis" => some vorbis
  | "flac" => some flac
  | _ => none

/-- The codec of a name. -/
def read (text : String) : Except Failure AudioCodec :=
  let key := Text.lower (Text.trim text)
  match alias? key with
  | some c => .ok c
  | none => .error (.unsupportedCodec key)

theorem alias?_name (c : AudioCodec) : alias? c.name = some c := by cases c <;> rfl

theorem alias?_encoder (c : AudioCodec) : alias? c.encoder = some c := by cases c <;> rfl

end AudioCodec

end VideoExport
