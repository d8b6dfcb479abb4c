import VideoExport.Directive.Document
import VideoExport.Proofs.Datum.RoundTrip
import VideoExport.Session.Message

/-!
# Messages survive the boundary

Requests, events and lists of directives cross the boundary as documents. Every
message whose numbers are finite is read back as it was, whatever is known and
whatever is left out, so that no two of them are written alike. Instants are
texts of their own, and are as good as these.

* `Message`, `Message.IsRegular`: what can be told without loss;
* `Message.encoded`, `Message.ofDatum?`: messages as documents;
* `Message.Survives`, `Message.survives`: what is read back.
-/

namespace VideoExport

open Datum

/-- A message of any kind. -/
inductive Message
  | request (r : Request)
  | event (e : Event)
  | directives (ds : List Directive)

/-! ## Numbers and instants in messages -/

/-- The numbers in a request that need not be whole. -/
def Request.floats : Request → List Float
  | transcode _ _ _ _ expectedDuration => expectedDuration.toList
  | extractSubtitles _ _ _ => []

/-- The numbers in an event that need not be whole. -/
def Event.floats : Event → List Float
  | progress _ u _ => u.fraction :: u.mediaTime :: (u.fps.toList ++ u.speed.toList)
  | subtitleCues _ cues => cues.flatMap fun c => [c.start, c.stop]
  | started _ | done _ _ _ _ | error _ _ _ | subtitleError _ _ => []

/-- The instants in an event. -/
def Event.instants : Event → List Timestamp
  | progress _ _ at_ => [at_]
  | started _ | done _ _ _ _ | error _ _ _ | subtitleCues _ _ | subtitleError _ _ => []

/-- The numbers in a directive that need not be whole. -/
def Directive.floats : Directive → List Float
  | trimStart s | trimDuration s => [s]
  | _ => []

/-! ## Requests -/

namespace Request

theorem written_datum {r : Request} (h : ∀ x ∈ r.floats, x.isFinite = true) :
    r.datum.written = r.datum := by
  cases r with
  | transcode jobId input directives output expectedDuration =>
    have hdirectives : (ofList .str directives).written = ofList .str directives :=
      written_ofList fun _ _ => rfl
    have hduration : (ofOption .float expectedDuration).written = ofOption .float expectedDuration :=
      written_ofOption fun x hx => written_float (h x (Option.mem_toList.2 hx))
    simp [datum, written, writtenFields, word64, hdirectives, hduration]
  | extractSubtitles requestId input track => rfl

/-- A request is read back as it was. -/
theorem ofDatum?_datum (r : Request) : ofDatum? r.datum = some r := by
  cases r with
  | transcode jobId input directives output expectedDuration =>
    have hdirectives : list? str? (ofList .str directives) = some directives :=
      list?_ofList fun _ _ => rfl
    have hduration : option? float? (ofOption .float expectedDuration) = some expectedDuration :=
      option?_ofOption (fun _ => rfl) fun _ _ => rfl
    have hsound : sound 126 (ofList .str directives) = true := sound_ofList fun _ _ => rfl
    have hsound' : sound 126 (ofOption .float expectedDuration) = true :=
      sound_ofOption fun _ _ => rfl
    rw [ofDatum?, datum, labelled?_map]
    · rw [ofFields?, fields?_map (by simp) (by simp [distinctNames])]
      simp [Fields.required, Fields.find?, Fields.maybe, word64?_word64, str?, hdirectives, hduration]
    · simp [soundFields, sound, maxDepth, word64, hsound, hsound']
    · simp
  | extractSubtitles requestId input track =>
    rw [ofDatum?, datum, labelled?_map]
    · rw [ofFields?, fields?_map (by simp) (by simp [distinctNames])]
      simp [Fields.required, Fields.find?, word64?_word64, str?]
    · rfl
    · simp

end Request

/-! ## Events -/

theorem Cue.written_datum {c : Cue Float} (hstart : c.start.isFinite = true)
    (hstop : c.stop.isFinite = true) : c.datum.written = c.datum := by
  simp [datum, written, writtenFields, hstart, hstop]

theorem Cue.ofDatum?_datum (c : Cue Float) : ofDatum? c.datum = some c := by
  rw [ofDatum?, datum, fields?_map (by simp) (by simp [distinctNames])]
  simp [Fields.required, Fields.find?, float?, str?]

theorem TrackIssue.ofDatum?_datum (i : TrackIssue) : ofDatum? i.datum = some i := by
  have htrack : option? word64? (ofOption .word64 i.track) = some i.track :=
    option?_ofOption (fun _ => rfl) fun n _ => word64?_word64 n
  rw [ofDatum?, datum, fields?_map (by simp) (by simp [distinctNames])]
  simp [Fields.required, Fields.maybe, Fields.find?, str?, htrack]

/-! ### Fields that may be left out -/

theorem find?_knownField {α : Type} (name other : String) (f : α → Datum) (x : Option α) :
    (knownField name f x).find? (·.1 == other) =
      if name = other then x.map fun a => (name, f a) else none := by
  rw [knownField]
  cases x <;> by_cases h : name = other <;> simp [h]

theorem fst_of_mem_knownField {α : Type} {name : String} {f : α → Datum} {x : Option α}
    {field : String × Datum} (h : field ∈ knownField name f x) : field.1 = name := by
  obtain ⟨a, -, rfl⟩ := Option.map_eq_some_iff.1 (Option.mem_toList.1 h)
  rfl

theorem writtenFields_knownField {α : Type} {name : String} {f : α → Datum} {x : Option α}
    (h : ∀ a ∈ x, (f a).written = f a) : writtenFields (knownField name f x) = knownField name f x := by
  rw [knownField]
  cases x with
  | none => rfl
  | some a => simp [writtenFields, h a rfl]

theorem soundFields_knownField {α : Type} {name : String} {f : α → Datum} {x : Option α} {depth : ℕ}
    (h : ∀ a, sound depth (f a) = true) : soundFields depth (knownField name f x) = true := by
  rw [knownField]
  cases x with
  | none => rfl
  | some a => simp [soundFields, h a]

namespace Event

/-- The fields of progress beside its name. -/
def progressFields (jobId : UInt64) (u : ProgressUpdate) (at_ : Timestamp) : List (String × Datum) :=
  [("job_id", .word64 jobId), ("fraction", .float u.fraction), ("media_time", .float u.mediaTime)] ++
    (knownField "frames" .word64 u.frames ++ (knownField "fps" .float u.fps ++
    (knownField "speed" .float u.speed ++ [("at", .str at_.text)])))

theorem datum_progress (jobId : UInt64) (u : ProgressUpdate) (at_ : Timestamp) :
    (progress jobId u at_).datum = .map (("type", .str "PROGRESS") :: progressFields jobId u at_) := by
  simp [datum, progressFields]

theorem written_progress {jobId : UInt64} {u : ProgressUpdate} {at_ : Timestamp}
    (h : ∀ x ∈ (progress jobId u at_).floats, x.isFinite = true) :
    (progress jobId u at_).datum.written = (progress jobId u at_).datum := by
  simp only [floats, List.mem_cons, List.mem_append, Option.mem_toList] at h
  have hframes : writtenFields (knownField "frames" .word64 u.frames) = _ :=
    writtenFields_knownField fun _ _ => rfl
  have hfps : writtenFields (knownField "fps" .float u.fps) = _ :=
    writtenFields_knownField fun x hx => written_float (h x (.inr (.inr (.inl hx))))
  have hspeed : writtenFields (knownField "speed" .float u.speed) = _ :=
    writtenFields_knownField fun x hx => written_float (h x (.inr (.inr (.inr hx))))
  rw [datum_progress, progressFields]
  simp [written, writtenFields, writtenFields_append, word64, hframes, hfps, hspeed,
    h u.fraction (.inl rfl), h u.mediaTime (.inr (.inl rfl))]

theorem find?_progressFields (jobId : UInt64) (u : ProgressUpdate) (at_ : Timestamp) (name : String) :
    Fields.find? ⟨false, progressFields jobId u at_⟩ name =
      (([("job_id", .word64 jobId), ("fraction", .float u.fraction),
          ("media_time", .float u.mediaTime)].find? (·.1 == name)).or
        ((if "frames" = name then u.frames.map fun n => ("frames", .word64 n) else none).or
        ((if "fps" = name then u.fps.map fun x => ("fps", .float x) else none).or
        ((if "speed" = name then u.speed.map fun x => ("speed", .float x) else none).or
        ([("at", .str at_.text)].find? (·.1 == name)))))).map (·.2) := by
  rw [Fields.find?, progressFields]
  simp only [List.find?_append, find?_knownField]

theorem ofDatum?_progress (jobId : UInt64) (u : ProgressUpdate) {at_ : Timestamp}
    (hat : Timestamp.read? at_.text = some at_) :
    ofDatum? (progress jobId u at_).datum = some (progress jobId u at_) := by
  have hnames : ∀ f ∈ progressFields jobId u at_,
      f.1 ∈ ["job_id", "fraction", "media_time", "frames", "fps", "speed", "at"] := by
    intro f hf
    simp only [progressFields, List.mem_append, List.mem_cons, List.not_mem_nil, or_false] at hf
    rcases hf with (rfl | rfl | rfl) | hf | hf | hf | rfl
    case inr.inl | inr.inr.inl | inr.inr.inr.inl =>
      rw [fst_of_mem_knownField hf]
      simp
    all_goals simp
  have hdistinct : distinctNames (progressFields jobId u at_) = true := by
    rw [progressFields, knownField, knownField, knownField]
    cases u.frames <;> cases u.fps <;> cases u.speed <;> simp [distinctNames]
  have hsound : soundFields (maxDepth - 1) (progressFields jobId u at_) = true := by
    have hframes : soundFields (maxDepth - 1) (knownField "frames" .word64 u.frames) = true :=
      soundFields_knownField fun _ => rfl
    have hfps : soundFields (maxDepth - 1) (knownField "fps" .float u.fps) = true :=
      soundFields_knownField fun _ => rfl
    have hspeed : soundFields (maxDepth - 1) (knownField "speed" .float u.speed) = true :=
      soundFields_knownField fun _ => rfl
    simp [progressFields, soundFields_append, soundFields, sound, word64, hframes, hfps, hspeed]
  have htag : ∀ f ∈ progressFields jobId u at_, f.1 ≠ "type" := by
    intro f hf he
    simpa [he] using hnames f hf
  rw [ofDatum?, datum_progress, labelled?_map hsound htag, ofFields?, progressOfFields?,
    fields?_map hnames hdistinct]
  have hfind := find?_progressFields jobId u at_
  have hframes := Fields.orElse_of_find? (by simpa [Function.comp_def] using hfind "frames")
    (fun _ => rfl) fun n _ => word64?_word64 n
  have hfloat : ∀ x, float? (.float x) = some x := fun _ => rfl
  have hfps := Fields.orElse_of_find? (by simpa [Function.comp_def] using hfind "fps")
    (fun _ => rfl) fun x _ => hfloat x
  have hspeed := Fields.orElse_of_find? (by simpa [Function.comp_def] using hfind "speed")
    (fun _ => rfl) fun x _ => hfloat x
  simp [Fields.required, hfind, hframes, hfps, hspeed, float?, word64?_word64, str?, hat]

theorem written_datum {e : Event} (h : ∀ x ∈ e.floats, x.isFinite = true) :
    e.datum.written = e.datum := by
  cases e with
  | started jobId | subtitleError requestId message => rfl
  | progress jobId u at_ => exact written_progress h
  | done jobId output mimeType bytes =>
    have hbytes : (ofList .word8 bytes).written = ofList .word8 bytes := written_ofList fun _ _ => rfl
    simp [datum, written, writtenFields, word64, hbytes]
  | error jobId message issues =>
    have hissue : ∀ i ∈ issues, i.datum.written = i.datum := by
      rintro ⟨_ | n, reason⟩ - <;> rfl
    have hissues := written_ofList hissue
    rw [datum]
    split <;> simp [written, writtenFields, word64, hissues]
  | subtitleCues requestId cues =>
    have hcue : ∀ c ∈ cues, c.datum.written = c.datum := by
      intro c hc
      exact Cue.written_datum (h _ (List.mem_flatMap.2 ⟨c, hc, by simp⟩))
        (h _ (List.mem_flatMap.2 ⟨c, hc, by simp⟩))
    have hcues := written_ofList hcue
    simp [datum, written, writtenFields, word64, hcues]

/-- An event is read back as it was, if its instant is. -/
theorem ofDatum?_datum {e : Event} (h : ∀ t ∈ e.instants, Timestamp.read? t.text = some t) :
    ofDatum? e.datum = some e := by
  cases e with
  | started jobId =>
    rw [ofDatum?, datum, labelled?_map rfl (by simp), ofFields?,
      fields?_map (by simp) (by simp [distinctNames])]
    simp [Fields.required, Fields.find?, word64?_word64]
  | subtitleError requestId message =>
    rw [ofDatum?, datum, labelled?_map rfl (by simp), ofFields?,
      fields?_map (by simp) (by simp [distinctNames])]
    simp [Fields.required, Fields.find?, word64?_word64, str?]
  | progress jobId u at_ => exact ofDatum?_progress jobId u (h at_ (List.mem_singleton_self at_))
  | done jobId output mimeType bytes =>
    have hbytes : list? word8? (ofList .word8 bytes) = some bytes :=
      list?_ofList fun n _ => word8?_word8 n
    have hsound : sound 126 (ofList .word8 bytes) = true := sound_ofList fun _ _ => rfl
    rw [ofDatum?, datum, labelled?_map]
    · rw [ofFields?, fields?_map (by simp) (by simp [distinctNames])]
      simp [Fields.required, Fields.find?, word64?_word64, str?, hbytes]
    · simp [soundFields, sound, maxDepth, word64, hsound]
    · simp
  | error jobId message issues =>
    have hissues : list? TrackIssue.ofDatum? (ofList TrackIssue.datum issues) = some issues :=
      list?_ofList fun i _ => i.ofDatum?_datum
    have hsound : sound 126 (ofList TrackIssue.datum issues) = true := by
      refine sound_ofList fun i _ => ?_
      obtain ⟨_ | n, reason⟩ := i <;> rfl
    cases issues with
    | nil =>
      show labelled? "type" ofFields?
        (.map (("type", .str "ERROR") :: [("job_id", .word64 jobId), ("message", .str message)])) = _
      rw [labelled?_map rfl (by simp), ofFields?, fields?_map (by simp) (by simp [distinctNames])]
      simp [Fields.required, Fields.orElse, Fields.find?, word64?_word64, str?]
    | cons issue rest =>
      show labelled? "type" ofFields? (.map (("type", .str "ERROR") :: [("job_id", .word64 jobId),
        ("message", .str message), ("issues", .ofList TrackIssue.datum (issue :: rest))])) = _
      rw [labelled?_map]
      · rw [ofFields?, fields?_map (by simp) (by simp [distinctNames])]
        simp [Fields.required, Fields.orElse, Fields.find?, word64?_word64, str?, hissues]
      · simp [soundFields, sound, maxDepth, word64, hsound]
      · simp
  | subtitleCues requestId cues =>
    have hcues : list? Cue.ofDatum? (ofList Cue.datum cues) = some cues :=
      list?_ofList fun c _ => c.ofDatum?_datum
    have hsound : sound 126 (ofList Cue.datum cues) = true := sound_ofList fun _ _ => rfl
    rw [ofDatum?, datum, labelled?_map]
    · rw [ofFields?, fields?_map (by simp) (by simp [distinctNames])]
      simp [Fields.required, Fields.find?, word64?_word64, hcues]
    · simp [soundFields, sound, maxDepth, word64, hsound]
    · simp

end Event

/-! ## Directives -/

theorem CodecValue.ofDatum?_datum (c : CodecValue) : ofDatum? c.datum = some c := by
  cases c <;> rfl

theorem Kbps.ofDatum?_datum (r : Kbps) : ofDatum? r.datum = some r := by
  rw [ofDatum?, datum, fields?_map (by simp) rfl]
  simp [Fields.required, Fields.find?, word32?_word32]

theorem MapTarget.ofDatum?_datum (m : MapTarget) : ofDatum? m.datum = some m := by
  cases m with
  | primaryVideo | allAudio | allSubtitles => rfl
  | track index =>
    show (word64? (word64 index)).map track = _
    rw [word64?_word64]
    rfl

namespace Directive

theorem written_datum {d : Directive} (h : ∀ x ∈ d.floats, x.isFinite = true) :
    d.datum.written = d.datum := by
  have hentry : d.entry.2.written = d.entry.2 := by
    cases d with
    | trimStart s | trimDuration s => exact written_float (h s (List.mem_singleton_self s))
    | videoCodec c | audioCodec c => cases c <;> rfl
    | map target => cases target <;> rfl
    | unknown tokens => exact written_ofList fun _ _ => rfl
    | _ => rfl
  simp [datum, written, writtenFields, hentry]

/-- A directive is read back from its name and its value. -/
theorem ofEntry?_entry (d : Directive) : ofEntry? d.entry.1 d.entry.2 = some d := by
  cases d with
  | videoCodec c | audioCodec c => simp [entry, ofEntry?, CodecValue.ofDatum?_datum]
  | videoRate r | audioRate r | maxRate r | bufferSize r => simp [entry, ofEntry?, Kbps.ofDatum?_datum]
  | qp n | crf n | threads n | quality n => simp [entry, ofEntry?, word32?_word32]
  | map target => simp [entry, ofEntry?, MapTarget.ofDatum?_datum]
  | unknown tokens =>
    have htokens : list? str? (ofList .str tokens) = some tokens := list?_ofList fun _ _ => rfl
    simp [entry, ofEntry?, htokens]
  | _ => rfl

theorem ofDatum?_datum (d : Directive) : ofDatum? d.datum = some d := by
  rw [ofDatum?, datum, tagged?_map (by decide), ofEntry?_entry]

theorem written_listDatum {ds : List Directive} (h : ∀ d ∈ ds, ∀ x ∈ d.floats, x.isFinite = true) :
    (listDatum ds).written = listDatum ds := by
  have hlist : (ofList datum ds).written = ofList datum ds :=
    written_ofList fun d hd => written_datum (h d hd)
  simp [listDatum, written, writtenFields, hlist]

/-- A list of directives is read back as it was. -/
theorem listOfDatum?_listDatum (ds : List Directive) : listOfDatum? (listDatum ds) = some ds := by
  have hlist : list? ofDatum? (ofList datum ds) = some ds := list?_ofList fun d _ => d.ofDatum?_datum
  rw [listOfDatum?, listDatum, fields?_map (by simp) rfl]
  simp [Fields.required, Fields.find?, hlist]

end Directive

/-! ## Messages -/

namespace Message

/-- The kind of a message, which its reader knows. -/
inductive Kind
  | request
  | event
  | directives

/-- The kind of a message. -/
def kind : Message → Kind
  | request _ => .request
  | event _ => .event
  | directives _ => .directives

/-- A message in documents. -/
def datum : Message → Datum
  | request r => r.datum
  | event e => e.datum
  | directives ds => Directive.listDatum ds

/-- What a message is when it has been written. -/
def encoded (m : Message) : Datum := m.datum.written

/-- The message of a kind that a document describes. -/
def ofDatum? : Kind → Taker Message
  | .request => fun d => (Request.ofDatum? d).map request
  | .event => fun d => (Event.ofDatum? d).map event
  | .directives => fun d => (Directive.listOfDatum? d).map directives

/-- The numbers in a message that need not be whole. -/
def floats : Message → List Float
  | request r => r.floats
  | event e => e.floats
  | directives ds => ds.flatMap Directive.floats

/-- The instants in a message. -/
def instants : Message → List Timestamp
  | event e => e.instants
  | request _ | directives _ => []

/-- A message with nothing in it that cannot be told: its numbers are finite,
    and texts of its instants are read as these. -/
structure IsRegular (m : Message) : Prop where
  finite : ∀ x ∈ m.floats, x.isFinite = true
  instants : ∀ t ∈ m.instants, Timestamp.read? t.text = some t

/-- A message is read back, and it is told apart from all others. -/
structure Survives (m : Message) : Prop where
  read : ofDatum? m.kind m.encoded = some m
  unique : ∀ m' : Message, m'.IsRegular → m'.encoded = m.encoded → m' = m

/-- Nothing of a message is lost when it is written. -/
theorem encoded_eq {m : Message} (h : m.IsRegular) : m.encoded = m.datum := by
  cases m with
  | request r => exact Request.written_datum h.finite
  | event e => exact Event.written_datum h.finite
  | directives ds =>
    exact Directive.written_listDatum fun d hd x hx => h.finite x (List.mem_flatMap.2 ⟨d, hd, hx⟩)

/-- A message is read back by who knows its kind. -/
theorem ofDatum?_encoded {m : Message} (h : m.IsRegular) : ofDatum? m.kind m.encoded = some m := by
  rw [encoded_eq h]
  cases m with
  | request r => exact congrArg (Option.map request) r.ofDatum?_datum
  | event e => exact congrArg (Option.map event) (Event.ofDatum?_datum h.instants)
  | directives ds => exact congrArg (Option.map directives) (Directive.listOfDatum?_listDatum ds)

/-- The kind that the first field of a document tells. -/
def Kind.told? : Datum → Option Kind
  | .map (("type", .str type) :: _) =>
    some (if type ∈ ["TRANSCODE", "EXTRACT_SUBTITLES"] then .request else .event)
  | .map (("directives", _) :: _) => some .directives
  | _ => none

theorem told?_datum (m : Message) : Kind.told? m.datum = some m.kind := by
  cases m with
  | request r => cases r <;> simp [datum, Request.datum, Kind.told?, kind]
  | event e => cases e <;> simp [datum, Event.datum, Kind.told?, kind]
  | directives ds => rfl

/-- Messages whose numbers are finite survive, if the texts of instants do. -/
theorem survives {m : Message} (h : m.IsRegular) : m.Survives where
  read := ofDatum?_encoded h
  unique := by
    intro m' h' he
    have hkind : m'.kind = m.kind := by
      rw [encoded_eq h, encoded_eq h'] at he
      exact Option.some.inj (by rw [← told?_datum, he, told?_datum])
    have hread := ofDatum?_encoded h'
    rw [hkind, he, ofDatum?_encoded h] at hread
    exact (Option.some.inj hread).symm

/-- So does progress of which the frames are known and the rates are not. -/
theorem survives_progress :
    let m := event (.progress 3 ⟨0.5, 4.25, some 120, none, none⟩ ⟨1700000000, 123456789⟩)
    m.IsRegular ∧ m.Survives := by
  intro m
  have h : m.IsRegular :=
    { finite := by
        rintro x (_ | ⟨_, _ | ⟨_, hx⟩⟩)
        · decide
        · decide
        · cases hx
      instants := by
        intro t ht
        cases List.mem_singleton.1 ht
        decide +kernel }
  exact ⟨h, survives h⟩

end Message

end VideoExport
