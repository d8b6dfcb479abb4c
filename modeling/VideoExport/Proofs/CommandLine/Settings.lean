import VideoExport.CommandLine.Commands
import VideoExport.Proofs.Settings.Layers

/-!
# The settings of a command

A command puts its settings together from what it says itself and from a file, if it names one.
The file has to be there, and it has to be understood as a whole.

* `Folder.play_bind_eq_ok_iff`: when a script that goes on after another one has a result;
* `SettingsArguments.Finds`: what a command finds in the file that it names;
* `SettingsArguments.play_resolve_eq_ok_iff`: the settings of a command in a folder.
-/

namespace VideoExport

namespace Folder

variable {α β : Type} {d : Folder}

/-- A script that goes on after another one has a result if both have one, the second one in the
    folder that the first one leaves behind. -/
theorem play_bind_eq_ok_iff {s : Script α} {f : α → Script β} {b : β} :
    (d.play (s >>= f)).1 = .ok b ↔
      ∃ a, (d.play s).1 = .ok a ∧ ((d.play s).2.2.play (f a)).1 = .ok b := by
  show (d.play (s.andThen f)).1 = .ok b ↔ _
  induction s generalizing d with
  | done a => simp [Script.andThen, play]
  | refuse why => simp [Script.andThen, play]
  | readText path next ih =>
    rw [Script.andThen, play, play]
    split <;> exact ih _
  | isFile path next ih => exact ih _
  | isThere path next ih => exact ih _
  | write path bytes next ih =>
    rw [Script.andThen, play, play]
    split <;> exact ih _
  | print line next ih => exact ih

theorem play_map_eq_ok_iff {s : Script α} {f : α → β} {b : β} :
    (d.play (f <$> s)).1 = .ok b ↔ ∃ a, (d.play s).1 = .ok a ∧ f a = b := by
  show (d.play (s >>= fun a => pure (f a))).1 = .ok b ↔ _
  rw [play_bind_eq_ok_iff]
  refine exists_congr fun a => and_congr_right fun _ => ?_
  show (Except.ok (f a) : Except Refusal β) = .ok b ↔ f a = b
  rw [Except.ok.injEq]

theorem play_ofExcept_eq_ok_iff {ε : Type} {why : ε → Refusal} {x : Except ε α} {a : α} :
    (d.play (Script.ofExcept why x)).1 = .ok a ↔ x = .ok a := by
  cases x <;> simp [Script.ofExcept, play]

theorem play_ofOption_eq_ok_iff {why : Refusal} {x : Option α} {a : α} :
    (d.play (Script.ofOption why x)).1 = .ok a ↔ x = some a := by
  cases x <;> simp [Script.ofOption, play]

/-- The text of a file is there if the file is, and if its bytes are a text. -/
theorem play_textOf_eq_ok_iff {path : String} {why : String → Refusal} {text : String} :
    (d.play (Script.textOf path why)).1 = .ok text ↔
      (d.file? path).bind Text.Utf8.text? = some text := by
  rw [Script.textOf, play]
  cases d.file? path with
  | none => simp [Script.ofExcept, play]
  | some bytes =>
    simp only [Option.map_some, Option.bind_some]
    cases Text.Utf8.text? bytes <;> simp [Script.ofExcept, play]

end Folder

namespace CommandLine.SettingsArguments

variable {a : SettingsArguments} {d : Folder} {source : Source} {defaultPreset : Option String}
  {s : Settings}

/-- What a command finds in a folder as the settings of its file: none if it names no file, and
    otherwise those that the text of the file writes in the notation of its name. -/
def Finds (a : SettingsArguments) (d : Folder) : Option Settings → Prop
  | none => a.file = none
  | some f => ∃ path text, a.file = some path ∧ (d.file? path).bind Text.Utf8.text? = some text ∧
      Settings.ofText? (.ofFileName path) text = some f

theorem play_load_eq_ok_iff {path : String} {f : Settings} : (d.play (load path)).1 = .ok f ↔
    ∃ text, (d.file? path).bind Text.Utf8.text? = some text ∧
      Settings.ofText? (.ofFileName path) text = some f := by
  simp only [load, Folder.play_bind_eq_ok_iff, Folder.play_textOf_eq_ok_iff,
    Folder.play_ofOption_eq_ok_iff]

/-- A command has settings if its file can be understood, where it names one, and these are then
    the valid settings each field of which is from the first layer that says anything about it:
    the command, the marks of the source, the file, or what is usual. -/
theorem play_resolve_eq_ok_iff : (d.play (a.resolve source defaultPreset)).1 = .ok s ↔
    ∃ file, a.Finds d file ∧ s.IsLayered a.overrides file source defaultPreset := by
  rw [resolve]
  cases h : a.file with
  | none =>
    simp only [Folder.play_bind_eq_ok_iff, Folder.play_ofExcept_eq_ok_iff,
      Overrides.resolve_eq_ok_iff]
    constructor
    · rintro ⟨file, ⟨⟩, hs⟩
      exact ⟨none, h, hs⟩
    · rintro ⟨_ | f, hfile, hs⟩
      · exact ⟨none, rfl, hs⟩
      · obtain ⟨path, -, hpath, -⟩ := hfile
        cases h.symm.trans hpath
  | some path =>
    simp only [Folder.play_bind_eq_ok_iff, Folder.play_ofExcept_eq_ok_iff,
      Overrides.resolve_eq_ok_iff, Folder.play_map_eq_ok_iff, play_load_eq_ok_iff]
    constructor
    · rintro ⟨_, ⟨f, ⟨text, htext, hf⟩, rfl⟩, hs⟩
      exact ⟨some f, ⟨path, text, h, htext, hf⟩, hs⟩
    · rintro ⟨_ | f, hfile, hs⟩
      · cases h.symm.trans hfile
      · obtain ⟨path', text, hpath, htext, hf⟩ := hfile
        cases h.symm.trans hpath
        exact ⟨some f, ⟨f, ⟨text, htext, hf⟩, rfl⟩, hs⟩

/-- The container and the frame rate of a file stand, and of two rate controls on the command line
    one counts. -/
example :
    let d := Folder.ofFiles [("s.json",
      "\x7b\"container\": \"webm\", \"gif\": \x7b\"fps\": 5\x7d\x7d".toUTF8.toList)]
    let o := { (default : Overrides) with
      bitrate := some 500, qp := some 20, audioTrack := some 1, noAudio := true,
      preset := some " WEB" }
    ((d.play (resolve ⟨some "s.json", o, none⟩ ⟨"clip.mkv", 8.0, []⟩ none)).1.toOption.map
      fun s => (s.container, s.animation, s.rateControl, s.audioTracks, s.preset)) =
      some (.webm, ⟨5, 10⟩, .bitrate 500, Selection.none, some "web") := by
  decide +kernel

end CommandLine.SettingsArguments

end VideoExport
