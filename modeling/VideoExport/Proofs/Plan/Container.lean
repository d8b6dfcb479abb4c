import VideoExport.Proofs.Plan.Compile
import VideoExport.Proofs.Plan.Output
import VideoExport.Proofs.Recipe.Core
import VideoExport.Worker.Basic

/-!
# The container of an output

Whoever carries out a plan is given directives and the name of an output, and takes the container
from this name alone. It is the container of the plan, whatever the source is called: a path with
any components, an empty name, or one that leads to a folder.

* `Recipe.container_read`: directives have no say in the container;
* `Container.IsToldBy`: what it means that a name tells a container;
* `Plan.isToldBy_fileName`: the name of the output of a plan tells its container.
-/

namespace VideoExport

/-! ## The name alone -/

namespace Recipe

/-- No directive changes the container of a recipe. -/
theorem governs_container : Governs (fun _ => false) (·.container) where
  congr := by
    intro r r' h d
    cases d with
    | videoCodec c => cases c <;> exact h
    | audioCodec c => cases c <;> exact h
    | map t => cases t <;> exact h
    | _ => exact h
  skip := by
    intro d _ r
    cases d with
    | videoCodec c => cases c <;> rfl
    | audioCodec c => cases c <;> rfl
    | map t => cases t <;> rfl
    | _ => rfl

/-- The container of what is read is that of the name of the output. -/
theorem container_read (tokens : List String) (output : String) :
    (read tokens output).container = Container.ofOutput output :=
  governs_container.foldl_skip (fun _ _ => rfl) (empty (Container.ofOutput output))

end Recipe

/-- A name of an output tells a container to everybody who is given the name. -/
structure Container.IsToldBy (k : Container) (name : String) : Prop where
  /-- The name does not lead into any folder. -/
  slash_notMem : '/' ∉ name.toList
  ofFileName?_eq : ofFileName? name = some k
  mimeType_eq : (ofOutput name).mimeType = k.mimeType
  /-- Whatever is to be done, it is understood to be done in this container. -/
  recipe_eq : ∀ tokens, (Recipe.read tokens name).container = k
  /-- So does every job that is admitted, for any source. -/
  job_eq : ∀ {passthrough id input tokens source hint j},
    Job.prepare passthrough id input name (Recipe.read tokens name) source hint = .ok j →
      j.recipe.container = k
  /-- The result is handed over under the name, as a file of this kind. -/
  done_eq : ∀ {c : Conversion}, c.output = name → ∀ bytes,
    c.terminal (.ok bytes) = .done c.jobId name k.mimeType bytes

/-- The name of an export tells its container. -/
theorem isToldBy_exportName (source : Source) (k : Container) :
    k.IsToldBy (exportName source k) where
  slash_notMem := slash_notMem_exportName source k
  ofFileName?_eq := ofFileName?_exportName source k
  mimeType_eq := by rw [ofOutput_exportName]
  recipe_eq tokens := by rw [Recipe.container_read, ofOutput_exportName]
  job_eq := by
    intro passthrough id input tokens source' hint j h
    have hrecipe : j.recipe = Recipe.read tokens (exportName source k) := by
      rw [Job.prepare] at h
      split at h
      · cases h
        rfl
      · cases h
    rw [hrecipe, Recipe.container_read, ofOutput_exportName]
  done_eq := by
    intro c hc bytes
    rw [Conversion.terminal, hc, ofOutput_exportName]

namespace Plan

variable {threads : Option UInt32} {s : Settings} {source : Source} {p : Plan}

/-- The output of a plan is named after the source, for the container that was asked for. -/
theorem output_eq (h : compile threads s source = .ok p) :
    p.output.container = s.container ∧ p.output.fileName = exportName source s.container := by
  obtain ⟨-, -, primary, -, hp⟩ := compile_eq_ok_iff.1 h
  rw [hp]
  split <;> exact ⟨rfl, rfl⟩

/-- The container of a plan is the one that was asked for, and the name of its output tells it,
    whatever the name of the source is. -/
theorem isToldBy_fileName (h : compile threads s source = .ok p) :
    p.output.container = s.container ∧ p.output.container.IsToldBy p.output.fileName := by
  obtain ⟨hcontainer, hname⟩ := output_eq h
  refine ⟨hcontainer, ?_⟩
  rw [hcontainer, hname]
  exact isToldBy_exportName source s.container

/-- So it is for a source in a folder whose name looks like that of a film, and for one that is
    a folder and has no file name at all. -/
theorem isToldBy_fileName_folder :
    (∃ p, compile none { Settings.default with container := .webm }
        { Source.sample with name := "films/summer.2024.MP4/." } = .ok p ∧
      p.output.fileName = "summer.2024_export.webm" ∧
      Container.webm.IsToldBy p.output.fileName) ∧
    ∃ p, compile none { Settings.default with container := .gif }
        { Source.sample with name := "films/.." } = .ok p ∧
      p.output.fileName = "export_export.gif" ∧ Container.gif.IsToldBy p.output.fileName := by
  constructor
  · obtain ⟨p, hp⟩ := exists_compile none { Settings.default with container := .webm }
      { Source.sample with name := "films/summer.2024.MP4/." } rfl rfl rfl
    obtain ⟨hcontainer, htold⟩ := isToldBy_fileName hp
    rw [hcontainer] at htold
    exact ⟨p, hp, (output_eq hp).2.trans (by decide +kernel), htold⟩
  · obtain ⟨p, hp⟩ := exists_compile none { Settings.default with container := .gif }
      { Source.sample with name := "films/.." } rfl rfl rfl
    obtain ⟨hcontainer, htold⟩ := isToldBy_fileName hp
    rw [hcontainer] at htold
    exact ⟨p, hp, (output_eq hp).2.trans (by decide +kernel), htold⟩

end Plan

end VideoExport
