import VideoExport.Plan.Basic
import VideoExport.Proofs.Text.Pieces

/-!
# Names of outputs

An export is named after its source, with a mark and the extension of its
container. Whatever the name of the source is, with slashes, dots or nothing in
it, the container can be told from the name of the export.

* `slash_notMem_exportName`: the name of an export is a single component;
* `ofFileName?_exportName`, `ofOutput_exportName`: it tells the container.
-/

namespace VideoExport

open Text

namespace Text

/-- A component of a path has no slash. -/
theorem slash_notMem_of_fileName? {path name : String} (h : fileName? path = some name) :
    '/' ∉ name.toList := by
  have hlast : (pathParts path).getLast? = some name := by
    rw [fileName?] at h
    split at h
    · cases h
    · exact h
  have hmem : name ∈ splitOn '/' path := (List.mem_filter.1 (List.mem_of_getLast? hlast)).1
  obtain ⟨p, hp, rfl⟩ := List.mem_map.1 hmem
  rw [String.toList_ofList]
  exact Chars.not_mem_of_mem_splitOn hp

theorem Chars.mem_of_cutAt? {p : Char → Bool} {s a b : List Char} (h : cutAt? p s = some (a, b))
    {c : Char} (hc : c ∈ b) : c ∈ s := by
  induction s generalizing a with
  | nil => cases h
  | cons x s ih =>
    rw [cutAt?] at h
    split at h
    · cases h
      exact List.mem_cons_of_mem _ hc
    · obtain ⟨⟨a', b'⟩, hcut, he⟩ := Option.map_eq_some_iff.1 h
      cases he
      exact List.mem_cons_of_mem _ (ih hcut)

/-- The stem of a name is a part of it. -/
theorem mem_of_mem_splitExtension {name : String} {c : Char}
    (h : c ∈ (splitExtension name).1.toList) : c ∈ name.toList := by
  rw [splitExtension] at h
  split at h
  case h_3 ext stem hne hcut =>
    rw [String.toList_ofList, List.mem_reverse] at h
    exact List.mem_reverse.1 (Chars.mem_of_cutAt? hcut h)
  all_goals exact h

end Text

/-- What an export is named after is a single component of a path. -/
theorem Source.slash_notMem_stem (source : Source) : '/' ∉ source.stem.toList := by
  rw [stem]
  cases h : (Text.stem? source.name).filter (!·.isEmpty) with
  | none => decide
  | some stem =>
    obtain ⟨hstem, -⟩ := Option.filter_eq_some_iff.1 h
    obtain ⟨name, hname, rfl⟩ := Option.map_eq_some_iff.1 hstem
    exact fun hmem => slash_notMem_of_fileName? hname (mem_of_mem_splitExtension hmem)

/-- A name that ends in a dot and an extension, after more, has that extension. -/
theorem splitExtension_append {stem ext : String} (hstem : stem ≠ "") (hext : '.' ∉ ext.toList) :
    splitExtension (stem ++ "." ++ ext) = (stem, some ext) := by
  have hlist : (stem ++ "." ++ ext).toList.reverse =
      ext.toList.reverse ++ '.' :: stem.toList.reverse := by
    simp [String.toList_append]
  have hcut : Chars.cutAt? (· == '.') (stem ++ "." ++ ext).toList.reverse =
      some (ext.toList.reverse, stem.toList.reverse) := by
    rw [hlist]
    refine Chars.cutAt?_append (fun x hx => ?_) rfl
    exact beq_eq_false_iff_ne.2 fun he => hext (he ▸ List.mem_reverse.1 hx)
  rw [splitExtension]
  rw [hcut]
  split
  case h_1 he => cases he
  case h_2 he => simp at he; exact absurd he.2 hstem
  case h_3 e s _ he =>
    cases he
    simp

/-- The name of an export is a single component of a path. -/
theorem slash_notMem_exportName (source : Source) (k : Container) :
    '/' ∉ (exportName source k).toList := by
  rw [exportName, String.toList_append, String.toList_append, List.mem_append, List.mem_append,
    not_or, not_or]
  exact ⟨⟨source.slash_notMem_stem, by decide⟩, by cases k <;> decide⟩

/-- It is a file name of its own. -/
theorem fileName?_exportName (source : Source) (k : Container) :
    Text.fileName? (exportName source k) = some (exportName source k) := by
  -- The mark has an underscore, so the name is neither empty nor one of those that
  -- stand for a folder.
  have hmem : '_' ∈ (exportName source k).toList := by
    rw [exportName, String.toList_append, String.toList_append]
    exact List.mem_append_left _ (List.mem_append_right _ (by decide))
  have hne : ∀ other : String, '_' ∉ other.toList → exportName source k ≠ other :=
    fun other hother he => hother (he ▸ hmem)
  have hparts : pathParts (exportName source k) = [exportName source k] := by
    have hempty : (exportName source k).isEmpty = false := by
      rw [← Bool.not_eq_true, String.isEmpty_iff]
      exact hne "" (by decide)
    rw [pathParts, splitOn_eq_singleton (slash_notMem_exportName source k)]
    simp [hempty, hne "." (by decide)]
  rw [fileName?]
  rw [hparts, List.getLast?_singleton]
  split
  case h_1 he => exact absurd (Option.some.inj he) (hne ".." (by decide))
  case h_2 => rfl

/-- Its extension is that of the container. -/
theorem extension?_exportName (source : Source) (k : Container) :
    Text.extension? (exportName source k) = some k.extension := by
  have hname : exportName source k = source.stem ++ "_export" ++ "." ++ k.extension := by
    have hmark : ("_export." : String) = "_export" ++ "." := by rfl
    rw [exportName, hmark]
    simp only [String.append_assoc]
  rw [Text.extension?, fileName?_exportName, Option.bind_some, hname,
    splitExtension_append (by simp) (by cases k <;> decide)]

/-- The name of an export implies its container. -/
theorem ofFileName?_exportName (source : Source) (k : Container) :
    Container.ofFileName? (exportName source k) = some k := by
  rw [Container.ofFileName?, extension?_exportName, Option.bind_some, Container.key_extension,
    Container.alias?_extension]

/-- The name of an export tells its container. -/
theorem ofOutput_exportName (source : Source) (k : Container) :
    Container.ofOutput (exportName source k) = k := by
  rw [Container.ofOutput, ofFileName?_exportName]
  rfl

end VideoExport
