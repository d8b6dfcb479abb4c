import VideoExport.Datum.Decode
import VideoExport.Datum.JsonText
import VideoExport.Proofs.Number.Arithmetic

/-!
# Taking back what was written

What is written into documents is taken out of them again, value by value and
field by field. Only numbers that are not finite are lost, as nothing but the
absence of a value can be written in their place.

* `Datum.written`: what is left of a document when it is written;
* `Datum.word64?_word64` and others: simple values;
* `Datum.list?_ofList`, `Datum.option?_ofOption`: lists and values that may be
  absent;
* `Datum.fields?_map`, `Datum.labelled?_map`, `Datum.tagged?_map`: records and
  alternatives.
-/

namespace VideoExport

open Number

namespace Datum

variable {α : Type}

/-! ## What is written -/

mutual

/-- A document as it is written: what is not finite or flawed is the absence of
    a value, and every text is between quotes. -/
def written : Datum → Datum
  | null | flawed => null
  | bool b => bool b
  | int n => int n
  | float x => if x.isFinite then float x else null
  | str s | plain s => str s
  | list items => list (writtenAll items)
  | map fields => map (writtenFields fields)

/-- `written` for each of a list of values. -/
def writtenAll : List Datum → List Datum
  | [] => []
  | d :: rest => written d :: writtenAll rest

/-- `written` for the value of each field. -/
def writtenFields : List (String × Datum) → List (String × Datum)
  | [] => []
  | (name, d) :: rest => (name, written d) :: writtenFields rest

end

mutual

/-- The text of a document is that of what is left of it. -/
theorem write_written (sp : Json.Spacing) (depth : ℕ) (d : Datum) :
    Json.write sp depth d.written = Json.write sp depth d := by
  cases d with
  | null | flawed | bool b | int n | str s | plain s => rfl
  | float x =>
    rw [written]
    split
    case isTrue => rfl
    case isFalse h =>
      rw [Json.write, Json.write, dataForm?, ofFloat?_eq_none (Bool.not_eq_true _ ▸ h)]
      rfl
  | list items => rw [written, Json.write, Json.write, writeItems_written]
  | map fields => rw [written, Json.write, Json.write, writeFields_written]

theorem writeItems_written (sp : Json.Spacing) (depth : ℕ) (items : List Datum) :
    Json.writeItems sp depth (writtenAll items) = Json.writeItems sp depth items := by
  cases items with
  | nil => rfl
  | cons d rest => rw [writtenAll, Json.writeItems, Json.writeItems, write_written, writeItems_written]

theorem writeFields_written (sp : Json.Spacing) (depth : ℕ) (fields : List (String × Datum)) :
    Json.writeFields sp depth (writtenFields fields) = Json.writeFields sp depth fields := by
  cases fields with
  | nil => rfl
  | cons field rest =>
    obtain ⟨name, d⟩ := field
    rw [writtenFields, Json.writeFields, Json.writeFields, write_written, writeFields_written]

end

theorem writtenFields_append (fields fields' : List (String × Datum)) :
    writtenFields (fields ++ fields') = writtenFields fields ++ writtenFields fields' := by
  induction fields with
  | nil => rfl
  | cons field rest ih => rw [List.cons_append, writtenFields, ih, writtenFields, List.cons_append]

theorem written_float {x : Float} (h : x.isFinite = true) : (float x).written = float x := by
  rw [written, if_pos h]

theorem written_ofList {f : α → Datum} {l : List α} (h : ∀ a ∈ l, (f a).written = f a) :
    (ofList f l).written = ofList f l := by
  have hall : writtenAll (l.map f) = l.map f := by
    induction l with
    | nil => rfl
    | cons a l ih =>
      rw [List.map_cons, writtenAll, h a List.mem_cons_self,
        ih fun b hb => h b (List.mem_cons_of_mem a hb)]
  rw [ofList, written, hall]

theorem written_ofOption {f : α → Datum} {x : Option α} (h : ∀ a ∈ x, (f a).written = f a) :
    (ofOption f x).written = ofOption f x := by
  cases x with
  | none => rfl
  | some a => exact h a rfl

/-! ## Nesting -/

theorem sound_ofList {f : α → Datum} {l : List α} {depth : ℕ}
    (h : ∀ a ∈ l, sound depth (f a) = true) : sound (depth + 1) (ofList f l) = true := by
  have hall : soundAll depth (l.map f) = true := by
    induction l with
    | nil => rfl
    | cons a l ih =>
      rw [List.map_cons, soundAll, h a List.mem_cons_self,
        ih fun b hb => h b (List.mem_cons_of_mem a hb)]
      rfl
  rw [ofList, sound]
  simpa using hall

theorem sound_ofOption {f : α → Datum} {x : Option α} {depth : ℕ}
    (h : ∀ a ∈ x, sound depth (f a) = true) : sound depth (ofOption f x) = true := by
  cases x with
  | none => rfl
  | some a => exact h a rfl

theorem soundFields_append (depth : ℕ) (fields fields' : List (String × Datum)) :
    soundFields depth (fields ++ fields') = (soundFields depth fields && soundFields depth fields') := by
  induction fields with
  | nil => rfl
  | cons field rest ih => rw [List.cons_append, soundFields, ih, soundFields, Bool.and_assoc]

/-! ## Values -/

theorem below?_int {bound n : ℕ} (h : n < bound) : below? bound (int n) = some n := by
  simp [below?, int?, h]

theorem word8?_word8 (n : UInt8) : word8? (word8 n) = some n := by
  rw [word8?, word8, below?_int n.toNat_lt, Option.map_some, UInt8.ofNat_toNat]

theorem word32?_word32 (n : UInt32) : word32? (word32 n) = some n := by
  rw [word32?, word32, below?_int n.toNat_lt, Option.map_some, UInt32.ofNat_toNat]

theorem word64?_word64 (n : UInt64) : word64? (word64 n) = some n := by
  rw [word64?, word64, below?_int n.toNat_lt, Option.map_some, UInt64.ofNat_toNat]

theorem list?_ofList {take : Taker α} {f : α → Datum} {l : List α}
    (h : ∀ a ∈ l, take (f a) = some a) : list? take (ofList f l) = some l := by
  show (l.map f).mapM take = some l
  induction l with
  | nil => rfl
  | cons a l ih =>
    rw [List.map_cons, List.mapM_cons, h a List.mem_cons_self,
      ih fun b hb => h b (List.mem_cons_of_mem a hb)]
    rfl

/-- What is there must not be written as the absence of a value. -/
theorem option?_ofOption {take : Taker α} {f : α → Datum} {x : Option α}
    (hnull : ∀ a, (f a).isNull = false) (h : ∀ a ∈ x, take (f a) = some a) :
    option? take (ofOption f x) = some x := by
  cases x with
  | none => rfl
  | some a => simp [option?, ofOption, hnull a, h a rfl]

/-! ## Records and alternatives -/

theorem fields?_map {names : List String} {entries : List (String × Datum)}
    (hnames : ∀ f ∈ entries, f.1 ∈ names) (hdistinct : distinctNames entries = true) :
    fields? names (map entries) = some ⟨false, entries⟩ := by
  have hknown : entries.filter (fun f => names.contains f.1) = entries :=
    List.filter_eq_self.2 fun f hf => List.contains_iff_mem.2 (hnames f hf)
  rw [fields?]
  exact (if_pos (by rw [hknown]; exact hdistinct)).trans (by rw [hknown])

/-- The name of an alternative is the only field of a record of its own. -/
theorem fields?_label {tag name : String} {fields : List (String × Datum)}
    (htag : ∀ f ∈ fields, f.1 ≠ tag) :
    fields? [tag] (map ((tag, .str name) :: fields)) = some ⟨false, [(tag, .str name)]⟩ := by
  have hknown : ((tag, .str name) :: fields).filter (fun f => [tag].contains f.1) =
      [(tag, .str name)] := by
    rw [List.filter_cons_of_pos (by simp), List.filter_eq_nil_iff.2]
    exact fun f hf => by simpa using htag f hf
  rw [fields?]
  exact (if_pos (by rw [hknown]; rfl)).trans (by rw [hknown])

/-- An alternative is taken from the fields beside its name. -/
theorem labelled?_map {tag name : String} {fields : List (String × Datum)}
    {take : String → Taker α} (hsound : soundFields (maxDepth - 1) fields = true)
    (htag : ∀ f ∈ fields, f.1 ≠ tag) :
    labelled? tag take (map ((tag, .str name) :: fields)) = take name (map fields) := by
  have hs : sound maxDepth (map ((tag, .str name) :: fields)) = true := by
    rw [sound, soundFields, hsound]
    rfl
  have hrest : ((tag, Datum.str name) :: fields).filter (·.1 != tag) = fields := by
    rw [List.filter_cons_of_neg (by simp)]
    exact List.filter_eq_self.2 fun f hf => bne_iff_ne.2 (htag f hf)
  rw [labelled?, if_pos hs]
  simp only [fields?_label htag, hrest]
  simp [Fields.required, Fields.find?, str?]

/-- An alternative is taken from its content. -/
theorem tagged?_map {tag content name : String} {d : Datum} {take : String → Taker α}
    (h : tag ≠ content) :
    tagged? tag content take (map [(tag, .str name), (content, d)]) = take name d := by
  have hfields : fields? [tag, content] (map [(tag, .str name), (content, d)]) =
      some ⟨false, [(tag, .str name), (content, d)]⟩ :=
    fields?_map (by simp) (by simp [distinctNames, h.symm])
  have hne : (tag == content) = false := beq_eq_false_iff_ne.2 h
  simp [tagged?, hfields, Fields.required, Fields.find?, choice?, hne]

end Datum

/-- A field that is there only if it has a value is taken as that. -/
theorem Fields.orElse_of_find? {α : Type} {fs : Fields} {name : String} {take : Taker α}
    {f : α → Datum} {x : Option α} (hfind : fs.find? name = x.map f)
    (hnull : ∀ a, (f a).isNull = false) (h : ∀ a ∈ x, take (f a) = some a) :
    fs.orElse name (Datum.option? take) none = some x := by
  rw [orElse, hfind]
  cases x with
  | none => rfl
  | some a => simp [Datum.option?, hnull a, h a rfl]

end VideoExport
