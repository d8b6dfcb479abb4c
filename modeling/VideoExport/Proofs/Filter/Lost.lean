import VideoExport.Proofs.Filter.Chain

/-!
# Resizes that are lost

A filter has sides with a sign, so it cannot say all sides that settings may
ask for. An expression with a longer one is kept, but no box is read of it, and
the crop after it belongs to nothing.

* `Resize.lostItems`: what is found of such a resize;
* `Resize.scans_filter`: that is all that is found.
-/

namespace VideoExport

open Number Text

theorem integer?_digits_eq_none {low high n : ℕ} (h : high ≤ n) :
    integer? low high (digits n) = none := by
  have hword : word? high (digits n) = none := by
    unfold word?
    simp only
    split
    case h_1 rest he => exact absurd (congrArg List.head? he) (head?_digits_ne rfl)
    case h_2 =>
      rw [digitsValue?_digits, Option.filter_some, decide_eq_false (by omega)]
      rfl
  unfold integer?
  split
  case h_1 rest he => exact absurd (congrArg List.head? he) (head?_digits_ne rfl)
  case h_2 => rw [hword]; rfl

theorem int32?_text_eq_none {n : UInt32} (h : ¬ n.toNat < signBit32) :
    int32? (Text.trim (Number.text n.toNat)) = none := by
  rw [(hasNoBlank_text _).trim, int32?, Number.text, String.toList_ofList,
    integer?_digits_eq_none (not_lt.1 h)]
  rfl

namespace FilterItem

theorem dimensions?_eq_none {args : String} {w h : UInt32} {rest : List String}
    (hargs : splitOn ':' args = Number.text w.toNat :: Number.text h.toNat :: rest)
    (hside : ¬ (w.toNat < signBit32 ∧ h.toNat < signBit32)) : dimensions? args = none := by
  rw [dimensions?]
  rw [hargs]
  by_cases hw : w.toNat < signBit32
  · have hh : ¬ h.toNat < signBit32 := fun hh => hside ⟨hw, hh⟩
    simp only [int32?_text hw, int32?_text_eq_none hh]
    rfl
  · simp only [int32?_text_eq_none hw]
    rfl

end FilterItem

namespace Resize

/-- What is found of a resize that does not fit. -/
def lostItems (r : Resize) : List FilterItem :=
  .unread r.scaleText :: (r.cropText?.map FilterItem.other).toList

theorem box?_args_eq_none {r : Resize} (h : ¬ r.Fits) :
    (Text.after? "scale=" r.scaleText).bind FilterItem.box? = none := by
  rw [scaleText, Text.after?_append, Option.bind_some, FilterItem.box?,
    FilterItem.dimensions?_eq_none (splitOn_args r) h, Option.map_none]

theorem single_scaleText {r : Resize} (h : ¬ r.Fits) :
    FilterItem.single r.scaleText = .unread r.scaleText := by
  have hafter : Text.after? "scale=" r.scaleText =
      some (Filter.size r.width r.height ++ fitWord r.fit) := Text.after?_append _ _
  have hbox := box?_args_eq_none h
  rw [hafter, Option.bind_some] at hbox
  rw [FilterItem.single]
  simp only [hafter, hbox]

/-- A crop on its own is like any other expression. -/
theorem scans_crop (size : String) :
    FilterItem.Scans ["crop=" ++ size] [.other ("crop=" ++ size)] := by
  have hscale : Text.after? "scale=" ("crop=" ++ size) = none := by
    simp [Text.after?, Chars.after?, String.toList_append]
  have heq : Text.after? "eq=" ("crop=" ++ size) = none := by
    simp [Text.after?, Chars.after?, String.toList_append]
  have hsingle : FilterItem.single ("crop=" ++ size) = .other ("crop=" ++ size) := by
    rw [FilterItem.single]
    simp only [hscale, heq]
  rw [← hsingle]
  refine FilterItem.scans_single (FilterItem.pair?_eq_none fun box hbox => ?_)
  rw [hscale] at hbox
  cases hbox

/-- No box is found of a resize that does not fit. -/
theorem scans_filter {r : Resize} (h : ¬ r.Fits) :
    FilterItem.Scans (FilterItem.expressions r.filter) r.lostItems := by
  have hscale : FilterItem.Scans [r.scaleText] [.unread r.scaleText] := by
    rw [← single_scaleText h]
    refine FilterItem.scans_single (FilterItem.pair?_eq_none fun box hbox => ?_)
    rw [box?_args_eq_none h] at hbox
    cases hbox
  rw [expressions_filter, item, FilterItem.texts, lostItems]
  refine hscale.append ?_
  rw [cropText?]
  by_cases hfit : r.fit = .cover
  · rw [if_pos hfit]
    exact scans_crop _
  · rw [if_neg hfit]
    exact FilterItem.scans_nil

end Resize

end VideoExport
