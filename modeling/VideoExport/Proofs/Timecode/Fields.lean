import VideoExport.Proofs.Number.Exact
import VideoExport.Proofs.Number.Field
import VideoExport.Proofs.Number.Sum
import VideoExport.Proofs.Text.Pieces
import VideoExport.Timecode

/-!
# What times say

A time is a numeral on its own, or has two or three fields between colons. It is read exactly if
it spells fields that are within their ranges, and nothing else is read. The ranges depend on how
numbers are reckoned, because a numeral may be rounded to the end of its range.

* `Fields`: what times say, and `Fields.IsSpelled` how it is written;
* `readChars_eq_ok_iff`: what is read;
* `Fields.value_rat`, `Fields.IsInRange.zero_le_value`: the time of fields in exact numbers;
* `Fields.IsInRange.exists_hasAmount`: and in numbers that round, where it stays finite.
-/

namespace VideoExport.Timecode

open Number Text Text.Chars

/-- What a time says: seconds alone, or also whole minutes, or hours as well. -/
inductive Fields
  | seconds (s : Decimal)
  | minutes (m : ℕ) (s : Decimal)
  | hours (h m : ℕ) (s : Decimal)
  deriving DecidableEq, Repr

namespace Fields

/-- The whole hours. -/
def hour : Fields → ℕ
  | seconds _ | minutes _ _ => 0
  | hours h _ _ => h

/-- The whole minutes. -/
def minute : Fields → ℕ
  | seconds _ => 0
  | minutes m _ | hours _ m _ => m

/-- The seconds, as they are written. -/
def second : Fields → Decimal
  | seconds s | minutes _ s | hours _ _ s => s

/-- A text is a numeral for the seconds, with whole numbers of 32 bits and colons before it. -/
def IsSpelled (text : List Char) : Fields → Prop
  | seconds s => Numeral.read? text = some (.finite s)
  | minutes m s => ∃ a b, text = a ++ ':' :: b ∧
      word? UInt32.size a = some m ∧ Numeral.read? b = some (.finite s)
  | hours h m s => ∃ a b c, text = a ++ ':' :: (b ++ ':' :: c) ∧
      word? UInt32.size a = some h ∧ word? UInt32.size b = some m ∧
      Numeral.read? c = some (.finite s)

section

variable (α : Type) [Quantity α]

/-- The seconds are finite and not negative, and they are below sixty if there are minutes, as
    these are if there are hours. -/
def IsInRange : Fields → Prop
  | seconds s => Quantity.isFinite (Quantity.ofDecimal s : α) = true ∧
      ¬ (Quantity.ofDecimal s : α) < Quantity.ofNat 0
  | minutes _ s => (Quantity.ofNat 0 : α) ≤ Quantity.ofDecimal s ∧
      (Quantity.ofDecimal s : α) < Quantity.ofNat 60
  | hours _ m s => m < 60 ∧ (Quantity.ofNat 0 : α) ≤ Quantity.ofDecimal s ∧
      (Quantity.ofDecimal s : α) < Quantity.ofNat 60

/-- The seconds of all fields together. -/
def value : Fields → α
  | seconds s => Quantity.ofDecimal s
  | minutes m s => total 0 m (Quantity.ofDecimal s)
  | hours h m s => total h m (Quantity.ofDecimal s)

end

end Fields

/-! ## Reading -/

variable {α : Type} [Quantity α] {s : List Char} {x : α}

theorem unit_eq_ok_iff {field : String} {n : ℕ} :
    unit field s = .ok n ↔ word? UInt32.size s = some n := by
  rw [unit]
  cases word? UInt32.size s <;> simp

theorem secondsField_eq_ok_iff : secondsField s = .ok x ↔
    ∃ d, Numeral.read? s = some (.finite d) ∧ (Quantity.ofNat 0 : α) ≤ Quantity.ofDecimal d ∧
      (Quantity.ofDecimal d : α) < Quantity.ofNat 60 ∧ Quantity.ofDecimal d = x := by
  rw [secondsField]
  split
  case h_2 d hd =>
    rw [hd]
    simp only
    split
    case isTrue h => simp [h]
    case isFalse h => simp_all
  all_goals simp [*]

theorem readChars_of_numeral {n : Numeral} (h : Numeral.read? s = some n) :
    readChars s = .ok x ↔ ∃ d, n = .finite d ∧ (Fields.seconds d).IsInRange α ∧
      Quantity.ofDecimal d = x := by
  rw [readChars]
  rw [h]
  simp only [plainSeconds]
  cases n with
  | infinite | undefined => simp
  | finite d =>
    simp only [Fields.IsInRange]
    split
    case isTrue hd => simp [hd]
    case isFalse hd => simp [hd]

/-- A text of two fields is read as minutes and seconds. -/
theorem readChars_of_two {a b : List Char} (ha : ':' ∉ a) (hb : ':' ∉ b) :
    readChars (a ++ ':' :: b) = .ok x ↔
      ∃ m d, word? UInt32.size a = some m ∧ Numeral.read? b = some (.finite d) ∧
        (Fields.minutes m d).IsInRange α ∧ (Fields.minutes m d).value α = x := by
  have hnone : Numeral.read? (a ++ ':' :: b) = none :=
    Option.eq_none_iff_forall_ne_some.2 fun n hn =>
      absurd (by simp) (Numeral.colon_notMem_of_read? hn)
  have hsplit : splitOn ':' (a ++ ':' :: b) = [a, b] := by
    rw [splitOn_append_cons, splitOn_eq_singleton ha, splitOn_eq_singleton hb]
    rfl
  rw [readChars]
  rw [hnone, hsplit]
  simp only [bind_eq_ok_iff, unit_eq_ok_iff, secondsField_eq_ok_iff, pure, Except.pure,
    Except.ok.injEq, Fields.IsInRange, Fields.value]
  constructor
  · rintro ⟨m, hm, _, ⟨d, hd, hlo, hhi, rfl⟩, hx⟩
    exact ⟨m, d, hm, hd, ⟨hlo, hhi⟩, hx⟩
  · rintro ⟨m, d, hm, hd, ⟨hlo, hhi⟩, hx⟩
    exact ⟨m, hm, _, ⟨d, hd, hlo, hhi, rfl⟩, hx⟩

/-- A text of three fields is read as hours, minutes and seconds. -/
theorem readChars_of_three {a b c : List Char} (ha : ':' ∉ a) (hb : ':' ∉ b) (hc : ':' ∉ c) :
    readChars (a ++ ':' :: (b ++ ':' :: c)) = .ok x ↔
      ∃ h m d, word? UInt32.size a = some h ∧ word? UInt32.size b = some m ∧
        Numeral.read? c = some (.finite d) ∧
        (Fields.hours h m d).IsInRange α ∧ (Fields.hours h m d).value α = x := by
  have hnone : Numeral.read? (a ++ ':' :: (b ++ ':' :: c)) = none :=
    Option.eq_none_iff_forall_ne_some.2 fun n hn =>
      absurd (by simp) (Numeral.colon_notMem_of_read? hn)
  have hsplit : splitOn ':' (a ++ ':' :: (b ++ ':' :: c)) = [a, b, c] := by
    rw [splitOn_append_cons, splitOn_append_cons, splitOn_eq_singleton ha, splitOn_eq_singleton hb,
      splitOn_eq_singleton hc]
    rfl
  rw [readChars]
  rw [hnone, hsplit]
  simp only [bind_eq_ok_iff, unit_eq_ok_iff, pure, Except.pure, Fields.IsInRange, Fields.value]
  constructor
  · rintro ⟨m, hm, hrest⟩
    split at hrest
    case isTrue => cases hrest
    case isFalse hlt =>
      simp only [bind_eq_ok_iff, unit_eq_ok_iff, secondsField_eq_ok_iff, Except.ok.injEq] at hrest
      obtain ⟨h, hh, _, ⟨d, hd, hlo, hhi, rfl⟩, hx⟩ := hrest
      exact ⟨h, m, d, hh, hm, hd, ⟨not_le.1 hlt, hlo, hhi⟩, hx⟩
  · rintro ⟨h, m, d, hh, hm, hd, ⟨hlt, hlo, hhi⟩, hx⟩
    refine ⟨m, hm, ?_⟩
    rw [if_neg (not_le.2 hlt)]
    simp only [bind_eq_ok_iff, unit_eq_ok_iff, secondsField_eq_ok_iff, Except.ok.injEq]
    exact ⟨h, hh, _, ⟨d, hd, hlo, hhi, rfl⟩, hx⟩

/-- A text is read exactly if it spells fields that are within their ranges, and then what they
    say together is read. -/
theorem readChars_eq_ok_iff : readChars s = .ok x ↔
    ∃ f : Fields, f.IsSpelled s ∧ f.IsInRange α ∧ f.value α = x := by
  constructor
  · intro h
    cases hn : Numeral.read? s with
    | some n =>
      obtain ⟨d, rfl, hrange, hx⟩ := (readChars_of_numeral hn).1 h
      exact ⟨.seconds d, hn, hrange, hx⟩
    | none =>
      have hjoin := join_splitOn ':' s
      have hcolon : ∀ p ∈ splitOn ':' s, ':' ∉ p := fun p hp => not_mem_of_mem_splitOn hp
      match hpieces : splitOn ':' s with
      | [a, b] =>
        rw [hpieces] at hjoin hcolon
        have hs : s = a ++ ':' :: b := hjoin.symm
        rw [hs] at h
        obtain ⟨m, d, hm, hd, hrange, hx⟩ :=
          (readChars_of_two (hcolon a (by simp)) (hcolon b (by simp))).1 h
        exact ⟨.minutes m d, ⟨a, b, hs, hm, hd⟩, hrange, hx⟩
      | [a, b, c] =>
        rw [hpieces] at hjoin hcolon
        have hs : s = a ++ ':' :: (b ++ ':' :: c) := hjoin.symm
        rw [hs] at h
        obtain ⟨k, m, d, hk, hm, hd, hrange, hx⟩ :=
          (readChars_of_three (hcolon a (by simp)) (hcolon b (by simp)) (hcolon c (by simp))).1 h
        exact ⟨.hours k m d, ⟨a, b, c, hs, hk, hm, hd⟩, hrange, hx⟩
      | [] | [_] | _ :: _ :: _ :: _ :: _ =>
        rw [readChars] at h
        rw [hn, hpieces] at h
        cases h
  · rintro ⟨f, hspelled, hrange, hx⟩
    cases f with
    | seconds d => exact (readChars_of_numeral hspelled).2 ⟨d, rfl, hrange, hx⟩
    | minutes m d =>
      obtain ⟨a, b, rfl, hm, hd⟩ := hspelled
      exact (readChars_of_two (colon_notMem_of_word? hm) (Numeral.colon_notMem_of_read? hd)).2
        ⟨m, d, hm, hd, hrange, hx⟩
    | hours k m d =>
      obtain ⟨a, b, c, rfl, hk, hm, hd⟩ := hspelled
      exact (readChars_of_three (colon_notMem_of_word? hk) (colon_notMem_of_word? hm)
        (Numeral.colon_notMem_of_read? hd)).2 ⟨k, m, d, hk, hm, hd, hrange, hx⟩

/-! ## Times in exact numbers -/

namespace Fields

theorem value_rat (f : Fields) :
    f.value ℚ = 3600 * f.hour + 60 * f.minute + f.second.value := by
  cases f with
  | seconds d => simp [value, hour, minute, second, Quantity.ofDecimal]
  | minutes m d => simp [value, hour, minute, second, Quantity.ofDecimal, total, mul_comm]
  | hours h m d => simp [value, hour, minute, second, Quantity.ofDecimal, total, mul_comm]

theorem IsInRange.zero_le_second {f : Fields} (h : f.IsInRange ℚ) : 0 ≤ f.second.value := by
  have hzero : (Quantity.ofNat 0 : ℚ) = 0 := by rw [Quantity.ofNat_rat, Nat.cast_zero]
  cases f with
  | seconds d =>
    obtain ⟨-, hd⟩ := h
    rw [hzero] at hd
    exact not_lt.1 hd
  | minutes m d => exact hzero ▸ h.1
  | hours k m d => exact hzero ▸ h.2.1

/-- No time is negative. -/
theorem IsInRange.zero_le_value {f : Fields} (h : f.IsInRange ℚ) : 0 ≤ f.value ℚ := by
  have := h.zero_le_second
  rw [value_rat]
  positivity

/-! ## Times in numbers that round -/

/-- What passes for seconds beside minutes is an amount. -/
theorem exists_hasAmount_second {x : Float} (hlo : Quantity.ofNat 0 ≤ x)
    (hhi : x < Quantity.ofNat 60) :
    ∃ q, HasAmount x q ∧ q < 60 := by
  have hzero : (Quantity.ofNat 0 : Float) = 0.0 := by decide +kernel
  have hsixty : HasAmount (Quantity.ofNat 60 : Float) (60 : ℕ) := hasAmount_ofNat (by decide)
  rw [hzero] at hlo
  -- What is below sixty is not infinite.
  have hq : ∃ q, HasAmount x q := by
    by_contra hnone
    have hinfinite := unpack_eq_infinity hlo (not_exists.1 hnone)
    rw [Number.lt_iff, hinfinite] at hhi
    rcases hsixty.eq_zero_or_hasValue with ⟨s, hu, -⟩ | ⟨m, e, hc, hu, -⟩ <;> rw [hu] at hhi <;>
      cases hhi
  obtain ⟨q, hq⟩ := hq
  exact ⟨q, hq, by exact_mod_cast (hq.lt_iff hsixty).1 hhi⟩

/-- Whole hours and minutes of 32 bits do not make a time infinite. -/
theorem exists_hasAmount_total {h m : ℕ} (hh : h < UInt32.size) (hm : m < UInt32.size) {x : Float}
    {q : ℚ} (hx : HasAmount x q) (hq : q < 60) : ∃ t, HasAmount (total h m x) t := by
  have hsize : UInt32.size = 2 ^ 32 := rfl
  have hhours : HasAmount (Quantity.ofNat h * Quantity.ofNat 3600 : Float) (h * 3600 : ℕ) :=
    (hasAmount_ofNat (by omega)).mul_natCast (hasAmount_ofNat (by decide)) (by omega)
  have hminutes : HasAmount (Quantity.ofNat m * Quantity.ofNat 60 : Float) (m * 60 : ℕ) :=
    (hasAmount_ofNat (by omega)).mul_natCast (hasAmount_ofNat (by decide)) (by omega)
  have hwhole := hhours.add_natCast hminutes (by omega)
  have hbound : HasValue (nearest .positive (2 ^ 52 : ℕ)) (2 ^ 52 : ℕ) :=
    hasValue_natCast (by decide) (by decide)
  refine hwhole.exists_add hx hbound ?_
  have hle : h * 3600 + m * 60 + 60 ≤ 2 ^ 52 := by omega
  have hle : ((h * 3600 + m * 60 : ℕ) : ℚ) + 60 ≤ (2 ^ 52 : ℕ) := by exact_mod_cast hle
  linarith

/-- A time whose whole fields are words is finite and not negative. -/
theorem IsInRange.exists_hasAmount {f : Fields} (h : f.IsInRange Float)
    (hhour : f.hour < UInt32.size) (hminute : f.minute < UInt32.size) :
    ∃ t, HasAmount (f.value Float) t := by
  cases f with
  | seconds d =>
    obtain ⟨hfinite, hd⟩ := h
    have hzero : (0.0 : Float) ≤ Quantity.ofNat 0 := by decide +kernel
    exact Number.exists_hasAmount hfinite (zero_le_of_not_lt hzero hfinite hd)
  | minutes m d =>
    obtain ⟨q, hq, hlt⟩ := exists_hasAmount_second h.1 h.2
    exact exists_hasAmount_total hhour hminute hq hlt
  | hours k m d =>
    obtain ⟨q, hq, hlt⟩ := exists_hasAmount_second h.2.1 h.2.2
    exact exists_hasAmount_total hhour hminute hq hlt

/-- The whole fields of what is spelled are words. -/
theorem IsSpelled.lt_size {f : Fields} {s : List Char} (h : f.IsSpelled s) :
    f.hour < UInt32.size ∧ f.minute < UInt32.size := by
  have hlt : ∀ {a : List Char} {n : ℕ}, word? UInt32.size a = some n → n < UInt32.size := fun ha =>
    of_decide_eq_true (Option.filter_eq_some_iff.1 ha).2
  have hpos : 0 < UInt32.size := by decide
  cases f with
  | seconds d => exact ⟨hpos, hpos⟩
  | minutes m d =>
    obtain ⟨a, b, -, hm, -⟩ := h
    exact ⟨hpos, hlt hm⟩
  | hours k m d =>
    obtain ⟨a, b, c, -, hk, hm, -⟩ := h
    exact ⟨hlt hk, hlt hm⟩

end Fields

end VideoExport.Timecode
