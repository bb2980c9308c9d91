import Mathlib.Data.List.DropRight
import Mpool.Common.Util
import Mpool.Lib.Decimal

/-! `StringFormat.h`: `StringFormatFmt` for formats whose fields take numbers, and
`TrimRightInPlace`. -/

namespace Mpool

open Util (text isSpace)

/-! ## Formats -/

/-- A format string in its parts: a character, a field without a specification, and one
that is filled up with zeros to a width of one digit. -/
inductive FormatPiece where
  | char (c : UInt8)
  | field
  | padded (width : Nat)
  deriving DecidableEq

namespace FormatPiece

/-- The part as it stands in the string. -/
def source : FormatPiece → Bytes
  | char c => [c]
  | field => text "\x7b\x7d"
  | padded width => text "\x7b:0" ++ [Decimal.ofDigit width] ++ text "\x7d"

/-- A number in a field. -/
def format (value : Nat) : FormatPiece → Bytes
  | char c => [c]
  | field => Decimal.numeral value
  | padded width =>
    List.replicate (width - (Decimal.numeral value).length) 48 ++ Decimal.numeral value

end FormatPiece

/-- `fmt::format`, each field with the next argument; `none` is the `format_error` of a
field without one. -/
def fmtFormat : List FormatPiece → List Nat → Option Bytes
  | [], _ => some []
  | .char c :: fmt, args => (fmtFormat fmt args).map (c :: ·)
  | _ :: _, [] => none
  | piece :: fmt, value :: args => (fmtFormat fmt args).map (piece.format value ++ ·)

def stringFormatFmt (fmt : List FormatPiece) (args : List Nat) : Bytes :=
  match fmtFormat fmt args with
  | some s => s
  | none =>
    text "An error occurred formatting string \"" ++ fmt.flatMap FormatPiece.source ++
      text "\" : argument not found"

/-- How many arguments a format takes. -/
def fieldCount (fmt : List FormatPiece) : Nat :=
  fmt.countP fun
    | .char _ => false
    | _ => true

theorem fieldCount_append (fmt fmt' : List FormatPiece) :
    fieldCount (fmt ++ fmt') = fieldCount fmt + fieldCount fmt' :=
  List.countP_append

/-- Too few arguments are an error, whatever they are. -/
theorem fmtFormat_eq_none {fmt : List FormatPiece} {args : List Nat}
    (h : args.length < fieldCount fmt) : fmtFormat fmt args = none := by
  induction fmt generalizing args with
  | nil => exact absurd h (Nat.not_lt_zero _)
  | cons piece fmt ih =>
    have hnext : ∀ (value : Nat) (args : List Nat), args.length < fieldCount fmt →
        (fmtFormat fmt args).map (piece.format value ++ ·) = none := by
      intro value args hargs
      rw [ih hargs, Option.map_none]
    cases piece with
    | char c =>
      have hargs : args.length < fieldCount fmt := by simpa [fieldCount] using h
      rw [fmtFormat, ih hargs, Option.map_none]
    | field =>
      cases args with
      | nil => rfl
      | cons value args => exact hnext value args (by simpa [fieldCount] using h)
    | padded width =>
      cases args with
      | nil => rfl
      | cons value args => exact hnext value args (by simpa [fieldCount] using h)

theorem stringFormatFmt_error {fmt : List FormatPiece} {args : List Nat}
    (h : args.length < fieldCount fmt) : stringFormatFmt fmt args =
      text "An error occurred formatting string \"" ++ fmt.flatMap FormatPiece.source ++
        text "\" : argument not found" := by
  rw [stringFormatFmt, fmtFormat_eq_none h]

/-- The error is no number. -/
theorem exists_stringFormatFmt_error {fmt : List FormatPiece} {args : List Nat}
    (h : args.length < fieldCount fmt) : ∃ rest, stringFormatFmt fmt args = 65 :: rest :=
  ⟨_, stringFormatFmt_error h⟩

theorem stringFormatFmt_field (value : Nat) :
    stringFormatFmt [.field] [value] = Decimal.numeral value :=
  List.append_nil _

/-! ## Words with a blank behind each -/

def trimRightInPlace (str : Bytes) : Bytes := str.rdropWhile isSpace

/-- Does not end with white space. -/
def IsWord (w : Bytes) : Prop := ∃ front c, w = front ++ [c] ∧ isSpace c = false

theorem isWord_of_getLast? {w : Bytes} {c : UInt8} (h : w.getLast? = some c)
    (hc : isSpace c = false) : IsWord w := by
  obtain ⟨front, rfl⟩ := List.getLast?_eq_some_iff.mp h
  exact ⟨front, c, rfl, hc⟩

theorem IsWord.append {w : Bytes} (h : IsWord w) (front : Bytes) : IsWord (front ++ w) := by
  obtain ⟨letters, c, rfl, hc⟩ := h
  exact ⟨front ++ letters, c, (List.append_assoc front letters [c]).symm, hc⟩

theorem intercalate_append_singleton (sep : Bytes) (front : List Bytes) (w : Bytes) :
    sep.intercalate (front ++ [w]) = front.flatMap (· ++ sep) ++ w := by
  induction front with
  | nil => exact List.intercalate_singleton
  | cons v front ih =>
    rw [List.cons_append, List.intercalate_cons_of_ne_nil (by simp), ih, List.flatMap_cons]
    simp only [List.append_assoc]

/-- The last blank goes, the others stay between the words. -/
theorem trimRight_words {words : List Bytes} (hwords : ∀ w ∈ words, IsWord w) :
    trimRightInPlace (words.flatMap (· ++ [32])) = [32].intercalate words := by
  rcases List.eq_nil_or_concat words with rfl | ⟨front, w, rfl⟩
  · rfl
  · obtain ⟨letters, c, rfl, hc⟩ := hwords w (by simp)
    have hcut : (front.flatMap (· ++ [32]) ++ (letters ++ [c])).rdropWhile isSpace =
        front.flatMap (· ++ [32]) ++ (letters ++ [c]) := by
      rw [← List.append_assoc, List.rdropWhile_concat_neg _ _ _ (by simp [hc])]
    rw [List.concat_eq_append, intercalate_append_singleton, trimRightInPlace,
      List.flatMap_append, List.flatMap_singleton, ← List.append_assoc,
      List.rdropWhile_concat_pos _ _ _ (by decide), hcut]

end Mpool
