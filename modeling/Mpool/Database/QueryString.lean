import Mpool.Common.DecimalText
import Mpool.Common.Tokenize
import Mpool.Database.BindParameters

/-! `getQueryString`: the text of a prepared query with its parameters in place, as it is
logged. -/

namespace Mpool.Database

open Util (text)

namespace PreparedStatementData

def integerValue (T : NumberType) (bits : BitVec (8 * T.size)) : Int :=
  if T.isUnsigned then bits.toNat else bits.toInt

/-- `ToString`. What `fmt` prints for a `float` or a `double` is a parameter. -/
def toString (floatText : (T : NumberType) → BitVec (8 * T.size) → Bytes) :
    PreparedStatementData → Bytes
  | .bool value => if value then text "true" else text "false"
  | .number .float bits => floatText .float bits
  | .number .double bits => floatText .double bits
  | .number T bits => Decimal.integer (integerValue T bits)
  | .string value => value
  | .vector _ => text "BINARY"
  | .nullptr => text "NULL"

end PreparedStatementData

/-! ## The loop -/

/-- `str.replace(pos, 1, by)`; `none` is `std::out_of_range`. -/
def replaceOne (str : Bytes) (pos : Nat) (replaceStr : Bytes) : Option Bytes :=
  if pos ≤ str.length then some (str.take pos ++ replaceStr ++ str.drop (pos + 1)) else none

/-- The loop of `getQueryString` from a position on, over the texts of the parameters. A
search without a result is `npos`, behind the end of every string. -/
def replaceLoop (queryString : Bytes) (pos : Nat) : List Bytes → Option Bytes
  | [] => some queryString
  | replaceStr :: texts =>
    match findFrom queryString 63 pos with
    | none => none
    | some pos => do
      let queryString ← replaceOne queryString pos replaceStr
      replaceLoop queryString (pos + replaceStr.length) texts

def getQueryString (floatText : (T : NumberType) → BitVec (8 * T.size) → Bytes)
    (queryString : Bytes) (parameters : List PreparedStatementData) : Option Bytes :=
  replaceLoop queryString 0 (parameters.map (·.toString floatText))

/-! ## What it is to give -/

/-- The text with its question marks replaced, the first by the first, as far as the
replacements go. -/
def substitute : Bytes → List Bytes → Bytes
  | query, [] => query
  | [], _ :: _ => []
  | c :: query, replaceStr :: texts =>
    if c = 63 then replaceStr ++ substitute query texts
    else c :: substitute query (replaceStr :: texts)

theorem substitute_nil (query : Bytes) : substitute query [] = query := by
  cases query <;> rfl

theorem substitute_append {front : Bytes} (hfront : 63 ∉ front) (query replaceStr : Bytes)
    (texts : List Bytes) : substitute (front ++ 63 :: query) (replaceStr :: texts) =
      front ++ replaceStr ++ substitute query texts := by
  induction front with
  | nil => rfl
  | cons c front ih =>
    have hc : c ≠ 63 := fun heq => hfront (heq ▸ List.mem_cons_self)
    rw [List.cons_append, substitute, if_neg hc,
      ih fun hmem => hfront (List.mem_cons_of_mem c hmem)]
    rfl

/-! ## The position -/

/-- A search that starts behind `front` does not see it. -/
theorem findFrom_behind {rest : Bytes} (front front' : Bytes) (hfront' : 63 ∉ front') :
    findFrom (front ++ (front' ++ 63 :: rest)) 63 front.length =
      some (front.length + front'.length) := by
  have hfind : findFrom (front' ++ 63 :: rest) 63 0 = some front'.length :=
    findFrom_append hfront'
  rw [findFrom, List.drop_zero] at hfind
  obtain ⟨count, hcount, hlength⟩ := Option.map_eq_some_iff.mp hfind
  rw [findFrom, List.drop_left' rfl, hcount, Option.map_some, ← hlength, Nat.zero_add]

/-- The position stands behind the last inserted value, and what is before it is left as
it is. -/
theorem replaceLoop_eq (front query : Bytes) (texts : List Bytes)
    (hcount : texts.length ≤ query.count 63) :
    replaceLoop (front ++ query) front.length texts = some (front ++ substitute query texts) := by
  induction texts generalizing front query with
  | nil => rw [replaceLoop, substitute_nil]
  | cons replaceStr texts ih =>
    have hmem : 63 ∈ query := by
      rw [← List.count_pos_iff]
      rw [List.length_cons] at hcount
      omega
    obtain ⟨front', rest, rfl, hfront'⟩ := exists_first hmem
    rw [List.length_cons, List.count_append, List.count_eq_zero_of_not_mem hfront',
      List.count_cons_self] at hcount
    have hposition : front.length + front'.length = (front ++ front').length := by
      rw [List.length_append]
    have hreplaced : replaceOne (front ++ (front' ++ 63 :: rest)) (front ++ front').length
        replaceStr = some (front ++ front' ++ replaceStr ++ rest) := by
      have hdrop : (front ++ front' ++ 63 :: rest).drop ((front ++ front').length + 1) = rest := by
        have hbehind : (front ++ front' ++ [63]).length = (front ++ front').length + 1 :=
          List.length_append
        rw [List.append_cons, ← hbehind, List.drop_left]
      rw [← List.append_assoc, replaceOne, if_pos (by simp), List.take_left' rfl, hdrop]
    rw [replaceLoop, findFrom_behind front front' hfront', hposition]
    simp only [hreplaced, Option.bind_eq_bind, Option.bind_some]
    rw [← List.length_append, ih (front ++ front' ++ replaceStr) rest (by omega),
      substitute_append hfront']
    simp only [List.append_assoc]

/-- The i-th question mark is replaced by the text of the i-th parameter, whatever these
texts hold; nothing else is changed and nothing is thrown. -/
theorem getQueryString_eq (floatText : (T : NumberType) → BitVec (8 * T.size) → Bytes)
    (queryString : Bytes) (parameters : List PreparedStatementData)
    (hcount : parameters.length ≤ queryString.count 63) :
    getQueryString floatText queryString parameters =
      some (substitute queryString (parameters.map (·.toString floatText))) := by
  have hloop := replaceLoop_eq [] queryString (parameters.map (·.toString floatText))
    (by rw [List.length_map]; exact hcount)
  exact hloop

/-- A string with a question mark, an empty one and a null. -/
theorem getQueryString_eq_marks :
    getQueryString (fun _ _ => []) (text "a=? AND b=? OR c=? OR d=?")
        [.string (text "?"), .string [], .nullptr] =
      some (substitute (text "a=? AND b=? OR c=? OR d=?") [text "?", [], text "NULL"]) :=
  getQueryString_eq (fun _ _ => []) _ _ (by decide)

end Mpool.Database
