import Mpool.Common.Config
import Mpool.Lib.Decimal

/-! `DatabaseIncompatibleVersion`, which takes the characters at three fixed places of
the server's version and of the least version for the numbers in them. -/

namespace Mpool.Database

open Util (text)
open Decimal

/-! ## The function -/

/-- `std::istringstream::get` as a `uint8`: -1 behind the end. -/
def getCharacter : Bytes → UInt8 × Bytes
  | [] => (255, [])
  | c :: rest => (c, rest)

/-- The lambda `parse`. -/
def parseVersion (input : Bytes) : List UInt8 :=
  let (major, parser) := getCharacter input
  let (_, parser) := getCharacter parser
  let (minor, parser) := getCharacter parser
  let (_, parser) := getCharacter parser
  let (patch, _) := getCharacter parser
  [major, minor, patch]

/-- `std::lexicographical_compare`. -/
def lexicographicalCompare : List UInt8 → List UInt8 → Bool
  | _, [] => false
  | [], _ :: _ => true
  | a :: as, b :: bs => a < b || (!(b < a) && lexicographicalCompare as bs)

def MIN_MYSQL_SERVER_VERSION : Bytes := text "5.7.0"
def MIN_MARIADB_SERVER_VERSION : Bytes := text "10.5.0"

def databaseIncompatibleVersion (mysqlVersion : Bytes) : Bool :=
  let (offset, minVersion) :=
    if containsText mysqlVersion "MariaDB" then
      (if (text "5.5.5-").isPrefixOf mysqlVersion then 6 else 0, MIN_MARIADB_SERVER_VERSION)
    else (0, MIN_MYSQL_SERVER_VERSION)
  lexicographicalCompare (parseVersion (mysqlVersion.drop offset)) (parseVersion minVersion)

/-! ## Versions -/

/-- The digits of a number from the first one on. -/
def digit (n i : Nat) : Nat := ((numeral n).getD i (ofDigit 0)).toNat - 48

/-- `M.m.p` and what stands behind it. -/
def versionText (M m p : Nat) (suffix : Bytes) : Bytes :=
  numeral M ++ 46 :: (numeral m ++ 46 :: (numeral p ++ suffix))

/-- The numeric order of versions. -/
def Below (v w : Nat × Nat × Nat) : Prop :=
  v.1 < w.1 ∨ v.1 = w.1 ∧ (v.2.1 < w.2.1 ∨ v.2.1 = w.2.1 ∧ v.2.2 < w.2.2)

instance (v w : Nat × Nat × Nat) : Decidable (Below v w) :=
  inferInstanceAs (Decidable (_ ∨ _ ∧ (_ ∨ _ ∧ _)))

/-- The versions of MySQL that are read right: a minor number of one digit behind a
major number of one digit, and longer numbers whose digits at the places that are
looked at happen to be large. -/
def MySQLReadable (M m : Nat) : Prop :=
  (M < 10 ∧ (M ≠ 5 ∨ m < 10 ∨ 7 < digit m 0 ∨ digit m 0 = 7 ∧ 100 ≤ m)) ∨
  10 ≤ M ∧ (5 < digit M 0 ∨ digit M 0 = 5 ∧ 100 ≤ M ∧
    (7 < digit M 2 ∨ digit M 2 = 7 ∧ (M < 1000 ∨ 10000 ≤ M)))

/-- The versions of MariaDB that are read right. -/
def MariaDBReadable (M m : Nat) : Prop := M = 0 ∨ M = 10 ∧ 5 ≤ m ∨ 10 < M

/-! ## The characters that are compared -/

theorem parseVersion_eq (input : Bytes) :
    parseVersion input = [input.getD 0 255, input.getD 2 255, input.getD 4 255] := by
  match input with
  | [] => rfl
  | [_] => rfl
  | [_, _] => rfl
  | [_, _, _] => rfl
  | [_, _, _, _] => rfl
  | _ :: _ :: _ :: _ :: _ :: _ => rfl

theorem lexicographicalCompare_three (a b c x y z : UInt8) :
    lexicographicalCompare [a, b, c] [x, y, z] = true ↔ a.toNat < x.toNat ∨ a.toNat = x.toNat ∧
      (b.toNat < y.toNat ∨ b.toNat = y.toNat ∧ c.toNat < z.toNat) := by
  simp only [lexicographicalCompare, Bool.or_eq_true, decide_eq_true_eq, Bool.and_eq_true,
    Bool.not_eq_true', decide_eq_false_iff_not, UInt8.lt_iff_toNat_lt, Bool.false_eq_true,
    and_false, or_false]
  omega

/-- What stands in front of a text without an `M` does not matter for `MariaDB`. -/
theorem containsText_append {before : Bytes} (h : (77 : UInt8) ∉ before) (s : Bytes) :
    containsText (before ++ s) "MariaDB" = containsText s "MariaDB" := by
  induction before with
  | nil => rfl
  | cons c before ih =>
    rw [List.mem_cons, not_or] at h
    have hfirst : (text "MariaDB").isPrefixOf (c :: (before ++ s)) = false := by
      have hne : ((77 : UInt8) == c) = false := by simpa using h.1
      change ((77 : UInt8) == c && _) = false
      rw [hne, Bool.false_and]
    rw [← ih h.2]
    unfold containsText
    rw [List.cons_append, List.tails_cons, List.any_cons, hfirst, Bool.false_or]

theorem not_mem_numeral (n : Nat) : (77 : UInt8) ∉ numeral n := by
  intro hmem
  exact absurd (numeral_digits 77 hmem).2 (by decide)

theorem containsText_version (M m p : Nat) (suffix : Bytes) :
    containsText (versionText M m p suffix) "MariaDB" = containsText suffix "MariaDB" := by
  have hfront : versionText M m p suffix =
      (numeral M ++ [46] ++ numeral m ++ [46] ++ numeral p) ++ suffix := by
    simp [versionText]
  rw [hfront, containsText_append]
  simp [not_mem_numeral]

/-! ## MySQL -/

theorem first_numeral (n : Nat) (s : Bytes) : ∃ c, (numeral n ++ s).getD 0 255 = c ∧
    48 ≤ c.toNat ∧ c.toNat ≤ 57 := by
  have hdigits := numeral_digits (n := n)
  match hnumeral : numeral n with
  | [] => exact absurd hnumeral (numeral_ne_nil n)
  | c :: rest =>
    rw [hnumeral] at hdigits
    exact ⟨c, rfl, hdigits c List.mem_cons_self⟩

theorem digit_zero_of_lt {n : Nat} (h : n < 10) : digit n 0 = n := by
  rw [digit, numeral_of_lt h, List.getD_cons_zero, ofDigit_toNat h]
  omega

/-- What a version of MySQL has at the places that are looked at, compared with
`5.7.0`. -/
theorem mysql_incompatible_iff (M m p : Nat) (suffix : Bytes) :
    lexicographicalCompare (parseVersion (versionText M m p suffix))
        (parseVersion MIN_MYSQL_SERVER_VERSION) = true ↔
      (M < 10 ∧ (M < 5 ∨ M = 5 ∧ (m < 7 ∨ 10 ≤ m ∧
        (digit m 0 < 7 ∨ digit m 0 = 7 ∧ m < 100)))) ∨
      10 ≤ M ∧ (digit M 0 < 5 ∨ digit M 0 = 5 ∧ (M < 100 ∨ digit M 2 < 7 ∨
        digit M 2 = 7 ∧ 1000 ≤ M ∧ M < 10000)) := by
  have hmin : parseVersion MIN_MYSQL_SERVER_VERSION = [53, 55, 48] := by decide
  rw [hmin, parseVersion_eq, lexicographicalCompare_three]
  change _ < 53 ∨ _ = 53 ∧ (_ < 55 ∨ _ = 55 ∧ _ < 48) ↔ _
  rcases Nat.lt_or_ge M 10 with hM | hM
  · have hmajor := ofDigit_toNat hM
    have hversion : versionText M m p suffix =
        ofDigit M :: 46 :: (numeral m ++ 46 :: (numeral p ++ suffix)) := by
      rw [versionText, numeral_of_lt hM]
      rfl
    rw [hversion]
    simp only [List.getD_cons_zero, List.getD_cons_succ]
    rcases Nat.lt_or_ge m 10 with hm | hm
    · obtain ⟨c, hpatch, hlow, hhigh⟩ := first_numeral p suffix
      have hminor := ofDigit_toNat hm
      have hzero := digit_zero_of_lt hm
      rw [numeral_of_lt hm]
      simp only [List.singleton_append, List.getD_cons_zero, List.getD_cons_succ, hpatch]
      omega
    · obtain ⟨c, d, rest, hnumeral, htwo, _, _⟩ := exists_numeral hm
      have hdigits := numeral_digits (n := m)
      rw [hnumeral] at hdigits
      have hc := hdigits c (by simp)
      have hdigit : digit m 0 = c.toNat - 48 := by rw [digit, hnumeral]; rfl
      rw [hnumeral, hdigit]
      cases rest with
      | nil =>
        have hdot : (46 : UInt8).toNat = 46 := rfl
        simp only [List.length_nil] at htwo
        simp only [List.cons_append, List.nil_append, List.getD_cons_zero, List.getD_cons_succ,
          hdot]
        omega
      | cons e rest =>
        have he := hdigits e (by simp)
        simp only [List.length_cons] at htwo
        simp only [List.cons_append, List.getD_cons_zero, List.getD_cons_succ]
        omega
  · obtain ⟨c, d, rest, hnumeral, htwo, hthree, hfour⟩ := exists_numeral hM
    have hdigits := numeral_digits (n := M)
    rw [hnumeral] at hdigits
    have hc := hdigits c (by simp)
    have hdot : (46 : UInt8).toNat = 46 := rfl
    have hmajor : digit M 0 = c.toNat - 48 := by rw [digit, hnumeral]; rfl
    rw [versionText, hnumeral, hmajor]
    match rest with
    | [] =>
      simp only [List.length_nil] at htwo
      simp only [List.cons_append, List.nil_append, List.getD_cons_zero, List.getD_cons_succ, hdot]
      omega
    | [e] =>
      have he := hdigits e (by simp)
      have hplace : digit M 2 = e.toNat - 48 := by rw [digit, hnumeral]; rfl
      obtain ⟨f, hfirst, hlow, hhigh⟩ := first_numeral m (46 :: (numeral p ++ suffix))
      simp only [List.length_cons, List.length_nil] at htwo hthree hfour
      simp only [List.cons_append, List.nil_append, List.getD_cons_zero, List.getD_cons_succ,
        hfirst, hplace]
      omega
    | [e, f] =>
      have he := hdigits e (by simp)
      have hplace : digit M 2 = e.toNat - 48 := by rw [digit, hnumeral]; rfl
      simp only [List.length_cons, List.length_nil] at htwo hthree hfour
      simp only [List.cons_append, List.nil_append, List.getD_cons_zero, List.getD_cons_succ, hdot,
        hplace]
      omega
    | e :: f :: g :: rest =>
      have he := hdigits e (by simp)
      have hg := hdigits g (by simp)
      have hplace : digit M 2 = e.toNat - 48 := by rw [digit, hnumeral]; rfl
      simp only [List.length_cons] at htwo hthree hfour
      simp only [List.cons_append, List.getD_cons_zero, List.getD_cons_succ, hplace]
      omega

/-! ## MariaDB -/

/-- A positive number does not begin with a zero. -/
theorem numeral_head {n : Nat} (hn : n ≠ 0) {c : UInt8} {rest : Bytes}
    (h : numeral n = c :: rest) : 49 ≤ c.toNat := by
  have hne : Nat.digits 10 n ≠ [] := Nat.digits_ne_nil_iff_ne_zero.mpr hn
  have hlast := Nat.getLast_digit_ne_zero 10 hn
  have hlt := Nat.digits_lt_base (b := 10) (by omega) (List.getLast_mem hne)
  rw [numeral, if_neg hn] at h
  have hhead : ((Nat.digits 10 n).map ofDigit).reverse.head? = some c := by rw [h]; rfl
  rw [List.head?_reverse, List.getLast?_map, List.getLast?_eq_getLast_of_ne_nil hne,
    Option.map_some] at hhead
  rw [← Option.some.inj hhead, ofDigit_toNat hlt]
  omega

/-- Of the versions of MariaDB only those of the major number 0 compare below
`10.5.0`. -/
theorem mariadb_incompatible_iff (M m p : Nat) (suffix : Bytes) :
    lexicographicalCompare (parseVersion (versionText M m p suffix))
        (parseVersion MIN_MARIADB_SERVER_VERSION) = true ↔ M = 0 := by
  have hmin : parseVersion MIN_MARIADB_SERVER_VERSION = [49, 46, 46] := by decide
  have hdot : (46 : UInt8).toNat = 46 := rfl
  rw [hmin, parseVersion_eq, lexicographicalCompare_three]
  change _ < 49 ∨ _ = 49 ∧ (_ < 46 ∨ _ = 46 ∧ _ < 46) ↔ _
  rcases Nat.lt_or_ge M 10 with hM | hM
  · have hmajor := ofDigit_toNat hM
    have hversion : versionText M m p suffix =
        ofDigit M :: 46 :: (numeral m ++ 46 :: (numeral p ++ suffix)) := by
      rw [versionText, numeral_of_lt hM]
      rfl
    obtain ⟨c, hminor, hlow, _⟩ := first_numeral m (46 :: (numeral p ++ suffix))
    rw [hversion]
    simp only [List.getD_cons_zero, List.getD_cons_succ, hminor]
    omega
  · obtain ⟨c, d, rest, hnumeral, _, _, _⟩ := exists_numeral hM
    have hhead := numeral_head (by omega) hnumeral
    have hdigits := numeral_digits (n := M)
    rw [hnumeral] at hdigits
    rw [versionText, hnumeral]
    cases rest with
    | nil =>
      -- behind `1x.` stands a digit or a point
      rcases Nat.lt_or_ge m 10 with hm | hm
      · rw [numeral_of_lt hm]
        simp only [List.cons_append, List.nil_append, List.getD_cons_zero, List.getD_cons_succ,
          hdot]
        omega
      · obtain ⟨e, f, rest, hminor, _, _, _⟩ := exists_numeral hm
        have hdigits' := numeral_digits (n := m)
        rw [hminor] at hdigits' ⊢
        have hf := hdigits' f (by simp)
        simp only [List.cons_append, List.nil_append, List.getD_cons_zero, List.getD_cons_succ,
          hdot]
        omega
    | cons e rest =>
      have he := hdigits e (by simp)
      simp only [List.cons_append, List.getD_cons_zero, List.getD_cons_succ]
      omega

/-! ## The check -/

theorem mysql_check {suffix : Bytes} (h : containsText suffix "MariaDB" = false) (M m p : Nat) :
    databaseIncompatibleVersion (versionText M m p suffix) =
      lexicographicalCompare (parseVersion (versionText M m p suffix))
        (parseVersion MIN_MYSQL_SERVER_VERSION) := by
  rw [databaseIncompatibleVersion, containsText_version, h]
  rfl

/-- The prefix that some servers put in front of their version is skipped. -/
theorem mariadb_check {suffix : Bytes} (h : containsText suffix "MariaDB" = true) (M m p : Nat)
    {front : Bytes} (hfront : front = text "5.5.5-" ∨
      front = [] ∧ (text "5.5.5-").isPrefixOf (versionText M m p suffix) = false) :
    databaseIncompatibleVersion (front ++ versionText M m p suffix) =
      lexicographicalCompare (parseVersion (versionText M m p suffix))
        (parseVersion MIN_MARIADB_SERVER_VERSION) := by
  have hcontains : containsText (front ++ versionText M m p suffix) "MariaDB" = true := by
    rw [containsText_append, containsText_version, h]
    rcases hfront with rfl | ⟨rfl, _⟩
    · decide
    · exact List.not_mem_nil
  rw [databaseIncompatibleVersion, hcontains]
  rcases hfront with rfl | ⟨rfl, hprefix⟩
  · have hprefix : (text "5.5.5-").isPrefixOf (text "5.5.5-" ++ versionText M m p suffix) = true :=
      List.isPrefixOf_iff_prefix.mpr (List.prefix_append _ _)
    simp only [↓reduceIte, hprefix]
    rfl
  · rw [List.nil_append]
    simp only [↓reduceIte, hprefix, Bool.false_eq_true, List.drop_zero]

theorem below_iff (M m p a b : Nat) :
    Below (M, m, p) (a, b, 0) ↔ M < a ∨ M = a ∧ m < b := by
  change M < a ∨ M = a ∧ (m < b ∨ m = b ∧ p < 0) ↔ _
  omega

/-- For every version of three numbers, and whatever stands behind it, the check is
the numeric order exactly for the versions that are read right. -/
theorem incompatibleVersion_iff (M m p : Nat) (suffix : Bytes) :
    (containsText suffix "MariaDB" = false →
      ((databaseIncompatibleVersion (versionText M m p suffix) = true ↔
        Below (M, m, p) (5, 7, 0)) ↔ MySQLReadable M m)) ∧
    (containsText suffix "MariaDB" = true → ∀ front, front = text "5.5.5-" ∨
        front = [] ∧ (text "5.5.5-").isPrefixOf (versionText M m p suffix) = false →
      ((databaseIncompatibleVersion (front ++ versionText M m p suffix) = true ↔
        Below (M, m, p) (10, 5, 0)) ↔ MariaDBReadable M m)) := by
  constructor
  · intro hsuffix
    rw [mysql_check hsuffix, mysql_incompatible_iff, below_iff, MySQLReadable]
    rcases Nat.lt_or_ge M 10 with hM | hM
    · rcases Nat.lt_or_ge m 10 with hm | hm <;> omega
    · omega
  · intro hsuffix front hfront
    rw [mariadb_check hsuffix M m p hfront, mariadb_incompatible_iff, below_iff, MariaDBReadable]
    omega

theorem usual_versions_right :
    (databaseIncompatibleVersion (versionText 8 0 33 (text "-ubuntu")) = true ↔
      Below (8, 0, 33) (5, 7, 0)) ∧
    (databaseIncompatibleVersion (text "5.5.5-" ++ versionText 10 6 4 (text "-MariaDB")) = true ↔
      Below (10, 6, 4) (10, 5, 0)) :=
  ⟨((incompatibleVersion_iff 8 0 33 (text "-ubuntu")).1 (by decide)).mpr (Or.inl (by omega)),
    ((incompatibleVersion_iff 10 6 4 (text "-MariaDB")).2 (by decide) _ (Or.inl rfl)).mpr
      (Or.inr (Or.inl (by omega)))⟩

/-- A minor number of two digits, and two old versions of MariaDB. -/
theorem versions_misread :
    versionText 5 10 3 [] = text "5.10.3" ∧ databaseIncompatibleVersion (text "5.10.3") = true ∧
      ¬ Below (5, 10, 3) (5, 7, 0) ∧
      versionText 10 4 22 (text "-MariaDB") = text "10.4.22-MariaDB" ∧
      databaseIncompatibleVersion (text "10.4.22-MariaDB") = false ∧
      Below (10, 4, 22) (10, 5, 0) ∧
      databaseIncompatibleVersion (text "5.5.68-MariaDB") = false ∧
      Below (5, 5, 68) (10, 5, 0) := by
  decide

end Mpool.Database
