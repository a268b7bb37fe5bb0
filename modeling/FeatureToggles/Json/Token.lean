import FeatureToggles.Decimal.Numeral
import FeatureToggles.Json.Basic
import FeatureToggles.Text.Runs
import FeatureToggles.Text.Utf16

/-!
# JSON tokens

The tokens of a JSON text: brackets, commas, colons, strings, and the values that hold no others. Besides
the standard's numbers there are three words for the numbers it cannot write. A text that goes wrong has a
last token that says how.
-/

namespace FeatureToggles.Json

open CodePoint (char)

open Decimal (Numeral digitValue exponentAt signAt)
open Text (hexNumber? isHighSurrogate isLowSurrogate pairChar)

/-- Why a text holds no JSON value. -/
inductive ReadError where
  /-- The text is not of the JSON grammar. -/
  | malformed
  /-- An integer has more digits than are read. -/
  | hugeInteger
  /-- Brackets stand within each other more deeply than is read. -/
  | tooDeep
  deriving DecidableEq

/-- A token of JSON text. -/
inductive Token where
  | openArray
  | closeArray
  | openObject
  | closeObject
  | comma
  | colon
  | string (value : Text)
  | scalar (value : Json)
  /-- The text cannot be read from here on. -/
  | unreadable (reason : ReadError)

/-! ### Strings -/

/-- A code point of a string, or a UTF-16 unit that an escape gives by number. -/
inductive Piece where
  | char (c : CodePoint)
  | unit (n : Nat)

/-- The character that a one-letter escape stands for. -/
def escaped? (c : CodePoint) : Option CodePoint :=
  if c = '\x22' ∨ c = '\\' ∨ c = '/' then some c
  else if c = 'b' then some '\x08'
  else if c = 'f' then some '\x0c'
  else if c = 'n' then some '\n'
  else if c = 'r' then some '\r'
  else if c = 't' then some '\t'
  else none

/-- The pieces of a string up to its closing quote, and what follows the quote. Control characters have
to be escaped. -/
def piecesAt : List CodePoint → Option (List Piece × List CodePoint)
  | [] => none
  | '\x22' :: rest => some ([], rest)
  | '\\' :: 'u' :: a :: b :: c :: d :: rest =>
    (hexNumber? [a, b, c, d]).bind fun n =>
      (piecesAt rest).map fun (pieces, after) => (.unit n :: pieces, after)
  | '\\' :: e :: rest =>
    (escaped? e).bind fun c =>
      (piecesAt rest).map fun (pieces, after) => (.char c :: pieces, after)
  | c :: rest =>
    if c.toNat < 0x20 then none
    else (piecesAt rest).map fun (pieces, after) => (.char c :: pieces, after)

/-- Puts the units of pairs together. A surrogate that is not escaped belongs to no pair. -/
def assemble : List Piece → List CodePoint
  | [] => []
  | .char c :: rest => c :: assemble rest
  | .unit n :: .unit m :: rest =>
    if isHighSurrogate n && isLowSurrogate m then pairChar n m :: assemble rest
    else CodePoint.ofNat n :: assemble (.unit m :: rest)
  | .unit n :: rest => CodePoint.ofNat n :: assemble rest

/-! ### Numbers -/

/-- The digits before the point: a zero alone, or digits that do not start with zero. -/
def wholeAt : List CodePoint → List CodePoint × List CodePoint
  | '0' :: rest => (['0'], rest)
  | cs => (cs.takeWhile CodePoint.isDigit, cs.dropWhile CodePoint.isDigit)

/-- The digits after a point, if a point with a digit after it stands here. -/
def fractionAt : List CodePoint → List CodePoint × List CodePoint
  | '.' :: rest =>
    let ds := rest.takeWhile CodePoint.isDigit
    if ds.isEmpty then ([], '.' :: rest) else (ds, rest.dropWhile CodePoint.isDigit)
  | cs => ([], cs)

/-- A minus sign in front of a number. -/
def minusAt : List CodePoint → Bool × List CodePoint
  | '-' :: rest => (true, rest)
  | cs => (false, cs)

/-- The number that starts here. -/
def numberAt (cs : List CodePoint) : Token × List CodePoint :=
  let sign := minusAt cs
  let whole := wholeAt sign.2
  let fraction := fractionAt whole.2
  let exponent := exponentAt fraction.2
  let numeral : Numeral :=
    ⟨sign.1, whole.1.map digitValue, fraction.1.map digitValue, exponent.1⟩
  if whole.1.isEmpty then (.unreadable .malformed, [])
  else if fraction.1.isEmpty && exponent.1.isNone then
    match numeral.toInt? with
    | some n => (.scalar (.int n), exponent.2)
    | none => (.unreadable .hugeInteger, [])
  else (.scalar (.float numeral.toBinary64), exponent.2)

/-! ### Tokens -/

/-- The white space between tokens. -/
def isSpace (c : CodePoint) : Bool :=
  c = ' ' || c = '\t' || c = '\n' || c = '\r'

/-- The values that are written as a word. -/
def words : List (List CodePoint × Json) :=
  [(("null" : Text).toList, .null), (("true" : Text).toList, .bool true),
    (("false" : Text).toList, .bool false), (("NaN" : Text).toList, .float .nan),
    (("Infinity" : Text).toList, .float (.infinity false)),
    (("-Infinity" : Text).toList, .float (.infinity true))]

/-- The word that starts here. -/
def wordAt? (cs : List CodePoint) : Option (Json × List CodePoint) :=
  words.findSome? fun (word, value) =>
    if word.isPrefixOf cs then some (value, cs.drop word.length) else none

/-- The token that starts with `c`, which is not white space, and what follows the token. -/
def tokenAt (c : CodePoint) (rest : List CodePoint) : Token × List CodePoint :=
  if c = '[' then (.openArray, rest)
  else if c = ']' then (.closeArray, rest)
  else if c = '\x7b' then (.openObject, rest)
  else if c = '\x7d' then (.closeObject, rest)
  else if c = ',' then (.comma, rest)
  else if c = ':' then (.colon, rest)
  else if c = '\x22' then
    match piecesAt rest with
    | some (pieces, after) => (.string (Text.ofList (assemble pieces)), after)
    | none => (.unreadable .malformed, [])
  else
    match wordAt? (c :: rest) with
    | some (value, after) => (.scalar value, after)
    | none => numberAt (c :: rest)

/-! ### A token takes at least one character -/

theorem length_piecesAt {cs after : List CodePoint} {pieces : List Piece}
    (h : piecesAt cs = some (pieces, after)) : after.length ≤ cs.length := by
  fun_induction piecesAt cs generalizing pieces after with
  | case1 => simp at h
  | case2 rest =>
    simp only [Option.some.injEq, Prod.mk.injEq] at h
    simp [← h.2]
  | case3 a b c d rest ih =>
    simp only [Option.bind_eq_some_iff, Option.map_eq_some_iff, Prod.mk.injEq, Prod.exists] at h
    obtain ⟨-, -, ps, r, hr, -, rfl⟩ := h
    have := ih hr
    simp only [List.length_cons]
    omega
  | case4 e rest _ ih =>
    simp only [Option.bind_eq_some_iff, Option.map_eq_some_iff, Prod.mk.injEq, Prod.exists] at h
    obtain ⟨-, -, ps, r, hr, -, rfl⟩ := h
    have := ih hr
    simp only [List.length_cons]
    omega
  | case5 => simp at h
  | case6 c rest _ _ _ _ ih =>
    simp only [Option.map_eq_some_iff, Prod.mk.injEq, Prod.exists] at h
    obtain ⟨ps, r, hr, -, rfl⟩ := h
    have := ih hr
    simp only [List.length_cons]
    omega

theorem length_wholeAt (cs : List CodePoint) :
    (wholeAt cs).1.length + (wholeAt cs).2.length = cs.length := by
  unfold wholeAt
  split
  · simp [Nat.add_comm]
  · exact Text.length_takeWhile_add_dropWhile _ _

theorem length_fractionAt (cs : List CodePoint) : (fractionAt cs).2.length ≤ cs.length := by
  unfold fractionAt
  split
  · next rest =>
    have := Text.length_takeWhile_add_dropWhile CodePoint.isDigit rest
    simp only
    split <;> simp only [List.length_cons] <;> omega
  · exact Nat.le_refl _

theorem length_signAt (cs : List CodePoint) : (signAt cs).2.length ≤ cs.length := by
  unfold signAt
  split <;> simp

theorem length_exponentAt (cs : List CodePoint) : (exponentAt cs).2.length ≤ cs.length := by
  unfold exponentAt
  split
  · exact Nat.le_refl _
  · next c rest =>
    have hs := length_signAt rest
    have hd := Text.length_takeWhile_add_dropWhile CodePoint.isDigit (signAt rest).2
    simp only
    split <;> simp only [List.length_cons] <;> omega

theorem length_minusAt (cs : List CodePoint) : (minusAt cs).2.length ≤ cs.length := by
  unfold minusAt
  split <;> simp

theorem length_numberAt (c : CodePoint) (rest : List CodePoint) :
    (numberAt (c :: rest)).2.length ≤ rest.length := by
  have hs := length_minusAt (c :: rest)
  have hw := length_wholeAt (minusAt (c :: rest)).2
  have hf := length_fractionAt (wholeAt (minusAt (c :: rest)).2).2
  have he := length_exponentAt (fractionAt (wholeAt (minusAt (c :: rest)).2).2).2
  rw [List.length_cons] at hs
  simp only [numberAt]
  split
  · simp
  · next hwhole =>
    have : 0 < (wholeAt (minusAt (c :: rest)).2).1.length := by
      rw [List.length_pos_iff]
      simpa using hwhole
    have total : (exponentAt (fractionAt (wholeAt (minusAt (c :: rest)).2).2).2).2.length
        ≤ rest.length := by
      omega
    split
    · split
      · exact total
      · exact Nat.zero_le _
    · exact total

theorem length_wordAt? {c : CodePoint} {rest after : List CodePoint} {value : Json}
    (h : wordAt? (c :: rest) = some (value, after)) : after.length ≤ rest.length := by
  have nonempty : ∀ w ∈ words, 0 < w.1.length := by decide
  obtain ⟨⟨word, meaning⟩, hw, h⟩ := List.exists_of_findSome?_eq_some h
  have : 0 < word.length := nonempty _ hw
  simp only at h
  split at h
  · simp only [Option.some.injEq, Prod.mk.injEq] at h
    rw [← h.2, List.length_drop, List.length_cons]
    omega
  · simp at h

theorem length_tokenAt (c : CodePoint) (rest : List CodePoint) :
    (tokenAt c rest).2.length ≤ rest.length := by
  unfold tokenAt
  repeat' split
  all_goals first
    | exact Nat.le_refl _
    | exact Nat.zero_le _
    | exact length_piecesAt ‹_›
    | exact length_wordAt? ‹_›
    | exact length_numberAt c rest

/-- The tokens of a text. -/
def tokens : List CodePoint → List Token
  | [] => []
  | c :: rest =>
    if isSpace c then tokens rest
    else (tokenAt c rest).1 :: tokens (tokenAt c rest).2
termination_by cs => cs.length
decreasing_by
  · simp
  · exact Nat.lt_succ_of_le (length_tokenAt c rest)

end FeatureToggles.Json
