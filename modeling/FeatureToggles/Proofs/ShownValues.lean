import FeatureToggles.Proofs.ReadValues

/-!
# Values that can be shown

A message can show every value that was read from a text, since its integers are short. An integer of one
digit more cannot be shown.
-/

namespace FeatureToggles

theorem Decimal.lt_ten_pow_length_digits (n : ℕ) : n < 10 ^ (digits n).length :=
  calc
    n = ofDigits (digits n) := (ofDigits_digits n).symm
    _ < 10 ^ (digits n).length := ofDigits_lt fun _ => lt_ten_of_mem_digits

namespace Json

/-- What can be written and read back can be shown. -/
theorem isShowable_of_storable {k : ℕ} {value : Json} (h : Storable k value) :
    value.isShowable = true := by
  induction h with
  | null => rfl
  | bool => rfl
  | int _ hn => exact decide_eq_true hn
  | float => rfl
  | string => rfl
  | array _ ih => exact everyItem_eq_true_iff.2 ih
  | object _ _ ih => exact everyField_eq_true_iff.2 fun field hfield => ⟨rfl, ih field hfield⟩

/-- A field of a value that can be shown can be shown. -/
theorem isShowable_of_fieldOf? {name : Text} {fields : List (Text × Json)} {value : Json}
    (h : (object fields).isShowable = true) (hvalue : fieldOf? name fields = some value) :
    value.isShowable = true :=
  (everyField_eq_true_iff.1 h _ (mem_of_fieldOf? hvalue)).2

/-- The least integer that is too long. -/
def longInteger : Json := .int (10 ^ Decimal.maxIntegerDigits)

theorem isShowable_longInteger : longInteger.isShowable = false := by
  have hlength : Decimal.maxIntegerDigits
      < (Decimal.digits (10 ^ Decimal.maxIntegerDigits)).length :=
    (Nat.pow_lt_pow_iff_right (by decide)).1 (Decimal.lt_ten_pow_length_digits _)
  have hnatAbs : ((10 : ℤ) ^ Decimal.maxIntegerDigits).natAbs = 10 ^ Decimal.maxIntegerDigits :=
    Int.natAbs_pow 10 _
  refine decide_eq_false ?_
  rw [hnatAbs]
  exact Nat.not_le.2 hlength

end Json

/-- What is read can be shown. -/
theorem StoredJson.isShowable_of_ofChars [JsonLibrary] {cs : List CodePoint} {value : Json}
    (h : ofChars cs = .ok value) : value.isShowable = true := by
  rw [ofChars] at h
  split at h
  · next hread =>
    cases h
    exact Json.isShowable_of_storable (Json.storable_of_readChars hread)
  · cases h
  · cases h

end FeatureToggles
