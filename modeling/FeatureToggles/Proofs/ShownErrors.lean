import FeatureToggles.Proofs.FirstDefect

/-!
# Errors of values that can be shown

A value that is `Json.isShowable` and is not decoded fails with a `DecodeError`, not with
`Undecoded.unshowable`. Every value that was read from a text can be shown.
-/

namespace FeatureToggles

namespace Expr

variable {levels : ℕ} {failure : Undecoded}

theorem StepsTo.isShowable {value part : Json} {step : PathStep} (h : StepsTo levels value step part)
    (hvalue : value.isShowable = true) : part.isShowable = true := by
  cases h with
  | left _ _ hpart => exact Json.isShowable_of_fieldOf? hvalue hpart
  | right _ _ _ _ hpart => exact Json.isShowable_of_fieldOf? hvalue hpart
  | operand _ _ hpart => exact Json.isShowable_of_fieldOf? hvalue hpart

theorem Leads.isShowable {below : ℕ} {value node : Json} {path : List PathStep}
    (h : Leads levels value path below node) (hvalue : value.isShowable = true) :
    node.isShowable = true := by
  induction h with
  | here => exact hvalue
  | step hstep _ ih => exact ih (hstep.isShowable hvalue)

/-- A value that can be shown is decoded or fails with an error. -/
theorem exists_defect {value : Json} (hvalue : value.isShowable = true)
    (h : decode value = .error failure) : ∃ error, failure = .defect error := by
  obtain ⟨path, below, node, fault, hpath, hdefect, rfl⟩ := decodeLevels_eq_error_iff.1 h
  have hshowable : fault.isShowable = true := by
    by_contra hnot
    obtain ⟨tag, rfl, htag⟩ := DecodeFault.exists_unknownTag (Bool.eq_false_iff.2 hnot)
    cases hdefect with
    | unknownTag hfield _ =>
      rw [Json.isShowable_of_fieldOf? (hpath.isShowable hvalue) hfield] at htag
      cases htag
    | wrongValue _ _ _ hrefuses => cases hrefuses
  exact ⟨_, Undecoded.ofError_eq_defect_iff.2 ⟨rfl, hshowable⟩⟩

end Expr

namespace Rule

variable {failure : Undecoded}

theorem exists_defect_of_decode {item : Json} (hitem : item.isShowable = true)
    (h : decode item = .error failure) : ∃ error, failure = .defect error := by
  cases item with
  | object fields =>
    rw [decode, bind_eq_error_iff] at h
    rcases h with hop | ⟨op, -, hexpr⟩
    · rcases Operator.ofFields_eq_error_iff.1 hop with ⟨-, rfl⟩ | ⟨_, -, -, rfl⟩
      · exact ⟨_, rfl⟩
      · exact ⟨_, rfl⟩
    · rcases bind_eq_error_iff.1 hexpr with hpart | ⟨_, -, hrule⟩
      · rcases Expr.decodePart_eq_error_iff.1 hpart with ⟨-, rfl⟩ | ⟨part, e, hfield, he, rfl⟩
        · exact ⟨_, rfl⟩
        · obtain ⟨error, rfl⟩ := Expr.exists_defect (Json.isShowable_of_fieldOf? hitem hfield) he
          exact ⟨_, rfl⟩
      · cases hrule
  | _ =>
    cases h
    exact ⟨_, rfl⟩

theorem exists_defect_of_decodeList {value : Json} (hvalue : value.isShowable = true)
    (h : decodeList value = .error failure) : ∃ error, failure = .defect error := by
  cases value with
  | null => cases h
  | array items =>
    obtain ⟨before, item, after, e, rfl, -, he, hfailure⟩ :=
      exists_first_undecoded (exists_undecoded_of_decodeItems h)
    have hitem : item.isShowable = true :=
      Json.everyItem_eq_true_iff.1 hvalue item (by simp)
    obtain ⟨error, rfl⟩ := exists_defect_of_decode hitem he
    have hlist : decodeList (.array (before ++ item :: after))
        = .error (.defect (error.under (.item before.length))) := hfailure
    rw [hlist] at h
    cases h
    exact ⟨_, rfl⟩
  | _ =>
    cases h
    exact ⟨_, rfl⟩

end Rule

theorem StoredJson.exists_defect_of_ofChars [JsonLibrary] {cs : List CodePoint} {failure : Undecoded}
    (h : ofChars cs = .error failure) : ∃ error, failure = .defect error := by
  unfold ofChars at h
  split at h
  · cases h
  · cases h
    exact ⟨_, rfl⟩
  · cases h
    exact ⟨_, rfl⟩

namespace RuleSource

variable [JsonLibrary] {failure : Undecoded}

/-- Characters that hold no list of rules fail with an error. -/
theorem exists_defect_of_ofChars {cs : List CodePoint}
    (h : (StoredJson.ofChars cs >>= Rule.decodeList) = .error failure) :
    ∃ error, failure = .defect error := by
  rcases bind_eq_error_iff.1 h with hread | ⟨value, hvalue, hrules⟩
  · exact StoredJson.exists_defect_of_ofChars hread
  · exact Rule.exists_defect_of_decodeList (StoredJson.isShowable_of_ofChars hvalue) hrules

/-- Rules that are not decoded fail with an error, unless they are stored as a value that cannot be shown.
-/
theorem exists_defect {source : RuleSource}
    (hsource : ∀ content, source = .value content → content.isShowable = true)
    (h : source.decode = .error failure) : ∃ error, failure = .defect error := by
  cases source with
  | absent => cases h
  | text content => exact exists_defect_of_ofChars h
  | bytes content =>
    rw [decode, StoredJson.ofUtf8] at h
    split at h
    · exact exists_defect_of_ofChars h
    · cases h
      exact ⟨_, rfl⟩
  | value content =>
    cases content with
    | string inner => exact exists_defect_of_ofChars h
    | _ => exact Rule.exists_defect_of_decodeList (hsource _ rfl) h

end RuleSource

end FeatureToggles
