import FeatureToggles.Proofs.UuidSpellings
import FeatureToggles.Service.Handler

/-!
# Account ids

A path names an account by any spelling of its identifier. Whatever the spelling is, the account is the one of
a number of 128 bits, and the written form of this number names the same account. So two spellings of one
account never reach different toggles. A text that spells no identifier is reported, and nothing else happens.
-/

namespace FeatureToggles

open CodePoint (char)

namespace Uuid

theorem toList_text (id : Uuid) : id.text.toList = id.chars := by
  rw [text, Text.toList_ofList]

/-- A text in the written form is the text of its own identifier. -/
theorem text_eq_of_isGrouped {text : Text} {id : Uuid} (hgrouped : IsGrouped text.toList)
    (hread : ofChars? text.toList = some id) : text = id.text := by
  obtain ⟨other, hother⟩ := exists_eq_chars_of_isGrouped hgrouped
  have hself : ofChars? text.toList = some other := by
    rw [hother]
    exact ofChars?_of_spells (spells_chars other)
  have hid : id = other := Option.some.inj (hread.symm.trans hself)
  apply Text.toList_inj.1
  rw [toList_text, hid, hother]

end Uuid

namespace Service

open Uuid (IsGrouped IsNumeral Spells bare)

/-- The fault of a request whose path names no account. -/
def namesNoAccount (text : Text) : Fault :=
  .invalid "account ID was badly formed" [("account_id", .string text)]

theorem accountOf_eq_ok_iff {text : Text} {id : Uuid} :
    accountOf text = .ok id ↔ Uuid.ofChars? text.toList = some id := by
  unfold accountOf Uuid.ofText?
  cases Uuid.ofChars? text.toList with
  | none => simp
  | some other => simp

/-- The accounts of texts are those of numerals; there is no numeral that is refused for its number. -/
theorem exists_accountOf_iff {text : Text} {n : ℕ} :
    (∃ id, accountOf text = .ok id ∧ id.number = n) ↔
      (bare text.toList).length = 32 ∧ IsNumeral (bare text.toList) n := by
  constructor
  · intro h
    obtain ⟨id, hid, rfl⟩ := h
    exact Uuid.ofChars?_eq_some_iff.1 (accountOf_eq_ok_iff.1 hid)
  · intro h
    have hbound : n < uuidBound := Uuid.lt_of_number? (Uuid.number?_eq_some_iff.2 h)
    exact ⟨⟨n, hbound⟩, accountOf_eq_ok_iff.2 (Uuid.ofChars?_eq_some_iff.2 h), rfl⟩

theorem accountOf_of_forall_ne {text : Text} (h : ∀ id, accountOf text ≠ .ok id) :
    accountOf text = .error (namesNoAccount text) := by
  unfold accountOf at h ⊢
  cases hread : Uuid.ofText? text with
  | none => rfl
  | some id =>
    rw [hread] at h
    exact absurd rfl (h id)

theorem accountOf_text (id : Uuid) : accountOf id.text = .ok id := by
  rw [accountOf_eq_ok_iff, Uuid.toList_text]
  exact Uuid.ofChars?_of_spells (Uuid.spells_chars id)

section

variable [JsonLibrary]

/-- To the handlers two texts of one account are the same. -/
theorem answers_eq_of_accountOf_eq {text other : Text} (h : accountOf text = accountOf other)
    (service : Service) (surroundings : Surroundings) :
    showToggles service surroundings text = showToggles service surroundings other ∧
      ∀ body, resolve service surroundings text body = resolve service surroundings other body := by
  unfold showToggles resolve
  rw [h]
  exact ⟨rfl, fun body => rfl⟩

/-- A text without an account is reported before anything else is looked at. -/
theorem answers_of_accountOf_error {text : Text} {fault : Fault} (h : accountOf text = .error fault)
    (service : Service) (surroundings : Surroundings) :
    showToggles service surroundings text = .fault fault ∧
      ∀ body, resolve service surroundings text body = ⟨service.metrics, .fault fault⟩ := by
  unfold showToggles resolve
  rw [h]
  exact ⟨rfl, fun body => rfl⟩

/-- **Canonical spelling.** A text names the account of the numeral that its thirty-two bare characters
are; no such numeral has more than 128 bits. Of all texts grouped as identifiers are, only the account's
written form names it, and this is the same account to every handler. Any spelling of an identifier names
its account, and a text that names none is refused with `namesNoAccount`. -/
theorem account_ids_canonical (text : Text) :
    (∀ n, (∃ id, accountOf text = .ok id ∧ id.number = n) ↔
      (bare text.toList).length = 32 ∧ IsNumeral (bare text.toList) n) ∧
    (∀ n, (bare text.toList).length = 32 ∧ IsNumeral (bare text.toList) n → n < 2 ^ 128) ∧
    (∀ id, accountOf text = .ok id →
      id.number < 2 ^ 128 ∧ id.text.length = 36 ∧ IsGrouped id.text.toList ∧
      (IsGrouped text.toList → text = id.text) ∧ accountOf id.text = .ok id ∧
      ∀ service surroundings,
        showToggles service surroundings text = showToggles service surroundings id.text ∧
        ∀ body, resolve service surroundings text body = resolve service surroundings id.text body) ∧
    (∀ id, Spells id text.toList → accountOf text = .ok id) ∧
    ((∀ id, accountOf text ≠ .ok id) →
      accountOf text = .error (namesNoAccount text) ∧
      ∀ service surroundings,
        showToggles service surroundings text = .fault (namesNoAccount text) ∧
        ∀ body, resolve service surroundings text body =
          ⟨service.metrics, .fault (namesNoAccount text)⟩) := by
  have hrange : ∀ n, (bare text.toList).length = 32 ∧ IsNumeral (bare text.toList) n → n < 2 ^ 128 := by
    intro n hn
    exact Uuid.lt_of_number? (Uuid.number?_eq_some_iff.2 hn)
  refine ⟨fun n => exists_accountOf_iff, hrange, ?_, ?_, ?_⟩
  · intro id hid
    have hbound : id.number < 2 ^ 128 := hrange id.number (exists_accountOf_iff.1 ⟨id, hid, rfl⟩)
    have hgrouped : IsGrouped id.text.toList := by
      rw [Uuid.toList_text]
      exact Uuid.isGrouped_chars id
    have hlength : id.text.length = 36 := by
      rw [← Text.length_toList]
      exact hgrouped.length
    have hunique : IsGrouped text.toList → text = id.text := by
      intro htext
      exact Uuid.text_eq_of_isGrouped htext (accountOf_eq_ok_iff.1 hid)
    have hsame : accountOf text = accountOf id.text := by
      rw [hid, accountOf_text]
    exact ⟨hbound, hlength, hgrouped, hunique, accountOf_text id, answers_eq_of_accountOf_eq hsame⟩
  · intro id hspells
    exact accountOf_eq_ok_iff.2 (Uuid.ofChars?_of_spells hspells)
  · intro hnone
    have hrefused := accountOf_of_forall_ne hnone
    exact ⟨hrefused, answers_of_accountOf_error hrefused⟩

end

attribute [local instance] JsonLibrary.terse

/-- One account, named behind a label, in braces and with an upper-case digit; with white space, a sign, a mark,
an underscore and a digit of another script; and as it is written. A single digit names none. -/
theorem account_ids_canonical_spellings :
    ∃ id : Uuid, id.number = 0xa1 ∧
      accountOf "urn:uuid:\x7b00000000-0000-0000-0000-0000000000A1\x7d" = .ok id ∧
      accountOf " +0x_000000000000000000000000a١ " = .ok id ∧
      "00000000-0000-0000-0000-0000000000a1" = id.text ∧ accountOf id.text = .ok id ∧
      accountOf "a" = .error (namesNoAccount "a") := by
  have hlabelled : accountOf "urn:uuid:\x7b00000000-0000-0000-0000-0000000000A1\x7d"
      = .ok ⟨0xa1, by decide⟩ := by
    have hparts : ("urn:uuid:\x7b00000000-0000-0000-0000-0000000000A1\x7d" : Text).toList
        = ("urn:uuid:" : Text).toList ++ char '\x7b' ::
          (("00000000-0000-0000-0000-0000000000A1" : Text).toList ++ [char '\x7d']) := by
      decide +kernel
    apply (account_ids_canonical _).2.2.2.1
    rw [hparts]
    exact .labelled (.braced (.digits (by decide +kernel)))
  have hnumeral : ∃ id, accountOf " +0x_000000000000000000000000a١ " = .ok id ∧ id.number = 0xa1 := by
    apply ((account_ids_canonical _).1 0xa1).2
    rw [Uuid.bare_eq_self (by decide) (by decide) (by decide) (by decide)]
    exact Uuid.number?_eq_some_iff.1 (by decide +kernel)
  have hwritten : "00000000-0000-0000-0000-0000000000a1" = (Uuid.mk 0xa1 (by decide)).text := by
    have hchars : ("00000000-0000-0000-0000-0000000000a1" : Text).toList
        = (Uuid.mk 0xa1 (by decide)).chars := by
      decide +kernel
    apply ((account_ids_canonical _).2.2.1 _ ((account_ids_canonical _).2.2.2.1 _ ?_)).2.2.2.1
    · rw [hchars]
      exact Uuid.isGrouped_chars _
    · rw [hchars]
      exact Uuid.spells_chars _
  have hrefused : accountOf "a" = .error (namesNoAccount "a") := by
    apply And.left
    apply (account_ids_canonical "a").2.2.2.2
    intro id hid
    have hlength := ((account_ids_canonical "a").1 id.number).1 ⟨id, hid, rfl⟩
    rw [Uuid.bare_eq_self (by decide) (by decide) (by decide) (by decide)] at hlength
    exact absurd hlength.1 (by decide)
  obtain ⟨⟨n, hbound⟩, hid, rfl⟩ := hnumeral
  exact ⟨_, rfl, hlabelled, hid, hwritten, ((account_ids_canonical _).2.2.1 _ hlabelled).2.2.2.2.1, hrefused⟩

end Service

end FeatureToggles
