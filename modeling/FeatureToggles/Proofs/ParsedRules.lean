import FeatureToggles.Proofs.Parsing
import FeatureToggles.Proofs.StoredRules
import FeatureToggles.Proofs.TokenShapes
import FeatureToggles.Service.Handler

/-!
# Rules of parsed expressions

The limits of the rule text are limits of the stored form as well: what is parsed holds known
operators and short integers only, and is not too deep to be decoded. So rules of parsed expressions
are valid, and their stored text is read as these rules. Only the strings of a rule text can hold
surrogates, and only a pair of them is read as something else.
-/

namespace FeatureToggles

/-! ### Numbers of rule text -/

namespace RuleText

open Unicode (apart covers covers_of_apart increasingFrom)

/-- Digits of any script have the values of digits. -/
theorem lt_ten_of_digitValues? {cs : List CodePoint} {ds : List ℕ} (h : digitValues? cs = some ds) :
    ∀ d ∈ ds, d < 10 := by
  rw [digitValues?] at h
  generalize cs.filter (· ≠ CodePoint.char '_') = cs at h
  induction cs generalizing ds with
  | nil =>
    cases h
    exact fun d hd => absurd hd List.not_mem_nil
  | cons c cs ih =>
    rw [List.mapM_cons] at h
    simp only [Option.bind_eq_bind, Option.bind_eq_some_iff, Option.pure_def, Option.some.injEq] at h
    obtain ⟨d, hd, rest, hrest, rfl⟩ := h
    exact List.forall_mem_cons.2 ⟨Unicode.decimalValue?_lt hd, ih hrest⟩

/-- An integer that is not written with too many digits does not have too many. -/
theorem length_digits_intOf? {cs : List CodePoint} {n : ℤ} (h : intOf? cs = some n) :
    (Decimal.digits n.natAbs).length ≤ Decimal.maxIntegerDigits := by
  simp only [intOf?, Option.bind_eq_bind, Option.bind_eq_some_iff] at h
  obtain ⟨ds, hds, hn⟩ := h
  exact Decimal.Numeral.length_digits_toInt? (lt_ten_of_digitValues? hds) hn

/-! ### Words of rule text -/

/-- No surrogate is part of a word. -/
theorem isSurrogate_of_isWordPart {c : CodePoint} (h : isWordPart c = true) : c.isSurrogate = false := by
  cases c with
  | char c => rfl
  | surrogate n =>
    -- the surrogates are an interval that the tables of letters and of numerals leave out
    have houtside {table : List (ℕ × ℕ)} (htable : increasingFrom 0 table = true)
        (hapart : apart table [(0xd800, 0xdfff)] = true) : covers table (0xd800 + n.val) = false := by
      rw [Bool.eq_false_iff]
      intro hcovers
      have hsurrogates := @covers_of_apart table [(0xd800, 0xdfff)] 0 0 htable rfl hapart _ hcovers
      simp only [covers] at hsurrogates
      rw [if_neg (by omega), Bool.or_false, decide_eq_false_iff_not] at hsurrogates
      omega
    have hletter := houtside increasingFrom_letterIntervals (by decide +kernel)
    have hnumeric := houtside increasingFrom_numericIntervals (by decide +kernel)
    have hpart : isWordPart (.surrogate n) = false := by
      simp [isWordPart, Unicode.isLetter, Unicode.isNumeric, CodePoint.toNat, hletter, hnumeric]
    rw [hpart] at h
    cases h

theorem isUnpaired_of_isWord {s : Text} (h : IsWord s.toList) : s.isUnpaired = true := by
  obtain ⟨c, rest, hs, hc, hrest⟩ := h
  refine Text.isUnpaired_of_isSurrogate fun d hd => isSurrogate_of_isWordPart ?_
  rw [hs] at hd
  rcases List.mem_cons.1 hd with rfl | hd
  · rw [isWordStart, Bool.or_eq_true] at hc
    rcases hc with hc | hc <;> simp [isWordPart, hc]
  · exact hrest d hd

/-- Tokens that are read have the shapes of their kinds. -/
theorem hasShape_of_lexFrom {position : ℕ} {cs : List CodePoint} {ts : List Token}
    (h : lexFrom position cs = .ok ts) : ∀ t ∈ ts, ∃ span, t.kind.HasShape span t.value.toList := by
  fun_induction lexFrom position cs generalizing ts with
  | case1 =>
    cases h
    exact fun t ht => absurd ht List.not_mem_nil
  | case2 position c rest hblank ih => exact ih h
  | case3 => cases h
  | case4 => cases h
  | case5 position c rest hblank kind value after htoken hlength us hus ih =>
    cases h
    obtain ⟨span, -, hshape, -⟩ := hasShape_of_tokenAt htoken
    exact List.forall_mem_cons.2 ⟨⟨span, hshape⟩, ih hus⟩

theorem isUnpaired_of_lex {text : Text} {ts : List Token} (h : lex text = .ok ts) :
    ∀ t ∈ ts, t.kind = .ident → t.value.isUnpaired = true := by
  intro t ht hkind
  obtain ⟨span, hshape⟩ := hasShape_of_lexFrom h t ht
  rw [hkind] at hshape
  obtain ⟨rfl, hword, -⟩ := hshape
  exact isUnpaired_of_isWord hword

end RuleText

namespace Expr

open RuleText (Derives Symbol)

/-- Whether all operators within are known. -/
def HasKnownOperators : Expr → Prop
  | literal _ => True
  | ident _ => True
  | binary op left right =>
    (∃ known, op = .known known) ∧ left.HasKnownOperators ∧ right.HasKnownOperators
  | unary op operand => (∃ known, op = .known known) ∧ operand.HasKnownOperators

/-- The grammar has no operators but the known ones. -/
theorem hasKnownOperators_of_derives {symbol : Symbol} {ts : List RuleText.Token} {e : Expr}
    (h : Derives symbol ts e) : e.HasKnownOperators := by
  induction h with
  | conjunction _ ih => exact ih
  | comparison _ ih => exact ih
  | unary _ ih => exact ih
  | primary _ ih => exact ih
  | or _ _ _ ihl ihr => exact ⟨⟨_, rfl⟩, ihl, ihr⟩
  | and _ _ _ ihl ihr => exact ⟨⟨_, rfl⟩, ihl, ihr⟩
  | compare op _ _ _ _ ihl ihr => exact ⟨⟨_, rfl⟩, ihl, ihr⟩
  | sign op _ _ ih => exact ⟨⟨_, rfl⟩, ih⟩
  | group _ _ _ ih => exact ih
  | _ => trivial

theorem HasShortIntegers.binary {op : Operator BinaryOp} {left right : Expr}
    (hl : left.HasShortIntegers) (hr : right.HasShortIntegers) :
    (Expr.binary op left right).HasShortIntegers := by
  intro n hn
  rcases List.mem_append.1 hn with hn | hn
  · exact hl n hn
  · exact hr n hn

/-- The grammar has no integers but those that can be represented. -/
theorem hasShortIntegers_of_derives {symbol : Symbol} {ts : List RuleText.Token} {e : Expr}
    (h : Derives symbol ts e) : e.HasShortIntegers := by
  induction h with
  | conjunction _ ih => exact ih
  | comparison _ ih => exact ih
  | unary _ ih => exact ih
  | primary _ ih => exact ih
  | or _ _ _ ihl ihr => exact ihl.binary ihr
  | and _ _ _ ihl ihr => exact ihl.binary ihr
  | compare op _ _ _ _ ihl ihr => exact ihl.binary ihr
  | sign op _ _ ih => exact ih
  | group _ _ _ ih => exact ih
  | int s position hn =>
    intro m hm
    rw [List.mem_singleton.1 hm]
    exact RuleText.length_digits_intOf? hn
  | _ => exact fun m hm => absurd hm List.not_mem_nil

/-- The strings that an expression holds. -/
def strings : Expr → List Text
  | literal (.string s) => [s]
  | literal _ => []
  | ident _ => []
  | binary _ left right => left.strings ++ right.strings
  | unary _ operand => operand.strings

theorem HasUnpairedTexts.binary {op : BinaryOp} {left right : Expr} (hl : left.HasUnpairedTexts)
    (hr : right.HasUnpairedTexts) : (Expr.binary (.known op) left right).HasUnpairedTexts := by
  refine List.forall_mem_cons.2 ⟨?_, List.forall_mem_append.2 ⟨hl, hr⟩⟩
  cases op <;> exact Text.isUnpaired_ofString _

theorem HasUnpairedTexts.unary {op : UnaryOp} {operand : Expr} (h : operand.HasUnpairedTexts) :
    (Expr.unary (.known op) operand).HasUnpairedTexts := by
  refine List.forall_mem_cons.2 ⟨?_, h⟩
  cases op <;> exact Text.isUnpaired_ofString _

/-- The grammar has no texts but its strings, its words and the spellings of operators. -/
theorem hasUnpairedTexts_of_derives {symbol : Symbol} {ts : List RuleText.Token} {e : Expr}
    (h : Derives symbol ts e) (hwords : ∀ t ∈ ts, t.kind = .ident → t.value.isUnpaired = true)
    (hstrings : ∀ s ∈ e.strings, s.isUnpaired = true) : e.HasUnpairedTexts := by
  induction h with
  | conjunction _ ih => exact ih hwords hstrings
  | comparison _ ih => exact ih hwords hstrings
  | unary _ ih => exact ih hwords hstrings
  | primary _ ih => exact ih hwords hstrings
  | or _ _ _ ihl ihr =>
    simp only [List.forall_mem_append, List.forall_mem_cons, strings] at hwords hstrings
    exact (ihl hwords.1 hstrings.1).binary (ihr hwords.2.2 hstrings.2)
  | and _ _ _ ihl ihr =>
    simp only [List.forall_mem_append, List.forall_mem_cons, strings] at hwords hstrings
    exact (ihl hwords.1 hstrings.1).binary (ihr hwords.2.2 hstrings.2)
  | compare op _ _ _ _ ihl ihr =>
    simp only [List.forall_mem_append, List.forall_mem_cons, strings] at hwords hstrings
    exact (ihl hwords.1 hstrings.1).binary (ihr hwords.2.2 hstrings.2)
  | sign op _ _ ih => exact (ih (List.forall_mem_cons.1 hwords).2 hstrings).unary
  | group _ _ _ ih =>
    simp only [List.forall_mem_append, List.forall_mem_cons] at hwords
    exact ih hwords.2.1 hstrings
  | string s position => exact hstrings
  | ident s position =>
    exact List.forall_mem_singleton.2 (List.forall_mem_singleton.1 hwords rfl)
  | _ => exact fun s hs => absurd hs List.not_mem_nil

theorem joined_of_parse {text : Text} {e : Expr} (h : RuleText.parse text = .ok e)
    (hstrings : ∀ s ∈ e.strings, s.isUnpaired = true) : e.joined = e := by
  obtain ⟨ts, hlex, hderives, -, -⟩ := RuleText.derives_of_parse h
  exact joined_eq_self (hasUnpairedTexts_of_derives hderives (RuleText.isUnpaired_of_lex hlex) hstrings)

end Expr

namespace Rule

/-- Taking rules one by one succeeds if every step does. -/
theorem exists_foldlM_eq_ok {σ : Type} {f : σ → Rule → Except Fault σ} {rules : List Rule}
    (h : ∀ rule ∈ rules, ∀ s, ∃ s', f s rule = .ok s') (s : σ) : ∃ s', rules.foldlM f s = .ok s' := by
  induction rules generalizing s with
  | nil => exact ⟨s, rfl⟩
  | cons rule rules ih =>
    obtain ⟨hrule, hrules⟩ := List.forall_mem_cons.1 h
    obtain ⟨s', hs'⟩ := hrule s
    rw [List.foldlM_cons, hs']
    exact ih hrules s'

/-- Rules that are joined by logical operators only are valid. -/
theorem exists_validNames {rules : List Rule} (h : ∀ rule ∈ rules, rule.isLogical = true) :
    ∃ names, Service.validNames rules = .ok names := by
  refine exists_foldlM_eq_ok (fun rule hrule names => ?_) []
  rw [validate, if_pos (h rule hrule)]
  exact ⟨_, rfl⟩

theorem storable_of_parse {text : Text} {rule : Rule} (h : RuleText.parse text = .ok rule.expr) :
    rule.Storable := by
  obtain ⟨ts, -, hderives, -, hdepth⟩ := RuleText.derives_of_parse h
  exact ⟨hdepth, Expr.hasShortIntegers_of_derives hderives⟩

theorem joined_of_parse {text : Text} {rule : Rule} (hlogical : rule.isLogical = true)
    (h : RuleText.parse text = .ok rule.expr) (hstrings : ∀ s ∈ rule.expr.strings, s.isUnpaired = true) :
    rule.joined = rule := by
  have hop : rule.op.text.isUnpaired = true := by
    rcases isLogical_eq_true_iff.1 hlogical with hop | hop <;> rw [hop] <;> exact Text.isUnpaired_ofString _
  rw [joined, Operator.joined_eq_self hop, Expr.joined_of_parse h hstrings]

section

variable [JsonLibrary]

/-- **Authoring.** An expression that is parsed has known operators only and at most 64 levels, and its
stored text holds this expression with the pairs of surrogates within its strings joined. Rules of such
expressions that are joined by logical operators are valid, and their stored text is read as these rules,
changed in the same way. If no string holds such a pair, nothing is changed, and the rules have the same
value as before. -/
theorem parsed_rules_stored :
    (∀ (text : Text) (e : Expr), RuleText.parse text = .ok e →
      e.HasKnownOperators ∧ e.depth ≤ 64 ∧
        (StoredJson.ofText (Json.write e.encode) >>= Expr.decode) = .ok e.joined ∧
        ((∀ s ∈ e.strings, s.isUnpaired = true) → e.joined = e)) ∧
    ∀ rules : List Rule,
      (∀ rule ∈ rules, rule.isLogical = true ∧ ∃ text, RuleText.parse text = .ok rule.expr) →
      (∃ names : List Text, Service.validateItems (rules.map encode)
        = .ok (.object [("valid", .bool true), ("identifiers", .array (names.map .string))])) ∧
      (RuleSource.text (encodeAll rules)).decode = .ok (rules.map joined) ∧
      ((∀ rule ∈ rules, ∀ s ∈ rule.expr.strings, s.isUnpaired = true) →
        (RuleSource.text (encodeAll rules)).decode = .ok rules ∧
        ∀ metadata : Metadata, (RuleSource.text (encodeAll rules)).decode.map (evalAll metadata)
          = .ok (evalAll metadata rules)) := by
  refine ⟨fun text e h => ?_, fun rules h => ?_⟩
  · obtain ⟨ts, -, hderives, -, hdepth⟩ := RuleText.derives_of_parse h
    exact ⟨Expr.hasKnownOperators_of_derives hderives, hdepth,
      Expr.decode_text (Expr.hasShortIntegers_of_derives hderives) hdepth, Expr.joined_of_parse h⟩
  · -- each rule keeps to the limits of decoding because its text kept to those of parsing
    have hstorable : ∀ rule ∈ rules, rule.Storable := by
      intro rule hrule
      obtain ⟨text, htext⟩ := (h rule hrule).2
      exact storable_of_parse htext
    have hread := decode_encodeAll hstorable
    obtain ⟨names, hnames⟩ := exists_validNames fun rule hrule => (h rule hrule).1
    refine ⟨⟨names, ?_⟩, hread, fun hstrings => ?_⟩
    · rw [Service.validateItems, decodeItems_encode hstorable 0]
      simp only [hnames]
    · have hself : rules.map joined = rules := by
        apply map_joined_eq_self
        intro rule hrule
        obtain ⟨hlogical, text, htext⟩ := h rule hrule
        exact joined_of_parse hlogical htext (hstrings rule hrule)
      rw [hself] at hread
      exact ⟨hread, fun metadata => by rw [hread]; rfl⟩

end

attribute [local instance] JsonLibrary.terse

/-- The text of a string with an escaped quote and of a digit of another script, as one rule. -/
theorem parsed_rules_stored_escape :
    (RuleSource.text (encodeAll [⟨.known .or, .binary (.known .greater)
        (.literal (.string "a\"b")) (.literal (.int 3))⟩])).decode
      = .ok [⟨.known .or, .binary (.known .greater)
        (.literal (.string "a\"b")) (.literal (.int 3))⟩] := by
  refine ((parsed_rules_stored.2 _ (List.forall_mem_singleton.2 ?_)).2.2
    (List.forall_mem_singleton.2 (by decide))).1
  have hparse : RuleText.parse "\"a\\\"b\" > \u0663" = .ok (.binary (.known .greater)
      (.literal (.string "a\"b")) (.literal (.int 3))) := by
    cbv
  exact ⟨rfl, _, hparse⟩

/-- The first surrogate of the character `1f600`. -/
def highSurrogate : CodePoint :=
  .surrogate ⟨0x3d, by decide⟩

/-- The second surrogate of the character `1f600`. -/
def lowSurrogate : CodePoint :=
  .surrogate ⟨0x600, by decide⟩

/-- A string of these surrogates, which a backslash keeps apart in the rule text only. -/
def surrogateText : Text :=
  ⟨[.char '\x22', highSurrogate, .char '\\', lowSurrogate, .char '\x22']⟩

/-- The stored text of a string that holds a pair of surrogates is read as one with another character. -/
theorem parsed_pair_joined :
    let e : Expr := .literal (.string ⟨[highSurrogate, lowSurrogate]⟩)
    RuleText.parse surrogateText = .ok e ∧
      (StoredJson.ofText (Json.write e.encode) >>= Expr.decode) = .ok (.literal (.string "😀")) ∧
      Expr.literal (.string "😀") ≠ e := by
  intro e
  have hparse : RuleText.parse surrogateText = .ok e := by cbv
  have hjoined : e.joined = .literal (.string "😀") := by decide +kernel
  have hintegers : e.HasShortIntegers := List.forall_mem_nil _
  have hdepth : e.depth ≤ 64 := by
    rw [Expr.depth_eq_height]
    decide
  have hread := Expr.decode_text hintegers hdepth
  rw [hjoined] at hread
  exact ⟨hparse, hread, by decide⟩

end Rule

end FeatureToggles
