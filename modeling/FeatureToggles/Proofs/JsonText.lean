import FeatureToggles.Json.Reader
import FeatureToggles.Proofs.StringText
import FeatureToggles.Proofs.TokenText
import FeatureToggles.StoredJson

/-!
# JSON values read back

The written form of a value is read as this value, as long as its integers are not too long, no name
occurs twice in one of its objects and its containers are not nested too deeply. Only surrogates within its
texts that make a pair are not kept apart: they are read as one character.
-/

namespace FeatureToggles.Json

open CodePoint (char)
open JsonLibrary (maxNesting)

/-- Whether no text within has a high surrogate directly before a low one. -/
def hasUnpairedTexts (value : Json) : Bool :=
  value.everywhere fun
    | string s => s.isUnpaired
    | _ => true

theorem hasUnpairedTexts_object {fields : List (Text × Json)} :
    (object fields).hasUnpairedTexts = true
      ↔ ∀ field ∈ fields, field.1.isUnpaired = true ∧ field.2.hasUnpairedTexts = true :=
  everyField_eq_true_iff

theorem hasUnpairedTexts_array {items : List Json} :
    (array items).hasUnpairedTexts = true ↔ ∀ item ∈ items, item.hasUnpairedTexts = true :=
  everyItem_eq_true_iff

/-- A value whose written form can be read, with containers nested at most `k` deep. -/
inductive Storable : ℕ → Json → Prop
  | null (k : ℕ) : Storable k .null
  | bool (k : ℕ) (value : Bool) : Storable k (.bool value)
  | int (k : ℕ) {n : ℤ} (hn : (Decimal.digits n.natAbs).length ≤ Decimal.maxIntegerDigits) :
    Storable k (.int n)
  | float (k : ℕ) (value : Binary64) : Storable k (.float value)
  | string (k : ℕ) (s : Text) : Storable k (.string s)
  | array {k : ℕ} {items : List Json} (hitems : ∀ item ∈ items, Storable k item) :
    Storable (k + 1) (.array items)
  | object {k : ℕ} {fields : List (Text × Json)} (hnames : (fields.map (·.1)).Nodup)
    (hfields : ∀ field ∈ fields, Storable k field.2) : Storable (k + 1) (.object fields)

theorem Storable.mono {k k' : ℕ} {value : Json} (h : Storable k value) (hk : k ≤ k') :
    Storable k' value := by
  induction h generalizing k' with
  | null => exact .null k'
  | bool _ value => exact .bool k' value
  | int _ hn => exact .int k' hn
  | float _ value => exact .float k' value
  | string _ s => exact .string k' s
  | array _ ih =>
    obtain ⟨k', rfl⟩ : ∃ n, k' = n + 1 := ⟨k' - 1, by omega⟩
    exact .array fun item hitem => ih item hitem (by omega)
  | object hnames _ ih =>
    obtain ⟨k', rfl⟩ : ∃ n, k' = n + 1 := ⟨k' - 1, by omega⟩
    exact .object hnames fun field hfield => ih field hfield (by omega)

/-! ### Tokens of punctuation -/

theorem endsNumber_nil : EndsNumber [] := by
  rintro c ⟨⟩

theorem endsNumber_cons {c : CodePoint} (h : c = char ',' ∨ c = char ']' ∨ c = char '\x7d')
    (rest : List CodePoint) : EndsNumber (c :: rest) := by
  rintro _ ⟨⟩
  rcases h with rfl | rfl | rfl <;> decide

theorem tokens_cons {c : CodePoint} {cs after : List CodePoint} {t : Token} (hspace : isSpace c = false)
    (ht : tokenAt c cs = (t, after)) : tokens (c :: cs) = t :: tokens after := by
  rw [tokens, hspace, if_neg Bool.false_ne_true, ht]

theorem tokens_space (rest : List CodePoint) : tokens (char ' ' :: rest) = tokens rest := by
  rw [tokens, if_pos (by decide)]

theorem tokens_openArray (rest : List CodePoint) : tokens (char '[' :: rest) = .openArray :: tokens rest :=
  tokens_cons rfl rfl

theorem tokens_closeArray (rest : List CodePoint) : tokens (char ']' :: rest) = .closeArray :: tokens rest :=
  tokens_cons rfl rfl

theorem tokens_openObject (rest : List CodePoint) : tokens (char '\x7b' :: rest) = .openObject :: tokens rest :=
  tokens_cons rfl rfl

theorem tokens_closeObject (rest : List CodePoint) :
    tokens (char '\x7d' :: rest) = .closeObject :: tokens rest :=
  tokens_cons rfl rfl

theorem tokens_comma (rest : List CodePoint) : tokens (char ',' :: rest) = .comma :: tokens rest :=
  tokens_cons rfl rfl

theorem tokens_colon (rest : List CodePoint) : tokens (char ':' :: rest) = .colon :: tokens rest :=
  tokens_cons rfl rfl

/-! ### Values -/

/-- A name that is new goes to the end. -/
theorem withField_of_not_mem {name : Text} {fields : List (Text × Json)} (value : Json)
    (h : name ∉ fields.map (·.1)) : withField name value fields = fields ++ [(name, value)] := by
  induction fields with
  | nil => rfl
  | cons field fields ih =>
    rw [List.map_cons, List.mem_cons, not_or] at h
    rw [withField, if_neg (Ne.symm h.1), ih h.2, List.cons_append]

/-- Whether a value may come next. -/
def AwaitsValue (state : State) : Prop :=
  state = .value ∨ state = .opened

variable [JsonLibrary]

/-- Where a value may come next, the first token of one starts it. -/
theorem run_start {state state' : State} {stack stack' : List Frame} {t : Token}
    (hstate : AwaitsValue state) (ht : t ≠ .closeArray)
    (hstart : start stack t = .ok (state', stack')) (ts : List Token) :
    run state stack (t :: ts) = run state' stack' ts := by
  have hstep : step state stack t = start stack t := by
    rcases hstate with rfl | rfl
    · rfl
    · cases t with
      | closeArray => exact absurd rfl ht
      | _ => cases stack <;> rfl
  rw [run, hstep, hstart]

/-- Reading the text of a value, within at most `maxNesting - k` containers, completes a second value. -/
def ReadsAs (k : ℕ) (value read : Json) : Prop :=
  ∀ (state : State) (stack : List Frame) (rest : List CodePoint), AwaitsValue state →
    stack.length + k ≤ maxNesting → EndsNumber rest →
      run state stack (tokens (value.textChars ++ rest)) = run (.complete read) stack (tokens rest)

theorem ReadsAs.mono {k k' : ℕ} {value read : Json} (h : ReadsAs k value read) (hk : k ≤ k') :
    ReadsAs k' value read :=
  fun state stack rest hstate hdepth hrest => h state stack rest hstate (by omega) hrest

theorem readsAs_scalar {value : Json} (k : ℕ) (h : ∀ rest, EndsNumber rest →
    tokens (value.textChars ++ rest) = .scalar value :: tokens rest) : ReadsAs k value value := by
  intro state stack rest hstate _ hrest
  rw [h rest hrest, run_start hstate (by simp) rfl]

theorem readsAs_word (k : ℕ) {w : List CodePoint × Json} (hw : w ∈ words) (htext : w.2.textChars = w.1) :
    ReadsAs k w.2 w.2 :=
  readsAs_scalar k fun rest _ => by rw [htext, tokens_word hw]

theorem readsAs_string (k : ℕ) (s : Text) : ReadsAs k (.string s) (.string s.joined) := by
  intro state stack rest hstate _ _
  rw [textChars, tokens_stringText, run_start hstate (by simp) rfl]

/-! ### Arrays -/

/-- The items of an array are read one by one, behind those read before. -/
theorem run_items {k : ℕ} {items found : List Json} (hne : items ≠ [])
    (hitems : List.Forall₂ (ReadsAs k) items found) {state : State} (hstate : AwaitsValue state)
    (done : List Json) (stack : List Frame)
    (hdepth : stack.length + (k + 1) ≤ maxNesting) (rest : List CodePoint) :
    run state (.array done :: stack) (tokens (itemsText items ++ char ']' :: rest))
      = run (.complete (.array (done.reverse ++ found))) stack (tokens rest) := by
  -- the array itself is one of the containers that its items stand in
  have hdepth' (done : List Json) : (Frame.array done :: stack).length + k ≤ maxNesting := by
    rw [List.length_cons]
    omega
  induction hitems generalizing state done with
  | nil => exact absurd rfl hne
  | @cons item value items found hitem hitems ih =>
    cases hitems with
    | nil =>
      rw [itemsText, hitem state _ _ hstate (hdepth' done) (endsNumber_cons (by simp) rest),
        tokens_closeArray, run, step, List.reverse_cons]
    | cons hnext hmore =>
      have hrest := ih (List.cons_ne_nil _ _) (Or.inl rfl) (value :: done)
      rw [itemsText, List.append_assoc, List.cons_append,
        hitem state _ _ hstate (hdepth' done) (endsNumber_cons (by simp) _), tokens_comma,
        List.cons_append, tokens_space, run, step]
      · simpa using hrest
      · exact List.cons_ne_nil _ _

/-- An array of values that can be read one level deeper is read. -/
theorem readsAs_array {k : ℕ} {items found : List Json} (hitems : List.Forall₂ (ReadsAs k) items found) :
    ReadsAs (k + 1) (.array items) (.array found) := by
  intro state stack rest hstate hdepth _
  have hstart : start stack .openArray = .ok (.opened, .array [] :: stack) := by
    rw [start, if_pos (by omega)]
  rw [textChars, List.cons_append, List.append_assoc, List.singleton_append, tokens_openArray,
    run_start hstate (by simp) hstart]
  cases hitems with
  | nil =>
    rw [itemsText, List.nil_append, tokens_closeArray, run, step]
  | cons hitem hitems =>
    exact run_items (List.cons_ne_nil _ _) (.cons hitem hitems) (Or.inr rfl) [] stack hdepth rest

/-! ### Objects -/

/-- Whether the name of a field may come next, behind the fields read so far. -/
def AwaitsName (fields : List (Text × Json)) (state : State) : Prop :=
  state = .name fields ∨ state = .openedObject ∧ fields = []

/-- A field up to its value. -/
theorem run_name {state : State} {done : List (Text × Json)} (hstate : AwaitsName done state)
    (name : Text) (stack : List Frame) (cs : List CodePoint) :
    run state stack (tokens (stringText name ++ char ':' :: char ' ' :: cs))
      = run .value (.object done name.joined :: stack) (tokens cs) := by
  rw [tokens_stringText, tokens_colon, tokens_space]
  rcases hstate with rfl | ⟨rfl, rfl⟩ <;> rfl

/-- Reading the text of a field completes a second field. -/
def FieldReadsAs (k : ℕ) (field read : Text × Json) : Prop :=
  field.1.joined = read.1 ∧ ReadsAs k field.2 read.2

/-- The fields of an object are read one by one, behind those read before. -/
theorem run_fields {k : ℕ} {fields found : List (Text × Json)} (hne : fields ≠ [])
    (hfields : List.Forall₂ (FieldReadsAs k) fields found) {done : List (Text × Json)}
    (hnames : ((done ++ found).map (·.1)).Nodup) {state : State} (hstate : AwaitsName done state)
    (stack : List Frame) (hdepth : stack.length + (k + 1) ≤ maxNesting) (rest : List CodePoint) :
    run state stack (tokens (fieldsText fields ++ char '\x7d' :: rest))
      = run (.complete (.object (done ++ found))) stack (tokens rest) := by
  induction hfields generalizing state done with
  | nil => exact absurd rfl hne
  | @cons field read fields found hfield hfields ih =>
    obtain ⟨name, value⟩ := field
    obtain ⟨_, value'⟩ := read
    obtain ⟨rfl, hvalue⟩ := hfield
    have hread := hvalue .value (.object done name.joined :: stack)
    have hdepth' : (Frame.object done name.joined :: stack).length + k ≤ maxNesting := by
      rw [List.length_cons]
      omega
    -- the name is new, so its field goes to the end and not in the place of another
    have hnew : name.joined ∉ done.map (·.1) := by
      intro hmem
      rw [List.map_append, List.map_cons, List.nodup_append] at hnames
      exact hnames.2.2 name.joined hmem name.joined (List.mem_cons_self ..) rfl
    cases hfields with
    | nil =>
      rw [fieldsText, List.append_assoc, List.cons_append, List.cons_append, run_name hstate,
        hread _ (Or.inl rfl) hdepth' (endsNumber_cons (by simp) rest), tokens_closeObject, run, step,
        withField_of_not_mem value' hnew]
    | @cons next next' fields found hnext hmore =>
      have hnames' : ((done ++ [(name.joined, value')] ++ next' :: found).map (·.1)).Nodup := by
        simpa using hnames
      have hrest := ih (List.cons_ne_nil _ _) hnames' (Or.inl rfl)
      rw [fieldsText, List.append_assoc, List.cons_append, List.cons_append, List.append_assoc,
        List.cons_append, List.cons_append, run_name hstate,
        hread _ (Or.inl rfl) hdepth' (endsNumber_cons (by simp) _), tokens_comma, tokens_space, run,
        step, withField_of_not_mem value' hnew]
      · simpa using hrest
      · exact List.cons_ne_nil _ _

/-- An object of values that can be read one level deeper is read, if no name occurs twice. -/
theorem readsAs_object {k : ℕ} {fields found : List (Text × Json)} (hnames : (found.map (·.1)).Nodup)
    (hfields : List.Forall₂ (FieldReadsAs k) fields found) :
    ReadsAs (k + 1) (.object fields) (.object found) := by
  intro state stack rest hstate hdepth _
  have hstart : start stack .openObject = .ok (.openedObject, stack) := by
    rw [start, if_pos (by omega)]
  rw [textChars, List.cons_append, List.append_assoc, List.singleton_append, tokens_openObject,
    run_start hstate (by simp) hstart]
  cases hfields with
  | nil =>
    rw [fieldsText, List.nil_append, tokens_closeObject, run, step]
  | cons hfield hfields =>
    exact run_fields (List.cons_ne_nil _ _) (.cons hfield hfields) hnames (Or.inr ⟨rfl, rfl⟩) stack hdepth
      rest

/-! ### Whole texts -/

/-- A value is read back as itself if no text within has a pair of surrogates. -/
theorem readsAs_self {k : ℕ} {value : Json} (h : Storable k value)
    (htexts : value.hasUnpairedTexts = true) : ReadsAs k value value := by
  induction h with
  | null k => exact readsAs_word k (w := (("null" : Text).toList, .null)) (by simp [words]) rfl
  | bool k value =>
    cases value with
    | true => exact readsAs_word k (w := (("true" : Text).toList, .bool true)) (by simp [words]) rfl
    | false => exact readsAs_word k (w := (("false" : Text).toList, .bool false)) (by simp [words]) rfl
  | int k hn => exact readsAs_scalar k fun rest hrest => tokens_intText hn hrest
  | float k value => exact readsAs_scalar k fun rest hrest => tokens_floatText value hrest
  | string k s =>
    have hread := readsAs_string k s
    rwa [Text.joined_eq_self htexts] at hread
  | array _ ih =>
    have hitems := hasUnpairedTexts_array.1 htexts
    exact readsAs_array (List.forall₂_same.2 fun item hitem => ih item hitem (hitems item hitem))
  | object hnames _ ih =>
    have hfields := hasUnpairedTexts_object.1 htexts
    refine readsAs_object hnames (List.forall₂_same.2 fun field hfield => ?_)
    exact ⟨Text.joined_eq_self (hfields field hfield).1, ih field hfield (hfields field hfield).2⟩

theorem readChars_of_readsAs {value read : Json} (h : ReadsAs maxNesting value read) :
    readChars value.textChars = .ok read := by
  have hread := h .value [] [] (Or.inl rfl) (by simp) endsNumber_nil
  rw [List.append_nil] at hread
  rw [readChars, hread, tokens, run]

end FeatureToggles.Json

namespace FeatureToggles.StoredJson

open Json (ReadsAs Storable)

variable [JsonLibrary]

theorem ofText_of_readsAs {value read : Json} (h : ReadsAs JsonLibrary.maxNesting value read) :
    ofText (Json.write value) = .ok read := by
  rw [ofText, Json.write, Text.toList_ofList, ofChars, Json.readChars_of_readsAs h]

/-- A stored text holds the value that it was written from. -/
theorem ofText_write {value : Json} (h : Storable JsonLibrary.maxNesting value)
    (htexts : value.hasUnpairedTexts = true) : ofText (Json.write value) = .ok value :=
  ofText_of_readsAs (Json.readsAs_self h htexts)

end FeatureToggles.StoredJson
