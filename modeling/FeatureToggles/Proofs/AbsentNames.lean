import FeatureToggles.Proofs.Agreement

/-!
# Absent names

`Metadata.value` of a name without metadata is false, and `Expr.eval` reads nothing else of a name. So no
expression, and no resolution of toggles, distinguishes a name that is absent from one that is false,
whether the name is missing in an object or stands before null, a list or an object only.
-/

namespace FeatureToggles

namespace Metadata

variable {metadata : Metadata} {fields : List (Text × Json)} {name other : Text}

/-- The metadata with one more value, or with another value for a name that has one. -/
def insert (metadata : Metadata) (name : Text) (value : Literal) : Metadata :=
  ⟨((⟨metadata.entries⟩ : OrderedMap Text Literal).insert name value).entries⟩

theorem get?_insert (metadata : Metadata) (name other : Text) (value : Literal) :
    (metadata.insert name value).get? other = if other = name then some value else metadata.get? other :=
  OrderedMap.get?_insert ⟨metadata.entries⟩ name other value

/-- Setting an absent name to false does not change the value of any name. -/
theorem value_insert_false (h : metadata.get? name = none) (other : Text) :
    (metadata.insert name (.bool false)).value other = metadata.value other := by
  rw [value, value, get?_insert]
  split
  · next heq => rw [heq, h, Option.getD_some, Option.getD_none]
  · rfl

/-! ### Objects -/

/-- A name without a field that has a literal is absent. -/
theorem get?_ofFields_eq_none (h : ∀ json, (name, json) ∈ fields → json.tells = false) :
    (ofFields fields).get? name = none := by
  rw [get?_ofFields, Option.bind_eq_none_iff]
  intro json hjson
  have htold : (name, json) ∈ telling fields := Json.mem_of_fieldOf? hjson
  have hmem := List.mem_filter.1 htold
  rw [h json hmem.1] at hmem
  exact absurd hmem.2 Bool.false_ne_true

theorem get?_ofFields_withField_self (h : ∀ json, (name, json) ∈ fields → json.tells = false) (json : Json) :
    (ofFields (Json.withField name json fields)).get? name = literalOf? json := by
  induction fields with
  | nil => rw [Json.withField, get?_ofFields_cons, if_pos rfl, get?_ofFields_eq_none (by simp), Option.or_none]
  | cons field rest ih =>
    obtain ⟨key, old⟩ := field
    have hrest : ∀ json, (name, json) ∈ rest → json.tells = false := fun json hmem =>
      h json (List.mem_cons_of_mem _ hmem)
    rw [Json.withField]
    split
    · next heq => rw [get?_ofFields_cons, if_pos rfl, get?_ofFields_eq_none hrest, Option.or_none]
    · next hne => rw [get?_ofFields_cons, if_neg hne, Option.none_or, ih hrest]

theorem get?_ofFields_withField_of_ne (h : other ≠ name) (json : Json) (fields : List (Text × Json)) :
    (ofFields (Json.withField name json fields)).get? other = (ofFields fields).get? other := by
  induction fields with
  | nil => rw [Json.withField, get?_ofFields_cons, if_neg h.symm, Option.none_or]
  | cons field rest ih =>
    obtain ⟨key, old⟩ := field
    rw [Json.withField]
    split
    · next heq =>
      have hkey : key ≠ other := heq ▸ h.symm
      rw [get?_ofFields_cons, get?_ofFields_cons, if_neg h.symm, if_neg hkey]
    · next hne => rw [get?_ofFields_cons, get?_ofFields_cons, ih]

/-- Setting the field of an absent name to false does not change the value of any name. -/
theorem value_ofFields_withField_false (h : ∀ json, (name, json) ∈ fields → json.tells = false)
    (other : Text) :
    (ofFields (Json.withField name (.bool false) fields)).value other = (ofFields fields).value other := by
  rw [value, value]
  by_cases hother : other = name
  · rw [hother, get?_ofFields_withField_self h, get?_ofFields_eq_none h, literalOf?, Option.getD_some,
      Option.getD_none]
  · rw [get?_ofFields_withField_of_ne hother]

end Metadata

/-! ### Resolutions -/

/-- The values of toggles depend on `Metadata.value` only. -/
theorem Resolution.ofToggles_eq_of_value_eq {metadata other : Metadata}
    (h : ∀ name, metadata.value name = other.value name) (toggles : List Toggle) :
    ofToggles metadata toggles = ofToggles other toggles := by
  have heval : ∀ e : Expr, e.eval metadata = e.eval other := fun e => Expr.eval_congr_value fun name _ => h name
  simp only [ofToggles, Rule.evalAll, heval]

theorem Resolution.ofListing_eq_of_value_eq {metadata other : Metadata}
    (h : ∀ name, metadata.value name = other.value name) (account : Uuid)
    (listing : Except Failure (List Toggle)) :
    ofListing account metadata listing = ofListing account other listing := by
  cases listing with
  | ok toggles => rw [ofListing, ofListing, ofToggles_eq_of_value_eq h]
  | error failure => rfl

namespace Resolver

/-- **An absent name is like false.** An expression has the same value whether a name is absent or false.
A name that is missing in an object, or stands there before null, a list or an object only, may be set to
false without a change to any resolution: neither to `Resolution.ofListing` of any listing, failed ones
included, nor to what `Resolver.resolve` answers and counts. -/
theorem absent_like_false (name : Text) :
    (∀ (e : Expr) (metadata : Metadata), metadata.get? name = none →
      e.eval metadata = e.eval (metadata.insert name (.bool false))) ∧
    ∀ fields : List (Text × Json), (∀ json, (name, json) ∈ fields → json.tells = false) →
      (∀ (account : Uuid) (listing : Except Failure (List Toggle)),
        Resolution.ofListing account (.ofFields fields) listing
          = Resolution.ofListing account (.ofFields (Json.withField name (.bool false) fields)) listing) ∧
      ∀ (resolver : Resolver) (account : Uuid) (seconds : Binary64),
        resolver.resolve account (.ofFields fields) seconds
          = resolver.resolve account (.ofFields (Json.withField name (.bool false) fields)) seconds := by
  -- both parts come down to what each name stands for, which is all that an expression reads
  refine ⟨fun e metadata habsent => ?_, fun fields htells => ?_⟩
  · exact Expr.eval_congr_value fun other _ => (Metadata.value_insert_false habsent other).symm
  have hvalue : ∀ other, (Metadata.ofFields fields).value other
      = (Metadata.ofFields (Json.withField name (.bool false) fields)).value other :=
    fun other => (Metadata.value_ofFields_withField_false htells other).symm
  have hlisting := Resolution.ofListing_eq_of_value_eq hvalue
  refine ⟨hlisting, fun resolver account seconds => ?_⟩
  rw [resolve, resolve, hlisting]

/-- An operator that asks whether a value is there, and one that is not known, before a name that is null. -/
theorem absent_like_false_null :
    let e : Expr := .binary (.known .notEqual) (.unary (.known .present) (.ident "plan"))
      (.unary (.other "?" rfl) (.ident "plan"))
    let toggle : Toggle := .bare ⟨1, by decide⟩ ⟨7, by decide⟩ "beta" [⟨.known .and, e⟩]
    let fields : List (Text × Json) := [("seats", .int 3), ("plan", .null)]
    e.eval (.ofFields [("seats", .int 3)])
        = e.eval (Metadata.insert (.ofFields [("seats", .int 3)]) "plan" (.bool false)) ∧
      Resolver.resolve ⟨.ofList [toggle], none, none⟩ ⟨7, by decide⟩ (.ofFields fields) .zero
        = Resolver.resolve ⟨.ofList [toggle], none, none⟩ ⟨7, by decide⟩
          (.ofFields [("seats", .int 3), ("plan", .bool false)]) .zero := by
  intro e toggle fields
  refine ⟨(absent_like_false "plan").1 e _ (by decide), ?_⟩
  refine ((absent_like_false "plan").2 fields ?_).2 _ _ .zero
  intro json hjson
  rcases List.mem_pair.1 hjson with heq | heq
  · exact absurd (Prod.mk.inj heq).1 (by decide)
  · rw [(Prod.mk.inj heq).2]
    rfl

end Resolver

end FeatureToggles
