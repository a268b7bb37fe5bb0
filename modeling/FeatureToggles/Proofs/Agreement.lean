import FeatureToggles.Proofs.Names
import FeatureToggles.Proofs.StoreHistory
import FeatureToggles.Resolver

/-!
# Metadata that agrees on names

`Expr.eval` reads metadata only under the names of the expression. So metadata that agrees on the names of
all rules of an account's toggles gives the same resolution, whatever other names it has.
-/

namespace FeatureToggles

/-! ### Fields with a literal -/

/-- Whether `Metadata.literalOf?` gives a literal for the value. There is none for null, lists and
objects. -/
def Json.tells : Json → Bool
  | null => false
  | array _ => false
  | object _ => false
  | _ => true

namespace Metadata

/-- The fields of an object whose values have a literal. -/
def telling (fields : List (Text × Json)) : List (Text × Json) :=
  fields.filter (·.2.tells)

theorem isSome_literalOf? (value : Json) : (literalOf? value).isSome = value.tells := by
  cases value <;> rfl

/-- The first field of a name whose value has a literal gives its value. -/
theorem get?_ofFields_cons (key : Text) (value : Json) (fields : List (Text × Json)) (name : Text) :
    (ofFields ((key, value) :: fields)).get? name
      = (if key = name then literalOf? value else none).or ((ofFields fields).get? name) := by
  rw [ofFields, ofFields, get?, get?]
  cases hvalue : literalOf? value with
  | none => rw [List.filterMap_cons_none (by simp [hvalue]), ite_self, Option.none_or]
  | some literal =>
    rw [List.filterMap_cons_some (b := (key, literal)) (by simp [hvalue])]
    by_cases hkey : key = name <;> simp [hkey]

/-- The value of a name is the literal of its first field that has one. -/
theorem get?_ofFields (fields : List (Text × Json)) (name : Text) :
    (ofFields fields).get? name = (Json.fieldOf? name (telling fields)).bind literalOf? := by
  induction fields with
  | nil => rfl
  | cons field rest ih =>
    obtain ⟨key, value⟩ := field
    rw [get?_ofFields_cons, ih, telling, telling]
    cases hvalue : literalOf? value with
    | none =>
      have htells : value.tells = false := by rw [← isSome_literalOf?, hvalue, Option.isSome_none]
      rw [List.filter_cons_of_neg (by simp [htells]), ite_self, Option.none_or]
    | some literal =>
      have htells : value.tells = true := by rw [← isSome_literalOf?, hvalue, Option.isSome_some]
      rw [List.filter_cons_of_pos (by simpa using htells), Json.fieldOf?_cons]
      by_cases hkey : key = name <;> simp [hkey, hvalue]

end Metadata

/-! ### What is read -/

/-- The value of a name in `Expr.eval`. Without metadata it is false. -/
def Metadata.value (metadata : Metadata) (name : Text) : Literal :=
  (metadata.get? name).getD (.bool false)

/-- The value of an expression depends on `Metadata.value` of its names only. -/
theorem Expr.eval_congr_value {e : Expr} {metadata other : Metadata}
    (h : ∀ name ∈ e.names, metadata.value name = other.value name) :
    e.eval metadata = e.eval other := by
  simp only [mem_names_iff] at h
  induction e with
  | literal value => rfl
  | ident name => exact h name (List.mem_singleton_self name)
  | binary op left right ihl ihr =>
    have hleft := ihl fun name hname => h name (List.mem_append_left _ hname)
    have hright := ihr fun name hname => h name (List.mem_append_right _ hname)
    rw [eval, eval, hleft, hright]
  | unary op operand ih => rw [eval, eval, ih h]

/-- The value of an expression depends on the metadata of its names only. -/
theorem Expr.eval_congr {e : Expr} {metadata other : Metadata}
    (h : ∀ name ∈ e.names, metadata.get? name = other.get? name) : e.eval metadata = e.eval other :=
  eval_congr_value fun name hname => by rw [Metadata.value, Metadata.value, h name hname]

theorem Rule.evalAll_congr {rules : List Rule} {metadata other : Metadata}
    (h : ∀ name ∈ (fold rules).names, metadata.get? name = other.get? name) :
    evalAll metadata rules = evalAll other rules := by
  rw [evalAll, evalAll, Expr.eval_congr h]

namespace Resolution

theorem ofToggles_eq_of_agree {toggles : List Toggle} {metadata other : Metadata}
    (h : ∀ toggle ∈ toggles, ∀ name ∈ (Rule.fold toggle.rules).names,
      metadata.get? name = other.get? name) :
    ofToggles metadata toggles = ofToggles other toggles := by
  unfold ofToggles
  apply List.foldl_ext
  intro values toggle htoggle
  rw [Rule.evalAll_congr (h toggle htoggle)]

end Resolution

namespace Resolver

/-- **Nothing else is read.** Metadata that agrees on the names of an expression gives it the same value.
Two objects whose fields with a literal agree on the names of all rules of some toggles give these toggles
the same values, and a resolver that lists these toggles the same result. -/
theorem resolve_reads_names_only :
    (∀ (e : Expr) (metadata other : Metadata),
      (∀ name ∈ e.names, metadata.get? name = other.get? name) → e.eval metadata = e.eval other) ∧
    ∀ (toggles : List Toggle) (fields others : List (Text × Json)),
      (∀ toggle ∈ toggles, ∀ name ∈ (Rule.fold toggle.rules).names,
        Json.fieldOf? name (Metadata.telling fields) = Json.fieldOf? name (Metadata.telling others)) →
      Resolution.ofToggles (.ofFields fields) toggles = Resolution.ofToggles (.ofFields others) toggles ∧
      ∀ (resolver : Resolver) (account : Uuid) (seconds : Binary64),
        resolver.store.list account = toggles →
        (resolver.resolve account (.ofFields fields) seconds).2
          = (resolver.resolve account (.ofFields others) seconds).2 := by
  refine ⟨fun e metadata other h => Expr.eval_congr h, fun toggles fields others h => ?_⟩
  have hagree : ∀ toggle ∈ toggles, ∀ name ∈ (Rule.fold toggle.rules).names,
      (Metadata.ofFields fields).get? name = (Metadata.ofFields others).get? name := by
    intro toggle htoggle name hname
    rw [Metadata.get?_ofFields, Metadata.get?_ofFields, h toggle htoggle name hname]
  have hvalues := Resolution.ofToggles_eq_of_agree hagree
  refine ⟨hvalues, fun resolver account seconds hlist => ?_⟩
  rw [resolve, resolve, listing, hlist]
  cases resolver.failure with
  | none => exact congrArg Except.ok hvalues
  | some failure => rfl

/-- A name in front of which stands an operator that is not known, one that is absent or null, and one that
no rule reads. -/
theorem resolve_reads_names_only_null :
    let rules : List Rule := [⟨.known .and, .binary (.known .notEqual) (.unary (.other "?" rfl)
      (.ident "plan")) (.ident "tester")⟩]
    let toggle : Toggle := .bare ⟨1, by decide⟩ ⟨7, by decide⟩ "beta" rules
    Expr.eval (.ofFields [("plan", .string "pro"), ("seats", .int 3)]) (.ident "plan")
        = Expr.eval (.ofFields [("tester", .null), ("plan", .string "pro")]) (.ident "plan") ∧
      (resolve ⟨.ofList [toggle], none, none⟩ ⟨7, by decide⟩
          (.ofFields [("plan", .string "pro"), ("seats", .int 3)]) .zero).2
        = (resolve ⟨.ofList [toggle], none, none⟩ ⟨7, by decide⟩
          (.ofFields [("tester", .null), ("plan", .string "pro")]) .zero).2 := by
  intro rules toggle
  have hnames : (Rule.fold rules).names = ["plan", "tester"] := by
    rw [Expr.names_eq_eraseDups]
    decide
  refine ⟨resolve_reads_names_only.1 _ _ _ ?_,
    (resolve_reads_names_only.2 [toggle] _ _ ?_).2 _ _ .zero rfl⟩
  · intro name hname
    rw [Expr.names_eq_eraseDups] at hname
    rw [List.mem_singleton.1 (show name ∈ [("plan" : Text)] from hname)]
    decide
  · intro other hother name hname
    have hrules : other.rules = rules := by rw [List.mem_singleton.1 hother]; rfl
    rw [hrules, hnames] at hname
    rcases List.mem_pair.1 hname with rfl | rfl <;> rfl

end Resolver

end FeatureToggles
