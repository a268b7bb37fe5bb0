import FeatureToggles.Proofs.Reading

/-!
# Parsers as readers

A parser of one level of the grammar carries a proof that it takes a token. Without this proof it is a
function of its tokens alone, and the parsers of the grammar are such functions one after another.
-/

namespace FeatureToggles.RuleText

/-- A parser without the proof that it takes a token: the expression that it reads, and what follows. -/
abbrev Reader := List Token → Except Error (Expr × List Token)

/-- The reader that a parser is. -/
def reader (p : Level) : Reader := fun ts => (p ts).map fun parsed => (parsed.expr, parsed.rest)

/-- Reads with `f`, and goes on with what `g` makes of the expression. -/
def Reader.next (f : Reader) (g : Expr → Reader) : Reader := fun ts =>
  match f ts with
  | .error error => .error error
  | .ok (e, rest) => g e rest

/-- Reads nothing more. -/
def Reader.done (e : Expr) : Reader := fun ts => .ok (e, ts)

/-- What `chain` reads. -/
def chained (op : BinaryOp) (p : Level) (left : Expr) : Reader := fun ts =>
  (chain op p left ts).map fun r => (r.1, r.2.val)

/-- The operator and the second operand of a comparison, if they follow. -/
def versus (p : Level) (left : Expr) : Reader
  | [] => .ok (left, [])
  | t :: after =>
    match comparison? t with
    | none => .ok (left, t :: after)
    | some op => (reader p).next (fun right => .done (.binary (.known op) left right)) after

/-- The end of a group. -/
def closing (stop : Nat) (e : Expr) : Reader
  | [] => .error ⟨.unexpectedEnd, stop⟩
  | t :: after => if t.kind = .groupEnd then .ok (e, after) else .error ⟨.unclosedGroup, t.position⟩

variable {p : Level} {op : BinaryOp} {stop levels : Nat} {e : Expr} {t : Token}
  {ts rest after : List Token} {error : Error}

theorem reader_eq_ok_iff : reader p ts = .ok (e, rest) ↔ Reads p ts e rest := by
  rw [reader, Reads]
  cases p ts with
  | error error => simp [Except.map]
  | ok parsed =>
    obtain ⟨e', rest', hlt⟩ := parsed
    simp only [Except.map, Except.ok.injEq, Prod.mk.injEq, Parsed.mk.injEq, exists_prop]
    exact ⟨fun h => ⟨h.2 ▸ hlt, h⟩, fun h => h.2⟩

theorem reader_eq_error_iff : reader p ts = .error error ↔ p ts = .error error := by
  rw [reader]
  cases p ts <;> simp [Except.map]

theorem reader_joined : reader (joined op p) = (reader p).next (chained op p) := by
  funext ts
  simp only [reader, joined, Reader.next, chained]
  cases p ts with
  | error error => rfl
  | ok parsed =>
    obtain ⟨e, rest, hlt⟩ := parsed
    simp only [Except.map]
    cases chain op p e rest with
    | error error => rfl
    | ok last => rfl

/-- An operator comes next, or something else. -/
theorem head_isOp_cases (spelling : Text) (ts : List Token) :
    (∃ t after, ts = t :: after ∧ isOp spelling t = true) ∨
      ∀ t ∈ ts.head?, isOp spelling t = false := by
  cases ts with
  | nil => exact .inr fun t ht => absurd ht (by simp)
  | cons t after =>
    cases ht : isOp spelling t with
    | true => exact .inl ⟨t, after, rfl, ht⟩
    | false =>
      refine .inr fun s hs => ?_
      obtain rfl : t = s := by simpa using hs
      exact ht

theorem chained_of_isOp (ht : isOp op.spelling t = true) (left : Expr) :
    chained op p left (t :: after)
      = (reader p).next (fun right => chained op p (.binary (.known op) left right)) after := by
  simp only [reader, Reader.next, chained]
  rw [chain, if_pos ht]
  cases p after with
  | error error => rfl
  | ok parsed =>
    obtain ⟨right, rest, hlt⟩ := parsed
    simp only [Except.map]
    cases chain op p (.binary (.known op) left right) rest with
    | error error => rfl
    | ok last => rfl

theorem chained_of_head (hts : ∀ t ∈ ts.head?, isOp op.spelling t = false) (left : Expr) :
    chained op p left ts = .ok (left, ts) := by
  rw [chained]
  cases ts with
  | nil =>
    rw [chain]
    rfl
  | cons t after =>
    have ht : isOp op.spelling t = false := hts t rfl
    rw [chain, if_neg (by simp [ht])]
    rfl

theorem reader_compared : reader (compared p) = (reader p).next (versus p) := by
  funext ts
  simp only [reader, compared, Reader.next]
  cases p ts with
  | error error => rfl
  | ok parsed =>
    obtain ⟨left, rest, hlt⟩ := parsed
    cases rest with
    | nil => rfl
    | cons t after =>
      simp only [Except.map, versus]
      cases comparison? t with
      | none => rfl
      | some op =>
        simp only [reader, Reader.next]
        cases p after with
        | error error => rfl
        | ok parsed => rfl

theorem versus_of_none (ht : comparison? t = none) (left : Expr) :
    versus p left (t :: after) = .ok (left, t :: after) := by
  simp only [versus, ht]

theorem versus_of_comparison (ht : comparison? t = some op) (left : Expr) :
    versus p left (t :: after)
      = (reader p).next (fun right => .done (.binary (.known op) left right)) after := by
  simp only [versus, ht]

theorem reader_operand_nil : reader (operand stop levels) [] = .error ⟨.unexpectedEnd, stop⟩ := by
  cases levels <;> rfl

theorem reader_operand_leaf (hop : unary? t = none) (hgroup : t.kind ≠ .groupStart) :
    reader (operand stop levels) (t :: after) = (leaf t).map fun e => (e, after) := by
  rw [reader]
  cases levels <;> simp only [operand, hop, hgroup] <;> cases leaf t <;> rfl

theorem reader_operand_zero (h : (unary? t).isSome = true ∨ t.kind = .groupStart) :
    reader (operand stop 0) (t :: after) = .error ⟨.tooDeep, t.position⟩ := by
  have hopens : ((unary? t).isSome || t.kind = .groupStart) = true := by
    simpa using h
  simp only [reader, operand, if_pos hopens]
  rfl

theorem reader_operand_unary {op : UnaryOp} (hop : unary? t = some op) :
    reader (operand stop (levels + 1)) (t :: after)
      = (reader (operand stop levels)).next (fun e => .done (.unary (.known op) e)) after := by
  simp only [reader, operand, hop, Reader.next]
  cases operand stop levels after with
  | error error => rfl
  | ok parsed => rfl

theorem reader_operand_group (hgroup : t.kind = .groupStart) :
    reader (operand stop (levels + 1)) (t :: after)
      = (reader (disjunction (operand stop levels))).next (closing stop) after := by
  have hop : unary? t = none := unary?_eq_none (by simp [hgroup])
  simp only [reader, operand, hop, hgroup, if_true, group, Reader.next]
  cases disjunction (operand stop levels) after with
  | error error => rfl
  | ok parsed =>
    obtain ⟨e, rest, hlt⟩ := parsed
    cases rest with
    | nil => rfl
    | cons t after =>
      by_cases hclosing : t.kind = .groupEnd <;> simp [Except.map, closing, hclosing]

end FeatureToggles.RuleText
