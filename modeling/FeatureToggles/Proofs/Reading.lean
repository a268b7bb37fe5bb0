import FeatureToggles.Proofs.Grammar

/-!
# What the parsers of rule text read

A parser of one level of the grammar takes an expression off the front of some tokens. For each way
in which parsers are put together, what the whole reads is said by what its parts read.
-/

namespace FeatureToggles.RuleText

/-! ### Operands and what joins them -/

/-- The parser reads `e` off the front of the tokens and leaves `rest`. -/
def Reads (p : Level) (ts : List Token) (e : Expr) (rest : List Token) : Prop :=
  ∃ shorter, p ts = .ok ⟨e, rest, shorter⟩

/-- After `left`, the operands that `op` joins to it make up `e`, and `rest` follows them. -/
def Chains (op : BinaryOp) (p : Level) (left : Expr) (ts : List Token) (e : Expr)
    (rest : List Token) : Prop :=
  ∃ atMost, chain op p left ts = .ok (e, ⟨rest, atMost⟩)

variable {p : Level} {ts after rest rest' : List Token} {t : Token} {e e' l : Expr}

theorem Reads.length_lt (h : Reads p ts e rest) : rest.length < ts.length := h.1

/-- A parser reads one thing. -/
theorem Reads.unique (h : Reads p ts e rest) (h' : Reads p ts e' rest') : e = e' ∧ rest = rest' := by
  obtain ⟨_, h⟩ := h
  obtain ⟨_, h'⟩ := h'
  rw [h, Except.ok.injEq, Parsed.mk.injEq] at h'
  exact h'

theorem chains_nil {op : BinaryOp} : Chains op p l [] e rest ↔ e = l ∧ rest = [] := by
  simp only [Chains, chain, Except.ok.injEq, Prod.mk.injEq, Subtype.mk.injEq]
  constructor
  · rintro ⟨-, rfl, rfl⟩
    exact ⟨rfl, rfl⟩
  · rintro ⟨rfl, rfl⟩
    exact ⟨Nat.le_refl _, rfl, rfl⟩

theorem chains_cons_of_isOp {op : BinaryOp} (ht : isOp op.spelling t = true) :
    Chains op p l (t :: after) e rest ↔
      ∃ r mid, Reads p after r mid ∧ Chains op p (.binary (.known op) l r) mid e rest := by
  constructor
  · rintro ⟨_, h⟩
    rw [chain, if_pos ht] at h
    split at h
    · cases h
    · next r mid hmid hp =>
      split at h
      · cases h
      · next hc =>
        simp only [Except.ok.injEq, Prod.mk.injEq, Subtype.mk.injEq] at h
        obtain ⟨rfl, rfl⟩ := h
        exact ⟨r, mid, ⟨hmid, hp⟩, ⟨_, hc⟩⟩
  · rintro ⟨r, mid, ⟨hmid, hp⟩, ⟨hrest, hc⟩⟩
    refine ⟨by simp only [List.length_cons]; omega, ?_⟩
    rw [chain, if_pos ht, hp]
    simp only [hc]

theorem chains_cons_of_not_isOp {op : BinaryOp} (ht : isOp op.spelling t = false) :
    Chains op p l (t :: after) e rest ↔ e = l ∧ rest = t :: after := by
  rw [Chains, chain, if_neg (by simp [ht])]
  simp only [Except.ok.injEq, Prod.mk.injEq, Subtype.mk.injEq]
  constructor
  · rintro ⟨-, rfl, rfl⟩
    exact ⟨rfl, rfl⟩
  · rintro ⟨rfl, rfl⟩
    exact ⟨Nat.le_refl _, rfl, rfl⟩

theorem reads_joined {op : BinaryOp} :
    Reads (joined op p) ts e rest ↔ ∃ l after, Reads p ts l after ∧ Chains op p l after e rest := by
  constructor
  · rintro ⟨_, h⟩
    rw [joined] at h
    split at h
    · cases h
    · next l after ha hp =>
      split at h
      · cases h
      · next hc =>
        simp only [Except.ok.injEq, Parsed.mk.injEq] at h
        obtain ⟨rfl, rfl⟩ := h
        exact ⟨l, after, ⟨ha, hp⟩, ⟨_, hc⟩⟩
  · rintro ⟨l, after, ⟨ha, hp⟩, ⟨hrest, hc⟩⟩
    refine ⟨by omega, ?_⟩
    rw [joined, hp]
    simp only [hc]

/-- No comparison follows. -/
theorem reads_compared_of_reads (h : Reads p ts e rest)
    (hrest : ∀ t ∈ rest.head?, comparison? t = none) : Reads (compared p) ts e rest := by
  obtain ⟨hlt, h⟩ := h
  refine ⟨hlt, ?_⟩
  rw [compared, h]
  cases rest with
  | nil => rfl
  | cons t after => simp only [hrest t rfl]

theorem reads_compared_of_comparison {op : BinaryOp} {r : Expr} (hl : Reads p ts l (t :: after))
    (ht : comparison? t = some op) (hr : Reads p after r rest) :
    Reads (compared p) ts (.binary (.known op) l r) rest := by
  obtain ⟨hlt, hl⟩ := hl
  obtain ⟨hrest, hr⟩ := hr
  refine ⟨by simp only [List.length_cons] at hlt; omega, ?_⟩
  rw [compared, hl]
  simp only [ht, hr]

/-- A comparison has one operand, or two with an operator between them. -/
theorem reads_compared_cases (h : Reads (compared p) ts e rest) :
    Reads p ts e rest ∨ ∃ l t after op r, Reads p ts l (t :: after) ∧ comparison? t = some op ∧
      Reads p after r rest ∧ e = .binary (.known op) l r := by
  obtain ⟨_, h⟩ := h
  rw [compared] at h
  split at h
  · cases h
  · next ha hp =>
    cases h
    exact .inl ⟨ha, hp⟩
  · next l t after ha hp =>
    split at h
    · next hc =>
      cases h
      exact .inl ⟨ha, hp⟩
    · next op hc =>
      split at h
      · cases h
      · next r mid hmid hr =>
        cases h
        exact .inr ⟨l, t, after, op, r, ⟨ha, hp⟩, hc, ⟨hmid, hr⟩, rfl⟩

/-! ### Operators as tokens -/

theorem isOp_eq_true_iff {s : Text} : isOp s t = true ↔ t.IsOperator s := by
  simp [isOp, Token.IsOperator]

theorem comparison?_eq_some_iff {op : BinaryOp} :
    comparison? t = some op ↔ op.isLogical = false ∧ t.IsOperator op.spelling := by
  constructor
  · intro h
    rw [comparison?] at h
    split at h
    · next hkind =>
      split at h
      · next op' hop =>
        split at h
        · cases h
        · next hlogical =>
          cases h
          have hvalue : Spelled.spelling op = t.value := Spelled.spelling_of_ofSpelling? hop
          exact ⟨by simpa using hlogical, hkind, hvalue.symm⟩
      · cases h
    · cases h
  · rintro ⟨hlogical, hkind, hvalue⟩
    have hop : BinaryOp.ofSpelling? t.value = some op := by
      rw [hvalue]
      exact Spelled.ofSpelling?_spelling op
    simp [comparison?, hkind, hop, hlogical]

theorem unary?_eq_some_iff {op : UnaryOp} : unary? t = some op ↔ t.IsOperator op.spelling := by
  rw [unary?]
  constructor
  · intro h
    split at h
    · next hkind =>
      have hvalue : Spelled.spelling op = t.value := Spelled.spelling_of_ofSpelling? h
      exact ⟨hkind, hvalue.symm⟩
    · cases h
  · rintro ⟨hkind, hvalue⟩
    rw [if_pos hkind, hvalue]
    exact Spelled.ofSpelling?_spelling op

theorem unary?_eq_none (h : t.kind ≠ .op) : unary? t = none := if_neg h

/-- A token that joins truth values is no comparison. -/
theorem comparison?_eq_none {op : BinaryOp} (hop : op.isLogical = true)
    (h : t.IsOperator op.spelling) : comparison? t = none := by
  cases hc : comparison? t with
  | none => rfl
  | some op' =>
    obtain ⟨hlogical, -, hvalue⟩ := comparison?_eq_some_iff.1 hc
    have hsame : some op' = some op := by
      rw [← Spelled.ofSpelling?_spelling op', ← Spelled.ofSpelling?_spelling op]
      exact congrArg _ (hvalue.symm.trans h.2)
    cases hsame
    rw [hop] at hlogical
    cases hlogical

/-! ### Leaves and operands -/

/-- The tokens that stand for an expression by themselves are those that the grammar derives alone. -/
theorem leaf_eq_ok_iff : leaf t = .ok e ↔ Derives .primary [t] e := by
  constructor
  · intro h
    obtain ⟨kind, s, position⟩ := t
    cases kind <;> simp only [leaf] at h
    case string => cases h; exact .string s position
    case keyword => cases h; exact .keyword s position
    case ident => cases h; exact .ident s position
    case int =>
      split at h
      · next n hn => cases h; exact .int s position hn
      · cases h
    case float =>
      split at h
      · next x hx => cases h; exact .float s position hx
      · cases h
    all_goals cases h
  · intro h
    generalize hts : [t] = ts at h
    cases h with
    | string s position => cases hts; rfl
    | keyword s position => cases hts; rfl
    | ident s position => cases hts; rfl
    | int s position hn => cases hts; simp only [leaf, hn]
    | float s position hx => cases hts; simp only [leaf, hx]
    | group ho hinner hc => simp at hts

theorem not_reads_operand_nil {stop levels : Nat} : ¬ Reads (operand stop levels) [] e rest :=
  fun h => absurd h.length_lt (Nat.not_lt_zero _)

theorem reads_operand_leaf {stop levels : Nat} (hop : unary? t = none)
    (hgroup : t.kind ≠ .groupStart) :
    Reads (operand stop levels) (t :: after) e rest ↔ leaf t = .ok e ∧ rest = after := by
  have hp : operand stop levels (t :: after)
      = (leaf t).map fun expr => ⟨expr, after, Nat.lt_succ_self _⟩ := by
    cases levels <;> simp [operand, hop, hgroup]
  rw [Reads, hp]
  cases leaf t with
  | error err => simp [Except.map]
  | ok e' =>
    simp only [Except.map, Except.ok.injEq, Parsed.mk.injEq]
    constructor
    · rintro ⟨-, rfl, rfl⟩
      exact ⟨rfl, rfl⟩
    · rintro ⟨rfl, rfl⟩
      exact ⟨Nat.lt_succ_self _, rfl, rfl⟩

theorem reads_operand_unary {stop levels : Nat} {op : UnaryOp} (hop : unary? t = some op) :
    Reads (operand stop (levels + 1)) (t :: after) e rest ↔
      ∃ e', Reads (operand stop levels) after e' rest ∧ e = .unary (.known op) e' := by
  simp only [Reads, operand, hop]
  cases hinner : operand stop levels after with
  | error err => simp [Except.map]
  | ok r =>
    obtain ⟨e', mid, hmid⟩ := r
    simp only [Except.map, Except.ok.injEq, Parsed.mk.injEq]
    constructor
    · rintro ⟨-, rfl, rfl⟩
      exact ⟨e', ⟨hmid, rfl, rfl⟩, rfl⟩
    · rintro ⟨_, ⟨-, rfl, rfl⟩, rfl⟩
      exact ⟨Nat.lt_succ_of_lt hmid, rfl, rfl⟩

theorem reads_operand_group {stop levels : Nat} (hgroup : t.kind = .groupStart) :
    Reads (operand stop (levels + 1)) (t :: after) e rest ↔
      ∃ closing, Reads (disjunction (operand stop levels)) after e (closing :: rest) ∧
        closing.kind = .groupEnd := by
  have hop : unary? t = none := unary?_eq_none (by simp [hgroup])
  simp only [Reads, operand, hop, hgroup, if_true, group]
  cases hinner : disjunction (operand stop levels) after with
  | error err => simp [Except.map]
  | ok r =>
    obtain ⟨e', mid, hmid⟩ := r
    cases mid with
    | nil => simp [Except.map]
    | cons closing mid =>
      by_cases hclosing : closing.kind = .groupEnd
      · simp only [hclosing, if_true, Except.map, Except.ok.injEq, Parsed.mk.injEq, List.cons.injEq]
        constructor
        · rintro ⟨-, rfl, rfl⟩
          exact ⟨closing, ⟨hmid, rfl, rfl, rfl⟩, hclosing⟩
        · rintro ⟨_, ⟨-, rfl, -, rfl⟩, -⟩
          exact ⟨by simp only [List.length_cons] at hmid ⊢; omega, rfl, rfl⟩
      · simp only [hclosing, if_false, Except.map, reduceCtorEq, exists_false, false_iff, not_exists,
          Except.ok.injEq, Parsed.mk.injEq, List.cons.injEq]
        rintro c ⟨⟨-, -, rfl, -⟩, hc⟩
        exact hclosing hc

/-- Where no level is left, nothing is opened. -/
theorem not_reads_operand_zero {stop : Nat} (h : (unary? t).isSome = true ∨ t.kind = .groupStart) :
    ¬ Reads (operand stop 0) (t :: after) e rest := by
  rintro ⟨_, hp⟩
  have hopens : ((unary? t).isSome || t.kind = .groupStart) = true := by
    simpa using h
  simp only [operand, if_pos hopens] at hp
  cases hp

end FeatureToggles.RuleText
