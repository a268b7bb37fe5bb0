import FeatureToggles.Proofs.Reading
import Mathlib.Data.List.MinMax
import Mathlib.Order.Nat

/-!
# The parser follows the grammar

The parser of each level of the grammar reads exactly what the symbol of that level derives, as long
as no token nests more deeply than the levels that are left allow. The grammar is unambiguous,
because the parser, given enough levels, finds every tree that a token list derives.
-/

namespace FeatureToggles.RuleText

variable {p : Level} {limit : Nat} {opened : List Opening}

/-! ### Soundness -/

/-- All that the parser reads, where `opened` is open, is derived from the symbol and nests within the
limit. -/
def Sound (symbol : Symbol) (limit : Nat) (opened : List Opening) (p : Level) : Prop :=
  ∀ ⦃ts e rest⦄, Reads p ts e rest →
    ∃ used, ts = used ++ rest ∧ Derives symbol used e ∧ Within limit opened used

/-- What follows a symbol does not go on with it. -/
def Ends (symbol : Symbol) (rest : List Token) : Prop :=
  ∀ t ∈ rest.head?, match symbol with
    | .disjunction => isOp "||" t = false ∧ isOp "&&" t = false ∧ comparison? t = none
    | .conjunction => isOp "&&" t = false ∧ comparison? t = none
    | .comparison => comparison? t = none
    | .unary => True
    | .primary => True

/-- The parser reads all that is derived from the symbol and nests within the limit, if what follows
does not go on with it. -/
def Complete (symbol : Symbol) (limit : Nat) (opened : List Opening) (p : Level) : Prop :=
  ∀ ⦃used e⦄, Derives symbol used e → Within limit opened used →
    ∀ ⦃rest⦄, Ends symbol rest → Reads p (used ++ rest) e rest

/-- `outer` stands for one `inner`, or several with the operator between them, nested to the left. -/
structure Joins (op : BinaryOp) (inner outer : Symbol) : Prop where
  one : ∀ {ts e}, Derives inner ts e → Derives outer ts e
  more : ∀ {ts us t l r}, Derives outer ts l → t.IsOperator op.spelling → Derives inner us r →
    Derives outer (ts ++ t :: us) (.binary (.known op) l r)
  induct : ∀ {motive : List Token → Expr → Prop}, (∀ ts e, Derives inner ts e → motive ts e) →
    (∀ ts us t l r, Derives outer ts l → motive ts l → t.IsOperator op.spelling → Derives inner us r →
      motive (ts ++ t :: us) (.binary (.known op) l r)) →
    ∀ {ts e}, Derives outer ts e → motive ts e
  ends : ∀ {rest}, Ends outer rest → Ends inner rest ∧ ∀ t ∈ rest.head?, isOp op.spelling t = false
  ends_of_isOperator : ∀ {t rest}, t.IsOperator op.spelling → Ends inner (t :: rest)

theorem joins_or : Joins .or .conjunction .disjunction where
  one := .conjunction
  more := .or
  induct hone hmore ts e h := by
    generalize hsymbol : Symbol.disjunction = symbol at h
    induction h with
    | conjunction h => exact hone _ _ h
    | or hl ht hr ihl => exact hmore _ _ _ _ _ hl (ihl rfl) ht hr
    | _ => cases hsymbol
  ends h := ⟨fun t ht => (h t ht).2, fun t ht => (h t ht).1⟩
  ends_of_isOperator {t rest} ht := by
    intro s hs
    obtain rfl : t = s := by simpa using hs
    refine ⟨?_, comparison?_eq_none rfl ht⟩
    simp [isOp, ht.1, ht.2, BinaryOp.spelling]

theorem joins_and : Joins .and .comparison .conjunction where
  one := .comparison
  more := .and
  induct hone hmore ts e h := by
    generalize hsymbol : Symbol.conjunction = symbol at h
    induction h with
    | comparison h => exact hone _ _ h
    | and hl ht hr ihl => exact hmore _ _ _ _ _ hl (ihl rfl) ht hr
    | _ => cases hsymbol
  ends h := ⟨fun t ht => (h t ht).2, fun t ht => (h t ht).1⟩
  ends_of_isOperator {t rest} ht := by
    intro s hs
    obtain rfl : t = s := by simpa using hs
    exact comparison?_eq_none rfl ht

section Joined

variable {op : BinaryOp} {inner outer : Symbol}

/-- Every operand that is chained to a derived one gives a derived one. -/
theorem Joins.sound_chain (joins : Joins op inner outer) (hclosed : completed opened = opened)
    (hlimit : opened.length ≤ limit) (hp : Sound inner limit opened p) {left e : Expr}
    {done ts rest : List Token} (hdone : Derives outer done left) (hwithin : Within limit opened done)
    (h : Chains op p left ts e rest) :
    ∃ used, ts = used ++ rest ∧ Derives outer (done ++ used) e ∧
      Within limit opened (done ++ used) := by
  -- the chain is not structural: each round goes on with what its operand leaves, which is shorter
  induction hn : ts.length using Nat.strong_induction_on generalizing ts left done with
  | _ n ih =>
    cases ts with
    | nil =>
      obtain ⟨rfl, rfl⟩ := chains_nil.1 h
      exact ⟨[], rfl, by simpa using hdone, by simpa using hwithin⟩
    | cons t after =>
      cases ht : isOp op.spelling t with
      | false =>
        obtain ⟨rfl, rfl⟩ := (chains_cons_of_not_isOp ht).1 h
        exact ⟨[], rfl, by simpa using hdone, by simpa using hwithin⟩
      | true =>
        obtain ⟨r, mid, hr, hmid⟩ := (chains_cons_of_isOp ht).1 h
        obtain ⟨us, rfl, hus, huswithin⟩ := hp hr
        have htop := isOp_eq_true_iff.1 ht
        -- what has been read so far grows by the operator and its operand, and is derived again
        have hmore := joins.more hdone htop hus
        have hmorewithin := (within_binary hclosed hlimit hdone htop).2 ⟨hwithin, huswithin⟩
        have hshorter : mid.length < n := by
          rw [← hn, List.length_cons, List.length_append]
          omega
        obtain ⟨used, rfl, hused, husedwithin⟩ := ih mid.length hshorter hmore hmorewithin hmid rfl
        exact ⟨t :: (us ++ used), by simp, by simpa using hused, by simpa using husedwithin⟩

theorem Joins.sound (joins : Joins op inner outer) (hclosed : completed opened = opened)
    (hlimit : opened.length ≤ limit) (hp : Sound inner limit opened p) :
    Sound outer limit opened (joined op p) := by
  intro ts e rest h
  obtain ⟨l, after, hl, hchain⟩ := reads_joined.1 h
  obtain ⟨done, rfl, hdone, hwithin⟩ := hp hl
  obtain ⟨used, rfl, hused, husedwithin⟩ :=
    joins.sound_chain hclosed hlimit hp (joins.one hdone) hwithin hchain
  exact ⟨done ++ used, by simp, hused, husedwithin⟩

/-- Reading what is derived leaves the parser where it looks for one more operand. -/
theorem Joins.reads_of_chains (joins : Joins op inner outer) (hclosed : completed opened = opened)
    (hlimit : opened.length ≤ limit) (hp : Complete inner limit opened p) {used : List Token}
    {e : Expr} (h : Derives outer used e) (hwithin : Within limit opened used)
    {rest rest' : List Token} {e' : Expr} (hrest : Ends inner rest)
    (hchain : Chains op p e rest e' rest') :
    Reads (joined op p) (used ++ rest) e' rest' := by
  refine joins.induct (motive := fun used e => Within limit opened used → ∀ rest, Ends inner rest →
    Chains op p e rest e' rest' → Reads (joined op p) (used ++ rest) e' rest') ?_ ?_ h hwithin rest
    hrest hchain
  · intro ts e h hwithin rest hrest hchain
    exact reads_joined.2 ⟨e, rest, hp h hwithin hrest, hchain⟩
  · -- the operator ends what comes before it, so the induction hypothesis reads up to the operator
    intro ts us t l r hl ih ht hr hwithin rest hrest hchain
    obtain ⟨hlwithin, hrwithin⟩ := (within_binary hclosed hlimit hl ht).1 hwithin
    have hright : Reads p (us ++ rest) r rest := hp hr hrwithin hrest
    rw [List.append_assoc, List.cons_append]
    refine ih hlwithin _ (joins.ends_of_isOperator ht) ?_
    exact (chains_cons_of_isOp (isOp_eq_true_iff.2 ht)).2 ⟨r, rest, hright, hchain⟩

theorem Joins.complete (joins : Joins op inner outer) (hclosed : completed opened = opened)
    (hlimit : opened.length ≤ limit) (hp : Complete inner limit opened p) :
    Complete outer limit opened (joined op p) := by
  intro used e h hwithin rest hrest
  obtain ⟨hinner, hop⟩ := joins.ends hrest
  refine joins.reads_of_chains hclosed hlimit hp h hwithin hinner ?_
  cases rest with
  | nil => exact chains_nil.2 ⟨rfl, rfl⟩
  | cons t after => exact (chains_cons_of_not_isOp (hop t rfl)).2 ⟨rfl, rfl⟩

end Joined

/-! ### Comparisons and operands -/

theorem sound_compared (hclosed : completed opened = opened) (hlimit : opened.length ≤ limit)
    (hp : Sound .unary limit opened p) : Sound .comparison limit opened (compared p) := by
  intro ts e rest h
  rcases reads_compared_cases h with h | ⟨l, t, after, op, r, hl, ht, hr, rfl⟩
  · obtain ⟨used, rfl, hused, hwithin⟩ := hp h
    exact ⟨used, rfl, .unary hused, hwithin⟩
  · obtain ⟨ls, rfl, hls, hlwithin⟩ := hp hl
    obtain ⟨rs, rfl, hrs, hrwithin⟩ := hp hr
    obtain ⟨hlogical, hop⟩ := comparison?_eq_some_iff.1 ht
    exact ⟨ls ++ t :: rs, by simp, .compare op hls hlogical hop hrs,
      (within_binary hclosed hlimit hls hop).2 ⟨hlwithin, hrwithin⟩⟩

theorem complete_compared (hclosed : completed opened = opened) (hlimit : opened.length ≤ limit)
    (hp : Complete .unary limit opened p) : Complete .comparison limit opened (compared p) := by
  intro used e h hwithin rest hrest
  cases h with
  | unary h => exact reads_compared_of_reads (hp h hwithin fun _ _ => trivial) hrest
  | compare op hl hlogical hop hr =>
    obtain ⟨hlwithin, hrwithin⟩ := (within_binary hclosed hlimit hl hop).1 hwithin
    rw [List.append_assoc, List.cons_append]
    exact reads_compared_of_comparison (hp hl hlwithin fun _ _ => trivial)
      (comparison?_eq_some_iff.2 ⟨hlogical, hop⟩) (hp hr hrwithin fun _ _ => trivial)

theorem sound_disjunction (hclosed : completed opened = opened) (hlimit : opened.length ≤ limit)
    (hp : Sound .unary limit opened p) : Sound .disjunction limit opened (disjunction p) :=
  joins_or.sound hclosed hlimit (joins_and.sound hclosed hlimit (sound_compared hclosed hlimit hp))

theorem complete_disjunction (hclosed : completed opened = opened) (hlimit : opened.length ≤ limit)
    (hp : Complete .unary limit opened p) : Complete .disjunction limit opened (disjunction p) :=
  joins_or.complete hclosed hlimit
    (joins_and.complete hclosed hlimit (complete_compared hclosed hlimit hp))

/-- A token by itself stands where it stands, and so within every limit that holds there. -/
theorem within_leaf {t : Token} {e : Expr} (hlimit : opened.length ≤ limit)
    (h : Derives .primary [t] e) : Within limit opened [t] := by
  have hlength : nestings opened [t] = [opened.length] := by
    generalize hts : [t] = ts at h
    cases h with
    | group ho hinner hc => simp at hts
    | _ => rfl
  rw [Within, hlength]
  exact List.forall_mem_singleton.2 hlimit

/-- The operators in front of an operand and the groups that the parser goes into are counted by the
levels that it uses up. -/
theorem sound_operand (stop : Nat) {levels : Nat} (h : opened.length + levels = limit) :
    Sound .unary limit opened (operand stop levels) := by
  induction levels generalizing opened with
  | zero =>
    intro ts e rest hreads
    cases ts with
    | nil => exact absurd hreads not_reads_operand_nil
    | cons t after =>
      by_cases hopens : (unary? t).isSome = true ∨ t.kind = .groupStart
      · -- with no level left, nothing may be opened
        exact absurd hreads (not_reads_operand_zero hopens)
      · obtain ⟨hop, hgroup⟩ := not_or.1 hopens
        obtain ⟨hleaf, rfl⟩ := (reads_operand_leaf (by simpa using hop) hgroup).1 hreads
        have ht := leaf_eq_ok_iff.1 hleaf
        exact ⟨[t], rfl, .primary ht, within_leaf (by omega) ht⟩
  | succ levels ih =>
    intro ts e rest hreads
    cases ts with
    | nil => exact absurd hreads not_reads_operand_nil
    | cons t after =>
      cases hop : unary? t with
      | some op =>
        obtain ⟨e', hinner, rfl⟩ := (reads_operand_unary hop).1 hreads
        have htop := unary?_eq_some_iff.1 hop
        have hlevels : (Opening.operand :: opened).length + levels = limit := by
          rw [List.length_cons]
          omega
        obtain ⟨used, rfl, hused, hwithin⟩ := ih hlevels hinner
        exact ⟨t :: used, rfl, .sign op htop hused, (within_unary htop).2 ⟨by omega, hwithin⟩⟩
      | none =>
        by_cases hgroup : t.kind = .groupStart
        · obtain ⟨closing, hinner, hclosing⟩ := (reads_operand_group hgroup).1 hreads
          have hlevels : (Opening.group :: opened).length + levels = limit := by
            rw [List.length_cons]
            omega
          obtain ⟨used, rfl, hused, hwithin⟩ :=
            sound_disjunction (completed_group opened) (by omega) (ih hlevels) hinner
          refine ⟨t :: (used ++ [closing]), by simp, .primary (.group hgroup hused hclosing), ?_⟩
          exact (within_group hgroup hused hclosing).2 ⟨by omega, hwithin⟩
        · obtain ⟨hleaf, rfl⟩ := (reads_operand_leaf hop hgroup).1 hreads
          have ht := leaf_eq_ok_iff.1 hleaf
          exact ⟨[t], rfl, .primary ht, within_leaf (by omega) ht⟩

/-- A token that is derived by itself opens nothing. -/
theorem opens_nothing_of_derives {t : Token} {e : Expr} (h : Derives .primary [t] e) :
    unary? t = none ∧ t.kind ≠ .groupStart := by
  generalize hts : [t] = ts at h
  cases h with
  | group ho hinner hc => simp at hts
  | _ => cases hts; exact ⟨rfl, by simp⟩

theorem reads_operand_of_leaf {stop levels : Nat} {t : Token} {rest : List Token} {e : Expr}
    (h : Derives .primary [t] e) : Reads (operand stop levels) (t :: rest) e rest := by
  obtain ⟨hop, hgroup⟩ := opens_nothing_of_derives h
  exact (reads_operand_leaf hop hgroup).2 ⟨leaf_eq_ok_iff.2 h, rfl⟩

/-- A primary is one token, or a group. -/
theorem primary_cases {used : List Token} {e : Expr} (h : Derives .primary used e) :
    (∃ t, used = [t]) ∨ ∃ opening ts closing, used = opening :: (ts ++ [closing]) ∧
      opening.kind = .groupStart ∧ Derives .disjunction ts e ∧ closing.kind = .groupEnd := by
  cases h with
  | group ho hinner hc => exact .inr ⟨_, _, _, rfl, ho, hinner, hc⟩
  | _ => exact .inl ⟨_, rfl⟩

/-- A closing parenthesis goes on with nothing. -/
theorem ends_of_groupEnd {t : Token} (h : t.kind = .groupEnd) (rest : List Token) :
    Ends .disjunction (t :: rest) := by
  intro s hs
  obtain rfl : t = s := by simpa using hs
  simp [isOp, comparison?, h]

theorem complete_operand (stop : Nat) {levels : Nat} (h : opened.length + levels = limit) :
    Complete .unary limit opened (operand stop levels) := by
  induction levels generalizing opened with
  | zero =>
    intro used e hused hwithin rest _
    cases hused with
    | primary hprimary =>
      rcases primary_cases hprimary with ⟨t, rfl⟩ | ⟨opening, ts, closing, rfl, ho, hinner, hc⟩
      · exact reads_operand_of_leaf hprimary
      · have := ((within_group ho hinner hc).1 hwithin).1
        omega
    | sign op htop _ =>
      have := ((within_unary htop).1 hwithin).1
      omega
  | succ levels ih =>
    intro used e hused hwithin rest hrest
    have hlevels (opening : Opening) : (opening :: opened).length + levels = limit := by
      rw [List.length_cons]
      omega
    cases hused with
    | primary hprimary =>
      rcases primary_cases hprimary with ⟨t, rfl⟩ | ⟨opening, ts, closing, rfl, ho, hinner, hc⟩
      · exact reads_operand_of_leaf hprimary
      · have hread := complete_disjunction (completed_group opened) (Nat.le.intro (hlevels _))
          (ih (hlevels _)) hinner ((within_group ho hinner hc).1 hwithin).2
          (ends_of_groupEnd hc rest)
        refine (reads_operand_group ho).2 ⟨closing, ?_, hc⟩
        simpa using hread
    | sign op htop hinner =>
      have hread := ih (hlevels .operand) hinner ((within_unary htop).1 hwithin).2 hrest
      exact (reads_operand_unary (unary?_eq_some_iff.2 htop)).2 ⟨_, hread, rfl⟩

/-! ### Whole texts -/

theorem ends_nil (symbol : Symbol) : Ends symbol [] := by
  intro t ht
  cases ht

/-- The parser of whole expressions, with `levels` levels, reads all of a token list as `e` exactly
if the list derives `e` and nests within these levels. -/
theorem reads_disjunction_iff {stop levels : Nat} {ts : List Token} {e : Expr} :
    Reads (disjunction (operand stop levels)) ts e [] ↔
      Derives .disjunction ts e ∧ Within levels [] ts := by
  have hlevels : ([] : List Opening).length + levels = levels := Nat.zero_add _
  constructor
  · intro h
    obtain ⟨used, rfl, hused, hwithin⟩ :=
      sound_disjunction rfl (Nat.zero_le _) (sound_operand stop hlevels) h
    rw [List.append_nil]
    exact ⟨hused, hwithin⟩
  · rintro ⟨h, hwithin⟩
    have hread := complete_disjunction rfl (Nat.zero_le _) (complete_operand stop hlevels) h hwithin
      (ends_nil .disjunction)
    rwa [List.append_nil] at hread

/-- Every token list nests within some limit. -/
theorem exists_within (opened : List Opening) (ts : List Token) :
    ∃ limit, Within limit opened ts := by
  refine ⟨(nestings opened ts).foldr max ⊥, fun n hn => ?_⟩
  exact List.le_max_of_le hn (Nat.le_refl n)

/-- A token list derives at most one tree. -/
theorem derives_unique {ts : List Token} {e e' : Expr} (h : Derives .disjunction ts e)
    (h' : Derives .disjunction ts e') : e = e' := by
  -- with levels enough the parser reads both trees, and it reads one thing
  obtain ⟨limit, hwithin⟩ := exists_within [] ts
  have hread : Reads (disjunction (operand 0 limit)) ts e [] := reads_disjunction_iff.2 ⟨h, hwithin⟩
  exact (hread.unique (reads_disjunction_iff.2 ⟨h', hwithin⟩)).1

theorem parseTokens_eq_ok_iff {stop : Nat} {ts : List Token} {e : Expr} :
    parseTokens stop ts = .ok e ↔
      Reads (disjunction (operand stop Expr.maxDepth)) ts e [] ∧ e.depth ≤ Expr.maxDepth := by
  rw [parseTokens]
  cases ts with
  | nil =>
    simp only [List.isEmpty_nil, if_true, reduceCtorEq, false_iff, not_and]
    exact fun h => absurd h.length_lt (Nat.lt_irrefl _)
  | cons t after =>
    simp only [List.isEmpty_cons, Bool.false_eq_true, if_false, Reads]
    cases disjunction (operand stop Expr.maxDepth) (t :: after) with
    | error err => simp
    | ok r =>
      obtain ⟨e', rest, hlt⟩ := r
      cases rest with
      | cons s rest => simp
      | nil =>
        simp only [Except.ok.injEq, Parsed.mk.injEq, and_true]
        split
        · next hdeep =>
          simp only [reduceCtorEq, false_iff, not_and]
          rintro ⟨-, rfl⟩
          exact Nat.not_le_of_lt hdeep
        · next hdepth =>
          simp only [Except.ok.injEq]
          constructor
          · rintro rfl
            exact ⟨⟨hlt, rfl⟩, Nat.le_of_not_lt hdepth⟩
          · rintro ⟨⟨-, rfl⟩, -⟩
            rfl

/-- What is parsed is what the grammar derives within the nesting and the depth that are allowed. -/
theorem derives_of_parse {text : Text} {e : Expr} (h : parse text = .ok e) :
    ∃ ts, lex text = .ok ts ∧ Derives .disjunction ts e ∧ Within Expr.maxDepth [] ts ∧
      e.depth ≤ Expr.maxDepth := by
  rw [parse] at h
  cases hlex : lex text with
  | error err =>
    rw [hlex] at h
    cases h
  | ok ts =>
    rw [hlex] at h
    obtain ⟨hread, hdepth⟩ := parseTokens_eq_ok_iff.1 h
    obtain ⟨hderives, hwithin⟩ := reads_disjunction_iff.1 hread
    exact ⟨ts, rfl, hderives, hwithin, hdepth⟩

/-- **Grammar.** A text has the expression `e` exactly if it splits into tokens that derive `e`,
every number among them converts, no token nests more deeply than 64 groups and operators in front
of an operand, and `e` is at most 64 levels deep. No token list derives two trees. -/
theorem parse_eq_ok_iff_derives :
    (∀ (text : Text) (e : Expr), parse text = .ok e ↔
      ∃ ts, lex text = .ok ts ∧ Derives .disjunction ts e ∧ (∀ t ∈ ts, t.Converts) ∧
        (∀ n ∈ nestings [] ts, n ≤ 64) ∧ e.depth ≤ 64) ∧
    ∀ (ts : List Token) (e e' : Expr), Derives .disjunction ts e → Derives .disjunction ts e' →
      e = e' := by
  refine ⟨fun text e => ⟨fun h => ?_, ?_⟩, fun ts e e' => derives_unique⟩
  · obtain ⟨ts, hlex, hderives, hwithin, hdepth⟩ := derives_of_parse h
    exact ⟨ts, hlex, hderives, converts_of_derives hderives, hwithin, hdepth⟩
  · rintro ⟨ts, hlex, hderives, -, hwithin, hdepth⟩
    rw [parse, hlex]
    exact parseTokens_eq_ok_iff.2 ⟨reads_disjunction_iff.2 ⟨hderives, hwithin⟩, hdepth⟩

/-- The tokens of `a||!b` derive one tree, however it is derived. -/
theorem parse_eq_ok_iff_derives_or :
    Derives .disjunction [⟨.ident, "a", 0⟩, ⟨.op, "||", 1⟩, ⟨.op, "!", 3⟩, ⟨.ident, "b", 4⟩]
      (.binary (.known .or) (.ident "a") (.unary (.known .not) (.ident "b"))) ∧
    ∀ e, Derives .disjunction [⟨.ident, "a", 0⟩, ⟨.op, "||", 1⟩, ⟨.op, "!", 3⟩, ⟨.ident, "b", 4⟩] e →
      e = .binary (.known .or) (.ident "a") (.unary (.known .not) (.ident "b")) := by
  have hleaf (name : Text) (position : Nat) :
      Derives .unary [⟨.ident, name, position⟩] (.ident name) :=
    .primary (.ident name position)
  have hleft : Derives .disjunction [⟨.ident, "a", 0⟩] (.ident "a") :=
    .conjunction (.comparison (.unary (hleaf "a" 0)))
  have hright : Derives .conjunction [⟨.op, "!", 3⟩, ⟨.ident, "b", 4⟩]
      (.unary (.known .not) (.ident "b")) :=
    .comparison (.unary (.sign .not ⟨rfl, rfl⟩ (hleaf "b" 4)))
  have h := Derives.or (t := ⟨.op, "||", 1⟩) hleft ⟨rfl, rfl⟩ hright
  exact ⟨h, fun e he => parse_eq_ok_iff_derives.2 _ _ _ he h⟩

end FeatureToggles.RuleText
