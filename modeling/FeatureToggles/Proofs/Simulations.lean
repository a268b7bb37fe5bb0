import FeatureToggles.Proofs.Readers

/-!
# Readers on changed tokens

The parser decides by the kinds of its tokens and by its operators alone. If a change of the tokens keeps
these, the parser goes the same way on the changed tokens, as far as it converts what they hold. Positions
are only carried along.
-/

namespace FeatureToggles.RuleText

/-- A change of tokens that keeps all that the parser decides by. It says which expressions come from changed
tokens, and what may come from them where the parser ends in an error otherwise. -/
structure Simulation where
  token : Token → Token
  place : Nat → Nat
  expr : Expr → Expr → Prop
  fails : Error → Except Error (Expr × List Token) → Prop
  kind_token : ∀ t, (token t).kind = t.kind
  value_token : ∀ t, t.kind = .op → (token t).value = t.value
  position_token : ∀ t, (token t).position = place t.position
  expr_binary : ∀ {op l l' r r'}, expr l l' → expr r r' → expr (.binary op l r) (.binary op l' r')
  expr_unary : ∀ {op e e'}, expr e e' → expr (.unary op e) (.unary op e')
  expr_leaf : ∀ {t e}, leaf t = .ok e → ∃ e', leaf (token t) = .ok e' ∧ expr e e'
  fails_leaf : ∀ {t error} after, leaf t = .error error →
    fails error ((leaf (token t)).map fun e => (e, after))
  fails_error : ∀ error, fails error (.error ⟨error.fault, place error.position⟩)
  fails_next : ∀ {error} {f : Reader} {ts} g, fails error (f ts) → fails error (f.next g ts)

/-- What `f'` makes of the changed tokens comes from what `f` makes of the tokens. -/
inductive Simulates (s : Simulation) (f' f : Reader) (ts : List Token) : Prop where
  | read (e e' : Expr) (rest : List Token) : f ts = .ok (e, rest) → s.expr e e' →
      f' (ts.map s.token) = .ok (e', rest.map s.token) → Simulates s f' f ts
  | fails (error : Error) : f ts = .error error → s.fails error (f' (ts.map s.token)) →
      Simulates s f' f ts

variable {s : Simulation} {p p' : Level} {op : BinaryOp} {stop levels levels' : Nat} {e e' left left' : Expr}
  {t : Token} {ts us after : List Token} {f f' k k' : Reader} {g g' : Expr → Reader}

/-! ### What the parser decides by -/

theorem Simulation.isOp_token (s : Simulation) (spelling : Text) (t : Token) :
    isOp spelling (s.token t) = isOp spelling t := by
  by_cases ht : t.kind = .op
  · rw [isOp, isOp, s.kind_token, s.value_token t ht]
  · simp [isOp, s.kind_token, ht]

theorem Simulation.comparison?_token (s : Simulation) (t : Token) :
    comparison? (s.token t) = comparison? t := by
  by_cases ht : t.kind = .op
  · rw [comparison?, comparison?, s.kind_token, s.value_token t ht]
  · simp [comparison?, s.kind_token, ht]

theorem Simulation.unary?_token (s : Simulation) (t : Token) : unary? (s.token t) = unary? t := by
  by_cases ht : t.kind = .op
  · rw [unary?, unary?, s.kind_token, s.value_token t ht]
  · simp [unary?, s.kind_token, ht]

/-! ### Readers one after another -/

theorem Simulates.congr (hf : Simulates s f' f ts) (heq : k us = f ts)
    (heq' : k' (us.map s.token) = f' (ts.map s.token)) : Simulates s k' k us := by
  cases hf with
  | read e e' rest hread he hread' => exact .read e e' rest (heq.trans hread) he (heq'.trans hread')
  | fails error herror hfails => exact .fails error (heq.trans herror) (heq' ▸ hfails)

/-- Readers that end in the same error. -/
theorem Simulates.of_error {error : Error} (herror : f ts = .error error)
    (herror' : f' (ts.map s.token) = .error ⟨error.fault, s.place error.position⟩) :
    Simulates s f' f ts := by
  refine .fails error herror ?_
  rw [herror']
  exact s.fails_error error

theorem Simulates.next (hf : Simulates s f' f ts)
    (hg : ∀ e e' rest, f ts = .ok (e, rest) → s.expr e e' → Simulates s (g' e') (g e) rest) :
    Simulates s (f'.next g') (f.next g) ts := by
  cases hf with
  | read e e' rest hread he hread' =>
    exact (hg e e' rest hread he).congr (by rw [Reader.next, hread]) (by rw [Reader.next, hread'])
  | fails error herror hfails =>
    exact .fails error (by rw [Reader.next, herror]) (s.fails_next g' hfails)

theorem simulates_done (he : s.expr e e') (ts : List Token) : Simulates s (.done e') (.done e) ts :=
  .read e e' ts rfl he rfl

/-! ### The levels of the grammar -/

theorem simulates_chained (hp : ∀ ts, Simulates s (reader p') (reader p) ts) (he : s.expr left left')
    (ts : List Token) : Simulates s (chained op p' left') (chained op p left) ts := by
  -- each round goes on with what its operand leaves, which is shorter
  induction hn : ts.length using Nat.strong_induction_on generalizing ts left left' with
  | _ n ih =>
    rcases head_isOp_cases op.spelling ts with ⟨t, after, rfl, ht⟩ | hhead
    · refine ((hp after).next fun right right' rest hread hright => ?_).congr (chained_of_isOp ht left)
        (chained_of_isOp ((s.isOp_token _ t).trans ht) left')
      have hshorter := (reader_eq_ok_iff.1 hread).length_lt
      refine ih rest.length ?_ (s.expr_binary he hright) rest rfl
      rw [← hn, List.length_cons]
      omega
    · have hhead' : ∀ t ∈ (ts.map s.token).head?, isOp op.spelling t = false := by
        rw [List.head?_map]
        rintro _ ht
        obtain ⟨u, hu, rfl⟩ := Option.map_eq_some_iff.1 ht
        rw [s.isOp_token, hhead u hu]
      exact .read left left' ts (chained_of_head hhead left) he (chained_of_head hhead' left')

theorem simulates_joined (hp : ∀ ts, Simulates s (reader p') (reader p) ts) (ts : List Token) :
    Simulates s (reader (joined op p')) (reader (joined op p)) ts := by
  rw [reader_joined, reader_joined]
  exact (hp ts).next fun e e' rest _ he => simulates_chained hp he rest

theorem simulates_versus (hp : ∀ ts, Simulates s (reader p') (reader p) ts) (he : s.expr left left')
    (ts : List Token) : Simulates s (versus p' left') (versus p left) ts := by
  cases ts with
  | nil => exact .read left left' [] rfl he rfl
  | cons t after =>
    have ht' := s.comparison?_token t
    cases ht : comparison? t with
    | none =>
      exact .read left left' (t :: after) (versus_of_none ht left) he (versus_of_none (ht'.trans ht) left')
    | some op =>
      refine ((hp after).next fun right right' rest _ hright => ?_).congr (versus_of_comparison ht left)
        (versus_of_comparison (ht'.trans ht) left')
      exact simulates_done (s.expr_binary he hright) rest

theorem simulates_disjunction (hp : ∀ ts, Simulates s (reader p') (reader p) ts) (ts : List Token) :
    Simulates s (reader (disjunction p')) (reader (disjunction p)) ts := by
  refine simulates_joined (simulates_joined fun ts => ?_) ts
  rw [reader_compared, reader_compared]
  exact (hp ts).next fun e e' rest _ he => simulates_versus hp he rest

theorem simulates_closing (he : s.expr e e') (ts : List Token) :
    Simulates s (closing (s.place stop) e') (closing stop e) ts := by
  cases ts with
  | nil => exact .of_error rfl rfl
  | cons t after =>
    have hkind := s.kind_token t
    by_cases ht : t.kind = .groupEnd
    · exact .read e e' after (if_pos ht) he (if_pos (hkind.trans ht))
    · refine .of_error (if_neg ht) ((if_neg (hkind ▸ ht)).trans ?_)
      rw [s.position_token]

theorem simulates_leaf (hop : unary? t = none) (hgroup : t.kind ≠ .groupStart) :
    Simulates s (reader (operand (s.place stop) levels')) (reader (operand stop levels)) (t :: after) := by
  have hread : reader (operand stop levels) (t :: after) = (leaf t).map fun e => (e, after) :=
    reader_operand_leaf hop hgroup
  have hread' : reader (operand (s.place stop) levels') ((t :: after).map s.token)
      = (leaf (s.token t)).map fun e => (e, after.map s.token) :=
    reader_operand_leaf ((s.unary?_token t).trans hop) (by rwa [s.kind_token])
  cases hleaf : leaf t with
  | error error =>
    refine .fails error (by rw [hread, hleaf]; rfl) ?_
    rw [hread']
    exact s.fails_leaf _ hleaf
  | ok e =>
    obtain ⟨e', hleaf', he⟩ := s.expr_leaf hleaf
    exact .read e e' after (by rw [hread, hleaf]; rfl) he (by rw [hread', hleaf']; rfl)

/-- Operands are read alike if as many levels are left, or if the limit does not count. -/
theorem simulates_operand (stop : Nat) (hlevels : levels ≤ levels')
    (hdeep : levels = levels' ∨ ∀ position read, s.fails ⟨.tooDeep, position⟩ read) (ts : List Token) :
    Simulates s (reader (operand (s.place stop) levels')) (reader (operand stop levels)) ts := by
  induction levels generalizing levels' ts with
  | zero =>
    cases ts with
    | nil => exact .of_error reader_operand_nil reader_operand_nil
    | cons t after =>
      by_cases hopens : (unary? t).isSome = true ∨ t.kind = .groupStart
      · rcases hdeep with rfl | hdeep
        · have hopens' : (unary? (s.token t)).isSome = true ∨ (s.token t).kind = .groupStart := by
            rwa [s.unary?_token, s.kind_token]
          refine .of_error (reader_operand_zero hopens) ((reader_operand_zero hopens').trans ?_)
          rw [s.position_token]
        · exact .fails _ (reader_operand_zero hopens) (hdeep _ _)
      · obtain ⟨hop, hgroup⟩ := not_or.1 hopens
        exact simulates_leaf (by simpa using hop) hgroup
  | succ levels ih =>
    obtain ⟨more, rfl⟩ : ∃ more, levels' = more + 1 := ⟨levels' - 1, by omega⟩
    have hmore : ∀ ts, Simulates s (reader (operand (s.place stop) more)) (reader (operand stop levels)) ts :=
      ih (by omega) (hdeep.imp_left Nat.succ.inj)
    cases ts with
    | nil => exact .of_error reader_operand_nil reader_operand_nil
    | cons t after =>
      have hop' := s.unary?_token t
      cases hop : unary? t with
      | some op =>
        exact ((hmore after).next fun e e' rest _ he => simulates_done (s.expr_unary he) rest).congr
          (reader_operand_unary hop) (reader_operand_unary (hop'.trans hop))
      | none =>
        by_cases hgroup : t.kind = .groupStart
        · exact ((simulates_disjunction hmore after).next fun e e' rest _ he =>
            simulates_closing he rest).congr (reader_operand_group hgroup)
            (reader_operand_group ((s.kind_token t).trans hgroup))
        · exact simulates_leaf hop hgroup

end FeatureToggles.RuleText
