import FeatureToggles.Proofs.Forms

/-!
# Where the parsers of rule text stop

A parser reads tokens from the left and stops at the first token that does not go on with what it has
read. Where it stops depends on the tokens up to there alone. What it has read up to there is the start of
a list of the form that it looks for, and it could go on with other tokens.
-/

namespace FeatureToggles.RuleText

/-- The tokens begin a list of this form, and are not all of it. -/
def Begins (form : List Token → Prop) (tokens : List Token) : Prop :=
  ∃ more, more ≠ [] ∧ form (tokens ++ more)

/-- The fault is that the token does not belong where it stands. -/
def Fault.Refuses (fault : Fault) (token : Token) : Prop :=
  fault = .unclosedGroup ∨ fault = .unexpectedToken token.value

/-- How a reader of one form ends: it reads a list of this form, runs into a limit, stops at a token, or
runs out of tokens. What it reads and where it stops depends on the tokens up to the next one alone. -/
inductive Settles (stop : Nat) (form : List Token → Prop) (f : Reader) : List Token → Prop where
  | read (used rest : List Token) (e : Expr) : form used →
      (∀ rest', rest'.head? = rest.head? → f (used ++ rest') = .ok (e, rest')) →
      Settles stop form f (used ++ rest)
  | limit (ts : List Token) (error : Error) : error.fault.IsLimit →
      (∃ t ∈ ts, t.position = error.position) → f ts = .error error → Settles stop form f ts
  | token (before : List Token) (t : Token) (after : List Token) (fault : Fault) : Begins form before →
      fault.Refuses t → (∀ after', f (before ++ t :: after') = .error ⟨fault, t.position⟩) →
      Settles stop form f (before ++ t :: after)
  | ended (ts : List Token) : Begins form ts → f ts = .error ⟨.unexpectedEnd, stop⟩ →
      Settles stop form f ts

section Settles

variable {p : Level} {op : BinaryOp} {inner outer : Symbol} {stop levels : Nat} {t : Token}
  {ts us after : List Token} {form first : List Token → Prop} {f f' : Reader} {g : Expr → Reader}

theorem Begins.of_append (h : Begins (fun us => form (ts ++ us)) us) : Begins form (ts ++ us) := by
  obtain ⟨more, hne, hform⟩ := h
  refine ⟨more, hne, ?_⟩
  rwa [List.append_assoc]

theorem Begins.of_cons (h : Begins (fun us => form (t :: us)) us) : Begins form (t :: us) := h

/-- What begins a first part begins the whole, if every first part does. -/
theorem Begins.of_first (h : Begins first ts) (hwhole : ∀ us, first us → ∃ vs, form (us ++ vs)) :
    Begins form ts := by
  obtain ⟨more, hne, hfirst⟩ := h
  obtain ⟨vs, hform⟩ := hwhole _ hfirst
  refine ⟨more ++ vs, by simp [hne], ?_⟩
  rwa [← List.append_assoc]

/-- A reader that takes nothing. -/
theorem Settles.nothing (hform : form []) (e : Expr)
    (hread : ∀ ts', ts'.head? = ts.head? → f ts' = .ok (e, ts')) : Settles stop form f ts :=
  .read [] ts e hform hread

/-- A reader that takes a token and goes on as another one. -/
theorem Settles.cons (hstep : ∀ us, f (t :: us) = f' us)
    (h : Settles stop (fun us => form (t :: us)) f' ts) : Settles stop form f (t :: ts) := by
  cases h with
  | read used rest e hform hread =>
    refine .read (t :: used) rest e hform fun rest' hrest' => ?_
    rw [List.cons_append, hstep, hread rest' hrest']
  | limit _ error hlimit hpos herror =>
    obtain ⟨s, hs, hpos⟩ := hpos
    exact .limit _ error hlimit ⟨s, List.mem_cons_of_mem t hs, hpos⟩ (by rw [hstep, herror])
  | token before s after fault hbegins hrefuses herror =>
    refine .token (t :: before) s after fault hbegins.of_cons hrefuses fun after' => ?_
    rw [List.cons_append, hstep, herror]
  | ended _ hbegins herror => exact .ended _ hbegins.of_cons (by rw [hstep, herror])

theorem head?_append_congr {us rest rest' : List Token} (h : rest'.head? = rest.head?) :
    (us ++ rest').head? = (us ++ rest).head? := by
  rw [List.head?_append, List.head?_append, h]

/-- One reader after another. Where the second one stops, the first one has read what it read before. -/
theorem Settles.next (hf : Settles stop first f ts) (hwhole : ∀ us, first us → ∃ vs, form (us ++ vs))
    (hg : ∀ used e rest, ts = used ++ rest → first used → f ts = .ok (e, rest) →
      Settles stop (fun us => form (used ++ us)) (g e) rest) :
    Settles stop form (f.next g) ts := by
  cases hf with
  | limit _ error hlimit hpos herror => exact .limit _ error hlimit hpos (by rw [Reader.next, herror])
  | token before t after fault hbegins hrefuses herror =>
    refine .token before t after fault (hbegins.of_first hwhole) hrefuses fun after' => ?_
    rw [Reader.next, herror]
  | ended _ hbegins herror => exact .ended _ (hbegins.of_first hwhole) (by rw [Reader.next, herror])
  | read used rest e hfirst hread =>
    cases hg used e rest rfl hfirst (hread rest rfl) with
    | read used' rest e' hform hread' =>
      rw [← List.append_assoc]
      refine .read (used ++ used') rest e' hform fun rest' hrest' => ?_
      rw [List.append_assoc, Reader.next, hread _ (head?_append_congr hrest')]
      exact hread' rest' hrest'
    | limit _ error hlimit hpos herror =>
      obtain ⟨s, hs, hpos⟩ := hpos
      refine .limit _ error hlimit ⟨s, List.mem_append_right used hs, hpos⟩ ?_
      rw [Reader.next, hread rest rfl]
      exact herror
    | token before t after fault hbegins hrefuses herror =>
      rw [← List.append_assoc]
      refine .token (used ++ before) t after fault hbegins.of_append hrefuses fun after' => ?_
      rw [List.append_assoc, Reader.next, hread _ (by simp)]
      exact herror after'
    | ended _ hbegins herror =>
      refine .ended _ hbegins.of_append ?_
      rw [Reader.next, hread rest rfl]
      exact herror

/-- One reader after another, where what the first one reads may be all. -/
theorem Settles.next_of_forall (hf : Settles stop first f ts) (hfirst : ∀ us, first us → form us)
    (hg : ∀ used e rest, ts = used ++ rest → first used → f ts = .ok (e, rest) →
      Settles stop (fun us => form (used ++ us)) (g e) rest) :
    Settles stop form (f.next g) ts := by
  refine hf.next (fun us hus => ⟨[], ?_⟩) hg
  rw [List.append_nil]
  exact hfirst us hus

/-! ### Where each level stops -/

/-- Operands that are chained to a list of the outer form make up a list of this form. -/
theorem Joins.settles_chained (joins : Joins op inner outer)
    (hp : ∀ ts, Settles stop (HasForm inner) (reader p) ts) {done : List Token}
    (hdone : HasForm outer done) (left : Expr) (ts : List Token) :
    Settles stop (fun us => HasForm outer (done ++ us)) (chained op p left) ts := by
  -- as for what is read, each round goes on with what its operand leaves, which is shorter
  induction hn : ts.length using Nat.strong_induction_on generalizing ts left done with
  | _ n ih =>
    rcases head_isOp_cases op.spelling ts with ⟨t, after, rfl, ht⟩ | hhead
    · have htop := isOp_eq_true_iff.1 ht
      refine .cons (fun us => chained_of_isOp ht left) ((hp after).next_of_forall ?_ ?_)
      · exact fun us hus => joins.hasForm_more hdone htop hus
      · intro used right rest hafter hused hread
        have hshorter := (reader_eq_ok_iff.1 hread).length_lt
        have hlength : rest.length < n := by
          rw [← hn, List.length_cons]
          omega
        have hrest := ih rest.length hlength (joins.hasForm_more hdone htop hused)
          (.binary (.known op) left right) rest rfl
        simpa using hrest
    · refine .nothing (by simpa using hdone) left fun ts' hts' => chained_of_head ?_ left
      rwa [hts']

theorem Joins.settles (joins : Joins op inner outer)
    (hp : ∀ ts, Settles stop (HasForm inner) (reader p) ts) (ts : List Token) :
    Settles stop (HasForm outer) (reader (joined op p)) ts := by
  rw [reader_joined]
  exact (hp ts).next_of_forall (fun us hus => joins.hasForm_one hus) fun used e rest _ hused _ =>
    joins.settles_chained hp (joins.hasForm_one hused) e rest

theorem settles_versus (hp : ∀ ts, Settles stop (HasForm .unary) (reader p) ts) {done : List Token}
    (hdone : HasForm .unary done) (left : Expr) (ts : List Token) :
    Settles stop (fun us => HasForm .comparison (done ++ us)) (versus p left) ts := by
  have hnothing : HasForm .comparison (done ++ []) := by
    rw [List.append_nil]
    exact hasForm_comparison hdone
  cases ts with
  | nil =>
    refine .nothing hnothing left fun ts' hts' => ?_
    rw [List.head?_eq_none_iff.1 hts']
    rfl
  | cons t after =>
    cases ht : comparison? t with
    | none =>
      refine .nothing hnothing left fun ts' hts' => ?_
      obtain ⟨after', rfl⟩ := List.head?_eq_some_iff.1 hts'
      simp only [versus, ht]
    | some op =>
      refine .cons (fun us => versus_of_comparison ht left) ((hp after).next_of_forall ?_ ?_)
      · exact fun us hus => hasForm_compare hdone ht hus
      · intro used right rest _ hused _
        refine .nothing ?_ _ fun ts' _ => rfl
        simpa using hasForm_compare hdone ht hused

theorem settles_compared (hp : ∀ ts, Settles stop (HasForm .unary) (reader p) ts) (ts : List Token) :
    Settles stop (HasForm .comparison) (reader (compared p)) ts := by
  rw [reader_compared]
  exact (hp ts).next_of_forall (fun us hus => hasForm_comparison hus) fun used e rest _ hused _ =>
    settles_versus hp hused e rest

theorem settles_disjunction (hp : ∀ ts, Settles stop (HasForm .unary) (reader p) ts)
    (ts : List Token) : Settles stop (HasForm .disjunction) (reader (disjunction p)) ts :=
  joins_or.settles (joins_and.settles (settles_compared hp)) ts

/-- A name can stand wherever an operand is looked for. -/
theorem begins_unary : Begins (HasForm .unary) [] :=
  ⟨[⟨.ident, "a", 0⟩], List.cons_ne_nil _ _, .ident "a", .primary (.ident "a" 0)⟩

theorem settles_closing {opening : Token} (ho : opening.kind = .groupStart) {used : List Token}
    (hused : HasForm .disjunction used) (e : Expr) (ts : List Token) :
    Settles stop (fun us => HasForm .unary (opening :: (used ++ us))) (closing stop e) ts := by
  have hgroup {t : Token} (ht : t.kind = .groupEnd) :
      HasForm .unary (opening :: (used ++ [t])) :=
    hasForm_unary (hasForm_group ho hused ht)
  have hbegins : Begins (fun us => HasForm .unary (opening :: (used ++ us))) [] :=
    ⟨[⟨.groupEnd, ")", 0⟩], List.cons_ne_nil _ _, hgroup rfl⟩
  cases ts with
  | nil => exact .ended [] hbegins rfl
  | cons t after =>
    by_cases ht : t.kind = .groupEnd
    · refine .read [t] after e (hgroup ht) fun rest' _ => ?_
      simp only [List.cons_append, List.nil_append, closing, ht, if_true]
    · refine .token [] t after .unclosedGroup hbegins (.inl rfl) fun after' => ?_
      simp only [List.nil_append, closing, if_neg ht]

/-- A token that opens nothing is an operand, cannot be converted, or does not belong there. -/
theorem settles_leaf (hop : unary? t = none) (hgroup : t.kind ≠ .groupStart) :
    Settles stop (HasForm .unary) (reader (operand stop levels)) (t :: after) := by
  have hreader (us : List Token) :
      reader (operand stop levels) (t :: us) = (leaf t).map fun e => (e, us) :=
    reader_operand_leaf hop hgroup
  by_cases hkind : t.kind.IsLeaf
  · cases hleaf : leaf t with
    | ok e =>
      refine .read [t] after e (hasForm_unary (hasForm_leaf hkind)) fun rest' _ => ?_
      rw [List.cons_append, List.nil_append, hreader, hleaf]
      rfl
    | error error =>
      obtain ⟨hlimit, hposition⟩ := isLimit_of_leaf hkind hleaf
      refine .limit _ error hlimit ⟨t, List.mem_cons_self, hposition⟩ ?_
      rw [hreader, hleaf]
      rfl
  · refine .token [] t after (.unexpectedToken t.value) begins_unary (.inr rfl) fun after' => ?_
    rw [List.nil_append, hreader, leaf_of_not_isLeaf hkind]
    rfl

theorem settles_operand (stop levels : Nat) (ts : List Token) :
    Settles stop (HasForm .unary) (reader (operand stop levels)) ts := by
  induction levels generalizing ts with
  | zero =>
    cases ts with
    | nil => exact .ended [] begins_unary reader_operand_nil
    | cons t after =>
      by_cases hopens : (unary? t).isSome = true ∨ t.kind = .groupStart
      · exact .limit _ ⟨.tooDeep, t.position⟩ trivial ⟨t, List.mem_cons_self, rfl⟩
          (reader_operand_zero hopens)
      · obtain ⟨hop, hgroup⟩ := not_or.1 hopens
        exact settles_leaf (by simpa using hop) hgroup
  | succ levels ih =>
    cases ts with
    | nil => exact .ended [] begins_unary reader_operand_nil
    | cons t after =>
      cases hop : unary? t with
      | some op =>
        refine .cons (fun us => reader_operand_unary hop) ((ih after).next_of_forall ?_ ?_)
        · exact fun us hus => hasForm_sign hop hus
        · intro used e rest _ hused _
          refine .nothing ?_ _ fun ts' _ => rfl
          rw [List.append_nil]
          exact hasForm_sign hop hused
      | none =>
        by_cases hgroup : t.kind = .groupStart
        · refine .cons (fun us => reader_operand_group hgroup)
            ((settles_disjunction ih after).next ?_ ?_)
          · intro us hus
            exact ⟨[⟨.groupEnd, ")", 0⟩], hasForm_unary (hasForm_group hgroup hus rfl)⟩
          · intro used e rest _ hused _
            exact settles_closing hgroup hused e rest
        · exact settles_leaf hop hgroup

end Settles

end FeatureToggles.RuleText
