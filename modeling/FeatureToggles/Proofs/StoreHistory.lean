import FeatureToggles.Proofs.FirstOccurrences
import FeatureToggles.Store

/-!
# The history of a store

The history of a store determines what it holds: each identifier stands for the toggle of the last step
about it, and the identifiers are in the order in which they came in to stay.
-/

namespace FeatureToggles

/-- A step in the history of a store. -/
inductive StoreStep where
  | add (toggle : Toggle)
  | remove (id : Uuid)

namespace StoreStep

/-- The identifier that a step is about. -/
def id : StoreStep → Uuid
  | add toggle => toggle.id
  | remove id => id

/-- The toggle that a step adds. -/
def added? : StoreStep → Option Toggle
  | add toggle => some toggle
  | remove _ => none

/-- The store after a step. -/
def apply (store : Store) : StoreStep → Store
  | add toggle => store.add toggle
  | remove id => (store.remove id).1

end StoreStep

/-- The steps from the empty store on, the first one first. -/
abbrev History := List StoreStep

namespace History

/-- The toggle that was added under an identifier last, unless the identifier was removed since. -/
def current? (history : History) (id : Uuid) : Option Toggle :=
  (history.filter (·.id = id)).getLast?.bind StoreStep.added?

/-- Whether an identifier has a toggle at the end of a history. -/
def present (history : History) (id : Uuid) : Bool :=
  (history.current? id).isSome

/-- When an identifier last went from absent to present: the number of steps before the one that
brought it in. -/
def entered? (history : History) (id : Uuid) : Option ℕ :=
  ((List.range history.length).filter fun n =>
    !present (history.take n) id && present (history.take (n + 1)) id).getLast?

/-- Whether one identifier came in before another. -/
def EntersBefore (history : History) (first second : Uuid) : Prop :=
  ∃ m n, history.entered? first = some m ∧ history.entered? second = some n ∧ m < n

end History

/-- A toggle without description, not active and of fixed times. -/
def Toggle.bare (id account : Uuid) (key : Text) (rules : List Rule) : Toggle where
  id
  accountId := account
  key
  description := ""
  active := false
  rules
  createdAt := ⟨1970, 1, 1, 0, 0, 0, 0, some 0⟩
  updatedAt := ⟨1970, 1, 1, 0, 0, 0, 0, some 0⟩

/-- The store after a history. -/
def Store.run (store : Store) (history : History) : Store :=
  history.foldl StoreStep.apply store

/-! ### One more step -/

theorem Store.run_concat (store : Store) (history : History) (step : StoreStep) :
    store.run (history ++ [step]) = step.apply (store.run history) := by
  rw [run, List.foldl_append]
  rfl

namespace StoreStep

/-- A step settles the identifier that it is about and leaves all others alone. -/
theorem get?_apply (step : StoreStep) (store : Store) (id : Uuid) :
    (step.apply store).get? id = if id = step.id then step.added? else store.get? id := by
  cases step with
  | add toggle => exact OrderedMap.get?_insert store toggle.id id toggle
  | remove removed => exact OrderedMap.get?_erase store removed id

theorem nodup_keys_apply (step : StoreStep) {store : Store} (h : store.keys.Nodup) :
    (step.apply store).keys.Nodup := by
  cases step with
  | add toggle => exact OrderedMap.nodup_keys_insert h toggle.id toggle
  | remove removed => exact OrderedMap.nodup_keys_erase h removed

end StoreStep

namespace History

theorem current?_concat (history : History) (step : StoreStep) (id : Uuid) :
    current? (history ++ [step]) id
      = if id = step.id then step.added? else history.current? id := by
  rw [current?, List.filter_append]
  by_cases h : id = step.id
  · rw [if_pos h, List.filter_cons_of_pos (by simp [h]), List.filter_nil, List.getLast?_concat]
    rfl
  · rw [if_neg h, List.filter_cons_of_neg (by simpa using Ne.symm h), List.filter_nil,
      List.append_nil]
    rfl

/-- An identifier comes in with the last step if it was absent before, and else has come in before. -/
theorem entered?_concat (history : History) (step : StoreStep) (id : Uuid) :
    entered? (history ++ [step]) id
      = if !history.present id && present (history ++ [step]) id then some history.length
        else history.entered? id := by
  -- the earlier moments see the same beginnings of the history
  have hearlier : (List.range history.length).filter (fun n =>
        !present ((history ++ [step]).take n) id && present ((history ++ [step]).take (n + 1)) id)
      = (List.range history.length).filter (fun n =>
        !present (history.take n) id && present (history.take (n + 1)) id) := by
    apply List.filter_congr
    intro n hn
    have hlt : n < history.length := List.mem_range.1 hn
    rw [List.take_append_of_le_length (by omega), List.take_append_of_le_length (by omega)]
  have hbefore : (history ++ [step]).take history.length = history := List.take_left
  have hafter : (history ++ [step]).take (history.length + 1) = history ++ [step] :=
    List.take_of_length_le (by simp)
  rw [entered?, List.length_append, List.length_singleton, List.range_succ, List.filter_append,
    hearlier]
  split
  · next h => rw [List.filter_cons_of_pos (by rw [hbefore, hafter, h]), List.filter_nil,
      List.getLast?_concat]
  · next h =>
    rw [List.filter_cons_of_neg (by rwa [hbefore, hafter]), List.filter_nil, List.append_nil, entered?]

/-- An identifier that is present stays in the place where it came in. -/
theorem entered?_concat_of_present {history : History} {id : Uuid} (h : history.present id = true)
    (step : StoreStep) : entered? (history ++ [step]) id = history.entered? id := by
  rw [entered?_concat, h]
  rfl

theorem lt_length_of_entered? {history : History} {id : Uuid} {n : ℕ}
    (h : history.entered? id = some n) : n < history.length := by
  have hmem := List.mem_of_getLast? h
  exact List.mem_range.1 (List.mem_of_mem_filter hmem)

/-- What is present has come in at some moment. -/
theorem exists_entered? {history : History} {id : Uuid} (h : history.present id = true) :
    ∃ n, history.entered? id = some n := by
  induction history using List.reverseRecOn with
  | nil => cases h
  | append_singleton history step ih =>
    rw [entered?_concat, h]
    cases hbefore : present history id with
    | false => exact ⟨history.length, rfl⟩
    | true => exact ih hbefore

/-- One that is present came in before one that comes in with the last step. -/
theorem entersBefore_concat {history : History} {step : StoreStep} {first second : Uuid}
    (hfirst : history.present first = true) (habsent : history.present second = false)
    (hsecond : present (history ++ [step]) second = true) :
    EntersBefore (history ++ [step]) first second := by
  obtain ⟨m, hm⟩ := exists_entered? hfirst
  refine ⟨m, history.length, ?_, ?_, lt_length_of_entered? hm⟩
  · rw [entered?_concat_of_present hfirst, hm]
  · rw [entered?_concat, habsent, hsecond]
    rfl

end History

/-! ### Whole histories -/

namespace Store

/-- An identifier stands for the toggle that its history leaves there. -/
theorem get?_run (history : History) (id : Uuid) :
    (run .empty history).get? id = history.current? id := by
  induction history using List.reverseRecOn with
  | nil => rfl
  | append_singleton history step ih =>
    rw [run_concat, StoreStep.get?_apply, History.current?_concat, ih]

theorem nodup_keys_run (history : History) : (run .empty history).keys.Nodup := by
  induction history using List.reverseRecOn with
  | nil => exact List.nodup_nil
  | append_singleton history step ih =>
    rw [run_concat]
    exact step.nodup_keys_apply ih

theorem mem_keys_run {history : History} {id : Uuid} :
    id ∈ (run .empty history).keys ↔ history.present id = true := by
  rw [OrderedMap.mem_keys_iff, get?_run]
  rfl

/-- The identifiers are in the order in which they came in. -/
theorem pairwise_keys_run (history : History) :
    (run .empty history).keys.Pairwise history.EntersBefore := by
  induction history using List.reverseRecOn with
  | nil => exact List.Pairwise.nil
  | append_singleton history step ih =>
    -- those that were there keep their moments, so they keep their order
    have hkept : (run .empty history).keys.Pairwise (History.EntersBefore (history ++ [step])) := by
      refine ih.imp_of_mem fun {first second} hfirst hsecond h => ?_
      rw [History.EntersBefore, History.entered?_concat_of_present (mem_keys_run.1 hfirst),
        History.entered?_concat_of_present (mem_keys_run.1 hsecond)]
      exact h
    rw [run_concat]
    cases step with
    | remove removed =>
      show ((run .empty history).erase removed).keys.Pairwise _
      rw [OrderedMap.keys_erase]
      exact hkept.filter _
    | add toggle =>
      show ((run .empty history).alter toggle.id _).keys.Pairwise _
      rw [OrderedMap.keys_alter]
      split
      · exact hkept
      · next hnew =>
        have habsent : History.present history toggle.id = false := by
          rwa [mem_keys_run, Bool.not_eq_true] at hnew
        have hpresent : History.present (history ++ [.add toggle]) toggle.id = true := by
          rw [History.present, History.current?_concat]
          simp [StoreStep.id, StoreStep.added?]
        rw [List.pairwise_append]
        refine ⟨hkept, List.pairwise_singleton _ _, fun first hfirst second hsecond => ?_⟩
        rw [List.mem_singleton.1 hsecond]
        exact History.entersBefore_concat (mem_keys_run.1 hfirst) habsent hpresent

/-- The toggles of an account are among the current ones, in the order of their identifiers. -/
theorem list_run (history : History) (account : Uuid) :
    (run .empty history).list account
      = ((run .empty history).keys.filterMap history.current?).filter (·.accountId = account) := by
  have hget : (run .empty history).get? = history.current? := funext (get?_run history)
  rw [list, OrderedMap.values_eq_filterMap (nodup_keys_run history), hget]

/-- A store with toggles is one to which they were added. -/
theorem ofList_eq_run (toggles : List Toggle) :
    ofList toggles = run .empty (toggles.map .add) := by
  rw [run, List.foldl_map]
  rfl

/-! ### Statistics -/

/-- The accounts that are counted are those with toggles. -/
theorem mem_accounts_iff (store : Store) (account : Uuid) :
    account ∈ store.accounts ↔ store.list account ≠ [] := by
  rw [accounts, List.mem_eraseDups, List.mem_map, list, Ne, List.filter_eq_nil_iff]
  simp

/-- Every toggle is listed for one account. -/
theorem sum_length_list (store : Store) :
    (store.accounts.map fun account => (store.list account).length).sum = store.size := by
  rw [OrderedMap.size, ← List.length_map (·.2)]
  exact sum_length_filter_eraseDups store.values (·.accountId)

/-- **History.** After any steps the identifiers of a store are distinct, and each stands for the toggle
that was added under it last, if it was not removed since; they are in the order in which they last went
from absent to present. The Boolean of `remove` says whether the identifier was there. The toggles of an
account are listed in that order, and statistics count what is listed. A store that starts with toggles is
one to which they were added. -/
theorem run_refines_history (history : History) :
    (run .empty history).keys.Nodup ∧
    (∀ id, id ∈ (run .empty history).keys ↔ (history.current? id).isSome = true) ∧
    (∀ id, (run .empty history).fetch? id = history.current? id) ∧
    (run .empty history).keys.Pairwise history.EntersBefore ∧
    (∀ account, (run .empty history).list account
      = ((run .empty history).keys.filterMap history.current?).filter (·.accountId = account)) ∧
    (∀ id, ((run .empty history).remove id).2 = true ↔ id ∈ (run .empty history).keys) ∧
    (run .empty history).stats.toggles = (run .empty history).keys.length ∧
    (∃ accounts : List Uuid, accounts.Nodup ∧
      (∀ account, account ∈ accounts ↔ (run .empty history).list account ≠ []) ∧
      (run .empty history).stats.accounts = accounts.length ∧
      (accounts.map fun account => ((run .empty history).list account).length).sum
        = (run .empty history).stats.toggles) ∧
    ∀ toggles, ofList toggles = run .empty (toggles.map .add) := by
  refine ⟨nodup_keys_run history, fun id => mem_keys_run, get?_run history,
    pairwise_keys_run history, list_run history, fun id => ?_, ?_, ?_, ofList_eq_run⟩
  · rw [remove, OrderedMap.contains_eq, OrderedMap.mem_keys_iff]
  · rw [OrderedMap.keys, List.length_map]
    rfl
  · exact ⟨_, nodup_eraseDups _, mem_accounts_iff _, rfl, sum_length_list _⟩

/-- A toggle that is replaced keeps its place; one that is removed and added again moves to the end. -/
example :
    let first : Toggle := .bare ⟨1, by decide⟩ ⟨7, by decide⟩ "beta" []
    let second : Toggle := .bare ⟨2, by decide⟩ ⟨7, by decide⟩ "gamma" []
    (run .empty [.add first, .add second, .add first]).keys = [first.id, second.id] ∧
      (run .empty [.add first, .add second, .remove first.id, .add first]).keys
        = [second.id, first.id] := by
  decide

end Store

end FeatureToggles
