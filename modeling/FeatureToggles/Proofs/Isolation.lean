import FeatureToggles.Proofs.LastWins
import FeatureToggles.Proofs.StoreHistory
import Mathlib.Data.Set.BooleanAlgebra
import Mathlib.Order.CompletePartialOrder

/-!
# Accounts side by side

All accounts share one store, whose order is the order in which identifiers came in. As long as two
accounts use different identifiers, what is done for one of them leaves the part of the store alone
that belongs to the other.
-/

namespace FeatureToggles

/-! ### Parts of a map -/

namespace OrderedMap

variable {κ ν : Type}

/-- The part of a map whose keys have a property. -/
def restrict (m : OrderedMap κ ν) (p : κ → Bool) : OrderedMap κ ν :=
  ⟨m.entries.filter fun entry => p entry.1⟩

variable [DecidableEq κ]

/-- A part takes a new value in if it is under a key of the part. -/
theorem restrict_insert (m : OrderedMap κ ν) (p : κ → Bool) (k : κ) (v : ν) :
    (m.insert k v).restrict p = if p k then (m.restrict p).insert k v else m.restrict p := by
  obtain ⟨entries⟩ := m
  simp only [insert, alter, restrict, ← apply_ite]
  congr 1
  induction entries with
  | nil => cases hk : p k <;> simp [alterEntries, hk]
  | cons head rest ih =>
    by_cases h : head.1 = k
    · cases hk : p k <;> simp [alterEntries, h, hk]
    · rw [alterEntries, if_neg h, List.filter_cons, List.filter_cons, ih]
      cases p k <;> cases p head.1 <;> simp [alterEntries, h]

/-- A part loses a key if it is one of the part. -/
theorem restrict_erase (m : OrderedMap κ ν) (p : κ → Bool) (k : κ) :
    (m.erase k).restrict p = if p k then (m.restrict p).erase k else m.restrict p := by
  split
  · rw [restrict, restrict, erase, erase, List.filter_comm]
  · next hk =>
    rw [restrict, restrict, erase, List.filter_filter]
    congr 1
    apply List.filter_congr
    intro entry _
    -- what is kept has a key with the property, so not the erased one
    cases hp : p entry.1 with
    | false => rfl
    | true =>
      have hne : entry.1 ≠ k := fun e => hk (e ▸ hp)
      simp [hne]

/-- An entry of a map with a new value is the new one or was there before. -/
theorem mem_entries_insert {m : OrderedMap κ ν} {k : κ} {v : ν} {entry : κ × ν}
    (h : entry ∈ (m.insert k v).entries) : entry = (k, v) ∨ entry ∈ m.entries := by
  obtain ⟨entries⟩ := m
  simp only [insert, alter] at h ⊢
  induction entries with
  | nil => exact .inl (List.mem_singleton.1 h)
  | cons head rest ih =>
    rw [alterEntries] at h
    split at h
    · next hk =>
      rcases List.mem_cons.1 h with rfl | hrest
      · exact .inl (by rw [hk])
      · exact .inr (List.mem_cons_of_mem _ hrest)
    · rcases List.mem_cons.1 h with rfl | hrest
      · exact .inr (List.mem_cons_self ..)
      · exact (ih hrest).imp_right (List.mem_cons_of_mem _)

end OrderedMap

/-! ### Merged histories -/

/-- Whether the third list has the elements of the first two, those of each in order. -/
inductive Interleaving {α : Type} : List α → List α → List α → Prop
  | nil : Interleaving [] [] []
  | left (x : α) {xs ys zs : List α} (h : Interleaving xs ys zs) : Interleaving (x :: xs) ys (x :: zs)
  | right (y : α) {xs ys zs : List α} (h : Interleaving xs ys zs) :
    Interleaving xs (y :: ys) (y :: zs)

namespace StoreStep

/-- Whether a step is about one of the given identifiers and adds toggles of the given account only. -/
structure KeepsTo (step : StoreStep) (account : Uuid) (ids : Set Uuid) : Prop where
  id_mem : step.id ∈ ids
  account_eq : ∀ toggle, step.added? = some toggle → toggle.accountId = account

theorem KeepsTo.mono {step : StoreStep} {account : Uuid} {ids ids' : Set Uuid}
    (h : step.KeepsTo account ids) (hids : ids ⊆ ids') : step.KeepsTo account ids' :=
  ⟨hids h.id_mem, h.account_eq⟩

theorem KeepsTo.add {toggle : Toggle} {ids : Set Uuid} (h : toggle.id ∈ ids) :
    (StoreStep.add toggle).KeepsTo toggle.accountId ids :=
  ⟨h, fun _ hadded => by cases hadded; rfl⟩

theorem KeepsTo.remove {id account : Uuid} {ids : Set Uuid} (h : id ∈ ids) :
    (StoreStep.remove id).KeepsTo account ids :=
  ⟨h, fun _ hadded => by cases hadded⟩

end StoreStep

namespace Store

/-- The part of a store that is about identifiers with a property. -/
def within (store : Store) (p : Uuid → Bool) : Store :=
  OrderedMap.restrict store p

/-- Whether an account has toggles under identifiers with a property only. -/
def Confines (store : Store) (account : Uuid) (p : Uuid → Bool) : Prop :=
  ∀ entry ∈ store.entries, p entry.1 = false → entry.2.accountId ≠ account

/-- A part to which an account is confined lists the same toggles for it. -/
theorem list_within {store : Store} {account : Uuid} {p : Uuid → Bool}
    (h : store.Confines account p) : (store.within p).list account = store.list account := by
  have hkeep : ∀ entry ∈ store.entries,
      (decide (entry.2.accountId = account) && p entry.1) = decide (entry.2.accountId = account) := by
    intro entry hentry
    cases hp : p entry.1 with
    | true => rw [Bool.and_true]
    | false => rw [decide_eq_false (h entry hentry hp), Bool.false_and]
  show (((store.entries.filter fun entry => p entry.1).map (·.2)).filter (·.accountId = account))
    = (store.entries.map (·.2)).filter (·.accountId = account)
  rw [List.filter_map, List.filter_map, List.filter_filter]
  exact congrArg (List.map (·.2)) (List.filter_congr hkeep)

end Store

namespace StoreStep

variable {store : Store} {step : StoreStep} {account : Uuid} {p : Uuid → Bool}

/-- A step is taken in a part if it is about an identifier of the part, and else leaves it alone. -/
theorem within_apply : (step.apply store).within p
    = if p step.id then step.apply (store.within p) else store.within p := by
  cases step with
  | add toggle => exact OrderedMap.restrict_insert store p toggle.id toggle
  | remove id => exact OrderedMap.restrict_erase store p id

/-- A step keeps an account to a part if what it adds beyond the part is not of this account. -/
theorem confines_apply (hstore : store.Confines account p)
    (hstep : p step.id = false → ∀ toggle, step.added? = some toggle → toggle.accountId ≠ account) :
    (step.apply store).Confines account p := by
  intro entry hentry hp
  cases step with
  | add toggle =>
    rcases OrderedMap.mem_entries_insert hentry with rfl | hbefore
    · exact hstep hp toggle rfl
    · exact hstore entry hbefore hp
  | remove id => exact hstore entry (List.mem_of_mem_filter hentry) hp

end StoreStep

namespace Store

variable {account other : Uuid} {ids : Set Uuid} [DecidablePred (· ∈ ids)]

/-- Along a merged history the part of an account is what its own steps make of it. -/
theorem within_run (hne : other ≠ account) {mine theirs merged : History}
    (h : Interleaving mine theirs merged) (hmine : ∀ step ∈ mine, step.KeepsTo account ids)
    (htheirs : ∀ step ∈ theirs, step.KeepsTo other idsᶜ) {store : Store}
    (hstore : store.Confines account (· ∈ ids)) :
    (store.run merged).within (· ∈ ids) = (store.within (· ∈ ids)).run mine ∧
      (store.run merged).Confines account (· ∈ ids) := by
  -- the invariant is that the account has no toggles beyond its identifiers
  induction h generalizing store with
  | nil => exact ⟨rfl, hstore⟩
  | left step _ ih =>
    obtain ⟨hstep, hrest⟩ := List.forall_mem_cons.1 hmine
    have hid : decide (step.id ∈ ids) = true := decide_eq_true hstep.id_mem
    have hconfines : (step.apply store).Confines account (· ∈ ids) :=
      StoreStep.confines_apply hstore fun hbeyond => by simp [hid] at hbeyond
    have hnext := ih hrest htheirs hconfines
    rw [StoreStep.within_apply, if_pos hid] at hnext
    exact hnext
  | right step _ ih =>
    obtain ⟨hstep, hrest⟩ := List.forall_mem_cons.1 htheirs
    have hid : decide (step.id ∈ ids) = false := decide_eq_false hstep.id_mem
    have hconfines : (step.apply store).Confines account (· ∈ ids) := by
      apply StoreStep.confines_apply hstore
      intro _ toggle htoggle
      rw [hstep.account_eq toggle htoggle]
      exact hne
    have hnext := ih hmine hrest hconfines
    rw [StoreStep.within_apply, if_neg (by simp [hid])] at hnext
    exact hnext

/-- What an account is shown after a merged history is what it is shown after its own. -/
theorem list_run_interleaving (hne : other ≠ account) {mine theirs merged : History}
    (h : Interleaving mine theirs merged) (hmine : ∀ step ∈ mine, step.KeepsTo account ids)
    (htheirs : ∀ step ∈ theirs, step.KeepsTo other idsᶜ) :
    (run .empty merged).list account = (run .empty mine).list account := by
  have hempty : Confines .empty account (· ∈ ids) := fun entry hentry => absurd hentry List.not_mem_nil
  obtain ⟨hwithin, hconfines⟩ := within_run hne h hmine htheirs hempty
  have hnothing : within .empty (· ∈ ids) = .empty := rfl
  rw [← list_within hconfines, hwithin, hnothing]

end Store

namespace Resolver

/-- **Isolation.** If the steps of two accounts are merged in any order, and each account keeps to its
own toggles and to identifiers that the other one does not use, then the first account's toggles and
their order, and what they are resolved to, are those after its own steps alone. -/
theorem accounts_isolated {account other : Uuid} (hne : account ≠ other) {ids otherIds : Set Uuid}
    (hdisjoint : Disjoint ids otherIds) {mine theirs merged : History}
    (hmine : ∀ step ∈ mine, step.KeepsTo account ids)
    (htheirs : ∀ step ∈ theirs, step.KeepsTo other otherIds)
    (hmerged : Interleaving mine theirs merged) :
    (Store.run .empty merged).list account = (Store.run .empty mine).list account ∧
    ∀ (failure : Option Failure) (metrics : Option Metrics) (metadata : Metadata)
      (seconds : Binary64),
      (resolve ⟨.run .empty merged, failure, metrics⟩ account metadata seconds).2
        = (resolve ⟨.run .empty mine, failure, metrics⟩ account metadata seconds).2 := by
  classical
  have houtside : otherIds ⊆ idsᶜ := fun id hid hmem => Set.disjoint_left.1 hdisjoint hmem hid
  have hbeyond : ∀ step ∈ theirs, step.KeepsTo other idsᶜ := fun step hstep =>
    (htheirs step hstep).mono houtside
  have hlist := Store.list_run_interleaving hne.symm hmerged hmine hbeyond
  refine ⟨hlist, fun failure metrics metadata seconds => ?_⟩
  simp only [resolve_eq_ofListing, listing, hlist]

/-- Two accounts with toggles of one key, one of which comes and goes between the steps of the
other. -/
theorem accounts_isolated_same_key :
    let older : Toggle := .bare ⟨1, by decide⟩ ⟨7, by decide⟩ "beta" []
    let newer : Toggle := .bare ⟨2, by decide⟩ ⟨7, by decide⟩ "beta" []
    let foreign : Toggle := .bare ⟨5, by decide⟩ ⟨8, by decide⟩ "beta" []
    let mine : History := [.add older, .add newer, .remove older.id]
    let merged : History :=
      [.add older, .add foreign, .add newer, .remove foreign.id, .remove older.id]
    (Store.run .empty merged).list older.accountId = (Store.run .empty mine).list older.accountId ∧
      (resolve ⟨.run .empty merged, none, none⟩ older.accountId (.ofFields []) .zero).2
        = (resolve ⟨.run .empty mine, none, none⟩ older.accountId (.ofFields []) .zero).2 := by
  intro older newer foreign mine merged
  have hmine : ∀ step ∈ mine, step.KeepsTo older.accountId {id | id.number < 5} := by
    rw [List.forall_mem_cons, List.forall_mem_cons, List.forall_mem_singleton]
    exact ⟨.add (by decide : 1 < 5), .add (by decide : 2 < 5), .remove (by decide : 1 < 5)⟩
  have htheirs : ∀ step ∈ [StoreStep.add foreign, .remove foreign.id],
      step.KeepsTo foreign.accountId {id | 5 ≤ id.number} := by
    rw [List.forall_mem_cons, List.forall_mem_singleton]
    exact ⟨.add (Nat.le_refl 5), .remove (Nat.le_refl 5)⟩
  have hdisjoint : Disjoint {id : Uuid | id.number < 5} {id | 5 ≤ id.number} :=
    Set.disjoint_left.2 fun _ hid hother => Nat.not_le.2 hid hother
  have hmerged : Interleaving mine [.add foreign, .remove foreign.id] merged :=
    .left _ (.right _ (.left _ (.right _ (.left _ .nil))))
  obtain ⟨hlist, hresolve⟩ := accounts_isolated (by decide) hdisjoint hmine htheirs hmerged
  exact ⟨hlist, hresolve none none (.ofFields []) .zero⟩

end Resolver

end FeatureToggles
