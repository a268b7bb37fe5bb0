import FeatureToggles.Proofs.StoreHistory
import FeatureToggles.Resolver

/-!
# What a resolution holds

A resolution takes the listed toggles one by one, and each gives its key a value. So the keys are in
the order of their first occurrences, and under each of them stands the value of the last toggle that
has it.
-/

namespace FeatureToggles

namespace Resolution

/-- What a resolution takes of a toggle: its key and its rules. -/
def sourceOf (toggle : Toggle) : Text × List Rule :=
  (toggle.key, toggle.rules)

theorem ofToggles_concat (metadata : Metadata) (toggles : List Toggle) (toggle : Toggle) :
    ofToggles metadata (toggles ++ [toggle])
      = (ofToggles metadata toggles).insert toggle.key (Rule.evalAll metadata toggle.rules) := by
  unfold ofToggles
  rw [List.foldl_append]
  rfl

/-- A key comes in with the first toggle that has it and stays in its place. -/
theorem keys_ofToggles (metadata : Metadata) (toggles : List Toggle) :
    (ofToggles metadata toggles).keys = (toggles.map (·.key)).eraseDups := by
  induction toggles using List.reverseRecOn with
  | nil => rfl
  | append_singleton toggles toggle ih =>
    rw [ofToggles_concat, OrderedMap.insert, OrderedMap.keys_alter, ih, ite_mem_eraseDups,
      List.map_append, List.map_singleton]

/-- The last toggle with a key gives the key its value. -/
theorem get?_ofToggles (metadata : Metadata) (toggles : List Toggle) (key : Text) :
    (ofToggles metadata toggles).get? key
      = (toggles.filter (·.key = key)).getLast?.map fun toggle => Rule.evalAll metadata toggle.rules := by
  induction toggles using List.reverseRecOn with
  | nil => rfl
  | append_singleton toggles toggle ih =>
    rw [ofToggles_concat, OrderedMap.get?_insert, List.filter_append]
    by_cases h : key = toggle.key
    · rw [if_pos h, List.filter_cons_of_pos (by simp [h]), List.filter_nil, List.getLast?_concat]
      rfl
    · rw [if_neg h, List.filter_cons_of_neg (by simpa using Ne.symm h), List.filter_nil,
        List.append_nil, ih]

/-- Nothing but keys and rules plays a part. -/
theorem ofToggles_congr (metadata : Metadata) {toggles others : List Toggle}
    (h : others.map sourceOf = toggles.map sourceOf) :
    ofToggles metadata others = ofToggles metadata toggles := by
  have hfold : ∀ list : List Toggle, ofToggles metadata list
      = (list.map sourceOf).foldl
        (fun values source => values.insert source.1 (Rule.evalAll metadata source.2)) .empty := by
    intro list
    rw [List.foldl_map]
    rfl
  rw [hfold, hfold, h]

end Resolution

namespace Resolver

/-- The answer of `resolve` is that of `Resolution.ofListing`. -/
theorem resolve_eq_ofListing (resolver : Resolver) (account : Uuid) (metadata : Metadata)
    (seconds : Binary64) :
    (resolver.resolve account metadata seconds).2
      = Resolution.ofListing account metadata (resolver.listing account) :=
  rfl

theorem resolve_of_listed {resolver : Resolver} (h : resolver.failure = none) (account : Uuid)
    (metadata : Metadata) (seconds : Binary64) :
    (resolver.resolve account metadata seconds).2
      = .ok (Resolution.ofToggles metadata (resolver.store.list account)) := by
  rw [resolve_eq_ofListing, listing, h]
  rfl

theorem resolve_of_failure {resolver : Resolver} {failure : Failure}
    (h : resolver.failure = some failure) (account : Uuid) (metadata : Metadata)
    (seconds : Binary64) :
    (resolver.resolve account metadata seconds).2
      = .error (Resolution.faultOf account failure) := by
  rw [resolve_eq_ofListing, listing, h]
  rfl

/-- **Last wins.** As long as toggles can be listed, resolving gives the keys of the account's toggles in
the order of their first occurrences, and each of them the value of the rules of the last toggle that has
it; nothing else of any toggle plays a part. If they cannot be listed, resolving fails with the fault of
`Resolution.faultOf`. -/
theorem resolve_last_wins (resolver : Resolver) (account : Uuid) (fields : List (Text × Json))
    (seconds : Binary64) :
    (resolver.failure = none →
      ∃ resolution, (resolver.resolve account (.ofFields fields) seconds).2 = .ok resolution ∧
        resolution.keys = ((resolver.store.list account).map (·.key)).eraseDups ∧
        (∀ key, resolution.get? key
          = ((resolver.store.list account).filter (·.key = key)).getLast?.map fun toggle =>
              Rule.evalAll (.ofFields fields) toggle.rules) ∧
        ∀ other : Resolver, other.failure = none →
          (other.store.list account).map Resolution.sourceOf
            = (resolver.store.list account).map Resolution.sourceOf →
          (other.resolve account (.ofFields fields) seconds).2 = .ok resolution) ∧
    (∀ cause, resolver.failure = some (.fault cause) →
      (resolver.resolve account (.ofFields fields) seconds).2 = .error cause) ∧
    ∀ failure, resolver.failure = some failure → (∀ cause, failure ≠ .fault cause) →
      (resolver.resolve account (.ofFields fields) seconds).2
        = .error (.unresolved "could not list toggles" [("account_id", .string account.text)]) := by
  refine ⟨fun h => ⟨_, resolve_of_listed h account _ seconds, Resolution.keys_ofToggles _ _,
    Resolution.get?_ofToggles _ _, fun other hother hsame => ?_⟩, fun cause h => ?_,
    fun failure h hforeign => ?_⟩
  · rw [resolve_of_listed hother, Resolution.ofToggles_congr _ hsame]
  · exact resolve_of_failure h account _ seconds
  · rw [resolve_of_failure h]
    cases failure with
    | fault cause => exact absurd rfl (hforeign cause)
    | _ => rfl

/-- Two toggles with one key around another one, and listings that fail in both ways. -/
theorem resolve_last_wins_duplicate :
    let account : Uuid := ⟨7, by decide⟩
    let store : Store := .ofList [.bare ⟨1, by decide⟩ account "beta" [],
      .bare ⟨2, by decide⟩ account "gamma" [],
      .bare ⟨3, by decide⟩ account "beta" [⟨.known .and, .ident "tester"⟩]]
    (∃ resolution,
      (resolve ⟨store, none, none⟩ account (.ofFields [("tester", .bool false)]) .zero).2
        = .ok resolution ∧
      resolution.keys = ["beta", "gamma"] ∧ resolution.get? "beta" = some false) ∧
    (resolve ⟨store, some (.fault (.service "closed" [])), none⟩ account (.ofFields []) .zero).2
      = .error (.service "closed" []) ∧
    (resolve ⟨store, some (.system "refused"), none⟩ account (.ofFields []) .zero).2
      = .error (.unresolved "could not list toggles" [("account_id", .string account.text)]) := by
  intro account store
  refine ⟨?_, (resolve_last_wins _ account [] .zero).2.1 _ rfl,
    (resolve_last_wins _ account [] .zero).2.2 _ rfl (fun cause h => by cases h)⟩
  obtain ⟨resolution, hresolve, hkeys, hget, -⟩ :=
    (resolve_last_wins ⟨store, none, none⟩ account [("tester", .bool false)] .zero).1 rfl
  exact ⟨resolution, hresolve, hkeys.trans (by decide), (hget "beta").trans (by decide)⟩

end Resolver

end FeatureToggles
