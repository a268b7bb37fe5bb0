import FeatureToggles.Resolution

/-!
# Resolvers

A `Resolver` lists the toggles of a store in memory, resolves them and counts the resolution.
-/

namespace FeatureToggles

/-- A store with the metrics of its resolutions. -/
structure Resolver where
  store : Store
  /-- The failure of listing toggles, if it fails. -/
  failure : Option Failure
  /-- The metrics, if resolutions are counted. -/
  metrics : Option Metrics

namespace Resolver

/-- The toggles of an account, or the failure of listing them. -/
def listing (resolver : Resolver) (account : Uuid) : Except Failure (List Toggle) :=
  match resolver.failure with
  | some failure => .error failure
  | none => .ok (resolver.store.list account)

/-- The resolver after counting a resolution of the given duration, and the values of the account's
toggles. -/
def resolve (resolver : Resolver) (account : Uuid) (metadata : Metadata) (seconds : Binary64) :
    Resolver × Except Fault Resolution :=
  let listing := resolver.listing account
  ({ resolver with metrics := resolver.metrics.map (Resolution.record listing seconds) },
    Resolution.ofListing account metadata listing)

end Resolver

end FeatureToggles
