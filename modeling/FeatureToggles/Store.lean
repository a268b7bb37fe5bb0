import FeatureToggles.OrderedMap
import FeatureToggles.Toggle

/-!
# The store in memory

Toggles by their identifiers. A toggle that is added again takes the place of its predecessor.
-/

namespace FeatureToggles

/-- Toggles by identifier, in the order in which they came in. -/
abbrev Store := OrderedMap Uuid Toggle

/-- How many toggles a store holds and how many accounts they belong to. -/
structure StoreStats where
  toggles : Nat
  accounts : Nat
  deriving DecidableEq

namespace StoreStats

/-- The body of the answer with statistics. -/
def toJson (stats : StoreStats) : Json :=
  .object [("total_toggles", .int stats.toggles), ("accounts", .int stats.accounts)]

end StoreStats

namespace Store

/-- Adds a toggle, or replaces the one with the same identifier. -/
def add (store : Store) (toggle : Toggle) : Store :=
  store.insert toggle.id toggle

/-- A store to which the toggles of a list were added. -/
def ofList (toggles : List Toggle) : Store :=
  toggles.foldl add .empty

/-- Removes the toggle with an identifier. The Boolean says whether there was one. -/
def remove (store : Store) (id : Uuid) : Store × Bool :=
  (store.erase id, store.contains id)

/-- The toggle with an identifier. -/
def fetch? (store : Store) (id : Uuid) : Option Toggle :=
  store.get? id

/-- The toggles of an account, in order. -/
def list (store : Store) (account : Uuid) : List Toggle :=
  store.values.filter (·.accountId = account)

/-- The accounts with toggles. -/
def accounts (store : Store) : List Uuid :=
  (store.values.map (·.accountId)).eraseDups

/-- The statistics of a store. -/
def stats (store : Store) : StoreStats :=
  ⟨store.size, store.accounts.length⟩

end Store

end FeatureToggles
