import FeatureToggles.Proofs.LastWins
import FeatureToggles.Proofs.ShownErrors

/-!
# Toggles of a database

A database lists the toggles of its rows in the order of the rows, or fails if the rules of some row do
not decode. So `Resolution.ofListing` gives the same for it as for a store in memory to which the toggles
were added one by one.
-/

namespace FeatureToggles

open Decoded (bind_eq_ok_iff)

/-! ### Adding toggles one by one -/

namespace OrderedMap

variable {κ ν : Type} [DecidableEq κ]

/-- A key that is new comes last. -/
theorem entries_insert_of_not_mem {m : OrderedMap κ ν} {k : κ} (h : k ∉ m.keys) (v : ν) :
    (m.insert k v).entries = m.entries ++ [(k, v)] := by
  obtain ⟨entries⟩ := m
  simp only [keys, insert, alter] at h ⊢
  induction entries with
  | nil => rfl
  | cons head rest ih =>
    rw [List.map_cons, List.mem_cons, not_or] at h
    have hhead : head.1 ≠ k := Ne.symm h.1
    rw [alterEntries, if_neg hhead, ih h.2, List.cons_append]

end OrderedMap

namespace Store

theorem ofList_concat (toggles : List Toggle) (toggle : Toggle) :
    ofList (toggles ++ [toggle]) = (ofList toggles).add toggle := by
  unfold ofList
  rw [List.foldl_append]
  rfl

/-- Toggles with distinct identifiers are kept in the order in which they were added. -/
theorem entries_ofList {toggles : List Toggle} (h : (toggles.map (·.id)).Nodup) :
    (ofList toggles).entries = toggles.map fun toggle => (toggle.id, toggle) := by
  induction toggles using List.reverseRecOn with
  | nil => rfl
  | append_singleton toggles toggle ih =>
    rw [List.map_append, List.map_singleton, List.nodup_append] at h
    obtain ⟨hinit, -, hdisjoint⟩ := h
    have hentries := ih hinit
    have hkeys : (ofList toggles).keys = toggles.map (·.id) := by
      rw [OrderedMap.keys, hentries, List.map_map]
      rfl
    have hnew : toggle.id ∉ (ofList toggles).keys := by
      rw [hkeys]
      intro hmem
      exact hdisjoint _ hmem _ (List.mem_singleton_self _) rfl
    rw [ofList_concat, add, OrderedMap.entries_insert_of_not_mem hnew, hentries, List.map_append,
      List.map_singleton]

theorem list_ofList {toggles : List Toggle} {account : Uuid} (hids : (toggles.map (·.id)).Nodup)
    (haccount : ∀ toggle ∈ toggles, toggle.accountId = account) :
    (ofList toggles).list account = toggles := by
  have hvalues : (ofList toggles).values = toggles := by
    rw [OrderedMap.values, entries_ofList hids, List.map_map]
    exact List.map_id toggles
  rw [list, hvalues, List.filter_eq_self]
  intro toggle htoggle
  exact decide_eq_true (haccount toggle htoggle)

end Store

/-! ### Rows and their toggles -/

namespace ToggleRow

variable [JsonLibrary]

/-- Whether a toggle is the one that a row keeps. -/
structure Shows (row : ToggleRow) (toggle : Toggle) : Prop where
  id_eq : toggle.id = row.id
  accountId_eq : toggle.accountId = row.accountId
  key_eq : toggle.key = row.key
  description_eq : toggle.description = row.description.getD ""
  active_eq : toggle.active = row.active
  rules_eq : row.rules.decode = .ok toggle.rules
  createdAt_eq : toggle.createdAt = row.createdAt
  updatedAt_eq : toggle.updatedAt = row.updatedAt

theorem toToggle_eq_ok_iff {row : ToggleRow} {toggle : Toggle} :
    row.toToggle = .ok toggle ↔ row.Shows toggle := by
  unfold toToggle
  rw [bind_eq_ok_iff]
  constructor
  · intro h
    obtain ⟨rules, hrules, h⟩ := h
    cases h
    exact ⟨rfl, rfl, rfl, rfl, rfl, hrules, rfl, rfl⟩
  · intro h
    refine ⟨toggle.rules, h.rules_eq, ?_⟩
    rw [← h.id_eq, ← h.accountId_eq, ← h.key_eq, ← h.description_eq, ← h.active_eq, ← h.createdAt_eq,
      ← h.updatedAt_eq]
    rfl

theorem toToggle_eq_error {row : ToggleRow} {e : Undecoded} (h : row.rules.decode = .error e) :
    row.toToggle = .error e := by
  unfold toToggle
  rw [h]
  rfl

/-- Rows are converted one by one. -/
theorem toToggles_eq_ok_iff {rows : List ToggleRow} {toggles : List Toggle} :
    toToggles rows = .ok toggles ↔ List.Forall₂ Shows rows toggles := by
  induction rows generalizing toggles with
  | nil =>
    rw [toToggles, List.forall₂_nil_left_iff, Except.ok.injEq]
    exact eq_comm
  | cons row rows ih =>
    simp only [toToggles, bind_eq_ok_iff, toToggle_eq_ok_iff, ih, List.forall₂_cons_left_iff]
    constructor
    · intro h
      obtain ⟨toggle, htoggle, rest, hrest, h⟩ := h
      cases h
      exact ⟨toggle, rest, htoggle, hrest, rfl⟩
    · intro h
      obtain ⟨toggle, rest, htoggle, hrest, rfl⟩ := h
      exact ⟨toggle, htoggle, rest, hrest, rfl⟩

/-- If the rules of all rows decode, all rows are converted. -/
theorem exists_toToggles {rows : List ToggleRow}
    (h : ∀ row ∈ rows, ∃ rules, row.rules.decode = .ok rules) :
    ∃ toggles, toToggles rows = .ok toggles := by
  induction rows with
  | nil => exact ⟨[], rfl⟩
  | cons row rows ih =>
    obtain ⟨⟨rules, hrules⟩, hrest⟩ := List.forall_mem_cons.1 h
    obtain ⟨toggle, htoggle, -⟩ := exists_toToggle hrules
    obtain ⟨toggles, htoggles⟩ := ih hrest
    exact ⟨toggle :: toggles, by rw [toToggles, htoggle, htoggles]; rfl⟩

/-- The first row whose rules do not decode decides how `toToggles` fails. -/
theorem toToggles_eq_error {before after : List ToggleRow} {row : ToggleRow} {e : Undecoded}
    (hbefore : ∀ earlier ∈ before, ∃ rules, earlier.rules.decode = .ok rules)
    (hrow : row.rules.decode = .error e) : toToggles (before ++ row :: after) = .error e := by
  induction before with
  | nil =>
    rw [List.nil_append, toToggles, toToggle_eq_error hrow]
    rfl
  | cons earlier before ih =>
    obtain ⟨⟨rules, hrules⟩, hrest⟩ := List.forall_mem_cons.1 hbefore
    obtain ⟨toggle, htoggle, -⟩ := exists_toToggle hrules
    rw [List.cons_append, toToggles, htoggle, ih hrest]
    rfl

theorem map_id_of_shows {rows : List ToggleRow} {toggles : List Toggle}
    (h : List.Forall₂ Shows rows toggles) : toggles.map (·.id) = rows.map (·.id) := by
  induction h with
  | nil => rfl
  | cons hrow _ ih => rw [List.map_cons, List.map_cons, hrow.id_eq, ih]

theorem forall_accountId_of_shows {rows : List ToggleRow} {toggles : List Toggle} {account : Uuid}
    (h : List.Forall₂ Shows rows toggles) (haccount : ∀ row ∈ rows, row.accountId = account) :
    ∀ toggle ∈ toggles, toggle.accountId = account := by
  induction h with
  | nil => exact fun toggle htoggle => absurd htoggle List.not_mem_nil
  | cons hrow _ ih =>
    obtain ⟨hhead, hrest⟩ := List.forall_mem_cons.1 haccount
    exact List.forall_mem_cons.2 ⟨hrow.accountId_eq.trans hhead, ih hrest⟩

theorem not_decoded_iff {row : ToggleRow} :
    (¬∃ rules, row.rules.decode = .ok rules) ↔ ∃ e, row.rules.decode = .error e := by
  cases row.rules.decode <;> simp

end ToggleRow

namespace Database

section

variable [JsonLibrary]

/-- An open database lists the toggles of the rows that are found. -/
theorem on_list_of_open {db : Database} (h : db.isOpen = true) (rows : List ToggleRow)
    (stats : List (Text × Json)) (account : Uuid) :
    (list ⟨none, rows, stats⟩ account).on db = (readable (ToggleRow.toToggles rows), db) := by
  obtain ⟨options, isOpen⟩ := db
  obtain rfl : isOpen = true := h
  rfl

/-- **Stores alike.** Let an open database find rows with distinct identifiers, all of one account. If the
rules of all rows decode, it lists the toggles that the rows keep, in order, and so does a store in memory
to which these toggles were added; and both are resolved to the same values. If the rules of some row do
not decode, listing and resolving fail with the decoding error of the first such row. There is an error if
the rows that come as JSON values hold what some texts hold. -/
theorem stores_resolve_alike {db : Database} (hopen : db.isOpen = true) {account : Uuid}
    {rows : List ToggleRow} (haccount : ∀ row ∈ rows, row.accountId = account)
    (hids : (rows.map (·.id)).Nodup) (stats : List (Text × Json)) :
    let listed := ((list ⟨none, rows, stats⟩ account).on db).1
    ((∀ row ∈ rows, ∃ rules, row.rules.decode = .ok rules) →
      ∃ toggles, List.Forall₂ ToggleRow.Shows rows toggles ∧ listed = .ok toggles ∧
        (Store.ofList toggles).list account = toggles ∧
        ∀ metadata : Metadata, ∃ resolution,
          Resolution.ofListing account metadata listed = .ok resolution ∧
          ∀ (metrics : Option Metrics) (seconds : Binary64),
            (Resolver.resolve ⟨.ofList toggles, none, metrics⟩ account metadata seconds).2
              = .ok resolution) ∧
    ((∃ row ∈ rows, ∃ e, row.rules.decode = .error e) →
      ∃ before row after e, rows = before ++ row :: after ∧
        (∀ earlier ∈ before, ∃ rules, earlier.rules.decode = .ok rules) ∧
        row.rules.decode = .error e ∧
        (∀ error, e = .defect error → listed = .error (.fault (.undecodable error)) ∧
          ∀ metadata : Metadata,
            Resolution.ofListing account metadata listed = .error (.undecodable error)) ∧
        ((∀ content, row.rules = .value content → ∃ text, StoredJson.ofText text = .ok content) →
          ∃ error, e = .defect error)) := by
  intro listed
  have hlisted : listed = readable (ToggleRow.toToggles rows) := by
    rw [show listed = ((list ⟨none, rows, stats⟩ account).on db).1 from rfl, on_list_of_open hopen]
  rw [hlisted]
  constructor
  · intro hrules
    obtain ⟨toggles, htoggles⟩ := ToggleRow.exists_toToggles hrules
    have hshows := ToggleRow.toToggles_eq_ok_iff.1 htoggles
    have hnodup : (toggles.map (·.id)).Nodup := by
      rw [ToggleRow.map_id_of_shows hshows]
      exact hids
    have hlist := Store.list_ofList hnodup (ToggleRow.forall_accountId_of_shows hshows haccount)
    rw [htoggles]
    refine ⟨toggles, hshows, rfl, hlist, fun metadata => ⟨_, rfl, fun metrics seconds => ?_⟩⟩
    rw [Resolver.resolve_of_listed rfl, hlist]
  · intro h
    simp only [← ToggleRow.not_decoded_iff] at h
    obtain ⟨before, row, after, rfl, hbefore, hrow⟩ := exists_first_not h
    obtain ⟨e, he⟩ := ToggleRow.not_decoded_iff.1 hrow
    refine ⟨before, row, after, e, rfl, hbefore, he, ?_, fun hread => ?_⟩
    · rintro error rfl
      rw [ToggleRow.toToggles_eq_error hbefore he]
      exact ⟨rfl, fun metadata => rfl⟩
    · refine RuleSource.exists_defect (fun content hcontent => ?_) he
      obtain ⟨text, htext⟩ := hread content hcontent
      exact StoredJson.isShowable_of_ofChars htext

end

attribute [local instance] JsonLibrary.terse

/-- A row without description and of fixed times. -/
def sampleRow (id : Uuid) (key : Text) (rules : RuleSource) : ToggleRow where
  id
  accountId := ⟨7, by decide⟩
  key
  description := none
  active := false
  rules
  createdAt := ⟨1970, 1, 1, 0, 0, 0, 0, some 0⟩
  updatedAt := ⟨1970, 1, 1, 0, 0, 0, 0, some 0⟩

/-- Two rows with one key, of which the second one decides, and a row without a list of rules between
others. -/
theorem stores_resolve_alike_same_key :
    let account : Uuid := ⟨7, by decide⟩
    let db : Database := ⟨⟨"postgres://db/togglr", 2, 10, "30"⟩, true⟩
    let tester : Json := .object [("type", .string "ident"), ("value", .string "tester")]
    let older := sampleRow ⟨1, by decide⟩ "beta" .absent
    let newer := sampleRow ⟨2, by decide⟩ "beta"
      (.value (.array [.object [("op", .string "&&"), ("expression", tester)]]))
    let bad := sampleRow ⟨3, by decide⟩ "gamma" (.value (.bool true))
    let listed (rows : List ToggleRow) := ((list ⟨none, rows, []⟩ account).on db).1
    (∃ resolution,
      Resolution.ofListing account .empty (listed [older, newer]) = .ok resolution ∧
      (Resolver.resolve ⟨.ofList [.bare older.id account "beta" [],
        .bare newer.id account "beta" [⟨.known .and, .ident "tester"⟩]], none, none⟩ account .empty
          .zero).2 = .ok resolution) ∧
    listed [older, bad, newer] = .error (.fault (.undecodable ⟨.rulesNotList, []⟩)) := by
  intro account db tester older newer bad listed
  constructor
  · have haccount : ∀ row ∈ [older, newer], row.accountId = account := by
      rw [List.forall_mem_cons, List.forall_mem_singleton]
      exact ⟨rfl, rfl⟩
    have hrules : ∀ row ∈ [older, newer], ∃ rules, row.rules.decode = .ok rules := by
      rw [List.forall_mem_cons, List.forall_mem_singleton]
      exact ⟨⟨_, rfl⟩, ⟨_, rfl⟩⟩
    obtain ⟨toggles, hshows, hlist, -, hresolve⟩ :=
      (@stores_resolve_alike _ db rfl _ _ haccount (by decide) []).1 hrules
    -- the listing is computed, so the toggles are known
    cases hlist
    obtain ⟨resolution, hdatabase, hmemory⟩ := hresolve .empty
    exact ⟨resolution, hdatabase, hmemory none .zero⟩
  · have haccount : ∀ row ∈ [older, bad, newer], row.accountId = account := by
      rw [List.forall_mem_cons, List.forall_mem_cons, List.forall_mem_singleton]
      exact ⟨rfl, rfl, rfl⟩
    have hbad : ∃ row ∈ [older, bad, newer], ∃ e, row.rules.decode = .error e :=
      ⟨bad, by simp, _, rfl⟩
    obtain ⟨before, row, after, e, hrows, hbefore, hrow, hlist, -⟩ :=
      (@stores_resolve_alike _ db rfl _ _ haccount (by decide) []).2 hbad
    -- no row before the second one fails, and the second one does
    have herror : (.error e : Decoded (List Rule)) = .error (.defect ⟨.rulesNotList, []⟩) := by
      cases before with
      | nil =>
        cases hrows
        cases hrow
      | cons first before =>
        cases before with
        | nil =>
          cases hrows
          exact hrow.symm
        | cons second before =>
          simp only [List.cons_append, List.cons.injEq] at hrows
          obtain ⟨-, hsecond, -⟩ := hrows
          obtain ⟨rules, hrules⟩ := hbefore bad (by simp [hsecond])
          cases hrules
    cases herror
    exact (hlist _ rfl).1

end Database

end FeatureToggles
