import FeatureToggles.Proofs.Lexing

/-!
# Tilings of a text

The tokens of a text lie on it side by side, as long as they can be, and leave nothing free but white space.
There is one way at most to lay tokens so. If a text has no tokens, they can be laid up to where what stands
next is none.
-/

namespace FeatureToggles.RuleText

open Unicode (isBlank)

/-- A token with the number of characters up to its end. -/
structure Tile where
  token : Token
  stop : Nat

namespace Tile

/-- The characters that the tile lies on. -/
def span (tile : Tile) (text : List CodePoint) : List CodePoint :=
  text.extract tile.token.position tile.stop

/-- Whether the tile lies on the character behind `i` others. -/
def Covers (tile : Tile) (i : Nat) : Prop :=
  tile.token.position ≤ i ∧ i < tile.stop

/-- The characters below the tile have the shape of its token, and the text does not go on with it. -/
structure Fits (tile : Tile) (text : List CodePoint) : Prop where
  shape : tile.token.kind.HasShape (tile.span text) tile.token.value.toList
  maximal : ∀ c, text[tile.stop]? = some c → ¬ tile.token.kind.GoesOn (tile.span text) c

end Tile

/-- The tiles lie side by side on the characters from `start` up to `stop`, and what they leave free is white
space. Each of them fits in the whole text, whatever follows behind `stop`. -/
structure Tiling (text : List CodePoint) (start stop : Nat) (tiles : List Tile) : Prop where
  bounds : start ≤ stop ∧ stop ≤ text.length
  within : ∀ tile ∈ tiles,
    start ≤ tile.token.position ∧ tile.token.position < tile.stop ∧ tile.stop ≤ stop
  apart : tiles.Pairwise fun tile later => tile.stop ≤ later.token.position
  fits : ∀ tile ∈ tiles, tile.Fits text
  blank : ∀ i c, start ≤ i → i < stop → (∀ tile ∈ tiles, ¬ tile.Covers i) → text[i]? = some c →
    isBlank c = true

variable {text : List CodePoint} {start stop : Nat} {tile : Tile} {tiles tiles' : List Tile} {c : CodePoint}

/-! ### The characters below a tile -/

theorem drop_eq_span_append (text : List CodePoint) (h : tile.token.position ≤ tile.stop) :
    text.drop tile.token.position = tile.span text ++ text.drop tile.stop := by
  have hstop : tile.token.position + (tile.stop - tile.token.position) = tile.stop := by omega
  rw [Tile.span, List.extract_eq_take_drop, ← hstop, ← List.drop_drop, hstop]
  exact (List.take_append_drop _ _).symm

theorem length_span (h : tile.token.position ≤ tile.stop) (hstop : tile.stop ≤ text.length) :
    tile.token.position + (tile.span text).length = tile.stop := by
  have hlength := congrArg List.length (drop_eq_span_append text h)
  rw [List.length_append, List.length_drop, List.length_drop] at hlength
  omega

/-- A tile starts with what its kind starts with, which is no white space. -/
theorem Tile.Fits.isBlank_eq (h : tile.Fits text) (hlt : tile.token.position ≤ tile.stop)
    (hc : text[tile.token.position]? = some c) : isBlank c = false := by
  obtain ⟨d, cs, hspan⟩ := List.exists_cons_of_ne_nil h.shape.ne_nil
  have hdrop := drop_eq_span_append text hlt
  rw [hspan, List.cons_append] at hdrop
  have hd : text[tile.token.position]? = some d := by
    rw [← List.head?_drop, hdrop, List.head?_cons]
  obtain rfl : c = d := Option.some.inj (hc.symm.trans hd)
  have hshape := h.shape
  rw [hspan] at hshape
  exact hshape.starts.isBlank_eq

theorem Tile.Fits.ends (h : tile.Fits text) :
    tile.token.kind.Ends (tile.span text) (text.drop tile.stop) := by
  intro c hc
  rw [List.head?_drop] at hc
  exact h.maximal c hc

/-- What has the shape of a token can be laid. -/
theorem fits_of_hasShape {kind : TokenKind} {span value after : List CodePoint}
    (hdrop : text.drop start = span ++ after) (h : kind.HasShape span value)
    (hends : kind.Ends span after) :
    Tile.Fits ⟨⟨kind, Text.ofList value, start⟩, start + span.length⟩ text := by
  have hafter : text.drop (start + span.length) = after := by
    rw [← List.drop_drop, hdrop, List.drop_left]
  have hspan : Tile.span ⟨⟨kind, Text.ofList value, start⟩, start + span.length⟩ text = span := by
    rw [Tile.span, List.extract_eq_take_drop, hdrop, Nat.add_sub_cancel_left, List.take_left]
  refine ⟨?_, fun c hc => ?_⟩
  · rw [hspan, Text.toList_ofList]
    exact h
  · rw [hspan]
    refine hends c ?_
    rw [← hafter, List.head?_drop]
    exact hc

/-! ### Tile by tile -/

/-- The tiles are laid one by one from `start` on, past white space. -/
inductive Laid (text : List CodePoint) (stop : Nat) : Nat → List Tile → Prop where
  | nil : stop ≤ text.length → Laid text stop stop []
  | blank {start : Nat} {tiles : List Tile} (c : CodePoint) : text[start]? = some c → isBlank c = true →
      Laid text stop (start + 1) tiles → Laid text stop start tiles
  | tile {start : Nat} {tiles : List Tile} (tile : Tile) : tile.token.position = start →
      start < tile.stop → tile.Fits text → Laid text stop tile.stop tiles →
      Laid text stop start (tile :: tiles)

theorem Laid.bounds (h : Laid text stop start tiles) : start ≤ stop ∧ stop ≤ text.length := by
  induction h with
  | nil hstop => exact ⟨Nat.le_refl _, hstop⟩
  | blank c _ _ _ ih => exact ⟨Nat.le_of_succ_le ih.1, ih.2⟩
  | tile tile _ hlt _ _ ih => exact ⟨Nat.le_trans (Nat.le_of_lt hlt) ih.1, ih.2⟩

/-- Tiles that are laid one by one lie side by side. -/
theorem tiling_of_laid (h : Laid text stop start tiles) : Tiling text start stop tiles := by
  induction h with
  | nil hstop =>
    refine ⟨⟨Nat.le_refl _, hstop⟩, ?_, .nil, ?_, fun i c hlo hhi => by omega⟩
    · exact fun _ h => absurd h List.not_mem_nil
    · exact fun _ h => absurd h List.not_mem_nil
  | @blank start tiles c hc hblank h ih =>
    refine ⟨(Laid.blank c hc hblank h).bounds, fun tile htile => ?_, ih.apart, ih.fits, ?_⟩
    · have hwithin := ih.within tile htile
      omega
    · intro i d hlo hhi hfree hd
      by_cases hi : i = start
      · rw [hi, hc] at hd
        cases hd
        exact hblank
      · exact ih.blank i d (by omega) hhi hfree hd
  | @tile start tiles tile hposition hlt hfits h ih =>
    refine ⟨(Laid.tile tile hposition hlt hfits h).bounds, ?_, ?_, ?_, ?_⟩
    · refine List.forall_mem_cons.2 ⟨⟨by omega, by omega, h.bounds.1⟩, fun later hlater => ?_⟩
      have hwithin := ih.within later hlater
      omega
    · exact List.pairwise_cons.2 ⟨fun later hlater => (ih.within later hlater).1, ih.apart⟩
    · exact List.forall_mem_cons.2 ⟨hfits, ih.fits⟩
    · intro i d hlo hhi hfree hd
      obtain ⟨hnot, hfree⟩ := List.forall_mem_cons.1 hfree
      have hi : tile.stop ≤ i := Nat.le_of_not_lt fun hi => hnot ⟨by omega, hi⟩
      exact ih.blank i d hi hhi hfree hd

/-- Nothing can be laid on no characters. -/
theorem Tiling.eq_nil (h : Tiling text start start tiles) : tiles = [] := by
  rw [List.eq_nil_iff_forall_not_mem]
  intro tile htile
  have hwithin := h.within tile htile
  omega

/-- No tile starts with white space. -/
theorem Tiling.skip (h : Tiling text start stop tiles) (hlt : start < stop)
    (hc : text[start]? = some c) (hblank : isBlank c = true) : Tiling text (start + 1) stop tiles := by
  refine ⟨⟨hlt, h.bounds.2⟩, fun tile htile => ?_, h.apart, h.fits, fun i d hlo hhi => ?_⟩
  · have hwithin := h.within tile htile
    have hne : tile.token.position ≠ start := by
      intro hposition
      rw [← hposition] at hc
      rw [(h.fits tile htile).isBlank_eq (Nat.le_of_lt hwithin.2.1) hc] at hblank
      cases hblank
    omega
  · exact h.blank i d (by omega) hhi

/-- Something lies on what is no white space, and nothing lies before it. -/
theorem Tiling.exists_first (h : Tiling text start stop tiles) (hlt : start < stop)
    (hc : text[start]? = some c) (hblank : isBlank c = false) :
    ∃ tile rest, tiles = tile :: rest ∧ tile.token.position = start := by
  obtain ⟨tile, htile, hcovers⟩ : ∃ tile ∈ tiles, tile.Covers start := by
    by_contra hnone
    have hfree : ∀ tile ∈ tiles, ¬ tile.Covers start := fun tile htile hcovers =>
      hnone ⟨tile, htile, hcovers⟩
    rw [h.blank start c (Nat.le_refl _) hlt hfree hc] at hblank
    cases hblank
  obtain ⟨hlo, hhi⟩ := hcovers
  cases tiles with
  | nil => cases htile
  | cons first rest =>
    refine ⟨first, rest, rfl, ?_⟩
    have hfirst := h.within first List.mem_cons_self
    rcases List.mem_cons.1 htile with rfl | hrest
    · omega
    · have hapart := (List.pairwise_cons.1 h.apart).1 tile hrest
      omega

theorem Tiling.rest (h : Tiling text start stop (tile :: tiles))
    (hposition : tile.token.position = start) : Tiling text tile.stop stop tiles := by
  obtain ⟨hfirst, hwithin⟩ := List.forall_mem_cons.1 h.within
  obtain ⟨hapart, hrest⟩ := List.pairwise_cons.1 h.apart
  refine ⟨⟨hfirst.2.2, h.bounds.2⟩, fun later hlater => ?_, hrest, (List.forall_mem_cons.1 h.fits).2, ?_⟩
  · exact ⟨hapart later hlater, (hwithin later hlater).2⟩
  · intro i d hlo hhi hfree
    refine h.blank i d (by omega) hhi (List.forall_mem_cons.2 ⟨?_, hfree⟩)
    rintro ⟨-, hi⟩
    omega

/-- Tiles side by side can be laid one by one. -/
theorem laid_of_tiling (h : Tiling text start stop tiles) : Laid text stop start tiles := by
  -- white space and tiles both leave less to be laid on
  induction hn : stop - start using Nat.strong_induction_on generalizing start tiles with
  | _ n ih =>
    obtain ⟨hle, hstop⟩ := h.bounds
    by_cases hlt : start < stop
    · obtain ⟨c, hc⟩ : ∃ c, text[start]? = some c :=
        ⟨_, List.getElem?_eq_getElem (Nat.lt_of_lt_of_le hlt hstop)⟩
      cases hblank : isBlank c with
      | true => exact .blank c hc hblank (ih _ (by omega) (h.skip hlt hc hblank) rfl)
      | false =>
        obtain ⟨tile, rest, rfl, hposition⟩ := h.exists_first hlt hc hblank
        have hwithin := h.within tile List.mem_cons_self
        refine .tile tile hposition (by omega) (h.fits tile List.mem_cons_self) ?_
        exact ih _ (by omega) (h.rest hposition) rfl
    · obtain rfl : start = stop := by omega
      rw [h.eq_nil]
      exact .nil hstop

/-! ### Tiles and tokens -/

/-- What is read from a tiled text are the tokens of the tiles, and what is read behind them. -/
theorem lexFrom_of_laid (h : Laid text stop start tiles) :
    lexFrom start (text.drop start)
      = (lexFrom stop (text.drop stop)).map (tiles.map Tile.token ++ ·) := by
  induction h with
  | nil _ => cases lexFrom stop (text.drop stop) <;> rfl
  | blank c hc hblank _ ih =>
    obtain ⟨hlt, hget⟩ := List.getElem?_eq_some_iff.1 hc
    rw [List.drop_eq_getElem_cons hlt, hget, lexFrom_of_isBlank hblank, ih]
  | tile tile hposition hlt hfits h ih =>
    subst hposition
    have hstop : tile.stop ≤ text.length := Nat.le_trans h.bounds.1 h.bounds.2
    rw [drop_eq_span_append text (Nat.le_of_lt hlt), lexFrom_of_hasShape hfits.shape hfits.ends,
      length_span (Nat.le_of_lt hlt) hstop, ih, Text.ofList_toList]
    cases lexFrom stop (text.drop stop) <;> rfl

/-- Tiles can be laid up to the end of the text, or up to where no token stands. -/
theorem exists_laid (text : List CodePoint) (hstart : start ≤ text.length) :
    ∃ stop tiles, Laid text stop start tiles ∧
      (stop = text.length ∨ ∃ fault, Stuck (text.drop stop) fault) := by
  induction hn : text.length - start using Nat.strong_induction_on generalizing start with
  | _ n ih =>
    rcases text_cases (text.drop start) with hnil | ⟨c, rest, hdrop, hblank⟩ |
      ⟨kind, span, value, after, hdrop, hshape, hends⟩ | hstuck
    · have hlength := List.drop_eq_nil_iff.1 hnil
      exact ⟨start, [], .nil hstart, .inl (by omega)⟩
    · have hc : text[start]? = some c := by
        rw [← List.head?_drop, hdrop, List.head?_cons]
      obtain ⟨hlt, -⟩ := List.getElem?_eq_some_iff.1 hc
      obtain ⟨stop, tiles, hlaid, hstop⟩ := ih _ (by omega) hlt rfl
      exact ⟨stop, tiles, .blank c hc hblank hlaid, hstop⟩
    · have hfits := fits_of_hasShape hdrop hshape hends
      have hpos := List.length_pos_iff.2 hshape.ne_nil
      have hlength := congrArg List.length hdrop
      rw [List.length_drop, List.length_append] at hlength
      have hnext : start + span.length ≤ text.length := by
        omega
      obtain ⟨stop, tiles, hlaid, hstop⟩ := ih _ (by omega) hnext rfl
      exact ⟨stop, _, .tile _ rfl (by simpa using hpos) hfits hlaid, hstop⟩
    · exact ⟨start, [], .nil hstart, .inr hstuck⟩

/-- What is read where a tile fits is its token. -/
theorem Tile.Fits.tokenAt_eq {rest : List CodePoint} (h : tile.Fits text)
    (hposition : tile.token.position = start) (hlt : start < tile.stop)
    (hdrop : text.drop start = c :: rest) :
    tokenAt c rest = .ok (tile.token.kind, tile.token.value.toList, text.drop tile.stop) := by
  subst hposition
  refine tokenAt_eq_ok_iff.2 ⟨tile.span text, ?_, h.shape, h.ends⟩
  rw [← hdrop, drop_eq_span_append text (Nat.le_of_lt hlt)]

/-- Only one tile fits at a place. -/
theorem Tile.Fits.unique {tile' : Tile} (h : tile.Fits text) (h' : tile'.Fits text)
    (hposition : tile.token.position = start) (hposition' : tile'.token.position = start)
    (hlt : start < tile.stop) (hlt' : start < tile'.stop) (hstop : tile.stop ≤ text.length)
    (hstop' : tile'.stop ≤ text.length) : tile = tile' := by
  have hdrop := List.drop_eq_getElem_cons (Nat.lt_of_lt_of_le hlt hstop)
  have htoken := h.tokenAt_eq hposition hlt hdrop
  have htoken' := h'.tokenAt_eq hposition' hlt' hdrop
  -- both are what is read at this place
  rw [htoken, Except.ok.injEq, Prod.mk.injEq, Prod.mk.injEq, Text.toList_inj] at htoken'
  obtain ⟨hkind, hvalue, hafter⟩ := htoken'
  have hlength := congrArg List.length hafter
  rw [List.length_drop, List.length_drop] at hlength
  obtain ⟨⟨kind, value, position⟩, stop⟩ := tile
  obtain ⟨⟨kind', value', position'⟩, stop'⟩ := tile'
  obtain rfl : position = position' := hposition.trans hposition'.symm
  obtain rfl : stop = stop' := by
    show stop = stop'
    simp only at hstop hstop' hlength
    omega
  obtain rfl : kind = kind' := hkind
  obtain rfl : value = value' := hvalue
  rfl

/-- There is one way at most to lay tiles. -/
theorem laid_unique (h : Laid text stop start tiles) (h' : Laid text stop start tiles') :
    tiles = tiles' := by
  induction h generalizing tiles' with
  | nil hstop => exact (tiling_of_laid h').eq_nil.symm
  | blank c hc hblank h ih =>
    have hlt := h.bounds.1
    cases h' with
    | nil _ => omega
    | blank _ _ _ h' => exact ih h'
    | tile tile' hposition hlt' hfits _ =>
      subst hposition
      rw [hfits.isBlank_eq (Nat.le_of_lt hlt') hc] at hblank
      cases hblank
  | @tile start tiles tile hposition hlt hfits h ih =>
    obtain ⟨hle, hstop⟩ := h.bounds
    cases h' with
    | nil _ => omega
    | blank c hc hblank _ =>
      subst hposition
      rw [hfits.isBlank_eq (Nat.le_of_lt hlt) hc] at hblank
      cases hblank
    | tile tile' hposition' hlt' hfits' h' =>
      obtain rfl : tile = tile' := hfits.unique hfits' hposition hposition' hlt hlt'
        (Nat.le_trans hle hstop) (Nat.le_trans h'.bounds.1 h'.bounds.2)
      rw [ih h']

/-! ### Texts -/

/-- **Tilings.** The tokens of a text are those of a tiling of the text, and there is one at most. A text has
no tokens exactly if a tiling of its start, which is judged in the whole text, ends where no token stands:
at a quote that no other closes, or at a character that is no white space and starts none. -/
theorem tokens_tile (text : Text) :
    (∀ tokens, lex text = .ok tokens
      ↔ ∃ tiles, Tiling text.toList 0 text.length tiles ∧ tiles.map Tile.token = tokens) ∧
    (∀ stop tiles tiles', Tiling text.toList 0 stop tiles → Tiling text.toList 0 stop tiles' →
      tiles = tiles') ∧
    ∀ fault position, lex text = .error ⟨fault, position⟩
      ↔ ∃ tiles, Tiling text.toList 0 position tiles ∧ Stuck (text.toList.drop position) fault := by
  have hlex {stop tiles} (h : Tiling text.toList 0 stop tiles) : lex text
      = (lexFrom stop (text.toList.drop stop)).map (tiles.map Tile.token ++ ·) :=
    lexFrom_of_laid (laid_of_tiling h)
  have hall {tiles} (h : Tiling text.toList 0 text.length tiles) :
      lex text = .ok (tiles.map Tile.token) := by
    rw [hlex h, List.drop_of_length_le (by rw [Text.length_toList]), lexFrom, Except.map,
      List.append_nil]
  have hstuck {stop tiles fault} (h : Tiling text.toList 0 stop tiles)
      (hfault : Stuck (text.toList.drop stop) fault) : lex text = .error ⟨fault, stop⟩ := by
    rw [hlex h, lexFrom_of_stuck hfault, Except.map]
  obtain ⟨stop, tiles, hlaid, hstop⟩ := exists_laid text.toList (Nat.zero_le _)
  have htiling := tiling_of_laid hlaid
  refine ⟨fun tokens => ⟨fun h => ?_, ?_⟩, ?_, fun fault position => ⟨fun h => ?_, ?_⟩⟩
  · rcases hstop with rfl | ⟨fault, hfault⟩
    · rw [Text.length_toList] at htiling
      rw [hall htiling, Except.ok.injEq] at h
      exact ⟨tiles, htiling, h⟩
    · rw [hstuck htiling hfault] at h
      cases h
  · rintro ⟨tiles, h, rfl⟩
    exact hall h
  · exact fun stop tiles tiles' h h' => laid_unique (laid_of_tiling h) (laid_of_tiling h')
  · rcases hstop with rfl | ⟨fault, hfault⟩
    · rw [Text.length_toList] at htiling
      rw [hall htiling] at h
      cases h
    · rw [hstuck htiling hfault] at h
      cases h
      exact ⟨tiles, htiling, hfault⟩
  · rintro ⟨tiles, h, hfault⟩
    exact hstuck h hfault

/-- A quote behind a backslash closes no string, and nothing has to stand behind the point of a number. A
string that ends with a backslash is not closed. -/
theorem tokens_tile_escaped :
    (∃ tiles, Tiling ("(\"\\\"\" ==1_.)" : Text).toList 0 12 tiles ∧
      tiles.map Tile.token = [⟨.groupStart, "(", 0⟩, ⟨.string, "\"", 1⟩, ⟨.op, "==", 6⟩,
        ⟨.float, "1_.", 8⟩, ⟨.groupEnd, ")", 11⟩] ∧
      ∀ tiles', Tiling ("(\"\\\"\" ==1_.)" : Text).toList 0 12 tiles' → tiles = tiles') ∧
    ∃ tiles, Tiling ("7 \"b\\" : Text).toList 0 2 tiles ∧
      Stuck (("7 \"b\\" : Text).toList.drop 2) .unterminatedString := by
  obtain ⟨hlex, herror⟩ : lex "(\"\\\"\" ==1_.)" = .ok [⟨.groupStart, "(", 0⟩, ⟨.string, "\"", 1⟩,
      ⟨.op, "==", 6⟩, ⟨.float, "1_.", 8⟩, ⟨.groupEnd, ")", 11⟩] ∧
      lex "7 \"b\\" = .error ⟨.unterminatedString, 2⟩ := by
    cbv
  obtain ⟨htokens, hunique, -⟩ := tokens_tile "(\"\\\"\" ==1_.)"
  obtain ⟨tiles, htiling, hmap⟩ := (htokens _).1 hlex
  refine ⟨⟨tiles, htiling, hmap, fun tiles' h => hunique _ _ _ htiling h⟩, ?_⟩
  exact ((tokens_tile _).2.2 _ _).1 herror

end FeatureToggles.RuleText
