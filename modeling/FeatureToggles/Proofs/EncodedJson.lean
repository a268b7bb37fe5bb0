import FeatureToggles.Expr.Wire
import FeatureToggles.Proofs.EncodedText
import FeatureToggles.Proofs.ResolveRequest
import FeatureToggles.Proofs.StandardText
import FeatureToggles.StoredJson

/-!
# JSON texts as bytes

A JSON text starts with an ASCII character, and the character zero is neither its first nor its second one.
So its bytes show their encoding, and what is read from them does not depend on it: it is what the text
itself holds.
-/

namespace FeatureToggles

open CodePoint (char)

open Decimal (exponentAt)
open Service (sampleRequest sampleService sampleSurroundings)
open Text (ShowsEncoding Encoding Encoded)

namespace Json

variable {c : CodePoint} {cs rest : List CodePoint}

/-! ### How texts of the standard start -/

namespace Standard

/-- Characters that start with an ASCII character and have the character zero nowhere. -/
structure StartsAscii (cs : List CodePoint) : Prop where
  ascii : ∃ c ∈ cs.head?, c.toNat < 0x80
  zero : char '\x00' ∉ cs

theorem StartsAscii.append {ds : List CodePoint} (h : StartsAscii cs) (hds : char '\x00' ∉ ds) :
    StartsAscii (cs ++ ds) := by
  obtain ⟨c, hc, hascii⟩ := h.ascii
  obtain ⟨rest, rfl⟩ := List.head?_eq_some_iff.1 hc
  constructor
  · exact ⟨c, rfl, hascii⟩
  · rw [List.mem_append, not_or]
    exact ⟨h.zero, hds⟩

theorem StartsAscii.cons (hascii : c.toNat < 0x80) (hpos : c ≠ char '\x00') (hcs : char '\x00' ∉ cs) :
    StartsAscii (c :: cs) := by
  refine ⟨⟨c, rfl, hascii⟩, ?_⟩
  rw [List.mem_cons, not_or]
  exact ⟨hpos.symm, hcs⟩

/-- Characters between two brackets, or between quotes. -/
theorem StartsAscii.enclosed {d : CodePoint} (hascii : c.toNat < 0x80) (hc : c ≠ char '\x00')
    (hcs : char '\x00' ∉ cs) (hd : d ≠ char '\x00') : StartsAscii (c :: (cs ++ [d])) := by
  refine .cons hascii hc ?_
  rw [List.mem_append, List.mem_singleton, not_or]
  exact ⟨hcs, hd.symm⟩

theorem StartsAscii.showsEncoding (h : StartsAscii cs) : ShowsEncoding cs := by
  obtain ⟨c, hc, hascii⟩ := h.ascii
  obtain ⟨rest, rfl⟩ := List.head?_eq_some_iff.1 hc
  have hzero := h.zero
  rw [List.mem_cons, not_or] at hzero
  have hpos : 0 < c.toNat := Nat.pos_of_ne_zero fun hnumber => hzero.1 (CodePoint.toNat_inj.1 hnumber).symm
  exact .start hascii hpos fun hnext => hzero.2 (List.mem_of_mem_head? hnext)

theorem zero_notMem_of_isBlank (h : IsBlank cs) : char '\x00' ∉ cs :=
  fun hmem => absurd (h _ hmem) (by decide)

/-- White space is ASCII. -/
theorem StartsAscii.of_isBlank_append {before : List CodePoint} (hbefore : IsBlank before)
    (h : StartsAscii cs) : StartsAscii (before ++ cs) := by
  cases before with
  | nil => exact h
  | cons c before =>
    have hspace : c = char ' ' ∨ c = char '\t' ∨ c = char '\n' ∨ c = char '\r' := by
      simpa [isSpace, or_assoc] using hbefore c (List.mem_cons_self ..)
    have hrest : char '\x00' ∉ before ++ cs := by
      rw [List.mem_append, not_or]
      exact ⟨fun hmem => zero_notMem_of_isBlank hbefore (List.mem_cons_of_mem _ hmem), h.zero⟩
    rcases hspace with rfl | rfl | rfl | rfl <;> exact .cons (by decide) (by decide) hrest

theorem startsAscii_of_isDigits (h : IsDigits cs) : StartsAscii cs := by
  obtain ⟨c, rest, rfl⟩ := List.exists_cons_of_ne_nil h.ne_nil
  constructor
  · have hdigit := h.isDigit c (List.mem_cons_self ..)
    refine ⟨c, rfl, ?_⟩
    exact Nat.lt_of_le_of_lt (CodePoint.isDigit_iff_toNat.1 hdigit).2 (by decide)
  · exact fun hmem => absurd (h.isDigit _ hmem) (by decide)

theorem startsAscii_of_isWhole (h : IsWhole cs) : StartsAscii cs := by
  cases h with
  | zero => exact .cons (by decide) (by decide) List.not_mem_nil
  | digits h _ => exact startsAscii_of_isDigits h

theorem zero_notMem_of_isFraction (h : IsFraction cs) : char '\x00' ∉ cs := by
  cases h with
  | absent => exact List.not_mem_nil
  | digits h =>
    rw [List.mem_cons, not_or]
    exact ⟨by decide, (startsAscii_of_isDigits h).zero⟩

theorem zero_notMem_of_isPower (h : IsPower cs) : char '\x00' ∉ cs := by
  cases h with
  | absent => exact List.not_mem_nil
  | digits hletter hsign h =>
    have hdigits := (startsAscii_of_isDigits h).zero
    rcases hletter with rfl | rfl <;> rcases hsign with rfl | rfl | rfl <;> simpa using hdigits

theorem startsAscii_of_isNumber (h : IsNumber cs) : StartsAscii cs := by
  cases h with
  | @parts sign whole fraction power hsign hwhole hfraction hpower =>
    have hrest : StartsAscii (whole ++ (fraction ++ power)) := by
      refine (startsAscii_of_isWhole hwhole).append ?_
      rw [List.mem_append, not_or]
      exact ⟨zero_notMem_of_isFraction hfraction, zero_notMem_of_isPower hpower⟩
    rcases hsign with rfl | rfl
    · exact hrest
    · exact .cons (by decide) (by decide) hrest.zero

theorem zero_notMem_of_isCharacter (h : IsCharacter cs) : char '\x00' ∉ cs := by
  cases h with
  | plain hcontrol _ _ =>
    rw [List.mem_singleton]
    rintro rfl
    exact absurd hcontrol (by decide)
  | escape h =>
    rw [List.mem_cons, List.mem_singleton, not_or]
    exact ⟨by decide, fun hzero => absurd (hzero ▸ h) (by decide)⟩
  | unit _ h =>
    rw [List.mem_cons, List.mem_cons, not_or, not_or]
    exact ⟨by decide, by decide, fun hmem => absurd (h _ hmem) (by decide)⟩

theorem zero_notMem_of_isContent (h : IsContent cs) : char '\x00' ∉ cs := by
  induction h with
  | nil => exact List.not_mem_nil
  | cons hcharacter _ ih =>
    rw [List.mem_append, not_or]
    exact ⟨zero_notMem_of_isCharacter hcharacter, ih⟩

theorem startsAscii_of_isString (h : IsString cs) : StartsAscii cs := by
  obtain ⟨hcontent⟩ := h
  exact .enclosed (by decide) (by decide) (zero_notMem_of_isContent hcontent) (by decide)

/-- A text of the standard starts with an ASCII character and has the character zero nowhere, and so do the
parts that are named in the grammar. -/
theorem startsAscii_of_derives {symbol : Symbol} (h : Derives symbol cs) : StartsAscii cs := by
  induction h with
  | element hbefore _ hafter ih => exact (ih.append (zero_notMem_of_isBlank hafter)).of_isBlank_append hbefore
  | null => exact .cons (by decide) (by decide) (by decide)
  | true => exact .cons (by decide) (by decide) (by decide)
  | false => exact .cons (by decide) (by decide) (by decide)
  | number h => exact startsAscii_of_isNumber h
  | string h => exact startsAscii_of_isString h
  | emptyArray h => exact .enclosed (by decide) (by decide) (zero_notMem_of_isBlank h) (by decide)
  | array _ ih => exact .enclosed (by decide) (by decide) ih.zero (by decide)
  | emptyObject h => exact .enclosed (by decide) (by decide) (zero_notMem_of_isBlank h) (by decide)
  | object _ ih => exact .enclosed (by decide) (by decide) ih.zero (by decide)
  | lastElement _ ih => exact ih
  | elements _ _ ih ihrest =>
    refine ih.append ?_
    simpa using ihrest.zero
  | lastMember hbefore hname hafter _ ih =>
    refine ((startsAscii_of_isString hname).append ?_).of_isBlank_append hbefore
    simpa using ⟨zero_notMem_of_isBlank hafter, ih.zero⟩
  | members hbefore hname hafter _ _ ih ihrest =>
    refine ((startsAscii_of_isString hname).append ?_).of_isBlank_append hbefore
    simpa using ⟨zero_notMem_of_isBlank hafter, ih.zero, ihrest.zero⟩

end Standard

/-! ### How texts that are read start -/

/-- A character with which no token starts: zero, and all that is not ASCII. -/
def IsForeign (c : CodePoint) : Prop :=
  c.toNat = 0 ∨ 0x80 ≤ c.toNat

theorem isForeign_zero : IsForeign '\x00' :=
  .inl rfl

theorem IsForeign.ne {d : CodePoint} (h : IsForeign c) (hascii : d.toNat < 0x80) (hpos : 0 < d.toNat) :
    c ≠ d := by
  rintro rfl
  rcases h with h | h <;> omega

theorem IsForeign.isDigit (h : IsForeign c) : c.isDigit = false := by
  rw [← Bool.not_eq_true, CodePoint.isDigit_iff_toNat]
  rintro ⟨hfirst, hlast⟩
  have hzero : '0'.toNat = 48 := rfl
  have hnine : '9'.toNat = 57 := rfl
  rcases h with h | h <;> omega

/-- No word has a foreign character in one of its first two places. -/
theorem IsForeign.notMem_wordStarts (h : IsForeign c) : c ∉ wordStarts := by
  have hletters : ∀ d ∈ wordStarts, d.toNat < 0x80 ∧ 0 < d.toNat := by simp [wordStarts]
  intro hmem
  obtain ⟨hascii, hpos⟩ := hletters c hmem
  exact h.ne hascii hpos rfl

/-- Without a digit before its point a number is malformed. -/
theorem numberAt_of_no_digit (h : ∀ d ∈ (minusAt cs).2.head?, d.isDigit = false) :
    numberAt cs = (.unreadable .malformed, []) := by
  have hwhole : (wholeAt (minusAt cs).2).1 = [] := by
    generalize (minusAt cs).2 = after at h
    unfold wholeAt
    split
    · next rest => exact absurd (h '0' rfl) (by decide)
    · have hnone : ∀ c ∈ ([] : List CodePoint), c.isDigit = true := List.forall_mem_nil _
      exact (Text.span_append hnone h).1
  simp only [numberAt, hwhole, List.isEmpty_nil, if_true]

/-- A single digit is a number. -/
theorem exists_numberAt_digit (hc : c.isDigit = true) (hrest : EndsNumber rest) :
    ∃ value, numberAt (c :: rest) = (.scalar value, rest) := by
  have hsign : minusAt (c :: rest) = (false, c :: rest) := by
    apply minusAt_signText false
    rintro _ ⟨⟩
    exact ne_of_isDigit hc rfl
  have hwhole : wholeAt (c :: rest) = ([c], rest) := by
    have hdigits : ∀ d ∈ [c], d.isDigit = true := List.forall_mem_singleton.2 hc
    obtain ⟨htake, hdrop⟩ := Text.span_append hdigits hrest.endsDigits
    rw [List.singleton_append] at htake hdrop
    unfold wholeAt
    split
    · next heq => rw [(List.cons.inj heq).1, (List.cons.inj heq).2]
    · rw [htake, hdrop]
  have hfraction : fractionAt rest = ([], rest) :=
    fractionAt_text (List.forall_mem_nil _) hrest.endsDigits fun d hd => (hrest d hd).2.1
  have hpower : exponentAt rest = (none, rest) := exponentAt_text none hrest
  simp only [numberAt, hsign, hwhole, hfraction, hpower]
  exact ⟨_, rfl⟩

/-- At a foreign character a text cannot be read further. -/
theorem tokens_of_isForeign (h : IsForeign c) (rest : List CodePoint) :
    tokens (c :: rest) = [.unreadable .malformed] := by
  have hne (d : CodePoint) (hd : d.toNat < 0x80 ∧ 0 < d.toNat) : c ≠ d := h.ne hd.1 hd.2
  have hspace : isSpace c = false := by
    simp [isSpace, hne ' ' (by decide), hne '\t' (by decide), hne '\n' (by decide), hne '\r' (by decide)]
  have hsign : minusAt (c :: rest) = (false, c :: rest) := by
    apply minusAt_signText false
    rintro _ ⟨⟩
    exact hne '-' (by decide)
  have hnumber : numberAt (c :: rest) = (.unreadable .malformed, []) := by
    apply numberAt_of_no_digit
    rw [hsign]
    rintro _ ⟨⟩
    exact h.isDigit
  have hword : wordAt? (c :: rest) = none := wordAt?_eq_none_of_notMem h.notMem_wordStarts none rest
  have htoken : tokenAt c rest = (.unreadable .malformed, []) := by
    simp only [tokenAt, hne '[' (by decide), hne ']' (by decide), hne '\x7b' (by decide),
      hne '\x7d' (by decide), hne ',' (by decide), hne ':' (by decide), hne '\x22' (by decide),
      if_false, hword, hnumber]
  rw [tokens_cons hspace htoken, tokens]

/-- What stands before the character zero is a token of one character, or it cannot be read either. -/
theorem tokenAt_before_zero (c : CodePoint) (rest : List CodePoint) :
    tokenAt c (char '\x00' :: rest) = (.unreadable .malformed, []) ∨
      ∃ t, (∀ reason, t ≠ .unreadable reason) ∧ tokenAt c (char '\x00' :: rest) = (t, char '\x00' :: rest) := by
  have hpieces : piecesAt (char '\x00' :: rest) = none := by simp [piecesAt]
  have hword : wordAt? (c :: char '\x00' :: rest) = none :=
    wordAt?_eq_none_of_notMem isForeign_zero.notMem_wordStarts (some c) rest
  have hnumber : numberAt (c :: char '\x00' :: rest) = (.unreadable .malformed, []) ∨
      ∃ value, numberAt (c :: char '\x00' :: rest) = (.scalar value, char '\x00' :: rest) := by
    -- a digit is a number by itself, and a minus sign needs one right behind it
    by_cases hdigit : c.isDigit = true
    · exact .inr (exists_numberAt_digit hdigit (by rintro _ ⟨⟩; decide))
    · refine .inl (numberAt_of_no_digit ?_)
      unfold minusAt
      split
      · next heq =>
        obtain ⟨-, rfl⟩ := List.cons.inj heq
        rintro _ ⟨⟩
        rfl
      · rintro _ ⟨⟩
        simpa using hdigit
  unfold tokenAt
  -- brackets, comma and colon are tokens by themselves
  iterate 6
    split
    · exact .inr ⟨_, by simp, rfl⟩
  split
  · rw [hpieces]
    exact .inl rfl
  · rw [hword]
    rcases hnumber with hnumber | ⟨value, hnumber⟩
    · exact .inl hnumber
    · exact .inr ⟨_, by simp, hnumber⟩

variable [JsonLibrary]

/-- What cannot be read is malformed wherever it stands. -/
theorem run_unreadable (state : State) (stack : List Frame) (ts : List Token) :
    run state stack (.unreadable .malformed :: ts) = .error .malformed := by
  have hstep : step state stack (.unreadable .malformed) = .error .malformed := by
    cases state with
    | value => rfl
    | opened => cases stack <;> rfl
    | name fields => rfl
    | openedObject => rfl
    | colon fields name => rfl
    | complete value =>
      cases stack with
      | nil => rfl
      | cons frame stack => cases frame <;> rfl
  cases state <;> simp only [run, hstep]

/-- A text with the character zero in second place is malformed. -/
theorem readChars_zero (c : CodePoint) (rest : List CodePoint) :
    readChars (c :: char '\x00' :: rest) = .error .malformed := by
  have hzero : tokens (char '\x00' :: rest) = [.unreadable .malformed] :=
    tokens_of_isForeign isForeign_zero rest
  cases hspace : isSpace c with
  | true => rw [readChars, tokens, if_pos hspace, hzero, run_unreadable]
  | false =>
    rcases tokenAt_before_zero c rest with htoken | ⟨t, ht, htoken⟩
    · rw [readChars, tokens_cons hspace htoken, run_unreadable]
    · rw [readChars, tokens_cons hspace htoken, hzero]
      have hroom : ([] : List Frame).length < JsonLibrary.maxNesting := JsonLibrary.room (by decide)
      -- whatever the first token starts, it cannot go on with the second one
      cases t with
      | unreadable reason => exact absurd rfl (ht reason)
      | openArray =>
        rw [run, step, start, if_pos hroom]
        rfl
      | openObject =>
        rw [run, step, start, if_pos hroom]
        rfl
      | _ => rfl

/-- A text that is not malformed shows its encoding. -/
theorem showsEncoding_of_readChars (h : readChars cs ≠ .error .malformed) : ShowsEncoding cs := by
  cases cs with
  | nil => exact absurd (by rw [readChars, tokens]; rfl) h
  | cons c rest =>
    have hforeign : ¬IsForeign c := fun hc => by
      rw [readChars, tokens_of_isForeign hc, run_unreadable] at h
      exact h rfl
    rw [IsForeign, not_or, Nat.not_le] at hforeign
    refine .start hforeign.2 (Nat.pos_of_ne_zero hforeign.1) fun hnext => ?_
    obtain ⟨after, rfl⟩ := List.head?_eq_some_iff.1 hnext
    exact h (readChars_zero c after)

/-! ### Documents -/

/-- A JSON text: one of the standard, or one that is read or refused only for its size, as a text may be that
has words for numbers that are not finite. -/
def IsDocument (cs : List CodePoint) : Prop :=
  Standard.IsText cs ∨ readChars cs ≠ .error .malformed

theorem IsDocument.showsEncoding (h : IsDocument cs) : ShowsEncoding cs := by
  rcases h with h | h
  · exact (Standard.startsAscii_of_derives h).showsEncoding
  · exact showsEncoding_of_readChars h

end Json

/-! ### What is read from bytes -/

section

variable [JsonLibrary] {cs : List Char} {bytes other : List UInt8}

theorem StoredJson.ofBytes_of_encoded (hshows : ShowsEncoding (cs.map char)) (h : Encoded cs bytes) :
    ofBytes bytes = ofChars (cs.map char) := by
  rw [ofBytes, h.decodeDetected hshows]

theorem Body.read_of_encoded (hshows : ShowsEncoding (cs.map char)) (h : Encoded cs bytes) :
    read bytes = (Json.readChars (cs.map char)).mapError .unreadable := by
  rw [read, h.decodeDetected hshows]

/-! ### What is answered -/

namespace Service

/-- A request is handled by its body only as far as the body is empty or holds a JSON value. -/
theorem handle_body_congr (hempty : bytes.isEmpty = other.isEmpty) (hread : Body.read bytes = Body.read other)
    (service : Service) (surroundings : Surroundings) (request : Request) (route : Route) :
    service.handle surroundings { request with body := bytes } route
      = service.handle surroundings { request with body := other } route := by
  have hmetadata : metadataOf bytes = metadataOf other := by rw [metadataOf, metadataOf, hempty, hread]
  have hfields : fieldsOf bytes = fieldsOf other := by rw [fieldsOf, fieldsOf, hempty, hread]
  -- only three routes look at the body
  cases route with
  | resolve account => simp only [handle, resolve, hmetadata]
  | parseRule => simp only [handle, parseRule, hfields]
  | validateRules => simp only [handle, validateRules, hfields]
  | _ => rfl

theorem respond_body_congr (hempty : bytes.isEmpty = other.isEmpty) (hread : Body.read bytes = Body.read other)
    (service : Service) (surroundings : Surroundings) (request : Request) :
    service.respond surroundings { request with body := bytes }
      = service.respond surroundings { request with body := other } := by
  have hdispatch : service.dispatch surroundings { request with body := bytes }
      = service.dispatch surroundings { request with body := other } := by
    have hhandle := handle_body_congr hempty hread service surroundings request
    simp only [dispatch, follow, hhandle]
    rfl
  rw [respond, hdispatch]
  rfl

end Service

namespace Json

/-- **The encoding makes no difference.** A JSON text starts with no byte order mark. Its bytes in UTF-8, in
UTF-16 and UTF-32 with either end first, and in UTF-8 after a byte order mark hold the expression that the
text holds, or fail as the text does, at the same place. Requests with these bytes for a body have the same
answer, and leave the service in the same state. -/
theorem encodings_alike {text : String} (h : IsDocument (Text.ofString text).toList) :
    text.toList.head? ≠ some '\ufeff' ∧
    ∀ bytes, Encoded text.toList bytes →
      (StoredJson.ofBytes bytes >>= Expr.decode) = (StoredJson.ofText (.ofString text) >>= Expr.decode) ∧
      ∀ other, Encoded text.toList other →
        ∀ (service : Service) (surroundings : Surroundings) (request : Request),
          service.respond surroundings { request with body := bytes }
            = service.respond surroundings { request with body := other } := by
  have hshows := h.showsEncoding
  refine ⟨?_, fun bytes hbytes => ⟨?_, fun other hother service surroundings request => ?_⟩⟩
  · intro hmark
    apply hshows.head?_ne_mark
    rw [Text.toList_ofString, List.head?_map, hmark, Option.map_some]
  · rw [StoredJson.ofBytes_of_encoded hshows hbytes, StoredJson.ofText, Text.toList_ofString]
  · apply Service.respond_body_congr
    · rw [List.isEmpty_eq_false_iff.2 (hbytes.ne_nil hshows),
        List.isEmpty_eq_false_iff.2 (hother.ne_nil hshows)]
    · rw [Body.read_of_encoded hshows hbytes, Body.read_of_encoded hshows hother]

end Json

end

attribute [local instance] JsonLibrary.terse

namespace Json

/-- A text with an accent and a character beyond the first plane, in UTF-16 and in UTF-8 after a byte order
mark. -/
theorem encodings_alike_clef :
    let wide : List UInt8 := [0x00, 0x22, 0x00, 0xe9, 0xd8, 0x34, 0xdd, 0x1e, 0x00, 0x22]
    let marked : List UInt8 := [0xef, 0xbb, 0xbf, 0x22, 0xc3, 0xa9, 0xf0, 0x9d, 0x84, 0x9e, 0x22]
    (StoredJson.ofBytes wide >>= Expr.decode) = (StoredJson.ofText "\"é𝄞\"" >>= Expr.decode) ∧
      sampleService.respond sampleSurroundings { sampleRequest "" with body := wide }
        = sampleService.respond sampleSurroundings { sampleRequest "" with body := marked } := by
  intro wide marked
  have hdocument : IsDocument (Text.ofString "\"é𝄞\"").toList := by
    have hcontent : Standard.IsContent [char 'é', char '𝄞'] :=
      .cons (.plain (by decide) (by decide) (by decide))
        (.cons (.plain (by decide) (by decide) (by decide)) .nil)
    have hvalue : Standard.Derives .value [char '\x22', char 'é', char '𝄞', char '\x22'] :=
      .string (.quoted hcontent)
    exact .inl (.element Standard.isBlank_nil hvalue Standard.isBlank_nil)
  have hwide : Encoded "\"é𝄞\"".toList wide := .plain (.utf16 true)
  have hmarked : Encoded "\"é𝄞\"".toList marked := .marked
  obtain ⟨-, halike⟩ := encodings_alike hdocument
  exact ⟨(halike wide hwide).1, (halike wide hwide).2 marked hmarked _ _ _⟩

end Json

end FeatureToggles
